import Portwyrm.Tables.AccessLists
import Portwyrm.Tables.Visibility

/-!
# Writing through the API

The handlers of the compatibility API that create, update, enable, disable and delete a resource,
over the operations of `TableResources`.  A handler answers not-found when the resource is not
there, and also when its caller may not see it.
-/

namespace Portwyrm.Tables

open Base Portwyrm.Runtime Portwyrm.Identity

/-! ## Tables -/

/-- The tables behind the collections; `members` are the principals of the access lists. -/
structure CollectionTables where
  hosts : Dict ℕ HostRow := Dict.empty
  streams : Dict ℕ StreamRow := Dict.empty
  certificates : Dict ℕ CertificateRow := Dict.empty
  access : AccessTables := ⟨Table.empty, Table.empty, Table.empty⟩
  members : Dict ℕ (List ℕ) := Dict.empty

/-- `AccessListStore._project`, without the hashes. -/
def accessListItem (t : CollectionTables) (id : ℕ) (row : AccessListRow) : AccessListItem where
  name := row.name
  satisfyAny := row.satisfyAny
  passAuth := row.passAuth
  usernames := (t.access.credentialsOf id).map AccessCredentialRow.username
  clients := (t.access.rulesOf id).map fun r => (r.address, r.directive)
  identityIds := (t.members.get? id).getD []
  extensions := row.extensions

/-- What the reading operations see of the tables. -/
def CollectionTables.resources (t : CollectionTables) : ResourceState where
  hosts := t.hosts
  streams := t.streams
  certificates := t.certificates
  accessLists := t.access.lists.rows.mapEntries (accessListItem t)

/-! ## Payloads -/

/-- A payload for a collection. -/
inductive Payload
  | host (kind : HostKind) (payload : HostPayload)
  | stream (payload : StreamPayload)
  | certificate (payload : CertificatePayload)
  | accessList (payload : AccessListPayload) (identityIds : Member (List ℕ))

/-- The collection a payload is sent to. -/
def Payload.collection : Payload → Collection
  | .host kind _ => .hosts kind
  | .stream _ => .streams
  | .certificate _ => .certificates
  | .accessList _ _ => .accessLists

/-- The members that no table has a column for. -/
def Payload.extensions : Payload → Dict String Json
  | .host _ payload => payload.extensions
  | .stream payload => payload.extensions
  | .certificate payload => payload.extensions
  | .accessList payload _ => payload.extensions

/-- The members of an access list, as the API returned them. -/
def accessListPayload (item : AccessListItem) : AccessListPayload where
  name := .of item.name
  satisfyAny := .of item.satisfyAny
  passAuth := .of item.passAuth
  items := .of (item.usernames.map fun username => { username := some username })
  clients := .of item.clients
  extensions := item.extensions

/-- `{**existing, **payload}`. -/
def Payload.overResource : Payload → Resource → Payload
  | .host kind payload, .host _ _ item => .host kind (payload.over item)
  | .stream payload, .stream _ item => .stream (payload.over item)
  | .certificate payload, .certificate _ item => .certificate (payload.over item)
  | .accessList payload ids, .accessList _ item =>
    .accessList (payload.over (accessListPayload item)) (ids.or (Member.of item.identityIds))
  | payload, _ => payload

/-- `_validate_payload` of the handlers; the id of a resource is no member of a payload here. -/
def checkPayload (extensions : Dict String Json) : Result Unit := do
  raiseIf ("private_key" ∈ extensions ∨ "private-key" ∈ extensions)
    (.http 400 "private keys must use the certificate upload operation")
  match extensions.get? "meta" with
  | none | some .null | some (.object _) => pure ()
  | some _ => throw (.http 422 "meta must be an object")

/-! ## Requested certificates -/

/-- A text member of a payload, when it is not empty. -/
def memberText (extensions : Dict String Json) (key : String) : Option String :=
  match extensions.get? key with
  | some (.text s) => if s = "" then none else some s
  | _ => none

/-- A certificate that an issuer has issued. -/
structure IssuedCertificate where
  expiresAt : ℤ
  expiresOn : String

/-- `_service_create` requests such a certificate from an issuer. -/
def isRequested (payload : CertificatePayload) : Prop :=
  Text.casefold (textOr payload.provider.get
    ((memberText payload.extensions "certificate_type").getD "")) = "letsencrypt"

instance (payload : CertificatePayload) : Decidable (isRequested payload) :=
  inferInstanceAs (Decidable (_ = _))

/-- `dict(payload.get("meta") or {})`. -/
def metaMembers (extensions : Dict String Json) : Dict String Json :=
  match extensions.get? "meta" with
  | some (.object members) => Dict.ofList members
  | _ => Dict.empty

/-- The payload that `TableCertificateManager.request` creates the certificate with. -/
def requestPayload (payload : CertificatePayload) (caller : Option ℕ)
    (issued : IssuedCertificate) : CertificatePayload :=
  let members := metaMembers payload.extensions
  let metaText := memberText members
  let email := ((memberText payload.extensions "email").or
    ((metaText "letsencrypt_email").or (metaText "email"))).getD ""
  let challenge := textOr payload.challengeType.get ((metaText "challenge_type").getD
    (if (members.get? "dns_challenge").any truthy then "dns-01" else "http-01"))
  let keyType := textOr payload.keyType.get "rsa"
  let provider := ((memberText payload.extensions "dns_provider").or (metaText "dns_provider")).elim
    Json.null Json.text
  { niceName := .of (textOr payload.niceName.get "Certificate")
    provider := .of "letsencrypt"
    domainNames := .of (payload.domainNames.get.getD [])
    expiresAt := .of issued.expiresAt
    challengeType := .of challenge
    keyType := .of keyType
    status := .of "pending"
    ownerPrincipalId := some caller
    extensions := Dict.ofList
      [ ("expires_on", .text issued.expiresOn),
        ("meta", .object ((((members.set "email" (.text email)).set "dns_provider" provider).set
          "challenge_type" (.text challenge)).set "key_type" (.text keyType)).entries) ] }

/-- `except (RuntimeError, ValueError)`, for a request. -/
def unprocessable : Exc → Exc
  | .runtimeError s | .valueError s | .domainValidationError s | .collisionError s => .http 422 s
  | e => e

/-! ## Operations of `TableResources` -/

section Operations

variable (bcryptHash : ℕ → String → String) (actor : Actor)

/-- What the outside world adds to a create: the id of the database, what validating the request
and issuing the certificate returned, and whether its material cannot be stored. -/
structure CreateContext where
  generated : ℕ
  issued : Result IssuedCertificate
  putFails : Bool

/-- `CertificateStore.request`: the certificate is created, and activated once its material is
stored. -/
def requestCertificate (c : CreateContext) (payload : CertificatePayload)
    (rows : Dict ℕ CertificateRow) : Result (Dict ℕ CertificateRow) := do
  let issued ← c.issued
  let pending ← createCertificate actor c.generated
    (requestPayload payload (actor.map SecurityPrincipal.userId) issued) rows
  raiseIf (c.putFails = true) .osError
  updateCertificate actor c.generated { status := .of "active" } pending

/-- `_service_create`, for a certificate. -/
def createOrRequest (c : CreateContext) (payload : CertificatePayload)
    (rows : Dict ℕ CertificateRow) : Result (Dict ℕ CertificateRow) :=
  if isRequested payload then (requestCertificate actor c payload rows).mapError unprocessable
  else createCertificate actor c.generated payload rows

/-- The principals that `_replace_children` links to an access list. -/
def replaceMembers (id : ℕ) (identityIds : Member (List ℕ)) (members : Dict ℕ (List ℕ)) :
    Result (Dict ℕ (List ℕ)) := do
  let ids := identityIds.get.getD []
  raiseIf (¬ ids.Nodup) .integrityError
  pure (members.set id ids)

/-- `_service_create`, with `create_resource`: the id of the new resource, and the tables. -/
def createResource (c : CreateContext) (payload : Payload) (t : CollectionTables) :
    Result (ℕ × CollectionTables) :=
  match payload with
  | .host kind payload => do
    let hosts ← createHost t.certificates.keys t.access.lists.rows.keys actor kind c.generated
      payload t.hosts
    pure (c.generated, { t with hosts := hosts })
  | .stream payload => do
    let streams ← createStream t.certificates.keys actor c.generated payload t.streams
    pure (c.generated, { t with streams := streams })
  | .certificate payload => do
    let certificates ← createOrRequest actor c payload t.certificates
    pure (c.generated, { t with certificates := certificates })
  | .accessList payload identityIds => do
    let id := t.access.lists.next
    let access ← createAccessList bcryptHash actor payload t.access
    let members ← replaceMembers id identityIds t.members
    pure (id, { t with access := access, members := members })

/-- `update_resource`; nothing, when the resource is not there. -/
def updateResource (id : ℕ) (payload : Payload) (t : CollectionTables) :
    Result (Option CollectionTables) :=
  match getResource t.resources payload.collection id with
  | none => pure none
  | some current =>
    match payload with
    | .host kind payload => do
      let hosts ← updateHost t.certificates.keys t.access.lists.rows.keys actor kind id payload
        t.hosts
      pure (some { t with hosts := hosts })
    | .stream payload => do
      let streams ← updateStream t.certificates.keys actor id payload t.streams
      pure (some { t with streams := streams })
    | .certificate payload => do
      let certificates ← updateCertificate actor id payload t.certificates
      pure (some { t with certificates := certificates })
    | .accessList payload identityIds => do
      let access ← updateAccessList bcryptHash actor id payload t.access
      let stored := match current with
        | .accessList _ item => Member.of item.identityIds
        | _ => none
      let members ← replaceMembers id (identityIds.or stored) t.members
      pure (some { t with access := access, members := members })

/-- `except (LookupError, ValueError)`. -/
def isLookupOrValueError : Exc → Bool
  | .valueError _ | .domainValidationError _ | .collisionError _ | .lookupError _
  | .indexError | .unicodeError => true
  | _ => false

/-- `try x except (LookupError, ValueError): return None`. -/
def noneIfRefused {α : Type} (x : Result α) : Result (Option α) :=
  match x with
  | .ok a => pure (some a)
  | .error e => if isLookupOrValueError e then pure none else throw e

/-- `TOGGLE_COLLECTIONS`. -/
def Collection.toggles : Collection → Bool
  | .hosts _ | .streams => true
  | _ => false

/-- The table operation of `set_enabled`. -/
def storeEnabled (c : Collection) (id : ℕ) (enabled : Bool) (t : CollectionTables) :
    Result CollectionTables :=
  match c with
  | .hosts _ => do
    let hosts ← setHostEnabled actor id enabled t.hosts
    pure { t with hosts := hosts }
  | .streams => do
    let streams ← setStreamEnabled actor id enabled t.streams
    pure { t with streams := streams }
  | c => throw (.valueError s!"collection {Text.repr c.section_} does not support enable/disable")

/-- `set_enabled`: nothing, when the operation is refused or the resource is not there
afterwards. -/
def setEnabled (c : Collection) (id : ℕ) (enabled : Bool) (t : CollectionTables) :
    Result (Option CollectionTables) := do
  let stored ← noneIfRefused (storeEnabled actor c id enabled t)
  pure (stored.filter fun t' => (getResource t'.resources c id).isSome)

/-- Whether a host or a stream uses a certificate. -/
def isAssigned (t : CollectionTables) (id : ℕ) : Prop :=
  (∃ row ∈ t.hosts.values, row.certificateId = some id) ∨
    ∃ row ∈ t.streams.values, row.certificateId = some id

instance (t : CollectionTables) (id : ℕ) : Decidable (isAssigned t id) :=
  inferInstanceAs (Decidable (_ ∨ _))

/-- The `delete` operation of `CertificateStore`, for a row that is there. -/
def deleteCertificate (id : ℕ) (stored : CertificateRow) (t : CollectionTables) :
    Result CollectionTables := do
  enforceAuthorization actor "certificates" .delete
  enforceOwnership actor stored.ownerPrincipalId stored.extensions
  raiseIf (isAssigned t id) .integrityError
  pure { t with certificates := t.certificates.pop id }

/-- The `delete` operation of `AccessListStore`, for a row that is there. -/
def deleteAccessList (id : ℕ) (stored : AccessListRow) (t : CollectionTables) :
    Result CollectionTables := do
  enforceAuthorization actor "access_lists" .delete
  enforceOwnership actor none stored.extensions
  raiseIf (∃ row ∈ t.hosts.values, id ∈ row.accessListIds) .integrityError
  let lists := { t.access.lists with
    rows := t.access.lists.rows.pop id
    fresh := fun i hi => t.access.lists.fresh i (Dict.mem_pop.mp hi).2 }
  let rules := t.access.rules.deleteWhere fun r => r.accessListId = id
  let credentials := t.access.credentials.deleteWhere fun r => r.accessListId = id
  pure { t with access := ⟨lists, rules, credentials⟩, members := t.members.pop id }

/-- `delete_resource`; nothing, when the resource is not there. -/
def deleteResource (c : Collection) (id : ℕ) (t : CollectionTables) :
    Result (Option CollectionTables) :=
  match c with
  | .hosts kind =>
    match getHost kind id t.hosts with
    | none => pure none
    | some _ => do
      let hosts ← deleteHost actor kind id t.hosts
      pure (some { t with hosts := hosts })
  | .streams =>
    match t.streams.get? id with
    | none => pure none
    | some _ => do
      let streams ← deleteStream actor id t.streams
      pure (some { t with streams := streams })
  | .certificates =>
    match t.certificates.get? id with
    | none => pure none
    | some stored => some <$> deleteCertificate actor id stored t
  | .accessLists =>
    match t.access.lists.get? id with
    | none => pure none
    | some stored => some <$> deleteAccessList actor id stored t
  | .users | .settings => pure none

end Operations

/-! ## Handlers -/

section Handlers

variable (bcryptHash : ℕ → String → String) (p : SecurityPrincipal)

/-- `_authorize`. -/
def authorize (c : Collection) (action : PermissionAction) : Result Unit :=
  if c.adminOnly then raiseIf (p.isAdmin = false) (.http 403 "administrator required")
  else raiseIf (p.may c.section_ action = false) (.http 403 "permission denied")

/-- The answer for a resource that is not there. -/
def orNotFound {α : Type} : Option α → Result α
  | some a => pure a
  | none => throw (.http 404 "resource not found")

/-- `_service_get`, under `_is_visible`. -/
def visibleResource (c : Collection) (id : ℕ) (t : CollectionTables) : Result Resource :=
  orNotFound ((getResource t.resources c id).filter (isVisible p))

/-- `_create_handler`: the id of the new resource, and the tables. -/
def createHandler (c : CreateContext) (payload : Payload) (t : CollectionTables) :
    Result (ℕ × CollectionTables) := do
  authorize p payload.collection .create
  checkPayload payload.extensions
  let (id, created) ← createResource bcryptHash (some p) c payload t
  raiseIf (id = 0) (.http 500 "service returned invalid id")
  pure (id, created)

/-- `_update_handler`. -/
def updateHandler (id : ℕ) (payload : Payload) (t : CollectionTables) :
    Result CollectionTables := do
  authorize p payload.collection .update
  checkPayload payload.extensions
  let existing ← visibleResource p payload.collection id t
  orNotFound (← updateResource bcryptHash (some p) id (payload.overResource existing) t)

/-- `_toggle_handler`. -/
def toggleHandler (c : Collection) (id : ℕ) (enabled : Bool) (t : CollectionTables) :
    Result CollectionTables := do
  authorize p c .update
  let _ ← visibleResource p c id t
  orNotFound (← setEnabled (some p) c id enabled t)

/-- `_delete_handler`. -/
def deleteHandler (c : Collection) (id : ℕ) (t : CollectionTables) : Result CollectionTables := do
  authorize p c .delete
  let _ ← visibleResource p c id t
  orNotFound (← deleteResource (some p) c id t)

/-- The route of certificates that is registered before `_delete_handler`: it does not ask who may
see the certificate. -/
def removeCertificate (id : ℕ) (t : CollectionTables) : Result CollectionTables := do
  authorize p .certificates .delete
  raiseIf (isAssigned t id) (.valueError "certificate is still assigned to an active resource")
  match ← deleteResource none .certificates id t with
  | some removed => pure removed
  | none => throw (.fileNotFoundError s!"certificate {id} was not found")

end Handlers

end Portwyrm.Tables

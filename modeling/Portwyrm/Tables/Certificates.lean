import Portwyrm.Tables.Fields
import Portwyrm.Tables.Lifecycle

/-!
# Certificate rows

`CertificateStore` of `portwyrm.tables.certificates`, the operations of `TableResources` on
certificates, and the row that `TableCertificateManager.upload` writes when it replaces the
material of a certificate.
-/

namespace Portwyrm.Tables

open Base Portwyrm.Identity

/-! ## Payloads and rows -/

/-- The members of a payload for a certificate; what no operation reads is kept as an extension. -/
structure CertificatePayload where
  ownerPrincipalId : Member ℕ := none
  ownerUserId : Member ℕ := none
  niceName : Member String := none
  provider : Member String := none
  challengeType : Member String := none
  keyType : Member String := none
  materialRef : Member String := none
  expiresAt : Member ℤ := none
  status : Member String := none
  domainNames : Member (List String) := none
  extensions : Dict String Json := Dict.empty

/-- `{**stored, **payload}`. -/
def CertificatePayload.over (payload stored : CertificatePayload) : CertificatePayload where
  ownerPrincipalId := payload.ownerPrincipalId.or stored.ownerPrincipalId
  ownerUserId := payload.ownerUserId.or stored.ownerUserId
  niceName := payload.niceName.or stored.niceName
  provider := payload.provider.or stored.provider
  challengeType := payload.challengeType.or stored.challengeType
  keyType := payload.keyType.or stored.keyType
  materialRef := payload.materialRef.or stored.materialRef
  expiresAt := payload.expiresAt.or stored.expiresAt
  status := payload.status.or stored.status
  domainNames := payload.domainNames.or stored.domainNames
  extensions := stored.extensions.update payload.extensions

/-- `payload.get("owner_principal_id", payload.get("owner_user_id"))`. -/
def CertificatePayload.owner (payload : CertificatePayload) : Option ℕ :=
  Member.get (payload.ownerPrincipalId.or payload.ownerUserId)

/-- A row of `certificates`, with its domain names. -/
structure CertificateRow where
  ownerPrincipalId : Option ℕ
  niceName : String
  provider : String
  challengeType : Option String
  keyType : String
  materialRef : Option String
  expiresAt : Option ℤ
  status : String
  extensions : Dict String Json
  domains : List String

/-- The text of a member of `meta`. -/
def metaText (extensions : Dict String Json) (key : String) : Option String :=
  match extensions.get? "meta" with
  | some (.object members) =>
    match Json.get? members key with
    | some (.text s) => some s
    | _ => none
  | _ => none

/-- `_values` and `_replace_domains`, under the constraints of the tables. -/
def certificateRow (owner : Option ℕ) (payload : CertificatePayload) : Result CertificateRow := do
  let domains := (payload.domainNames.get.getD []).map Text.casefold
  raiseIf (¬ domains.Nodup) .integrityError
  pure
    { ownerPrincipalId := owner
      niceName := textOr payload.niceName.get "Certificate"
      provider := textOr payload.provider.get "custom"
      challengeType := (payload.challengeType.get.filter (· ≠ "")).or
        (metaText payload.extensions "challenge_type")
      keyType := textOr payload.keyType.get "rsa"
      materialRef := payload.materialRef.get
      expiresAt := payload.expiresAt.get
      status := textOr payload.status.get "pending"
      extensions := payload.extensions
      domains := domains }

/-- `_project`. -/
def projectCertificate (row : CertificateRow) : CertificatePayload where
  ownerPrincipalId := some row.ownerPrincipalId
  ownerUserId := some row.ownerPrincipalId
  niceName := .of row.niceName
  provider := .of row.provider
  challengeType := some row.challengeType
  keyType := .of row.keyType
  materialRef := some row.materialRef
  expiresAt := some row.expiresAt
  status := .of row.status
  domainNames := .of row.domains
  extensions := row.extensions

/-! ## Operations -/

section Operations

variable (actor : Actor)

/-- `create_resource("certificates", payload)`; the database generates the id. -/
def createCertificate (generated : ℕ) (payload : CertificatePayload)
    (rows : Dict ℕ CertificateRow) : Result (Dict ℕ CertificateRow) := do
  enforceAuthorization actor "certificates" .create
  raiseIf (generated ∈ rows) .integrityError
  let row ← certificateRow (createOwner actor payload.owner) payload
  pure (rows.set generated row)

/-- The `update` and `replace` operations of the table, for a row that is there. -/
def storeCertificate (id : ℕ) (stored : CertificateRow) (payload : CertificatePayload)
    (rows : Dict ℕ CertificateRow) : Result (Dict ℕ CertificateRow) := do
  enforceAuthorization actor "certificates" .update
  enforceOwnership actor stored.ownerPrincipalId stored.extensions
  let row ← certificateRow payload.owner payload
  pure (rows.set id row)

/-- `update_resource("certificates", id, payload)`. -/
def updateCertificate (id : ℕ) (payload : CertificatePayload) (rows : Dict ℕ CertificateRow) :
    Result (Dict ℕ CertificateRow) :=
  match rows.get? id with
  | none => pure rows
  | some stored =>
    storeCertificate actor id stored (payload.over (projectCertificate stored)) rows

/-- `replace_resource("certificates", id, payload)`. -/
def replaceCertificate (id : ℕ) (payload : CertificatePayload) (rows : Dict ℕ CertificateRow) :
    Result (Dict ℕ CertificateRow) :=
  match rows.get? id with
  | none => pure rows
  | some stored => storeCertificate actor id stored payload rows

end Operations

/-! ## What the operations store -/

section Stored

variable {actor : Actor} {id : ℕ} {payload : CertificatePayload} {stored : CertificateRow}
  {rows rows' : Dict ℕ CertificateRow}

/-- A certificate that is created has its row under a new id. -/
lemma createCertificate_spec (h : createCertificate actor id payload rows = .ok rows') :
    ∃ row, rows' = rows.set id row ∧ rows.get? id = none ∧
      certificateRow (createOwner actor payload.owner) payload = .ok row := by
  simp only [createCertificate, bind_eq_ok_iff, raiseIf_eq_ok_iff, pure_eq_ok_iff] at h
  obtain ⟨-, -, -, hnew, row, hrow, rfl⟩ := h
  exact ⟨row, rfl, Dict.get?_eq_none_iff.mpr hnew, hrow⟩

/-- What the `update` and `replace` operations store is the row of a payload. -/
lemma storeCertificate_spec (h : storeCertificate actor id stored payload rows = .ok rows') :
    ∃ row, rows' = rows.set id row ∧ certificateRow payload.owner payload = .ok row := by
  simp only [storeCertificate, bind_eq_ok_iff, pure_eq_ok_iff] at h
  obtain ⟨-, -, -, -, row, hrow, rfl⟩ := h
  exact ⟨row, rfl, hrow⟩

/-- An update writes the payload over what is shown of the certificate, if there is one. -/
lemma updateCertificate_cases (h : updateCertificate actor id payload rows = .ok rows') :
    rows' = rows ∧ rows.get? id = none ∨
    ∃ stored row, rows.get? id = some stored ∧ rows' = rows.set id row ∧
      certificateRow (payload.over (projectCertificate stored)).owner
        (payload.over (projectCertificate stored)) = .ok row := by
  unfold updateCertificate at h
  split at h
  · rename_i hnone
    exact .inl ⟨(pure_eq_ok_iff.mp h).symm, hnone⟩
  · rename_i stored hstored
    obtain ⟨row, hrows, hrow⟩ := storeCertificate_spec h
    exact .inr ⟨stored, row, hstored, hrows, hrow⟩

/-- A replacement writes the payload, if there is a certificate. -/
lemma replaceCertificate_cases (h : replaceCertificate actor id payload rows = .ok rows') :
    rows' = rows ∧ rows.get? id = none ∨
    ∃ stored row, rows.get? id = some stored ∧ rows' = rows.set id row ∧
      certificateRow payload.owner payload = .ok row := by
  unfold replaceCertificate at h
  split at h
  · rename_i hnone
    exact .inl ⟨(pure_eq_ok_iff.mp h).symm, hnone⟩
  · rename_i stored hstored
    obtain ⟨row, hrows, hrow⟩ := storeCertificate_spec h
    exact .inr ⟨stored, row, hstored, hrows, hrow⟩

end Stored

/-! ## Replacing material -/

/-- What the validator reports of a certificate. -/
structure CertificateInfo where
  subject : String
  issuer : String
  serial : String
  domainNames : List String
  notAfter : ℤ
  notAfterText : String

/-- The payload that `TableCertificateManager.upload` makes for a row that is there. -/
def uploadPayload (info : CertificateInfo) (niceName : String) (caller : Option ℕ)
    (members : Dict String Json) : CertificatePayload where
  niceName := .of (if Text.strip niceName = "" then info.subject else Text.strip niceName)
  provider := .of "other"
  domainNames := .of info.domainNames
  expiresAt := .of info.notAfter
  status := .of "active"
  ownerPrincipalId := some caller
  extensions := Dict.ofList
    [ ("expires_on", .text info.notAfterText),
      ("meta", .object (((members.set "subject" (.text info.subject)).set "issuer"
        (.text info.issuer)).set "serial" (.text info.serial)).entries) ]

/-- `CertificateStore.upload` for a row that is there: the row is updated, then the material is
stored; when it cannot be stored, the row is written back. -/
def uploadReplacement (actor : Actor) (id : ℕ) (info : CertificateInfo) (niceName : String)
    (members : Dict String Json) (putFails : Bool) : Action (Dict ℕ CertificateRow) Unit :=
  fun rows =>
    match rows.get? id with
    | none => (.error (.fileNotFoundError s!"certificate {id} was not found"), rows)
    | some previous =>
      let payload := uploadPayload info niceName (actor.map SecurityPrincipal.userId) members
      let updated := do
        enforceOwnership actor previous.ownerPrincipalId previous.extensions
        updateCertificate actor id payload rows
      match updated with
      | .error e => (.error e, rows)
      | .ok rows' =>
        if putFails then
          match updateCertificate none id (projectCertificate previous) rows' with
          | .ok restored => (.error .osError, restored)
          | .error e => (.error e, rows')
        else (.ok (), rows')

end Portwyrm.Tables

import Portwyrm.Certificates.Acme
import Portwyrm.Certificates.Material
import Portwyrm.Tables.Handlers

/-!
# The certificate manager

`request`, `renew` and `_replace_acme` of `TableCertificateManager`: certificates are requested
from an issuer, and replaced by newly issued ones.  The calls of the issuer are recorded.

What the issuer returns, and which steps fail, is a parameter.  `str` of a value that is no text is
a parameter as well.
-/

namespace Portwyrm.Certificates

open Base Portwyrm.Identity
open Portwyrm.Tables (Actor CertificateRow CertificatePayload Member truthy)

/-! ## State -/

/-- `CertificateRequest`; a provider that is not given is `null`. -/
structure CertificateRequest where
  niceName : String
  domainNames : List String
  email : String
  challengeType : ChallengeType := .http01
  keyType : String := "rsa"
  provider : Json := .null

/-- A call of `issuer.issue`; the credentials are the text of their file. -/
structure IssuerCall where
  domains : List String
  challengeType : ChallengeType
  keyType : String
  email : String
  provider : Json
  credentialsFile : Option String

/-- `Issuer`. -/
abbrev Issuer := IssuerCall → Result IssuedCertificate

/-- The call of the issuer for a request. -/
def CertificateRequest.call (request : CertificateRequest) (credentialsFile : Option String) :
    IssuerCall where
  domains := request.domainNames
  challengeType := request.challengeType
  keyType := request.keyType
  email := request.email
  provider := request.provider
  credentialsFile := credentialsFile

/-- What the operations of the manager change. -/
structure ManagerState where
  rows : Dict ℕ CertificateRow
  disk : Disk
  issuerCalls : List IssuerCall

/-- A computation on the material. -/
def onDisk {α : Type} (x : Action Disk α) : Action ManagerState α := fun s =>
  ((x s.disk).1, { s with disk := (x s.disk).2 })

/-- One transaction on the rows, unless the database fails. -/
def onRows (fault : Option Exc) (op : Dict ℕ CertificateRow → Result (Dict ℕ CertificateRow)) :
    Action ManagerState Unit := fun s =>
  match fault, op s.rows with
  | none, .ok rows => (.ok (), { s with rows := rows })
  | none, .error e => (.error e, s)
  | some e, _ => (.error e, s)

/-- `get_resource("certificates", id)`. -/
def getRecord (fault : Option Exc) (id : ℕ) : Action ManagerState (Option CertificatePayload) :=
  fun s =>
    match fault with
    | none => (.ok ((s.rows.get? id).map Tables.projectCertificate), s)
    | some e => (.error e, s)

/-- How an update fails: before the row is written, or when it is read back. -/
structure UpdateFaults where
  write : Option Exc
  read : Option Exc

/-- `update_resource("certificates", id, payload)`; nothing, when there is no such row. -/
def updateRecord (faults : UpdateFaults) (actor : Actor) (id : ℕ) (payload : CertificatePayload) :
    Action ManagerState (Option CertificatePayload) := do
  onRows faults.write (Tables.updateCertificate actor id payload)
  getRecord faults.read id

/-- `self.issuer.issue(…)`. -/
def issueWith (issuer : Option Issuer) (call : IssuerCall) :
    Action ManagerState IssuedCertificate := fun s =>
  match issuer with
  | none => (.error (.runtimeError "ACME issuer is not configured"), s)
  | some issuer => (issuer call, { s with issuerCalls := s.issuerCalls ++ [call] })

/-- The bundle that is published for an issued certificate. -/
def bundleOf (issued : IssuedCertificate) : CustomCertificateBundle :=
  ⟨issued.certificate, issued.privateKey, issued.chain⟩

/-- `raise FileNotFoundError`, when there is no record. -/
def found (id : ℕ) (record : Option CertificatePayload) :
    Action ManagerState CertificatePayload :=
  match record with
  | none => Action.raise (.fileNotFoundError s!"certificate {id} was not found")
  | some record => pure record

section Outcomes

variable {s s' : ManagerState} {id : ℕ}

lemma onDisk_eq_ok {α : Type} {x : Action Disk α} {a : α} (h : onDisk x s = (.ok a, s')) :
    s' = { s with disk := s'.disk } := by
  obtain ⟨-, rfl⟩ := Prod.mk.inj h
  rfl

lemma onRows_eq_ok_iff {fault : Option Exc}
    {op : Dict ℕ CertificateRow → Result (Dict ℕ CertificateRow)} {u : Unit} :
    onRows fault op s = (.ok u, s') ↔
      fault = none ∧ ∃ rows, op s.rows = .ok rows ∧ { s with rows := rows } = s' := by
  unfold onRows
  rcases fault with _ | e
  · rcases op s.rows with e | rows <;> simp
  · simp

lemma getRecord_eq_ok_iff {fault : Option Exc} {record : Option CertificatePayload} :
    getRecord fault id s = (.ok record, s') ↔
      fault = none ∧ (s.rows.get? id).map Tables.projectCertificate = record ∧ s = s' := by
  unfold getRecord
  rcases fault with _ | e <;> simp

lemma issueWith_eq_ok {issuer : Option Issuer} {call : IssuerCall} {issued : IssuedCertificate}
    (h : issueWith issuer call s = (.ok issued, s')) :
    s' = { s with issuerCalls := s.issuerCalls ++ [call] } := by
  rcases issuer with _ | issue
  · exact absurd (Prod.mk.inj h).1 nofun
  · exact (Prod.mk.inj h).2.symm

lemma found_eq_ok_iff {record : Option CertificatePayload} {payload : CertificatePayload} :
    found id record s = (.ok payload, s') ↔ record = some payload ∧ s = s' := by
  unfold found
  rcases record with _ | record <;> simp

end Outcomes

/-! ## Requests -/

/-- The steps of a request that may fail. -/
structure RequestFaults where
  create : Option Exc
  put : PutStep → Option Fault
  activate : UpdateFaults
  delete : StoreStep → Option Fault
  remove : Option Exc

/-- The payload that `request` makes of an issued certificate. -/
def issuedPayload (request : CertificateRequest) (owner : Option ℕ) (members : Dict String Json)
    (issued : IssuedCertificate) : CertificatePayload where
  niceName := .of request.niceName
  provider := .of "letsencrypt"
  domainNames := .of request.domainNames
  expiresAt := .of issued.expiresAt
  challengeType := .of request.challengeType.value
  keyType := .of request.keyType
  status := .of "pending"
  ownerPrincipalId := some owner
  extensions := Dict.ofList
    [ ("expires_on", .text issued.expiresOn),
      ("meta", .object ((((members.set "email" (.text request.email)).set "dns_provider"
        request.provider).set "challenge_type" (.text request.challengeType.value)).set "key_type"
        (.text request.keyType)).entries) ]

/-- `request`; the database generates the id. -/
def request (issuer : Option Issuer) (faults : RequestFaults) (uuid : Uuid) (generated : ℕ)
    (actor : Actor) (owner : Option ℕ) (members : Dict String Json) (request : CertificateRequest)
    (credentialsFile : Option String) : Action ManagerState CertificatePayload := do
  let issued ← issueWith issuer (request.call credentialsFile)
  onRows faults.create
    (Tables.createCertificate actor generated (issuedPayload request owner members issued))
  Action.undoing
    (do
      onDisk (put faults.put (bundleOf issued) uuid generated)
      let activated ← updateRecord faults.activate actor generated { status := .of "active" }
      found generated activated)
    (do
      let _ ← onDisk (delete faults.delete generated)
      onRows faults.remove fun rows => pure (rows.pop generated))

/-! ## Renewals -/

/-- The steps of a renewal that may fail. -/
structure RenewalFaults where
  read : Option Exc
  readPrevious : Option Exc
  detach : StoreStep → Option Fault
  put : PutStep → Option Fault
  update : UpdateFaults
  commit : StoreStep → Option Fault
  delete : StoreStep → Option Fault
  rollback : StoreStep → Option Fault
  restore : UpdateFaults

/-- The names that a renewal gives to its directories. -/
structure RenewalNames where
  stage : Uuid
  quarantine : Uuid

/-- The payload that `_replace_acme` writes. -/
def renewedPayload (issued : IssuedCertificate) : CertificatePayload where
  expiresAt := .of issued.expiresAt
  status := .of "active"
  extensions := Dict.ofList [("expires_on", .text issued.expiresOn)]

/-- The new material and the new row of `_replace_acme`. -/
def publishIssued (faults : RenewalFaults) (names : RenewalNames) (id : ℕ) (actor : Actor)
    (issued : IssuedCertificate) : Action ManagerState CertificatePayload := do
  onDisk (put faults.put (bundleOf issued) names.stage id)
  let result ← updateRecord faults.update actor id (renewedPayload issued)
  found id result

/-- The former material of `_replace_acme` is put back. -/
def putBack (faults : RenewalFaults) (id : ℕ) (quarantine : Option String) :
    Action ManagerState Unit := do
  let _ ← onDisk (delete faults.delete id)
  onDisk (rollbackDetach faults.rollback id quarantine)

/-- `_replace_acme`, once the former material is in quarantine. -/
def replaceDetached (faults : RenewalFaults) (names : RenewalNames) (id : ℕ) (actor : Actor)
    (issued : IssuedCertificate) (previous : Option CertificatePayload)
    (quarantine : Option String) : Action ManagerState CertificatePayload := do
  let result ← Action.undoing (publishIssued faults names id actor issued)
    (putBack faults id quarantine)
  -- once the row is updated, undoing writes the former row as well
  Action.undoing (onDisk (commitDetach faults.commit quarantine))
    (do
      putBack faults id quarantine
      let _ ← updateRecord faults.restore none id (previous.getD {})
      pure ())
  pure result

/-- `_replace_acme`. -/
def replaceAcme (issuer : Option Issuer) (faults : RenewalFaults) (names : RenewalNames) (id : ℕ)
    (request : CertificateRequest) (actor : Actor) : Action ManagerState CertificatePayload := do
  let issued ← issueWith issuer (request.call none)
  let previous ← getRecord faults.readPrevious id
  let quarantine ← onDisk (detach faults.detach id names.quarantine)
  replaceDetached faults names id actor issued previous quarantine

/-- `a or b or …`, of members that may be missing. -/
def firstTruthy (values : List (Option Json)) : Option Json :=
  (values.filterMap id).find? truthy

section FirstTruthy

variable {values : List (Option Json)} {s : String}

@[simp] lemma firstTruthy_nil : firstTruthy [] = none := rfl

@[simp] lemma firstTruthy_none : firstTruthy (none :: values) = firstTruthy values := rfl

lemma firstTruthy_text (h : s ≠ "") :
    firstTruthy (some (.text s) :: values) = some (.text s) := by
  simp [firstTruthy, truthy, h]

@[simp] lemma firstTruthy_empty :
    firstTruthy (some (.text "") :: values) = firstTruthy values := by
  simp [firstTruthy, truthy]

end FirstTruthy

/-- `ChallengeType(value)`. -/
def challengeTypeOf : Json → Result ChallengeType
  | .text "http-01" => pure .http01
  | .text "dns-01" => pure .dns01
  | _ => throw (.valueError "not a valid ChallengeType")

section Renew

variable (str : Json → String)

/-- `str(value)`. -/
def strOf : Json → String
  | .text s => s
  | value => str value

@[simp] lemma strOf_text (s : String) : strOf str (.text s) = s := rfl

/-- The request that `renew` makes of a record. -/
def renewalRequest (record : CertificatePayload) : Result CertificateRequest := do
  let extension := record.extensions.get?
  let members := Tables.metaMembers record.extensions
  let challenge := (firstTruthy [record.challengeType.get.map Json.text,
    members.get? "challenge_type"]).getD
      (.text (if (members.get? "dns_challenge").any truthy then "dns-01" else "http-01"))
  let challengeType ← challengeTypeOf challenge
  pure
    { niceName := Tables.textOr record.niceName.get "Certificate"
      domainNames := record.domainNames.get.getD []
      email := strOf str ((firstTruthy [extension "email", extension "letsencrypt_email",
        members.get? "email", members.get? "letsencrypt_email"]).getD (.text ""))
      challengeType := challengeType
      keyType := strOf str ((firstTruthy [record.keyType.get.map Json.text,
        members.get? "key_type"]).getD (.text "rsa"))
      provider := (firstTruthy [extension "dns_provider"]).getD
        ((members.get? "dns_provider").getD .null) }

/-- Whether `renew` goes on; `due` is what the recorded expiry makes of `renewal_due`. -/
def renewsNow (due : Json → Result Bool) (force : Bool) : Option Json → Result Bool
  | none | some .null => pure true
  | some expires => if force then pure true else due expires

lemma renewsNow_force (due : Json → Result Bool) (expires : Option Json) :
    renewsNow due true expires = .ok true := by
  unfold renewsNow
  split <;> rfl

/-- `renew`. -/
def renew (issuer : Option Issuer) (due : Json → Result Bool) (faults : RenewalFaults)
    (names : RenewalNames) (id : ℕ) (force : Bool) (actor : Actor) :
    Action ManagerState CertificatePayload := do
  let record ← getRecord faults.read id
  let record ← found id record
  if record.provider.get ≠ some "letsencrypt" then
    Action.raise (.valueError "only ACME certificates can be renewed")
  else do
    if ← Action.lift (renewsNow due force (record.extensions.get? "expires_on")) then do
      let request ← Action.lift (renewalRequest str record)
      replaceAcme issuer faults names id request actor
    else pure record

end Renew

end Portwyrm.Certificates

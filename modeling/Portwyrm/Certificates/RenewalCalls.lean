import Portwyrm.Certificates.Renewal
import Portwyrm.Tables.RowFrames

/-!
# The calls of the issuer

A forced renewal of a certificate that has been requested calls the issuer with what the request
has left in the row.  The credentials are not among it, domain names are stored in lower case, and
a key type or an e-mail address that is empty is replaced.
-/

namespace Portwyrm.Certificates

open Base Portwyrm.Identity
open Portwyrm.Tables (Actor CertificateRow CertificatePayload Member truthy textOr)

/-! ## The row of a request -/

/-- What a row has of the request that it was created for. -/
structure IssuedFor (request : CertificateRequest) (members : Dict String Json)
    (row : CertificateRow) : Prop where
  provider : row.provider = "letsencrypt"
  domains : row.domains = request.domainNames.map Text.casefold
  challengeType : row.challengeType = some request.challengeType.value
  keyType : row.keyType = textOr (some request.keyType) "rsa"
  extensions : ∃ expiresOn, row.extensions = Dict.ofList
    [ ("expires_on", .text expiresOn),
      ("meta", .object ((((members.set "email" (.text request.email)).set "dns_provider"
        request.provider).set "challenge_type" (.text request.challengeType.value)).set "key_type"
        (.text request.keyType)).entries) ]

section Row

variable {request : CertificateRequest} {members : Dict String Json} {row row' : CertificateRow}
variable {owner : Option ℕ} {actor : Actor} {id : ℕ} {rows rows' : Dict ℕ CertificateRow}

lemma value_ne_empty (t : ChallengeType) : t.value ≠ "" := by
  cases t <;> decide

lemma issuedFor_of_certificateRow {caller : Option ℕ} {issued : IssuedCertificate}
    (h : Tables.certificateRow owner (issuedPayload request caller members issued) = .ok row) :
    IssuedFor request members row := by
  obtain rfl := Tables.certificateRow_spec h
  refine ⟨rfl, rfl, ?_, rfl, issued.expiresOn, rfl⟩
  simp [issuedPayload, value_ne_empty]

/-- Activating a certificate keeps what its row has of the request. -/
lemma IssuedFor.activate (hrow : IssuedFor request members row) (hget : rows.get? id = some row)
    (h : Tables.updateCertificate actor id { status := .of "active" } rows = .ok rows') :
    ∃ row', rows'.get? id = some row' ∧ IssuedFor request members row' := by
  simp only [Tables.updateCertificate, hget, Tables.storeCertificate, bind_eq_ok_iff,
    pure_eq_ok_iff] at h
  obtain ⟨-, -, -, -, row', hrow', rfl⟩ := h
  refine ⟨row', Dict.get?_set_self _ _ _, ?_⟩
  obtain rfl := Tables.certificateRow_spec hrow'
  have hprovider : textOr (some row.provider) "custom" = row.provider :=
    Tables.textOr_of_ne (by rw [hrow.provider]; decide) "custom"
  have hkeyType : textOr (some row.keyType) "rsa" = row.keyType :=
    Tables.textOr_of_ne (by rw [hrow.keyType]; exact Tables.textOr_ne_empty (by decide)) "rsa"
  have hdomains : row.domains.map Text.casefold = row.domains := by
    simp [hrow.domains, Text.casefold_casefold]
  exact
    { provider := hprovider.trans hrow.provider
      domains := hdomains.trans hrow.domains
      challengeType := by
        change (row.challengeType.filter (· ≠ "")).or _ = _
        simp [hrow.challengeType, value_ne_empty]
      keyType := hkeyType.trans hrow.keyType
      extensions := hrow.extensions }

end Row

/-! ## The request that a renewal makes -/

section RenewalRequest

variable {request : CertificateRequest} {members : Dict String Json} {row : CertificateRow}

/-- The e-mail address of a renewal when the request has none. -/
def fallbackEmail (str : Json → String) (members : Dict String Json) : String :=
  strOf str ((firstTruthy [members.get? "letsencrypt_email"]).getD (.text ""))

/-- What a renewal asks for, by what the certificate has been requested with. -/
lemma renewalRequest_of_issuedFor (str : Json → String) (hrow : IssuedFor request members row) :
    ∃ niceName, renewalRequest str (Tables.projectCertificate row) = .ok
      { niceName := niceName
        domainNames := request.domainNames.map Text.casefold
        email := if request.email = "" then fallbackEmail str members else request.email
        challengeType := request.challengeType
        keyType := textOr (some request.keyType) "rsa"
        provider := request.provider } := by
  obtain ⟨expiresOn, hextensions⟩ := hrow.extensions
  set stored := (((members.set "email" (.text request.email)).set "dns_provider"
    request.provider).set "challenge_type" (.text request.challengeType.value)).set "key_type"
      (.text request.keyType) with hstored
  -- the extensions have no members but these two
  have hget : ∀ key, row.extensions.get? key =
      if key = "meta" then some (.object stored.entries)
      else if key = "expires_on" then some (.text expiresOn) else none := by
    intro key
    rw [hextensions, Dict.get?_ofList]
    simp only [List.reverse_cons, List.reverse_nil, List.nil_append, List.cons_append,
      Dict.lookup_cons_eq_ite, List.lookup_nil]
  have hmembers : Tables.metaMembers row.extensions = stored := by
    rw [Tables.metaMembers, hget, if_pos rfl]
    exact Dict.ofList_entries stored
  have hemail : stored.get? "email" = some (.text request.email) := by
    rw [hstored]
    simp [Dict.get?_set]
  have hfallback : stored.get? "letsencrypt_email" = members.get? "letsencrypt_email" := by
    rw [hstored]
    simp [Dict.get?_set]
  have hprovider : stored.get? "dns_provider" = some request.provider := by
    rw [hstored]
    simp [Dict.get?_set]
  have hkeyType : textOr (some request.keyType) "rsa" ≠ "" := Tables.textOr_ne_empty (by decide)
  simp only [renewalRequest, hmembers, hget, hprovider, hemail, hfallback,
    Tables.projectCertificate, Member.get_of, hrow.challengeType, hrow.keyType, hrow.domains]
  have hchallengeType : challengeTypeOf (.text request.challengeType.value)
      = .ok request.challengeType := by
    cases request.challengeType <;> rfl
  have hfirst : firstTruthy [Option.map Json.text (Member.get (some (some
      request.challengeType.value))), stored.get? "challenge_type"]
      = some (.text request.challengeType.value) := firstTruthy_text (value_ne_empty _)
  have hfirst' : firstTruthy [Option.map Json.text (some (textOr (some request.keyType) "rsa")),
      stored.get? "key_type"] = some (.text (textOr (some request.keyType) "rsa")) :=
    firstTruthy_text hkeyType
  rw [hfirst, hfirst', Option.getD_some, hchallengeType, ok_bind]
  refine ⟨textOr (some row.niceName) "Certificate", congrArg Except.ok ?_⟩
  by_cases hempty : request.email = ""
  · simp [hempty, fallbackEmail]
  · simp [hempty, firstTruthy_text]

end RenewalRequest

/-! ## Runs -/

/-- A computation that does not call the issuer. -/
def SameCalls (s s' : ManagerState) : Prop := s'.issuerCalls = s.issuerCalls

instance : Std.Refl SameCalls := ⟨fun _ => rfl⟩

instance : IsTrans ManagerState SameCalls := ⟨fun _ _ _ h h' => h'.trans h⟩

section Calls

variable {id : ℕ} {actor : Actor}

lemma sameCalls_onDisk {α : Type} {x : Action Disk α} : Action.Preserves SameCalls (onDisk x) :=
  fun _ => rfl

lemma sameCalls_onRows {fault : Option Exc}
    {op : Dict ℕ CertificateRow → Result (Dict ℕ CertificateRow)} :
    Action.Preserves SameCalls (onRows fault op) := by
  intro s
  unfold onRows
  split <;> rfl

lemma sameCalls_getRecord {fault : Option Exc} :
    Action.Preserves SameCalls (getRecord fault id) := by
  intro s
  unfold getRecord
  split <;> rfl

lemma sameCalls_updateRecord {faults : UpdateFaults} {payload : CertificatePayload} :
    Action.Preserves SameCalls (updateRecord faults actor id payload) :=
  sameCalls_onRows.bind fun _ => sameCalls_getRecord

lemma sameCalls_found {record : Option CertificatePayload} :
    Action.Preserves SameCalls (found id record) := by
  unfold found
  split
  · exact Action.Preserves.raise _
  · exact Action.Preserves.pure _

lemma sameCalls_putBack {faults : RenewalFaults} {quarantine : Option String} :
    Action.Preserves SameCalls (putBack faults id quarantine) :=
  sameCalls_onDisk.bind fun _ => sameCalls_onDisk

/-- A renewal calls the issuer once, with its request and without credentials. -/
lemma issuerCalls_replaceAcme {issue : Issuer} {faults : RenewalFaults} {names : RenewalNames}
    {request : CertificateRequest} (s : ManagerState) :
    (replaceAcme (some issue) faults names id request actor s).2.issuerCalls
      = s.issuerCalls ++ [request.call none] := by
  refine (Action.Preserves.bind_snd (R := SameCalls) (fun issued => ?_) s)
  refine sameCalls_getRecord.bind fun previous => sameCalls_onDisk.bind fun quarantine => ?_
  refine Action.Preserves.bind ?_ fun _ => Action.Preserves.bind ?_ fun _ =>
    Action.Preserves.pure _
  · refine Action.Preserves.undoing ?_ sameCalls_putBack
    exact sameCalls_onDisk.bind fun _ => sameCalls_updateRecord.bind fun _ => sameCalls_found
  · refine Action.Preserves.undoing sameCalls_onDisk (sameCalls_putBack.bind fun _ => ?_)
    exact sameCalls_updateRecord.bind fun _ => Action.Preserves.pure _

end Calls

section Law

variable {issuer : Option Issuer} {issue : Issuer} {faults : RequestFaults} {uuid : Uuid}
variable {generated : ℕ} {actor actor' : Actor} {owner : Option ℕ} {members : Dict String Json}
variable {req : CertificateRequest} {credentialsFile : Option String} {s s' : ManagerState}
variable {record : CertificatePayload} {str : Json → String} {due : Json → Result Bool}
variable {renewalFaults : RenewalFaults} {names : RenewalNames}

/-- What a request leaves when it succeeds. -/
lemma issuedFor_of_request
    (h : request issuer faults uuid generated actor owner members req credentialsFile s
      = (.ok record, s')) :
    s'.issuerCalls = s.issuerCalls ++ [req.call credentialsFile] ∧
      ∃ row, s'.rows.get? generated = some row ∧ IssuedFor req members row := by
  simp only [request, updateRecord, Action.bind_eq_ok_iff, Action.undoing_eq_ok_iff,
    onRows_eq_ok_iff, getRecord_eq_ok_iff, found_eq_ok_iff] at h
  obtain ⟨issued, s₁, hissue, _, _, ⟨-, rows, hcreate, rfl⟩, _, s₃, hput, activated, _,
    ⟨_, _, ⟨-, rows', hactivate, rfl⟩, -, -, rfl⟩, -, rfl⟩ := h
  obtain rfl := issueWith_eq_ok hissue
  have hs₃ := onDisk_eq_ok hput
  rw [hs₃] at hactivate
  rw [hs₃]
  refine ⟨rfl, ?_⟩
  -- the row as it is created
  simp only [Tables.createCertificate, bind_eq_ok_iff, pure_eq_ok_iff] at hcreate
  obtain ⟨-, -, -, -, row, hrow, rfl⟩ := hcreate
  exact (issuedFor_of_certificateRow hrow).activate (Dict.get?_set_self _ _ _) hactivate

/-- A forced renewal calls the issuer once, with what the request has left in the row. -/
lemma issuerCalls_renew {row : CertificateRow} (hread : renewalFaults.read = none)
    (hget : s.rows.get? generated = some row) (hrow : IssuedFor req members row) :
    (renew str (some issue) due renewalFaults names generated true actor s).2.issuerCalls
      = s.issuerCalls ++
        [{ domains := req.domainNames.map Text.casefold
           challengeType := req.challengeType
           keyType := textOr (some req.keyType) "rsa"
           email := if req.email = "" then fallbackEmail str members else req.email
           provider := req.provider
           credentialsFile := none }] := by
  obtain ⟨niceName, hrequest⟩ := renewalRequest_of_issuedFor str hrow
  have hrecord : getRecord renewalFaults.read generated s
      = (.ok (some (Tables.projectCertificate row)), s) := by
    rw [hread, getRecord, hget]
    rfl
  have hprovider : (Tables.projectCertificate row).provider.get = some "letsencrypt" :=
    congrArg some hrow.provider
  have hfound : found generated (some (Tables.projectCertificate row)) s
      = (.ok (Tables.projectCertificate row), s) := rfl
  rw [renew, Action.bind_of_ok hrecord, Action.bind_of_ok hfound, if_neg (not_not.mpr hprovider)]
  rw [Action.bind_of_ok (by rw [Action.lift, renewsNow_force]), if_pos rfl,
    Action.bind_of_ok (by rw [Action.lift, hrequest])]
  exact issuerCalls_replaceAcme s

/-- A forced renewal calls the issuer as the request did. -/
def RenewsAlike (str : Json → String) (issue : Issuer) (due : Json → Result Bool)
    (faults : RenewalFaults) (names : RenewalNames) (id : ℕ) (actor : Actor) (call : IssuerCall)
    (s : ManagerState) : Prop :=
  (renew str (some issue) due faults names id true actor s).2.issuerCalls
    = s.issuerCalls ++ [call]

/-- A forced renewal of a certificate that has been requested calls the issuer as the request did,
exactly when the request had no credentials, its domain names stand in lower case, its key type is
given, and its e-mail address is given or has no substitute in the metadata. -/
theorem renewsAlike_iff
    (h : request issuer faults uuid generated actor owner members req credentialsFile s
      = (.ok record, s'))
    (hread : renewalFaults.read = none) :
    RenewsAlike str issue due renewalFaults names generated actor' (req.call credentialsFile) s' ↔
      credentialsFile = none ∧ req.domainNames.map Text.casefold = req.domainNames ∧
        req.keyType ≠ "" ∧ (req.email = "" → fallbackEmail str members = "") := by
  obtain ⟨-, row, hget, hrow⟩ := issuedFor_of_request h
  have hkeyType : textOr (some req.keyType) "rsa" = req.keyType ↔ req.keyType ≠ "" := by
    constructor
    · intro h
      rw [← h]
      exact Tables.textOr_ne_empty (by decide)
    · exact fun h => Tables.textOr_of_ne h "rsa"
  have hemail : (if req.email = "" then fallbackEmail str members else req.email) = req.email ↔
      (req.email = "" → fallbackEmail str members = "") := by
    split
    · rename_i hempty
      simp [hempty]
    · rename_i hgiven
      simp [hgiven]
  rw [RenewsAlike, issuerCalls_renew hread hget hrow, List.append_cancel_left_eq]
  simp only [CertificateRequest.call, List.cons.injEq, IssuerCall.mk.injEq, hkeyType, hemail,
    eq_comm (a := none), and_true, true_and]
  tauto

end Law

/-! ### Requests in which nothing fails -/

/-- No step fails. -/
def noRequestFaults : RequestFaults :=
  ⟨none, fun _ => none, ⟨none, none⟩, fun _ => none, none⟩

/-- A manager without certificates. -/
def emptyManager : ManagerState := ⟨Dict.empty, ⟨Dict.empty, []⟩, []⟩

/-- A certificate is requested, and gets the id 1. -/
def requested (req : CertificateRequest) (credentialsFile : Option String) :
    Result CertificatePayload × ManagerState :=
  request (some renewingIssuer) noRequestFaults renewalNames.stage 1 none none Dict.empty req
    credentialsFile emptyManager

/-- The forced renewal of the certificate calls the issuer as the request did. -/
def RenewedAlike (req : CertificateRequest) (credentialsFile : Option String) : Prop :=
  RenewsAlike (fun _ => "") renewingIssuer (fun _ => .ok true) noRenewalFaults renewalNames 1 none
    (req.call credentialsFile) (requested req credentialsFile).2

/-- A request for an HTTP-01 challenge. -/
def httpRequest : CertificateRequest :=
  ⟨"Certificate", ["example.com"], "admin@example.com", .http01, "rsa", .null⟩

theorem renewsAlike_httpRequest : RenewedAlike httpRequest none := by
  have h : requested httpRequest none
      = (.ok ((requested httpRequest none).1.toOption.getD {}), (requested httpRequest none).2) :=
    Prod.ext (eq_getD_of_isSome (by decide)) rfl
  exact (renewsAlike_iff h rfl).mpr ⟨rfl, by decide, by decide, fun _ => rfl⟩

/-- A request for a DNS-01 challenge succeeds with credentials, and the renewal has none. -/
theorem dnsRequest_not_renewsAlike :
    (requested ⟨"Certificate", ["example.com"], "admin@example.com", .dns01, "rsa",
        .text "cloudflare"⟩ (some "dns_cloudflare_api_token = token\n")).1.isOk = true ∧
      ¬ RenewedAlike ⟨"Certificate", ["example.com"], "admin@example.com", .dns01, "rsa",
        .text "cloudflare"⟩ (some "dns_cloudflare_api_token = token\n") := by
  refine ⟨by decide, fun h => ?_⟩
  have hcredentials := congrArg (List.map IssuerCall.credentialsFile) h
  exact absurd hcredentials (by decide)

end Portwyrm.Certificates

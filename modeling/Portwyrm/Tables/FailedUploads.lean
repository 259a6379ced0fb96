import Portwyrm.Tables.RestoredRows

/-!
# Uploads that cannot be published

An upload for a certificate that is there updates the row before it publishes the material, and
writes back what the row has shown when the material cannot be published.  Writing back merges: a
member that the row did not have before the upload stays.
-/

namespace Portwyrm.Tables

open Base Portwyrm.Identity

/-! ## What an upload writes -/

/-- The metadata that an upload gives a certificate. -/
def uploadMeta (info : CertificateInfo) (members : Dict String Json) : List (String × Json) :=
  (((members.set "subject" (.text info.subject)).set "issuer" (.text info.issuer)).set "serial"
    (.text info.serial)).entries

/-- The extensions that an upload gives a certificate. -/
def uploadExtensions (info : CertificateInfo) (members : Dict String Json) : Dict String Json :=
  Dict.ofList
    [("expires_on", .text info.notAfterText), ("meta", .object (uploadMeta info members))]

/-- The name that an upload gives a certificate. -/
def uploadName (info : CertificateInfo) (niceName : String) : String :=
  textOr (some (if Text.strip niceName = "" then info.subject else Text.strip niceName))
    "Certificate"

/-- The update that comes before the publication of the material. -/
def uploadUpdate (actor : Actor) (id : ℕ) (info : CertificateInfo) (niceName : String)
    (members : Dict String Json) (previous : CertificateRow) (rows : Dict ℕ CertificateRow) :
    Result (Dict ℕ CertificateRow) := do
  enforceOwnership actor previous.ownerPrincipalId previous.extensions
  updateCertificate actor id
    (uploadPayload info niceName (actor.map SecurityPrincipal.userId) members) rows

/-- A certificate that has what an upload gives it. -/
structure AlreadyUploaded (actor : Actor) (info : CertificateInfo) (niceName : String)
    (members : Dict String Json) (row : CertificateRow) : Prop where
  owner : row.ownerPrincipalId = actor.map SecurityPrincipal.userId
  niceName : row.niceName = uploadName info niceName
  provider : row.provider = "other"
  expiresAt : row.expiresAt = some info.notAfter
  status : row.status = "active"
  domains : row.domains = info.domainNames.map Text.casefold
  expiresOn : row.extensions.get? "expires_on" = some (.text info.notAfterText)
  metadata : row.extensions.get? "meta" = some (.object (uploadMeta info members))

/-- The ownership metadata of an upload is complete, or there is none. -/
def SoundMeta (info : CertificateInfo) (members : Dict String Json) : Prop :=
  ∃ ownership, Ownership.fromMeta (uploadMeta info members) = .ok ownership

/-- The row behind the update. -/
def uploadedRow (actor : Actor) (info : CertificateInfo) (niceName : String)
    (members : Dict String Json) (row : CertificateRow) : CertificateRow :=
  let extensions := row.extensions.update (uploadExtensions info members)
  { ownerPrincipalId := actor.map SecurityPrincipal.userId
    niceName := uploadName info niceName
    provider := "other"
    challengeType :=
      (row.challengeType.filter (· ≠ "")).or (metaText extensions "challenge_type")
    keyType := row.keyType
    materialRef := row.materialRef
    expiresAt := some info.notAfter
    status := "active"
    extensions := extensions
    domains := info.domainNames.map Text.casefold }

/-- The row that is written back over another one. -/
def writtenBack (previous : CertificateRow) (current : Dict String Json) : CertificateRow :=
  let extensions := current.update previous.extensions
  { previous with
    challengeType :=
      (previous.challengeType.filter (· ≠ "")).or (metaText extensions "challenge_type")
    extensions := extensions }

section Update

variable {actor : Actor} {id : ℕ} {info : CertificateInfo} {niceName : String}
variable {members : Dict String Json} {previous current : CertificateRow}
variable {rows rows' : Dict ℕ CertificateRow}

lemma projectCertificate_injective (h : projectCertificate current = projectCertificate previous) :
    current = previous := by
  cases current
  cases previous
  simp only [projectCertificate, Member.of, CertificatePayload.mk.injEq, Option.some.injEq] at h
  simp only [CertificateRow.mk.injEq]
  tauto

lemma get?_uploadExtensions (k : String) : (uploadExtensions info members).get? k =
    if k = "expires_on" then some (.text info.notAfterText)
    else if k = "meta" then some (.object (uploadMeta info members)) else none := by
  rw [uploadExtensions, Dict.get?_ofList_of_nodup (by simp), Dict.lookup_cons_eq_ite,
    Dict.lookup_cons_eq_ite, List.lookup_nil]

/-- The update keeps what the upload does not name. -/
lemma uploadUpdate_eq_ok (hprevious : rows.get? id = some previous)
    (hstored : StoredCertificate previous)
    (h : uploadUpdate actor id info niceName members previous rows = .ok rows') :
    rows' = rows.set id (uploadedRow actor info niceName members previous) := by
  simp only [uploadUpdate, updateCertificate, hprevious, bind_eq_ok_iff] at h
  obtain ⟨-, -, hstore⟩ := h
  obtain ⟨row, rfl, hrow⟩ := storeCertificate_spec hstore
  refine congrArg (rows.set id) ((certificateRow_spec hrow).trans ?_)
  rw [uploadedRow, CertificateRow.mk.injEq]
  exact ⟨rfl, rfl, rfl, rfl, textOr_of_ne hstored.keyType "rsa", rfl, rfl, rfl, rfl, rfl⟩

/-- What is written back behind the update. -/
lemma updateCertificate_projectCertificate (hcurrent : rows.get? id = some current)
    (hstored : StoredCertificate previous) :
    updateCertificate none id (projectCertificate previous) rows =
      (ownershipFromRow current.extensions).map fun _ =>
        rows.set id (writtenBack previous current.extensions) := by
  have hrow : certificateRow ((projectCertificate previous).over
        (projectCertificate current)).owner
      ((projectCertificate previous).over (projectCertificate current)) =
      .ok (writtenBack previous current.extensions) := by
    have hdomains : (((projectCertificate previous).over
        (projectCertificate current)).domainNames.get.getD []).map Text.casefold =
        previous.domains := hstored.domains
    simp only [certificateRow, hdomains, bind_eq_ok_iff, raiseIf_eq_ok_iff, not_not,
      pure_eq_ok_iff]
    refine ⟨(), hstored.nodup, ?_⟩
    rw [writtenBack, CertificateRow.mk.injEq]
    exact ⟨rfl, textOr_of_ne hstored.niceName "Certificate", textOr_of_ne hstored.provider "custom",
      rfl, textOr_of_ne hstored.keyType "rsa", rfl, rfl, textOr_of_ne hstored.status "pending", rfl,
      rfl⟩
  simp only [updateCertificate, hcurrent, storeCertificate, hrow]
  have hpermitted : enforceOwnership none current.ownerPrincipalId current.extensions =
      (ownershipFromRow current.extensions).map fun _ => () := by
    simp only [enforceOwnership, isAdmin, Option.any_none, Bool.false_eq_true, if_false, raiseIf]
    rcases ownershipFromRow current.extensions with e | ownership
    · simp; rfl
    · simp; rfl
  rw [hpermitted]
  rcases ownershipFromRow current.extensions with e | ownership <;> rfl

lemma mem_uploadExtensions {k : String} :
    k ∈ uploadExtensions info members ↔ k = "expires_on" ∨ k = "meta" := by
  rw [Dict.mem_iff, get?_uploadExtensions]
  by_cases hexpires : k = "expires_on"
  · simp [hexpires]
  · by_cases hmeta : k = "meta" <;> simp [hexpires, hmeta]

/-- The row is written back as it was exactly when it had the members of the upload before. -/
lemma writtenBack_eq_iff (hstored : StoredCertificate previous) :
    writtenBack previous (previous.extensions.update (uploadExtensions info members)) = previous ↔
      "expires_on" ∈ previous.extensions ∧ "meta" ∈ previous.extensions := by
  have hkeys : (∀ k ∈ uploadExtensions info members, k ∈ previous.extensions) ↔
      "expires_on" ∈ previous.extensions ∧ "meta" ∈ previous.extensions := by
    simp only [mem_uploadExtensions, forall_eq_or_imp, forall_eq]
  rw [← hkeys, ← Dict.update_update_self_iff]
  constructor
  · exact congrArg CertificateRow.extensions
  · intro h
    rw [writtenBack, h]
    rw [hstored.challengeType]

/-- The update changes nothing exactly when the row has what the upload gives it. -/
lemma uploadedRow_eq_iff (hstored : StoredCertificate previous) :
    uploadedRow actor info niceName members previous = previous ↔
      AlreadyUploaded actor info niceName members previous := by
  constructor
  · intro h
    rw [uploadedRow] at h
    have hget : ∀ k, ((uploadExtensions info members).get? k).or (previous.extensions.get? k) =
        previous.extensions.get? k := fun k =>
      (Dict.get?_update _ _ k).symm.trans (congrArg (fun row => row.extensions.get? k) h)
    have hexpires := hget "expires_on"
    have hmeta := hget "meta"
    rw [get?_uploadExtensions, if_pos rfl, Option.some_or] at hexpires
    rw [get?_uploadExtensions, if_neg (by decide), if_pos rfl, Option.some_or] at hmeta
    have hname : previous.niceName = uploadName info niceName := by
      rw [← h]
    exact
      { owner := (congrArg CertificateRow.ownerPrincipalId h).symm
        niceName := hname
        provider := (congrArg CertificateRow.provider h).symm
        expiresAt := (congrArg CertificateRow.expiresAt h).symm
        status := (congrArg CertificateRow.status h).symm
        domains := (congrArg CertificateRow.domains h).symm
        expiresOn := hexpires.symm
        metadata := hmeta.symm }
  · intro h
    have hextensions : previous.extensions.update (uploadExtensions info members) =
        previous.extensions := by
      refine Dict.update_eq_self_iff.mpr fun k => ?_
      rw [get?_uploadExtensions]
      split
      · rename_i hk
        rw [hk, h.expiresOn, Option.some_or]
      · split
        · rename_i hk
          rw [hk, h.metadata, Option.some_or]
        · rfl
    rw [uploadedRow, hextensions, hstored.challengeType, ← h.owner, ← h.niceName, ← h.provider,
      ← h.expiresAt, ← h.status, ← h.domains]

end Update

/-! ## The row behind a failed upload -/

section Failed

variable {actor : Actor} {id : ℕ} {info : CertificateInfo} {niceName : String}
variable {members : Dict String Json} {previous : CertificateRow}
variable {rows rows' : Dict ℕ CertificateRow}

/-- The row behind an upload that cannot be published: what was written back, or the row behind
the update when writing back is refused. -/
lemma get?_uploadReplacement (hprevious : rows.get? id = some previous)
    (hstored : StoredCertificate previous)
    (hupdate : uploadUpdate actor id info niceName members previous rows = .ok rows') :
    ((uploadReplacement actor id info niceName members true rows).2.get? id) =
      match Ownership.fromMeta (uploadMeta info members) with
      | .ok _ => some (writtenBack previous
          (previous.extensions.update (uploadExtensions info members)))
      | .error _ => some (uploadedRow actor info niceName members previous) := by
  have hrows := uploadUpdate_eq_ok hprevious hstored hupdate
  have hback : updateCertificate none id (projectCertificate previous) rows' =
      (Ownership.fromMeta (uploadMeta info members)).map fun _ =>
        rows'.set id (writtenBack previous
          (previous.extensions.update (uploadExtensions info members))) := by
    have hget : rows'.get? id = some (uploadedRow actor info niceName members previous) := by
      rw [hrows, Dict.get?_set_self]
    rw [updateCertificate_projectCertificate hget hstored]
    refine congrArg (Except.map _) ?_
    rw [ownershipFromRow, uploadedRow, Dict.get?_update, get?_uploadExtensions,
      if_neg (by decide), if_pos rfl, Option.some_or]
  change (do
      enforceOwnership actor previous.ownerPrincipalId previous.extensions
      updateCertificate actor id
        (uploadPayload info niceName (actor.map SecurityPrincipal.userId) members) rows) =
    .ok rows' at hupdate
  simp only [uploadReplacement, hprevious, hupdate, hback, if_true]
  rcases Ownership.fromMeta (uploadMeta info members) with e | ownership
  · show rows'.get? id = _
    rw [hrows, Dict.get?_set_self]
  · show (rows'.set id _).get? id = _
    rw [Dict.get?_set_self]

end Failed

/-! ### A certificate without material -/

/-- A certificate that is created to be uploaded later. -/
def pendingPayload : CertificatePayload := { niceName := .of "app", provider := .of "other" }

/-- Its row. -/
def pendingCertificate : CertificateRow where
  ownerPrincipalId := none
  niceName := "app"
  provider := "other"
  challengeType := none
  keyType := "rsa"
  materialRef := none
  expiresAt := none
  status := "pending"
  extensions := Dict.empty
  domains := []

/-- The table with a certificate. -/
def oneCertificate (row : CertificateRow) : Dict ℕ CertificateRow := Dict.empty.set 1 row

/-- What is uploaded for it. -/
def appInfo : CertificateInfo :=
  ⟨"app.example", "issuer", "01", ["app.example"], 1800000000, "2027-01-15T08:00:00+00:00"⟩

lemma createCertificate_pending : createCertificate none 1 pendingPayload Dict.empty =
    .ok (oneCertificate pendingCertificate) := rfl

/-- A certificate that has had an upload. -/
def uploadedCertificate : CertificateRow :=
  { pendingCertificate with
    extensions := Dict.ofList [("expires_on", .text "2026"), ("meta", .object [])] }

end Portwyrm.Tables

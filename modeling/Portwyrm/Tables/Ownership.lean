import Portwyrm.Tables.Certificates
import Portwyrm.Tables.HostFrames

/-!
# Owners of edited rows

What an update, a replacement or an upload that names no owner does to the owner of a row.
-/

namespace Portwyrm.Tables

open Base Portwyrm.Runtime Portwyrm.Identity

/-- The tables of owned resources. -/
structure ResourceTables where
  hosts : Dict ℕ HostRow
  streams : Dict ℕ StreamRow
  certificates : Dict ℕ CertificateRow

/-- An edit of a row. -/
inductive Edit
  | updateHost (kind : HostKind) (id : ℕ) (payload : HostPayload)
  | replaceHost (kind : HostKind) (id : ℕ) (payload : HostPayload)
  | updateStream (id : ℕ) (payload : StreamPayload)
  | replaceStream (id : ℕ) (payload : StreamPayload)
  | updateCertificate (id : ℕ) (payload : CertificatePayload)
  | replaceCertificate (id : ℕ) (payload : CertificatePayload)
  | upload (id : ℕ) (info : CertificateInfo) (niceName : String) (members : Dict String Json)
      (putFails : Bool)

/-- A transaction on one of the tables. -/
def onTable {ρ : Type} (t : ResourceTables) (table : Result (Dict ℕ ρ))
    (store : Dict ℕ ρ → ResourceTables) : Result Unit × ResourceTables :=
  match table with
  | .ok rows => (.ok (), store rows)
  | .error e => (.error e, t)

/-- The outcome of an edit, and the tables after it. -/
def applyEdit (accessLists : List ℕ) (actor : Actor) (t : ResourceTables) :
    Edit → Result Unit × ResourceTables
  | .updateHost kind id payload =>
    onTable t (updateHost t.certificates.keys accessLists actor kind id payload t.hosts)
      fun rows => { t with hosts := rows }
  | .replaceHost kind id payload =>
    onTable t (replaceHost t.certificates.keys accessLists actor kind id payload t.hosts)
      fun rows => { t with hosts := rows }
  | .updateStream id payload =>
    onTable t (updateStream t.certificates.keys actor id payload t.streams)
      fun rows => { t with streams := rows }
  | .replaceStream id payload =>
    onTable t (replaceStream t.certificates.keys actor id payload t.streams)
      fun rows => { t with streams := rows }
  | .updateCertificate id payload =>
    onTable t (updateCertificate actor id payload t.certificates)
      fun rows => { t with certificates := rows }
  | .replaceCertificate id payload =>
    onTable t (replaceCertificate actor id payload t.certificates)
      fun rows => { t with certificates := rows }
  | .upload id info niceName members putFails =>
    let (outcome, rows) := uploadReplacement actor id info niceName members putFails t.certificates
    (outcome, { t with certificates := rows })

/-- The payload of an edit names no owner; the payload of an upload has no member for one. -/
def Edit.NamesNoOwner : Edit → Prop
  | .updateHost _ _ payload | .replaceHost _ _ payload => payload.ownerPrincipalId = none
  | .updateStream _ payload | .replaceStream _ payload => payload.ownerPrincipalId = none
  | .updateCertificate _ payload | .replaceCertificate _ payload =>
    payload.ownerPrincipalId = none ∧ payload.ownerUserId = none
  | .upload .. => True

/-- The owner of the row that an edit is about, where there is such a row. -/
def Edit.ownerIn (t : ResourceTables) : Edit → Option (Option ℕ)
  | .updateHost _ id _ | .replaceHost _ id _ =>
    (t.hosts.get? id).map HostRow.ownerPrincipalId
  | .updateStream id _ | .replaceStream id _ =>
    (t.streams.get? id).map StreamRow.ownerPrincipalId
  | .updateCertificate id _ | .replaceCertificate id _ | .upload id .. =>
    (t.certificates.get? id).map CertificateRow.ownerPrincipalId

/-- When an edit keeps the owner of its row: an update of a host or a certificate always does; an
update of a stream, when the metadata of the stream names its owner; a replacement, when the row
has no owner; an upload, when the caller owns the row. -/
def KeepsOwner (actor : Actor) (t : ResourceTables) : Edit → Prop
  | .updateHost .. | .updateCertificate .. => True
  | .replaceHost kind id _ => ∀ row ∈ getHost kind id t.hosts, row.ownerPrincipalId = none
  | .updateStream id _ => ∀ row ∈ t.streams.get? id,
      row.compat.ownerPrincipalId.get = row.ownerPrincipalId
  | .replaceStream id _ => ∀ row ∈ t.streams.get? id, row.ownerPrincipalId = none
  | .replaceCertificate id _ => ∀ row ∈ t.certificates.get? id, row.ownerPrincipalId = none
  | .upload id .. => ∀ row ∈ t.certificates.get? id,
      row.ownerPrincipalId = actor.map SecurityPrincipal.userId

/-! ## Hosts -/

section Hosts

variable {certificates accessLists : List ℕ} {actor : Actor} {kind : HostKind} {id : ℕ}
  {rows rows' : Dict ℕ HostRow} {stored : HostRow}

lemma owner_storeHost {payload : HostPayload}
    (h : storeHost certificates accessLists actor kind id stored payload rows = .ok rows') :
    (rows'.get? id).map HostRow.ownerPrincipalId = some payload.ownerPrincipalId.get := by
  obtain ⟨row, rfl, hrow⟩ := storeHost_spec h
  rw [Dict.get?_set_self, Option.map_some, (hostStored_of_writeHost hrow).2.2]

lemma owner_updateHost {payload : HostPayload} (hno : payload.ownerPrincipalId = none)
    (h : updateHost certificates accessLists actor kind id payload rows = .ok rows') :
    (rows'.get? id).map HostRow.ownerPrincipalId =
      (rows.get? id).map HostRow.ownerPrincipalId := by
  unfold updateHost at h
  split at h
  · obtain rfl := pure_eq_ok_iff.mp h
    rfl
  · rename_i stored hget
    rw [owner_storeHost h, getHost_eq_some hget, Option.map_some, HostPayload.over, hno]
    rfl

lemma owner_replaceHost_iff {payload : HostPayload} (hno : payload.ownerPrincipalId = none)
    (h : replaceHost certificates accessLists actor kind id payload rows = .ok rows') :
    (rows'.get? id).map HostRow.ownerPrincipalId =
      (rows.get? id).map HostRow.ownerPrincipalId ↔
      ∀ row ∈ getHost kind id rows, row.ownerPrincipalId = none := by
  unfold replaceHost at h
  split at h
  · rename_i hnone
    obtain rfl := pure_eq_ok_iff.mp h
    simp [hnone]
  · rename_i stored hget
    rw [owner_storeHost h, getHost_eq_some hget, hget, hno]
    simp [Member.get, eq_comm]

end Hosts

/-! ## Streams -/

section Streams

variable {certificates : List ℕ} {actor : Actor} {id : ℕ} {rows rows' : Dict ℕ StreamRow}
  {stored : StreamRow}

lemma ownerPrincipalId_checkStream {values : StreamValues} {row : StreamRow}
    (h : checkStream certificates rows id values = .ok row) :
    row.ownerPrincipalId = values.ownerPrincipalId := by
  obtain ⟨-, -, -, -, -, -, -, rfl⟩ := checkStream_eq_ok h
  rfl

lemma owner_storeStream {values : StreamValues}
    (h : storeStream certificates actor id stored values rows = .ok rows') :
    (rows'.get? id).map StreamRow.ownerPrincipalId = some values.ownerPrincipalId := by
  obtain ⟨row, rfl, hrow⟩ := storeStream_spec h
  rw [Dict.get?_set_self, Option.map_some, ownerPrincipalId_checkStream hrow]

lemma owner_updateStream_iff {payload : StreamPayload} (hno : payload.ownerPrincipalId = none)
    (h : updateStream certificates actor id payload rows = .ok rows') :
    (rows'.get? id).map StreamRow.ownerPrincipalId =
      (rows.get? id).map StreamRow.ownerPrincipalId ↔
      ∀ row ∈ rows.get? id, row.compat.ownerPrincipalId.get = row.ownerPrincipalId := by
  unfold updateStream at h
  split at h
  · rename_i hnone
    obtain rfl := pure_eq_ok_iff.mp h
    simp [hnone]
  · rename_i stored hget
    simp only [bind_eq_ok_iff] at h
    obtain ⟨-, -, hstore⟩ := h
    rw [owner_storeStream hstore, hget, streamValues, StreamPayload.over, hno]
    simp [projectStream]

lemma owner_replaceStream_iff {payload : StreamPayload} (hno : payload.ownerPrincipalId = none)
    (h : replaceStream certificates actor id payload rows = .ok rows') :
    (rows'.get? id).map StreamRow.ownerPrincipalId =
      (rows.get? id).map StreamRow.ownerPrincipalId ↔
      ∀ row ∈ rows.get? id, row.ownerPrincipalId = none := by
  unfold replaceStream at h
  split at h
  · rename_i hnone
    obtain rfl := pure_eq_ok_iff.mp h
    simp [hnone]
  · rename_i stored hget
    rw [owner_storeStream h, hget, streamValues, hno]
    simp [Member.get, eq_comm]

end Streams

/-! ## Certificates -/

section Certificates

variable {actor : Actor} {id : ℕ} {rows rows' : Dict ℕ CertificateRow} {stored : CertificateRow}

lemma ownerPrincipalId_certificateRow {owner : Option ℕ} {payload : CertificatePayload}
    {row : CertificateRow} (h : certificateRow owner payload = .ok row) :
    row.ownerPrincipalId = owner := by
  simp only [certificateRow, bind_eq_ok_iff, pure_eq_ok_iff] at h
  obtain ⟨-, -, rfl⟩ := h
  rfl

lemma owner_storeCertificate {payload : CertificatePayload}
    (h : storeCertificate actor id stored payload rows = .ok rows') :
    (rows'.get? id).map CertificateRow.ownerPrincipalId = some payload.owner := by
  obtain ⟨row, rfl, hrow⟩ := storeCertificate_spec h
  rw [Dict.get?_set_self, Option.map_some, ownerPrincipalId_certificateRow hrow]

lemma owner_updateCertificate {payload : CertificatePayload}
    (hno : payload.ownerPrincipalId = none)
    (h : updateCertificate actor id payload rows = .ok rows') :
    (rows'.get? id).map CertificateRow.ownerPrincipalId =
      (rows.get? id).map CertificateRow.ownerPrincipalId := by
  unfold updateCertificate at h
  split at h
  · obtain rfl := pure_eq_ok_iff.mp h
    rfl
  · rename_i stored hget
    rw [owner_storeCertificate h, hget, CertificatePayload.owner, CertificatePayload.over, hno]
    rfl

lemma owner_replaceCertificate_iff {payload : CertificatePayload}
    (hno : payload.ownerPrincipalId = none ∧ payload.ownerUserId = none)
    (h : replaceCertificate actor id payload rows = .ok rows') :
    (rows'.get? id).map CertificateRow.ownerPrincipalId =
      (rows.get? id).map CertificateRow.ownerPrincipalId ↔
      ∀ row ∈ rows.get? id, row.ownerPrincipalId = none := by
  unfold replaceCertificate at h
  split at h
  · rename_i hnone
    obtain rfl := pure_eq_ok_iff.mp h
    simp [hnone]
  · rename_i stored hget
    rw [owner_storeCertificate h, hget, CertificatePayload.owner, hno.1, hno.2]
    simp [Member.get, eq_comm]

/-- The payload of an upload names the caller. -/
lemma owner_upload {info : CertificateInfo} {niceName : String} {caller : Option ℕ}
    {members : Dict String Json} (hget : rows.get? id = some stored)
    (h : updateCertificate actor id (uploadPayload info niceName caller members) rows =
      .ok rows') :
    (rows'.get? id).map CertificateRow.ownerPrincipalId = some caller := by
  rw [updateCertificate, hget] at h
  rw [owner_storeCertificate h]
  rfl

/-- An upload that succeeds keeps the owner exactly when the caller owns the certificate. -/
lemma owner_uploadReplacement_iff {info : CertificateInfo} {niceName : String}
    {members : Dict String Json} {putFails : Bool}
    (h : uploadReplacement actor id info niceName members putFails rows = (.ok (), rows')) :
    (rows'.get? id).map CertificateRow.ownerPrincipalId =
      (rows.get? id).map CertificateRow.ownerPrincipalId ↔
      ∀ row ∈ rows.get? id, row.ownerPrincipalId = actor.map SecurityPrincipal.userId := by
  unfold uploadReplacement at h
  split at h
  · simp at h
  · rename_i previous hget
    dsimp only at h
    split at h
    · simp at h
    · rename_i rows₁ hupdated
      split at h
      · split at h <;> simp at h
      · obtain rfl := (Prod.mk.inj h).2
        simp only [bind_eq_ok_iff] at hupdated
        obtain ⟨-, -, hupdate⟩ := hupdated
        rw [owner_upload hget hupdate, hget]
        simp [eq_comm]

end Certificates

/-! ## Edits -/

lemma onTable_eq_ok {ρ : Type} {t : ResourceTables} {table : Result (Dict ℕ ρ)}
    {store : Dict ℕ ρ → ResourceTables} (h : (onTable t table store).1 = .ok ()) :
    ∃ rows, table = .ok rows ∧ (onTable t table store).2 = store rows := by
  unfold onTable at h ⊢
  split at h
  · rename_i rows
    exact ⟨rows, rfl, rfl⟩
  · simp at h

/-- An edit of one table that is refused changes nothing. -/
theorem onTable_of_error {ρ : Type} {t : ResourceTables} {table : Result (Dict ℕ ρ)}
    {store : Dict ℕ ρ → ResourceTables} {e : Exc} (h : (onTable t table store).1 = .error e) :
    (onTable t table store).2 = t := by
  unfold onTable at h ⊢
  split at h
  · simp at h
  · rfl

/-! ### An owner that is lost -/

/-- A principal that manages streams. -/
def operator : SecurityPrincipal where
  userId := 7
  identity := "operator"
  permissions := Dict.ofList [("streams", .level .manage)]

/-- A stream that the operator has created: the database knows its owner, the metadata does not. -/
def operatorStream : StreamRow where
  ownerPrincipalId := some 7
  protocol := .tcp
  incomingPort := 9000
  targetKind := .dns
  target := "backend"
  targetPort := 9000
  certificateId := none
  enabled := true
  compat := { incomingPort := .of 9000, forwardingHost := .of "backend", forwardingPort := .of 9000 }

/-- The tables with this stream. -/
def operatorTables : ResourceTables where
  hosts := Dict.empty
  streams := Dict.ofList [(1, operatorStream)]
  certificates := Dict.empty

/-- What creating the stream stores. -/
example : ((createStream [] (some operator) 1 operatorStream.compat Dict.empty).map
    fun rows => (rows.get? 1).map StreamRow.ownerPrincipalId) = .ok (some (some 7)) := by
  decide

/-- The operator moves the stream to another port. -/
def moveStream : Edit := .updateStream 1 { incomingPort := .of 9001 }

lemma moveStream_permitted :
    (applyEdit [] (some operator) operatorTables moveStream).1 = .ok () := by
  decide

end Portwyrm.Tables

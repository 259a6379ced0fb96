import Portwyrm.Tables.Documents
import Portwyrm.Tables.WrittenRows

/-!
# The collections behind the API

`get_resource`, `create_resource` and `update_resource` of `TableResources`, for resources that come
as documents and may name their ids.
-/

namespace Portwyrm.Tables

open Base Portwyrm.Runtime Portwyrm.Identity

/-! ## Tables -/

/-- A row of `settings`; its value is read by no operation. -/
structure SettingRow where
  key : String
  /-- `metadata_json["compat"]`. -/
  compat : Document

/-- The timestamps of a row, as they are shown. -/
structure Stamp where
  createdOn : String
  modifiedOn : String

/-- The tables behind all collections. -/
structure AllTables extends CollectionTables where
  settings : Dict ℕ SettingRow := Dict.empty
  users : UserTables := .empty
  stamps : Dict (Collection × ℕ) Stamp := Dict.empty

/-- The collections by their names. -/
def allCollections : List Collection :=
  [.settings, .accessLists, .certificates, .hosts .proxy, .hosts .redirect, .hosts .dead, .streams,
    .users]

/-- The collection with a name. -/
def Collection.ofName? (name : String) : Option Collection :=
  allCollections.find? fun c => c.section_ = name

/-! ## Reading -/

/-- The timestamps of a resource: when it was created may stand in its metadata. -/
def stampDocument (stamp : Stamp) (d : Document) : Document :=
  (if "created_on" ∈ d then d else d.set "created_on" (.text stamp.createdOn)).set "modified_on"
    (.text stamp.modifiedOn)

/-- `_project("settings", row)`. -/
def settingDocument (id : ℕ) (row : SettingRow) : Document := row.compat.set "id" (idJson id)

/-- A resource without its timestamps. -/
def plainDocument (t : AllTables) (c : Collection) (id : ℕ) : Option Document :=
  match c with
  | .hosts kind => (getHost kind id t.hosts).map (hostDocument id)
  | .streams => (t.streams.get? id).map (streamDocument id)
  | .certificates => (t.certificates.get? id).map (certificateDocument id)
  | .accessLists => (t.access.lists.get? id).map fun row =>
      accessListDocument id (accessListItem t.toCollectionTables id row)
  | .settings => (t.settings.get? id).map (settingDocument id)
  | .users => getUser t.users id

/-- `_clean_aggregate`: the members that `get_resource` leaves out. -/
def cleanedMembers : Collection → List String
  | .hosts _ =>
    [ "metadata_json", "created_at", "updated_at", "force_ssl", "websocket_enabled",
      "cache_enabled", "http2_enabled", "redirect_target", "redirect_scheme", "redirect_code" ]
  | .certificates | .accessLists => ["metadata_json", "created_at", "updated_at"]
  | _ => []

/-- `get_resource`, for an id that is a number. -/
def getDocument (t : AllTables) (c : Collection) (id : ℕ) : Option Document :=
  (plainDocument t c id).map fun d =>
    otherMembers (cleanedMembers c) (stampDocument ((t.stamps.get? (c, id)).getD ⟨"", ""⟩) d)

/-- `int(resource_id)`: a text that is no number finds nothing, and a value that is neither is
refused. -/
def resourceId : Json → Result (Option ℕ)
  | .number n => pure (if 0 ≤ n then some n.toNat else none)
  | .bool b => pure (some (if b then 1 else 0))
  | .text s => pure ((intText s).bind fun n => if 0 ≤ n then some n.toNat else none)
  | _ => throw (.runtimeError "int() argument must be a string or a number")

/-- `get_resource`. -/
def findDocument (t : AllTables) (c : Collection) (id : Json) : Result (Option Document) := do
  let id ← resourceId id
  pure (id.bind (getDocument t c))

/-! ## Writing -/

section Writing

variable (bcryptHash : ℕ → String → String) (digest : String → String) (newId : List ℕ → ℕ)
  (actor : Actor) (now : String)

/-- `root["id"] = int(payload["id"])`: the id under which a row is inserted. -/
def givenId (d : Document) (inUse : List ℕ) : Result ℕ :=
  match d.get? "id" with
  | none | some .null => pure (newId inUse)
  | some v => do
    match ← resourceId v with
    | some id => pure id
    | none => throw (.valueError "invalid id")

/-- `_values("settings", payload)`. -/
def settingRow (d : Document) : SettingRow where
  key := strJson (((d.get? "key").or (d.get? "id")).getD (.text ""))
  compat := compatMembers d

/-- The hook of `settings` for a principal who is no administrator. -/
def requireAdministrator (actor : Actor) : Result Unit :=
  raiseIf (∃ p ∈ actor, p.isAdmin = false)
    (.authorizationError "administrator permission is required")

/-- `uq_settings_key`, for a row under an id. -/
def checkSetting (rows : Dict ℕ SettingRow) (id : ℕ) (row : SettingRow) : Result Unit :=
  raiseIf (∃ entry ∈ rows.entries, entry.1 ≠ id ∧ entry.2.key = row.key) .integrityError

/-- `create_resource("access_lists", payload)`, under an id. -/
def insertAccessList (id : ℕ) (payload : AccessListPayload) (t : AccessTables) :
    Result AccessTables := do
  enforceAuthorization actor "access_lists" .create
  raiseIf (id ∈ t.lists.rows) .integrityError
  replaceChildren bcryptHash id payload.aggregate
    { t with lists := t.lists.insert id (accessListRow payload) }

/-- The timestamps of a new row. -/
def stampNew (c : Collection) (id : ℕ) (t : AllTables) : AllTables :=
  { t with stamps := t.stamps.set (c, id) ⟨now, now⟩ }

/-- The timestamps of a row that is written again. -/
def stampAgain (c : Collection) (id : ℕ) (t : AllTables) : AllTables :=
  { t with stamps :=
      t.stamps.set (c, id) ⟨((t.stamps.get? (c, id)).map Stamp.createdOn).getD now, now⟩ }

/-- `create_resource`. -/
def createDocument (c : Collection) (d : Document) (t : AllTables) : Result AllTables :=
  match c with
  | .hosts kind => do
    let payload ← hostPayload d
    let id ← givenId newId d t.hosts.keys
    let hosts ← createHost t.certificates.keys t.access.lists.rows.keys actor kind id payload t.hosts
    pure (stampNew now c id { t with hosts := hosts })
  | .streams => do
    -- `_values` drops the id
    let payload ← streamPayload d
    let id := newId t.streams.keys
    let streams ← createStream t.certificates.keys actor id payload t.streams
    pure (stampNew now c id { t with streams := streams })
  | .certificates => do
    let payload ← certificatePayload d
    let id ← givenId newId d t.certificates.keys
    let certificates ← createCertificate actor id payload t.certificates
    pure (stampNew now c id { t with certificates := certificates })
  | .accessLists => do
    let (payload, identityIds) ← accessListDocumentPayload d
    let id ← givenId newId d t.access.lists.rows.keys
    let access ← insertAccessList bcryptHash actor id payload t.access
    let members ← replaceMembers id identityIds t.members
    pure (stampNew now c id { t with access := access, members := members })
  | .settings => do
    let row := settingRow d
    let id := newId t.settings.keys
    requireAdministrator actor
    checkSetting t.settings id row
    raiseIf (id ∈ t.settings) .integrityError
    pure (stampNew now c id { t with settings := t.settings.set id row })
  | .users => do
    let (id, users) ← createUser digest d t.users
    pure (stampNew now c id { t with users := users })

/-- `update_resource`, for a resource that is shown as `current`. -/
def updateDocument (c : Collection) (id : ℕ) (current d : Document) (t : AllTables) :
    Result AllTables :=
  let candidate := current.update d
  match c with
  | .hosts kind => do
    let payload ← hostPayload candidate
    let hosts ← updateHost t.certificates.keys t.access.lists.rows.keys actor kind id payload t.hosts
    pure (stampAgain now c id { t with hosts := hosts })
  | .streams => do
    let payload ← streamPayload candidate
    let streams ← updateStream t.certificates.keys actor id payload t.streams
    pure (stampAgain now c id { t with streams := streams })
  | .certificates => do
    let payload ← certificatePayload candidate
    let certificates ← updateCertificate actor id payload t.certificates
    pure (stampAgain now c id { t with certificates := certificates })
  | .accessLists => do
    let (payload, identityIds) ← accessListDocumentPayload candidate
    let access ← updateAccessList bcryptHash actor id payload t.access
    let members ← replaceMembers id identityIds t.members
    pure (stampAgain now c id { t with access := access, members := members })
  | .settings => do
    let row := settingRow candidate
    requireAdministrator actor
    checkSetting t.settings id row
    pure (stampAgain now c id { t with settings := t.settings.set id row })
  | .users => do
    let users ← writeUser id candidate t.users
    pure (stampAgain now c id { t with users := users })

end Writing

/-! ## What stays -/

/-- Every resource of some tables is a resource of others. -/
structure Kept (t t' : AllTables) : Prop where
  hosts : ∀ kind id, (getHost kind id t.hosts).isSome → (getHost kind id t'.hosts).isSome
  streams : ∀ id, (t.streams.get? id).isSome → (t'.streams.get? id).isSome
  certificates : ∀ id, (t.certificates.get? id).isSome → (t'.certificates.get? id).isSome
  accessLists : ∀ id, (t.access.lists.get? id).isSome → (t'.access.lists.get? id).isSome
  settings : ∀ id, (t.settings.get? id).isSome → (t'.settings.get? id).isSome
  users : ∀ id, (t.users.principals.get? id).isSome → (t'.users.principals.get? id).isSome

variable {bcryptHash : ℕ → String → String} {digest : String → String} {newId : List ℕ → ℕ}
  {actor : Actor} {now : String} {t t' : AllTables} {c : Collection} {id : ℕ} {d current : Document}

lemma Kept.refl (t : AllTables) : Kept t t :=
  ⟨fun _ _ h => h, fun _ h => h, fun _ h => h, fun _ h => h, fun _ h => h, fun _ h => h⟩

/-- A resource that is not found among more resources was not there before. -/
lemma Kept.getDocument_eq_none (h : Kept t t') (hnone : getDocument t' c id = none) :
    getDocument t c id = none := by
  have hkept : (plainDocument t c id).isSome → (plainDocument t' c id).isSome := by
    cases c with
    | hosts kind => simpa [plainDocument] using h.hosts kind id
    | streams => simpa [plainDocument] using h.streams id
    | certificates => simpa [plainDocument] using h.certificates id
    | accessLists => simpa [plainDocument] using h.accessLists id
    | settings => simpa [plainDocument] using h.settings id
    | users => simpa [plainDocument, getUser] using h.users id
  rw [getDocument, Option.map_eq_none_iff] at hnone ⊢
  by_contra hsome
  have := hkept (Option.isSome_iff_ne_none.mpr hsome)
  rw [hnone] at this
  exact Bool.false_ne_true this

lemma isSome_get?_set {ρ : Type} {rows : Dict ℕ ρ} (id : ℕ) (row : ρ) (id' : ℕ) (h : (rows.get? id').isSome) :
    ((rows.set id row).get? id').isSome := by
  rw [Dict.get?_set]
  split
  · rfl
  · exact h

/-- A host that is stored stays in its collection when it is written. -/
lemma isSome_getHost_set {rows : Dict ℕ HostRow} {row : HostRow}
    (hkind : ∀ stored, rows.get? id = some stored → stored.kind = row.kind) (kind : HostKind)
    (id' : ℕ) (h : (getHost kind id' rows).isSome) : (getHost kind id' (rows.set id row)).isSome := by
  obtain ⟨stored, hstored⟩ := Option.isSome_iff_exists.mp h
  obtain ⟨hget, hstoredKind⟩ := Option.filter_eq_some_iff.mp hstored
  rw [getHost, Dict.get?_set]
  split
  · rename_i heq
    subst heq
    have hrow : row.kind = kind := (hkind stored hget).symm.trans (by simpa using hstoredKind)
    simp [hrow]
  · exact h

lemma row_of_updateHost {certificates accessLists : List ℕ} {kind : HostKind}
    {payload : HostPayload} {rows rows' : Dict ℕ HostRow}
    (h : updateHost certificates accessLists actor kind id payload rows = .ok rows') :
    rows' = rows ∨ ∃ row, rows' = rows.set id row ∧
      ∀ stored, rows.get? id = some stored → stored.kind = row.kind := by
  rcases updateHost_cases h with ⟨rfl, -⟩ | ⟨stored, row, hstored, rfl, hrow⟩
  · exact .inl rfl
  · obtain ⟨hget, hkind⟩ := Option.filter_eq_some_iff.mp hstored
    refine .inr ⟨row, rfl, fun stored' hget' => ?_⟩
    obtain rfl := Option.some.inj (hget.symm.trans hget')
    have hstoredKind : stored.kind = kind := by simpa using hkind
    exact hstoredKind.trans (kind_writeHost hrow).symm

lemma wrote_of_insertAccessList {payload : AccessListPayload} {t t' : AccessTables}
    (h : insertAccessList bcryptHash actor id payload t = .ok t') :
    Wrote bcryptHash id payload t t' ∧ id ∉ t.lists.rows := by
  simp only [insertAccessList, bind_eq_ok_iff, raiseIf_eq_ok_iff] at h
  obtain ⟨-, -, -, hnew, h⟩ := h
  refine ⟨wrote_of_replaceChildren ?_ ?_ (le_max_left _ _) h, hnew⟩
  · rw [Table.get?_insert, if_pos rfl]
  · intro other hne
    rw [Table.get?_insert, if_neg hne]

/-- An access list that is stored stays when one is written. -/
lemma isSome_of_wrote {payload : AccessListPayload} {t t' : AccessTables}
    (h : Wrote bcryptHash id payload t t') (id' : ℕ) (hsome : (t.lists.get? id').isSome) :
    (t'.lists.get? id').isSome := by
  by_cases heq : id' = id
  · rw [heq, h.row]
    rfl
  · rw [h.others id' heq]
    exact hsome

/-- A resource that is created joins those that are there. -/
theorem kept_of_createDocument
    (h : createDocument bcryptHash digest newId actor now c d t = .ok t') : Kept t t' := by
  cases c with
  | hosts kind =>
    simp only [createDocument, bind_eq_ok_iff, pure_eq_ok_iff] at h
    obtain ⟨payload, -, id, -, hosts, hhosts, rfl⟩ := h
    obtain ⟨row, rfl, hnone, -⟩ := createHost_spec hhosts
    have hkind : ∀ stored, t.hosts.get? id = some stored → stored.kind = row.kind := by
      intro stored hstored
      cases hnone.symm.trans hstored
    exact { Kept.refl t with hosts := isSome_getHost_set hkind }
  | streams =>
    simp only [createDocument, bind_eq_ok_iff, pure_eq_ok_iff] at h
    obtain ⟨payload, -, streams, hstreams, rfl⟩ := h
    obtain ⟨row, rfl, -⟩ := createStream_spec hstreams
    exact { Kept.refl t with streams := isSome_get?_set _ row }
  | certificates =>
    simp only [createDocument, bind_eq_ok_iff, pure_eq_ok_iff] at h
    obtain ⟨payload, -, id, -, certificates, hcertificates, rfl⟩ := h
    obtain ⟨row, rfl, -⟩ := createCertificate_spec hcertificates
    exact { Kept.refl t with certificates := isSome_get?_set id row }
  | accessLists =>
    simp only [createDocument, bind_eq_ok_iff, pure_eq_ok_iff] at h
    obtain ⟨⟨payload, identityIds⟩, -, id, -, access, haccess, members, -, rfl⟩ := h
    exact { Kept.refl t with accessLists := isSome_of_wrote (wrote_of_insertAccessList haccess).1 }
  | settings =>
    simp only [createDocument, bind_eq_ok_iff, pure_eq_ok_iff] at h
    obtain ⟨-, -, -, -, -, -, rfl⟩ := h
    exact { Kept.refl t with settings := isSome_get?_set _ _ }
  | users =>
    simp only [createDocument, bind_eq_ok_iff, pure_eq_ok_iff] at h
    obtain ⟨⟨id, users⟩, husers, rfl⟩ := h
    obtain ⟨password, row, roles, permissions, -, -, rfl⟩ := createUser_spec husers
    refine { Kept.refl t with users := fun id' hid' => ?_ }
    obtain ⟨row, hrow⟩ := Option.isSome_iff_exists.mp hid'
    exact Option.isSome_iff_exists.mpr ⟨row, Table.get?_add_of_eq_some hrow⟩

/-- A resource that is updated stays where it is. -/
theorem kept_of_updateDocument
    (h : updateDocument bcryptHash actor now c id current d t = .ok t') : Kept t t' := by
  cases c with
  | hosts kind =>
    simp only [updateDocument, bind_eq_ok_iff, pure_eq_ok_iff] at h
    obtain ⟨payload, -, hosts, hhosts, rfl⟩ := h
    rcases row_of_updateHost hhosts with rfl | ⟨row, rfl, hkind⟩
    · exact { Kept.refl t with }
    · exact { Kept.refl t with hosts := isSome_getHost_set hkind }
  | streams =>
    simp only [updateDocument, bind_eq_ok_iff, pure_eq_ok_iff] at h
    obtain ⟨payload, -, streams, hstreams, rfl⟩ := h
    rcases updateStream_cases hstreams with ⟨rfl, -⟩ | ⟨stored, row, -, rfl, -⟩
    · exact { Kept.refl t with }
    · exact { Kept.refl t with streams := isSome_get?_set id row }
  | certificates =>
    simp only [updateDocument, bind_eq_ok_iff, pure_eq_ok_iff] at h
    obtain ⟨payload, -, certificates, hcertificates, rfl⟩ := h
    rcases updateCertificate_cases hcertificates with ⟨rfl, -⟩ | ⟨stored, row, -, rfl, -⟩
    · exact { Kept.refl t with }
    · exact { Kept.refl t with certificates := isSome_get?_set id row }
  | accessLists =>
    simp only [updateDocument, bind_eq_ok_iff, pure_eq_ok_iff] at h
    obtain ⟨⟨payload, identityIds⟩, -, access, haccess, members, -, rfl⟩ := h
    rcases updateAccessList_cases haccess with ⟨rfl, -⟩ | ⟨stored, -, hwrote⟩
    · exact { Kept.refl t with }
    · exact { Kept.refl t with accessLists := isSome_of_wrote hwrote }
  | settings =>
    simp only [updateDocument, bind_eq_ok_iff, pure_eq_ok_iff] at h
    obtain ⟨-, -, -, -, rfl⟩ := h
    exact { Kept.refl t with settings := isSome_get?_set id _ }
  | users =>
    simp only [updateDocument, writeUser, bind_eq_ok_iff, pure_eq_ok_iff] at h
    obtain ⟨users, ⟨v, -, roles, -, permissions, -, husers⟩, rfl⟩ := h
    unfold updateIdentity at husers
    split at husers
    · exact absurd husers throw_ne_ok
    · simp only [bind_eq_ok_iff, pure_eq_ok_iff] at husers
      obtain ⟨-, -, rfl⟩ := husers
      refine { Kept.refl t with users := fun id' hid' => ?_ }
      exact isSome_get?_set id _ id' hid'

end Portwyrm.Tables

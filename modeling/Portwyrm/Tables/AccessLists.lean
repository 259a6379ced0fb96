import Portwyrm.Runtime.AccessTables
import Portwyrm.Tables.Fields
import Portwyrm.Tables.Lifecycle

/-!
# Access lists

The operations of `TableResources` on access lists, over `AccessListStore` of
`portwyrm.tables.access`.  An update shows the caller the names of the credentials without their
hashes and writes them back, so a name without a password keeps its hash.
-/

namespace Portwyrm.Tables

open Base Portwyrm.Runtime Portwyrm.Identity

/-! ## Payloads -/

/-- The members of a credential; a name that is null counts as absent. -/
structure CredentialPayload where
  username : Option String := none
  passwordHash : Member String := none
  password : Member String := none

/-- `str(credential.get("password_hash", credential.get("password", "")))`. -/
def CredentialPayload.supplied (credential : CredentialPayload) : String :=
  match credential.passwordHash.or credential.password with
  | some value => orNone value
  | none => ""

/-- The members of a payload for an access list; what no operation reads is kept as an extension. -/
structure AccessListPayload where
  name : Member String := none
  satisfyAny : Member Bool := none
  passAuth : Member Bool := none
  items : Member (List CredentialPayload) := none
  credentials : Member (List CredentialPayload) := none
  clients : Member (List (String × AccessDirective)) := none
  extensions : Dict String Json := Dict.empty

/-- `{**stored, **payload}`. -/
def AccessListPayload.over (payload stored : AccessListPayload) : AccessListPayload where
  name := payload.name.or stored.name
  satisfyAny := payload.satisfyAny.or stored.satisfyAny
  passAuth := payload.passAuth.or stored.passAuth
  items := payload.items.or stored.items
  credentials := payload.credentials.or stored.credentials
  clients := payload.clients.or stored.clients
  extensions := stored.extensions.update payload.extensions

/-- The members that `_replace_children` writes:
`payload.get("items", payload.get("credentials", [])) or []` and the rules. -/
def AccessListPayload.aggregate (payload : AccessListPayload) : AccessPayload where
  clients := payload.clients.get.getD []
  credentials := (Member.get (payload.items.or payload.credentials)).getD [] |>.map fun credential =>
    (textOr credential.username "", credential.supplied)

/-- `_values`. -/
def accessListRow (payload : AccessListPayload) : AccessListRow where
  name := textOr payload.name.get ""
  satisfyAny := payload.satisfyAny.truthy false
  passAuth := payload.passAuth.truthy false
  extensions := payload.extensions

/-- `_project`, without the hashes. -/
def projectAccessList (t : AccessTables) (id : ℕ) (row : AccessListRow) : AccessListPayload where
  name := .of row.name
  satisfyAny := .of row.satisfyAny
  passAuth := .of row.passAuth
  items := .of ((t.credentialsOf id).map fun r => { username := some r.username })
  clients := .of ((t.rulesOf id).map fun r => (r.address, r.directive))
  extensions := row.extensions

/-! ## Operations -/

section Operations

variable (bcryptHash : ℕ → String → String) (actor : Actor)

/-- `create_resource("access_lists", payload)`. -/
def createAccessList (payload : AccessListPayload) (t : AccessTables) : Result AccessTables := do
  enforceAuthorization actor "access_lists" .create
  replaceChildren bcryptHash t.lists.next payload.aggregate
    { t with lists := t.lists.add (accessListRow payload) }

/-- The `update` and `replace` operations of the table, for a row that is there; an access list has
no owner column. -/
def storeAccessList (id : ℕ) (stored : AccessListRow) (payload : AccessListPayload)
    (t : AccessTables) (h : id ∈ t.lists.rows) : Result AccessTables := do
  enforceAuthorization actor "access_lists" .update
  enforceOwnership actor none stored.extensions
  replaceChildren bcryptHash id payload.aggregate
    { t with lists := t.lists.setRow id (accessListRow payload) h }

/-- `update_resource("access_lists", id, payload)`; `prepare_aggregate` merges the projection once
more, which changes nothing. -/
def updateAccessList (id : ℕ) (payload : AccessListPayload) (t : AccessTables) :
    Result AccessTables :=
  match h : t.lists.get? id with
  | none => pure t
  | some stored =>
    storeAccessList bcryptHash actor id stored (payload.over (projectAccessList t id stored)) t
      (Dict.mem_iff.mpr ⟨stored, h⟩)

/-- `replace_resource("access_lists", id, payload)`. -/
def replaceAccessList (id : ℕ) (payload : AccessListPayload) (t : AccessTables) :
    Result AccessTables :=
  match h : t.lists.get? id with
  | none => pure t
  | some stored =>
    storeAccessList bcryptHash actor id stored payload t (Dict.mem_iff.mpr ⟨stored, h⟩)

end Operations

/-! ## What a write leaves behind -/

section Written

variable {bcryptHash : ℕ → String → String} {actor : Actor} {t t' : AccessTables} {id : ℕ}

/-- A write stores one row, and its rules and credentials. -/
structure Wrote (bcryptHash : ℕ → String → String) (id : ℕ) (payload : AccessListPayload)
    (t t' : AccessTables) : Prop where
  row : t'.lists.get? id = some (accessListRow payload)
  others : ∀ other ≠ id, t'.lists.get? other = t.lists.get? other
  next : t.lists.next ≤ t'.lists.next
  rules : ∀ r ∈ t'.rulesOf id, normalizeAddress r.address = .ok r.address
  pairs : t'.pairsOf id = storedPairs bcryptHash id payload.aggregate t
  valid : ∀ r ∈ t'.credentialsOf id,
    ∃ c, AccessCredential.validate r.username r.passwordHash = .ok c
  otherRules : ∀ other ≠ id, t'.rulesOf other = t.rulesOf other
  otherCredentials : ∀ other ≠ id, t'.credentialsOf other = t.credentialsOf other

lemma wrote_of_replaceChildren {payload : AccessListPayload} {lists : Table AccessListRow}
    (hrow : lists.get? id = some (accessListRow payload))
    (hothers : ∀ other ≠ id, lists.get? other = t.lists.get? other)
    (hnext : t.lists.next ≤ lists.next)
    (h : replaceChildren bcryptHash id payload.aggregate { t with lists := lists } = .ok t') :
    Wrote bcryptHash id payload t t' := by
  have hreplaced := replaced_of_replaceChildren h
  exact
    { row := by rw [hreplaced.lists, hrow]
      others := fun other hne => by rw [hreplaced.lists, hothers other hne]
      next := by
        rw [hreplaced.lists]
        exact hnext
      rules := by
        intro r hr
        obtain ⟨rule, -, hnormal, -⟩ := Numeral.exists_of_mem_right hreplaced.rules hr
        exact normalizeAddress_idem hnormal
      pairs := hreplaced.pairs
      valid := hreplaced.valid
      otherRules := hreplaced.otherRules
      otherCredentials := hreplaced.otherCredentials }

lemma wrote_of_createAccessList {payload : AccessListPayload}
    (h : createAccessList bcryptHash actor payload t = .ok t') :
    Wrote bcryptHash t.lists.next payload t t' := by
  simp only [createAccessList, bind_eq_ok_iff] at h
  obtain ⟨-, -, h⟩ := h
  refine wrote_of_replaceChildren ?_ ?_ (Nat.le_succ _) h
  · rw [Table.get?_add, if_pos rfl]
  · intro other hne
    rw [Table.get?_add, if_neg hne]

lemma wrote_of_storeAccessList {stored : AccessListRow} {payload : AccessListPayload}
    {hmem : id ∈ t.lists.rows}
    (h : storeAccessList bcryptHash actor id stored payload t hmem = .ok t') :
    Wrote bcryptHash id payload t t' := by
  simp only [storeAccessList, bind_eq_ok_iff] at h
  obtain ⟨-, -, -, -, h⟩ := h
  refine wrote_of_replaceChildren ?_ ?_ ?_ h
  · rw [Table.get?_setRow, if_pos rfl]
  · intro other hne
    rw [Table.get?_setRow, if_neg hne]
  · exact le_rfl

/-- What an update or a replacement writes: nothing, when the id is not in use. -/
lemma updateAccessList_cases {payload : AccessListPayload}
    (h : updateAccessList bcryptHash actor id payload t = .ok t') :
    t' = t ∧ t.lists.get? id = none ∨ ∃ stored, t.lists.get? id = some stored ∧
      Wrote bcryptHash id (payload.over (projectAccessList t id stored)) t t' := by
  unfold updateAccessList at h
  split at h
  · rename_i hnone
    exact .inl ⟨(pure_eq_ok_iff.mp h).symm, hnone⟩
  · rename_i stored hstored
    exact .inr ⟨stored, hstored, wrote_of_storeAccessList h⟩

lemma replaceAccessList_cases {payload : AccessListPayload}
    (h : replaceAccessList bcryptHash actor id payload t = .ok t') :
    t' = t ∧ t.lists.get? id = none ∨
      (∃ stored, t.lists.get? id = some stored) ∧ Wrote bcryptHash id payload t t' := by
  unfold replaceAccessList at h
  split at h
  · rename_i hnone
    exact .inl ⟨(pure_eq_ok_iff.mp h).symm, hnone⟩
  · rename_i stored hstored
    exact .inr ⟨⟨stored, hstored⟩, wrote_of_storeAccessList h⟩

end Written

end Portwyrm.Tables

import Portwyrm.Base.Merging
import Portwyrm.Tables.AccessLists

/-!
# What an update of an access list leaves alone

An access list that is written from a candidate keeps every member that the candidate has as the
list shows it.  The candidate shows the names of the credentials without their hashes; a name gets
back the hash that is stored for it, so the credentials stay when no name has two hashes.
-/

namespace Portwyrm.Tables

open Base Portwyrm.Runtime Portwyrm.Identity

/-! ## Access lists with their identities -/

/-- The tables of access lists, with the rows of `access_list_principals` by access list. -/
structure AccessStore where
  tables : AccessTables
  identities : Dict ℕ (List ℕ)

/-- A payload for an access list with its identities. -/
structure AccessDocument where
  list : AccessListPayload := {}
  identityIds : Member (List ℕ) := none

/-- `{**stored, **payload}`. -/
def AccessDocument.over (payload stored : AccessDocument) : AccessDocument where
  list := payload.list.over stored.list
  identityIds := payload.identityIds.or stored.identityIds

/-- The identities of an access list. -/
def AccessStore.identitiesOf (s : AccessStore) (id : ℕ) : List ℕ := (s.identities.get? id).getD []

/-- `_project(include_hashes=False)`, which the API returns. -/
def AccessStore.read (id : ℕ) (s : AccessStore) : Option AccessDocument :=
  (s.tables.lists.get? id).map fun row =>
    { list := projectAccessList s.tables id row
      identityIds := .of (s.identitiesOf id) }

/-- `_project(include_hashes=True)`, which shows the credentials whole. -/
def AccessStore.shown (id : ℕ) (s : AccessStore) : Option AccessDocument :=
  (s.tables.lists.get? id).map fun row =>
    { list := { projectAccessList s.tables id row with
        items := .of ((s.tables.pairsOf id).map fun pair =>
          { username := some pair.1, password := .of pair.2 }) }
      identityIds := .of (s.identitiesOf id) }

/-- The `update` operation of the table.  `prepare_aggregate` lays the candidate over the row once
more; a candidate that was read before names its items, so the hashes of the row do not come up. -/
def updateAccessDocument (principals : List ℕ) (id : ℕ) (digest : ℕ → String → String)
    (actor : Actor) (candidate : AccessDocument) (s : AccessStore) : Result AccessStore := do
  raiseIf (id ∉ s.tables.lists.rows) (.http 404 "Not Found")
  let tables ← updateAccessList digest actor id candidate.list s.tables
  let ids := (Member.get (candidate.identityIds.or (Member.of (s.identitiesOf id)))).getD []
  raiseIf (¬ ids.Nodup ∨ ∃ principal ∈ ids, principal ∉ principals) .integrityError
  pure { tables := tables, identities := s.identities.set id ids }

/-! ## Members -/

/-- The members of a payload for an access list. -/
inductive AccessMember
  | name
  | satisfyAny
  | passAuth
  | items
  | credentials
  | clients
  | identityIds
  | extension (key : String)

/-- The values of a member. -/
def AccessMember.Value : AccessMember → Type
  | name => Option String
  | satisfyAny | passAuth => Option Bool
  | items | credentials => Option (List CredentialPayload)
  | clients => Option (List (String × AccessDirective))
  | identityIds => Option (List ℕ)
  | extension _ => Json

/-- A member of a payload. -/
def AccessDocument.get (d : AccessDocument) : (k : AccessMember) → Option k.Value
  | .name => d.list.name
  | .satisfyAny => d.list.satisfyAny
  | .passAuth => d.list.passAuth
  | .items => d.list.items
  | .credentials => d.list.credentials
  | .clients => d.list.clients
  | .identityIds => d.identityIds
  | .extension key => d.list.extensions.get? key

/-- The members of access lists. -/
def accessMembers : Members AccessDocument where
  Key := AccessMember
  Value := AccessMember.Value
  get k d := d.get k
  overlay := AccessDocument.over
  get_overlay k payload stored := by
    cases k with
    | extension key => exact Dict.get?_update stored.list.extensions payload.list.extensions key
    | _ => rfl

/-- The updates of one access list, which has no flag to set. -/
def accessStore (principals : List ℕ) (id : ℕ) :
    MergingStore AccessStore AccessDocument (Actor × (ℕ → String → String)) Exc where
  members := accessMembers
  read := AccessStore.read id
  shown := AccessStore.shown id
  rereads := true
  write caller := updateAccessDocument principals id caller.2 caller.1
  toggle _ _ _ := throw (.valueError "collection 'access_lists' does not support enable/disable")
  toggled _ := {}
  Valid s := id ∈ s.tables.lists.rows
  Settled s := id ∈ s.tables.lists.rows ∧
    ∀ r ∈ s.tables.rulesOf id, normalizeAddress r.address = .ok r.address
  Free k _ s := k = .items → Dict.Functional (s.tables.pairsOf id)

section Frame

variable {principals : List ℕ} {id : ℕ} {actor : Actor} {candidate : AccessDocument}
  {s s' : AccessStore} {t t' : AccessTables}

/-- A name that is supplied without a password gets back the hash that is stored for it. -/
lemma credentialHash_of_stored (digest : ℕ → String → String) {pair : String × String} {position : ℕ}
    (hfunctional : Dict.Functional (t.pairsOf id)) (hpair : pair ∈ t.pairsOf id) :
    credentialHash digest (existingCredentials id t) ((pair.1, ""), position) = pair.2 := by
  have hget : (existingCredentials id t).get? pair.1 = some pair.2 :=
    (Dict.get?_ofList_iff_of_functional hfunctional).mpr hpair
  simp [credentialHash, hget]

/-- The names of an access list are stored again with their hashes. -/
lemma storedPairs_of_names (digest : ℕ → String → String) {payload : AccessListPayload}
    (hitems : payload.items = Member.of ((t.credentialsOf id).map fun r =>
      { username := some r.username }))
    (hfunctional : Dict.Functional (t.pairsOf id)) :
    storedPairs digest id payload.aggregate t = t.pairsOf id := by
  have hnames : payload.aggregate.credentials = (t.pairsOf id).map fun pair => (pair.1, "") := by
    simp only [AccessListPayload.aggregate, hitems, AccessTables.pairsOf, List.map_map]
    refine (List.map_map ..).trans (List.map_congr_left fun r _ => ?_)
    exact Prod.ext (textOr_empty r.username) rfl
  rw [storedPairs, hnames, List.zipIdx_map, List.map_map]
  calc (t.pairsOf id).zipIdx.map _ = (t.pairsOf id).zipIdx.map Prod.fst := by
        refine List.map_congr_left fun entry hentry => ?_
        exact Prod.ext rfl (credentialHash_of_stored digest hfunctional
          (List.fst_mem_of_mem_zipIdx hentry))
    _ = t.pairsOf id := List.zipIdx_map_fst 0 _

/-- Rules whose addresses are normal are stored as they are. -/
lemma clients_kept {clients : List (String × AccessDirective)} {rules : List AccessRuleRow}
    (hnormal : ∀ client ∈ clients, normalizeAddress client.1 = .ok client.1)
    (h : List.Forall₂ (fun (client : String × AccessDirective) (r : AccessRuleRow) =>
      normalizeAddress client.1 = .ok r.address ∧ r.directive = client.2) clients rules) :
    rules.map (fun r => (r.address, r.directive)) = clients := by
  induction h with
  | nil => rfl
  | cons hrule _ ih =>
    obtain ⟨haddress, hdirective⟩ := hrule
    rw [hnormal _ List.mem_cons_self] at haddress
    rw [List.map_cons, ih fun r hr => hnormal r (List.mem_cons_of_mem _ hr), hdirective,
      ← Except.ok.inj haddress]

/-- The rules that an update writes. -/
lemma rules_updateAccessList {digest : ℕ → String → String} {payload : AccessListPayload}
    {row : AccessListRow} (hrow : t.lists.get? id = some row)
    (h : updateAccessList digest actor id payload t = .ok t') :
    List.Forall₂ (fun (rule : String × AccessDirective) (r : AccessRuleRow) =>
        normalizeAddress rule.1 = .ok r.address ∧ r.directive = rule.2)
      (payload.over (projectAccessList t id row)).aggregate.clients (t'.rulesOf id) := by
  unfold updateAccessList at h
  split at h
  · rename_i hnone
    exact absurd (hrow.symm.trans hnone) (by simp)
  · rename_i stored hstored
    obtain rfl : stored = row := Option.some.inj (hstored.symm.trans hrow)
    simp only [storeAccessList, bind_eq_ok_iff] at h
    obtain ⟨-, -, -, -, h⟩ := h
    exact (replaced_of_replaceChildren h).rules

/-- What the `update` operation writes. -/
lemma updateAccessDocument_spec {digest : ℕ → String → String} {row : AccessListRow}
    (hrow : s.tables.lists.get? id = some row)
    (h : updateAccessDocument principals id digest actor candidate s = .ok s') :
    updateAccessList digest actor id candidate.list s.tables = .ok s'.tables ∧
      Wrote digest id (candidate.list.over (projectAccessList s.tables id row)) s.tables s'.tables ∧
      s'.identitiesOf id =
        (Member.get (candidate.identityIds.or (Member.of (s.identitiesOf id)))).getD [] := by
  simp only [updateAccessDocument, bind_eq_ok_iff, raiseIf_eq_ok_iff, not_not, pure_eq_ok_iff] at h
  obtain ⟨-, -, tables, htables, -, -, rfl⟩ := h
  rcases updateAccessList_cases htables with ⟨-, hnone⟩ | ⟨stored, hstored, hwrote⟩
  · exact absurd (hrow.symm.trans hnone) (by simp)
  · obtain rfl : stored = row := Option.some.inj (hstored.symm.trans hrow)
    refine ⟨htables, hwrote, ?_⟩
    simp only [AccessStore.identitiesOf, Dict.get?_set_self, Option.getD_some]

/-- A write of a candidate keeps the members that the candidate has as the row shows them. -/
theorem accessFrame {digest : ℕ → String → String} {row : AccessListRow} {read shown : AccessDocument}
    (hrow : s.tables.lists.get? id = some row) (hread : s.read id = some read)
    (hshown : s.shown id = some shown)
    (hnormal : ∀ r ∈ s.tables.rulesOf id, normalizeAddress r.address = .ok r.address)
    (h : updateAccessDocument principals id digest actor candidate s = .ok s') (k : AccessMember)
    (hk : (candidate.over read).get k = read.get k)
    (hfree : k = .items → Dict.Functional (s.tables.pairsOf id)) :
    ∃ shown', s'.shown id = some shown' ∧ shown'.get k = shown.get k := by
  obtain ⟨hupdate, hwrote, hids⟩ := updateAccessDocument_spec hrow h
  have hrow' := hwrote.row
  have hread' : read = ⟨projectAccessList s.tables id row, Member.of (s.identitiesOf id)⟩ := by
    rw [AccessStore.read, hrow] at hread
    exact (Option.some.inj hread).symm
  subst hread'
  simp only [AccessStore.shown, hrow, Option.map_some, Option.some.injEq] at hshown
  subst hshown
  simp only [AccessStore.shown, hrow', Option.map_some, Option.some.injEq, exists_eq_left']
  generalize hpayload : candidate.list.over (projectAccessList s.tables id row) = payload at *
  have hk' : AccessDocument.get ⟨payload, candidate.identityIds.or (Member.of (s.identitiesOf id))⟩ k =
      AccessDocument.get ⟨projectAccessList s.tables id row, Member.of (s.identitiesOf id)⟩ k := by
    rw [← hpayload]
    exact hk
  cases k with
  | name =>
    change payload.name = Member.of row.name at hk'
    change Member.of (textOr payload.name.get "") = Member.of row.name
    rw [hk', Member.get_of, textOr_empty]
  | satisfyAny =>
    change payload.satisfyAny = Member.of row.satisfyAny at hk'
    change Member.of (payload.satisfyAny.truthy false) = Member.of row.satisfyAny
    rw [hk', Member.truthy_of]
  | passAuth =>
    change payload.passAuth = Member.of row.passAuth at hk'
    change Member.of (payload.passAuth.truthy false) = Member.of row.passAuth
    rw [hk', Member.truthy_of]
  | items =>
    have hpairs := hwrote.pairs
    rw [storedPairs_of_names digest hk' (hfree rfl)] at hpairs
    exact congrArg (fun pairs : List (String × String) => Member.of (pairs.map fun pair =>
      ({ username := some pair.1, password := .of pair.2 } : CredentialPayload))) hpairs
  | credentials => rfl
  | clients =>
    change payload.clients =
      Member.of ((s.tables.rulesOf id).map fun r => (r.address, r.directive)) at hk'
    have hrules := rules_updateAccessList hrow hupdate
    rw [hpayload, AccessListPayload.aggregate, hk', Member.get_of, Option.getD_some] at hrules
    exact congrArg Member.of (clients_kept (List.forall_mem_map.mpr hnormal) hrules)
  | identityIds =>
    change candidate.identityIds.or (Member.of (s.identitiesOf id)) = Member.of (s.identitiesOf id)
      at hk'
    change Member.of (s'.identitiesOf id) = Member.of (s.identitiesOf id)
    rw [hids, hk', Member.get_of, Option.getD_some]
  | extension key => exact hk'

end Frame

theorem accessStore_lawful {principals : List ℕ} {id : ℕ} : (accessStore principals id).Lawful where
  write_settles := by
    rintro ⟨actor, digest⟩ candidate s s' hvalid h
    obtain ⟨row, hrow⟩ := Dict.mem_iff.mp hvalid
    obtain ⟨-, hwrote, -⟩ := updateAccessDocument_spec hrow h
    have hmem : id ∈ s'.tables.lists.rows := Dict.mem_iff.mpr ⟨_, hwrote.row⟩
    exact ⟨hmem, hmem, hwrote.rules⟩
  toggle_settles := fun _ h => absurd h throw_ne_ok
  write_frame := by
    rintro ⟨actor, digest⟩ candidate s s' ⟨hmem, hnormal⟩ h k hk hfree
    obtain ⟨row, hstored⟩ := Dict.mem_iff.mp hmem
    have hrow : s.tables.lists.get? id = some row := hstored
    have hread : s.read id =
        some ⟨projectAccessList s.tables id row, Member.of (s.identitiesOf id)⟩ := by
      rw [AccessStore.read, hrow]
      rfl
    obtain ⟨shown, hshown⟩ : ∃ shown, s.shown id = some shown := by
      rw [AccessStore.shown, hrow]
      exact ⟨_, rfl⟩
    have hmerged : (accessStore principals id).merged candidate s =
        candidate.over ⟨projectAccessList s.tables id row, Member.of (s.identitiesOf id)⟩ := by
      simp only [MergingStore.merged, accessStore, hread]
      rfl
    have hreads : (accessStore principals id).readsAt s k = AccessDocument.get
        ⟨projectAccessList s.tables id row, Member.of (s.identitiesOf id)⟩ k := by
      simp only [MergingStore.readsAt, accessStore, hread, Option.bind_some]
      rfl
    rw [hmerged, hreads] at hk
    obtain ⟨shown', hshown', hsame⟩ := accessFrame hrow hread hshown hnormal h k hk hfree
    simp only [MergingStore.showsAt, accessStore, hshown, hshown', Option.bind_some]
    exact hsame
  toggle_frame := fun h => absurd h throw_ne_ok

end Portwyrm.Tables

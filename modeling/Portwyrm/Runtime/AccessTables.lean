import Portwyrm.Base.FirstMatch
import Portwyrm.Base.Json
import Portwyrm.Base.Table
import Portwyrm.Runtime.NginxPrimitives

/-!
# Stored access lists

`AccessListStore` of `portwyrm.tables.access`: the rows of an access list, how an aggregate is
written, and the private projection that rendering reads.  Principals of an access list do not
reach the renderer and are left out.
-/

namespace Portwyrm.Runtime

open Base

/-! ## Rows -/

/-- A row of `access_lists`. -/
structure AccessListRow where
  name : String
  satisfyAny : Bool := false
  passAuth : Bool := false
  extensions : Dict String Json := Dict.empty

/-- A row of `access_list_rules`. -/
structure AccessRuleRow where
  accessListId : ℕ
  position : ℕ
  directive : AccessDirective
  address : String

/-- A row of `access_list_credentials`. -/
structure AccessCredentialRow where
  accessListId : ℕ
  username : String
  passwordHash : String

/-- The tables of `portwyrm.tables.access`. -/
structure AccessTables where
  lists : Table AccessListRow
  rules : Table AccessRuleRow
  credentials : Table AccessCredentialRow

/-- The rules of an access list by position. -/
def AccessTables.rulesOf (t : AccessTables) (id : ℕ) : List AccessRuleRow :=
  sortedBy natLe AccessRuleRow.position (t.rules.select fun r => r.accessListId = id)

/-- The credentials of an access list. -/
def AccessTables.credentialsOf (t : AccessTables) (id : ℕ) : List AccessCredentialRow :=
  t.credentials.select fun r => r.accessListId = id

/-! ## Writing an aggregate -/

/-- The members of an aggregate payload: rules, and names with the password or hash supplied. -/
structure AccessPayload where
  clients : List (String × AccessDirective) := []
  credentials : List (String × String) := []

section ReplaceChildren

-- `_bcrypt_hash` draws a salt for each credential, so the hash depends on its position
variable (bcryptHash : ℕ → String → String) (id : ℕ)

/-- One rule of the payload at its position. -/
def addRule (rules : Table AccessRuleRow) (rule : (String × AccessDirective) × ℕ) :
    Result (Table AccessRuleRow) := do
  let runtimeRule ← AccessClient.validate rule.1.1 rule.1.2
  pure (rules.add ⟨id, rule.2, runtimeRule.directive, runtimeRule.address⟩)

/-- A supplied text that is a hash already. -/
def isBcrypt (supplied : String) : Bool :=
  ["$2a$", "$2b$", "$2y$"].any fun start => start.toList.isPrefixOf supplied.toList

/-- The hash of a credential of the payload at its position; a name without a password keeps its
stored hash. -/
def credentialHash (existing : Dict String String) (credential : (String × String) × ℕ) : String :=
  let given := credential.1.2
  let supplied :=
    if given ≠ "" ∧ isBcrypt given = false then bcryptHash credential.2 given else given
  if supplied ≠ "" then supplied else (existing.get? credential.1.1).getD ""

/-- One credential of the payload at its position. -/
def addCredential (existing : Dict String String) (credentials : Table AccessCredentialRow)
    (credential : (String × String) × ℕ) : Result (Table AccessCredentialRow) := do
  let username := credential.1.1
  let passwordHash := credentialHash bcryptHash existing credential
  raiseIf (username = "" ∨ passwordHash = "")
    (.valueError "access credentials require a username and password")
  let _ ← AccessCredential.validate username passwordHash
  pure (credentials.add ⟨id, username, passwordHash⟩)

/-- `existing_credentials`: the stored hashes by name. -/
def existingCredentials (t : AccessTables) : Dict String String :=
  Dict.ofList ((t.credentialsOf id).map fun r => (r.username, r.passwordHash))

/-- `_replace_children`. -/
def replaceChildren (payload : AccessPayload) (t : AccessTables) : Result AccessTables := do
  let existing := existingCredentials id t
  let rules ← payload.clients.zipIdx.foldlM (addRule id)
    (t.rules.deleteWhere fun r => r.accessListId = id)
  let credentials ← payload.credentials.zipIdx.foldlM (addCredential bcryptHash id existing)
    (t.credentials.deleteWhere fun r => r.accessListId = id)
  pure { t with rules := rules, credentials := credentials }

end ReplaceChildren

/-! ### What is written -/

section Written

variable {bcryptHash : ℕ → String → String} {id : ℕ} {payload : AccessPayload} {t t' : AccessTables}

/-- The names and hashes of an access list. -/
def AccessTables.pairsOf (t : AccessTables) (id : ℕ) : List (String × String) :=
  (t.credentialsOf id).map fun r => (r.username, r.passwordHash)

/-- The names and hashes that `_replace_children` stores. -/
def storedPairs (bcryptHash : ℕ → String → String) (id : ℕ) (payload : AccessPayload)
    (t : AccessTables) : List (String × String) :=
  payload.credentials.zipIdx.map fun credential =>
    (credential.1.1, credentialHash bcryptHash (existingCredentials id t) credential)

/-- The rules of a payload are stored behind those that are there, in their order. -/
lemma foldlM_addRule {clients : List ((String × AccessDirective) × ℕ)}
    {rules rules' : Table AccessRuleRow} (h : clients.foldlM (addRule id) rules = .ok rules') :
    ∃ rows, rules'.rows.values = rules.rows.values ++ rows ∧
      List.Forall₂ (fun rule (r : AccessRuleRow) => r.accessListId = id ∧ r.position = rule.2 ∧
        normalizeAddress rule.1.1 = .ok r.address ∧ r.directive = rule.1.2) clients rows := by
  refine Table.foldlM_add (fun table rule table' hadd => ?_) h
  simp only [addRule, bind_eq_ok_iff, pure_eq_ok_iff] at hadd
  obtain ⟨c, hc, rfl⟩ := hadd
  obtain ⟨hnormal, hdirective⟩ := AccessClient.validate_eq_ok hc
  exact ⟨_, rfl, rfl, rfl, hnormal, hdirective⟩

/-- The credentials of a payload are stored behind those that are there, in their order. -/
lemma foldlM_addCredential {existing : Dict String String}
    {given : List ((String × String) × ℕ)} {credentials credentials' : Table AccessCredentialRow}
    (h : given.foldlM (addCredential bcryptHash id existing) credentials = .ok credentials') :
    ∃ rows, credentials'.rows.values = credentials.rows.values ++ rows ∧
      List.Forall₂ (fun credential (r : AccessCredentialRow) => r.accessListId = id ∧
        (credential.1.1, credentialHash bcryptHash existing credential) =
          (r.username, r.passwordHash) ∧
        ∃ c, AccessCredential.validate r.username r.passwordHash = .ok c) given rows := by
  refine Table.foldlM_add (fun table credential table' hadd => ?_) h
  simp only [addCredential, bind_eq_ok_iff, pure_eq_ok_iff] at hadd
  obtain ⟨-, -, c, hc, rfl⟩ := hadd
  exact ⟨_, rfl, rfl, rfl, c, hc⟩

/-- The rows of one access list among those that stay and those that are added. -/
lemma filter_replaced {ρ : Type} (listOf : ρ → ℕ) (old rows : List ρ)
    (hrows : ∀ r ∈ rows, listOf r = id) (other : ℕ) :
    ((old.filter fun r => !decide (listOf r = id)) ++ rows).filter
      (fun r => decide (listOf r = other)) =
      if other = id then rows else old.filter fun r => decide (listOf r = other) := by
  rw [List.filter_append, List.filter_filter]
  split
  · rename_i heq
    subst heq
    have hnone : old.filter (fun r => decide (listOf r = other) && !decide (listOf r = other)) =
        [] := by
      simp
    have hall : rows.filter (fun r => decide (listOf r = other)) = rows :=
      List.filter_eq_self.mpr fun r hr => by simpa using hrows r hr
    rw [hnone, hall, List.nil_append]
  · rename_i hne
    have hnone : rows.filter (fun r => decide (listOf r = other)) = [] := by
      rw [List.filter_eq_nil_iff]
      intro r hr
      simpa [hrows r hr] using fun h : id = other => hne h.symm
    rw [hnone, List.append_nil]
    refine List.filter_congr fun r _ => ?_
    by_cases hr : listOf r = other
    · simp [hr, hne]
    · simp [hr]

/-- What writing an aggregate leaves behind: its own rules, normalised, and its credentials in the
order of the payload, and the rows of all other access lists. -/
structure Replaced (bcryptHash : ℕ → String → String) (id : ℕ) (payload : AccessPayload)
    (t t' : AccessTables) : Prop where
  lists : t'.lists = t.lists
  rules : List.Forall₂ (fun (rule : String × AccessDirective) (r : AccessRuleRow) =>
    normalizeAddress rule.1 = .ok r.address ∧ r.directive = rule.2) payload.clients (t'.rulesOf id)
  pairs : t'.pairsOf id = storedPairs bcryptHash id payload t
  valid : ∀ r ∈ t'.credentialsOf id, ∃ c, AccessCredential.validate r.username r.passwordHash = .ok c
  otherRules : ∀ other ≠ id, t'.rulesOf other = t.rulesOf other
  otherCredentials : ∀ other ≠ id, t'.credentialsOf other = t.credentialsOf other

theorem replaced_of_replaceChildren (h : replaceChildren bcryptHash id payload t = .ok t') :
    Replaced bcryptHash id payload t t' := by
  simp only [replaceChildren, bind_eq_ok_iff, pure_eq_ok_iff] at h
  obtain ⟨rules, hrules, credentials, hcredentials, rfl⟩ := h
  obtain ⟨ruleRows, hruleValues, hruleRows⟩ := foldlM_addRule hrules
  obtain ⟨rows, hvalues, hrows⟩ := foldlM_addCredential hcredentials
  have hruleOf : ∀ r ∈ ruleRows, r.accessListId = id := fun r hr => by
    obtain ⟨_, -, hr⟩ := Numeral.exists_of_mem_right hruleRows hr
    exact hr.1
  have hrowOf : ∀ r ∈ rows, r.accessListId = id := fun r hr => by
    obtain ⟨_, -, hr⟩ := Numeral.exists_of_mem_right hrows hr
    exact hr.1
  have hselectRules : ∀ other, (rules.select fun r => r.accessListId = other) =
      if other = id then ruleRows else t.rules.select fun r => r.accessListId = other := by
    intro other
    rw [Table.select, hruleValues, Table.values_deleteWhere]
    exact filter_replaced AccessRuleRow.accessListId _ _ hruleOf other
  have hselect : ∀ other, (credentials.select fun r => r.accessListId = other) =
      if other = id then rows else t.credentials.select fun r => r.accessListId = other := by
    intro other
    rw [Table.select, hvalues, Table.values_deleteWhere]
    exact filter_replaced AccessCredentialRow.accessListId _ _ hrowOf other
  have hpairs : rows.map (fun r => (r.username, r.passwordHash)) =
      storedPairs bcryptHash id payload t := by
    exact (Numeral.map_eq_map (hrows.imp fun _ _ h => h.2.1)).symm
  -- the positions of the new rules increase, so sorting leaves them alone
  have hsorted : ruleRows.Pairwise fun a b => natLe a.position b.position = true := by
    have hpositions : ruleRows.map AccessRuleRow.position =
        List.range' 0 payload.clients.length := by
      rw [← List.zipIdx_map_snd]
      exact (Numeral.map_eq_map (hruleRows.imp fun _ _ h => h.2.1.symm)).symm
    have hrange : (ruleRows.map AccessRuleRow.position).Pairwise fun a b => natLe a b = true := by
      rw [hpositions]
      exact (List.pairwise_lt_range' _).imp fun h => by simpa [natLe] using h.le
    exact List.pairwise_map.mp hrange
  exact
    { lists := rfl
      rules := by
        have hclients : payload.clients.zipIdx.map Prod.fst = payload.clients :=
          List.zipIdx_map_fst 0 _
        rw [AccessTables.rulesOf, hselectRules, if_pos rfl, sortedBy, hsorted.insertionSort_eq,
          ← hclients, List.forall₂_map_left_iff]
        exact hruleRows.imp fun _ _ h => h.2.2
      pairs := by
        rw [AccessTables.pairsOf, AccessTables.credentialsOf, hselect, if_pos rfl, hpairs]
      valid := by
        intro r hr
        rw [AccessTables.credentialsOf, hselect, if_pos rfl] at hr
        obtain ⟨_, -, hr⟩ := Numeral.exists_of_mem_right hrows hr
        exact hr.2.2
      otherRules := fun other hne => by
        rw [AccessTables.rulesOf, hselectRules, if_neg hne, AccessTables.rulesOf]
      otherCredentials := fun other hne => by
        rw [AccessTables.credentialsOf, hselect, if_neg hne, AccessTables.credentialsOf] }

end Written

/-! ## Reading -/

/-- `_runtime_projection` of `_project`. -/
def runtimeProjection (t : AccessTables) (id : ℕ) (row : AccessListRow) : Result AccessList := do
  let credentials ← (t.credentialsOf id).mapM fun r =>
    AccessCredential.validate r.username r.passwordHash
  let clients ← (t.rulesOf id).mapM fun r => AccessClient.validate r.address r.directive
  AccessList.validate id row.name credentials clients row.satisfyAny row.passAuth

/-- `RuntimeAccessList.model_validate` of a dumped access list. -/
def AccessList.revalidate (l : AccessList) : Result AccessList := do
  let credentials ← l.credentials.mapM fun c => AccessCredential.validate c.username c.passwordHash
  let clients ← l.clients.mapM fun c => AccessClient.validate c.address c.directive
  AccessList.validate l.id l.name credentials clients l.satisfyAny l.passAuth

/-- `AccessListStore.runtime_list`. -/
def accessRuntimeList (t : AccessTables) : Result (List AccessList) :=
  (sortedBy natLe Prod.fst t.lists.rows.entries).mapM fun e => runtimeProjection t e.1 e.2

/-- The access lists that a render reads: the projection, validated again. -/
def readAccessLists (t : AccessTables) : Result (List AccessList) := do
  (← accessRuntimeList t).mapM AccessList.revalidate

end Portwyrm.Runtime

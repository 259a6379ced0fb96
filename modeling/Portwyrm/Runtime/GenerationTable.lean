import Portwyrm.Base.Table
import Portwyrm.Runtime.Reconcile

/-!
# The generation table

`GenerationStore` of `portwyrm.tables.runtime`: a row per generation, with a flag that tells which
one is active and a state that tells what became of it.  `_persist` of the controller records the
outcome of a reconciliation in one transaction and activates the generation in another one.
-/

namespace Portwyrm.Runtime

open Base

/-! ## Rows -/

/-- The values of the column `state`. -/
inductive GenerationState
  | staged
  | active
  | failed
  | superseded
deriving DecidableEq, Repr

/-- A row of `config_generations`. -/
structure GenerationRow where
  generation : String
  previousGeneration : Option String := none
  files : Files
  state : GenerationState := .staged
  isActive : Bool := false
  diagnostic : Option String := none
deriving DecidableEq

/-- The table `config_generations`. -/
abbrev GenerationTable := Table GenerationRow

namespace GenerationTable

/-- The row of a generation, with its id. -/
def rowOf (t : GenerationTable) (generation : String) : Option (ℕ × GenerationRow) :=
  t.selectOne fun row => row.generation = generation

/-- The row that is active, with its id. -/
def activeRow (t : GenerationTable) : Option (ℕ × GenerationRow) := t.selectOne fun row => row.isActive

/-- `GenerationStore.stage`, behind the staging of the files. -/
def stage (t : GenerationTable) (generation : String) (files : Files) : GenerationTable :=
  match t.rowOf generation with
  | none => t.add { generation := generation, files := files }
  | some (id, row) =>
    if row.isActive then t else t.modify id fun row => { row with files := files, state := .staged }

/-- `GenerationStore.record`. -/
def record (t : GenerationTable) (row : GenerationRow) : GenerationTable :=
  match t.rowOf row.generation with
  | none => t.add row
  | some (id, _) => t.modify id fun _ => row

/-- The two updates of `activate`. -/
def activateRow (t : GenerationTable) (id : ℕ) : GenerationTable :=
  let previous := t.activeRow.map fun e => e.2.generation
  (t.mapRows fun _ row => { row with isActive := false }).modify id fun row =>
    { row with isActive := true, state := .active, previousGeneration := previous }

/-- `GenerationStore.activate`. -/
def activate (t : GenerationTable) (generation : String) : Result GenerationTable :=
  match t.rowOf generation with
  | none => throw (.valueError s!"generation does not exist: {generation}")
  | some (id, _) => pure (t.activateRow id)

/-- `GenerationStore.clear_active`. -/
def clearActive (t : GenerationTable) : GenerationTable :=
  match t.activeRow with
  | none => t
  | some (id, _) => t.modify id fun row => { row with isActive := false, state := .superseded }

/-- What `_persist` records of a reconciliation. -/
def persistedRow (files : Files) (result : ReconcileResult) : GenerationRow where
  generation := result.generation
  previousGeneration := result.previousGeneration
  files := files
  state := if result.applied then .active else .failed
  isActive := false
  diagnostic := result.diagnostic

/-- `_persist`: the table behind each of its transactions. -/
def persistCommits (t : GenerationTable) (files : Files) (result : ReconcileResult) :
    List GenerationTable :=
  let recorded := t.record (persistedRow files result)
  if result.applied then
    match recorded.activate result.generation with
    | .ok activated => [recorded, activated]
    | .error _ => [recorded]
  else [recorded]

/-- The table behind `_persist`. -/
def persist (t : GenerationTable) (files : Files) (result : ReconcileResult) : GenerationTable :=
  (t.persistCommits files result).getLast?.getD t

/-- The unique constraint of the table. -/
def UniqueGenerations (t : GenerationTable) : Prop := Table.UniqueOn t GenerationRow.generation

/-! ## What the operations do to the rows -/

variable {t t' : GenerationTable} {row : GenerationRow} {generation : String} {files : Files}
  {result : ReconcileResult} {id : ℕ}

lemma get?_of_rowOf (h : t.rowOf generation = some (id, row)) :
    t.get? id = some row ∧ row.generation = generation := by
  obtain ⟨hrow, hgeneration⟩ := Table.get?_of_selectOne h
  exact ⟨hrow, of_decide_eq_true hgeneration⟩

lemma activeRow_eq_none_iff :
    t.activeRow = none ↔ ∀ id row, t.get? id = some row → row.isActive = false := by
  simp only [activeRow, Table.selectOne_eq_none_iff, Bool.not_eq_true]

lemma rowOf_eq_none_iff : t.rowOf generation = none ↔
    ∀ id row, t.get? id = some row → row.generation ≠ generation := by
  simp only [rowOf, Table.selectOne_eq_none_iff, decide_eq_true_eq, ne_eq]

/-- A record takes the place of the row of its generation, or is a row of its own. -/
lemma get?_record (t : GenerationTable) (row : GenerationRow) : ∃ id₀,
    (∀ id, (t.record row).get? id = if id = id₀ then some row else t.get? id) ∧
    ((∃ old, t.get? id₀ = some old ∧ old.generation = row.generation) ∨
      t.get? id₀ = none ∧ ∀ id old, t.get? id = some old → old.generation ≠ row.generation) := by
  unfold record
  split
  · rename_i hnone
    exact ⟨t.next, Table.get?_add t row, .inr ⟨Table.get?_next t, rowOf_eq_none_iff.mp hnone⟩⟩
  · rename_i id₀ old hsome
    obtain ⟨hold, hgeneration⟩ := get?_of_rowOf hsome
    refine ⟨id₀, fun id => ?_, .inl ⟨old, hold, hgeneration⟩⟩
    rw [Table.get?_modify]
    split
    · rename_i hid
      rw [hid, hold, Option.map_some]
    · exact Option.map_id_apply

lemma get?_activateRow (t : GenerationTable) (id id' : ℕ) : (t.activateRow id).get? id' =
    (t.get? id').map fun row => if id' = id then
      { row with isActive := true, state := .active,
                 previousGeneration := t.activeRow.map fun e => e.2.generation }
      else { row with isActive := false } := by
  rw [activateRow, Table.get?_modify, Table.get?_mapRows, Option.map_map]
  rfl

lemma activate_eq_ok (h : t.activate generation = .ok t') :
    ∃ id row, t.get? id = some row ∧ row.generation = generation ∧ t' = t.activateRow id := by
  unfold activate at h
  split at h
  · exact absurd h throw_ne_ok
  · rename_i id row hsome
    obtain ⟨hrow, hgeneration⟩ := get?_of_rowOf hsome
    exact ⟨id, row, hrow, hgeneration, (pure_eq_ok_iff.mp h).symm⟩

lemma persist_of_not_applied (h : result.applied = false) :
    t.persistCommits files result = [t.record (persistedRow files result)] ∧
      t.persist files result = t.record (persistedRow files result) := by
  have hcommits : t.persistCommits files result = [t.record (persistedRow files result)] := by
    rw [persistCommits, h]
    rfl
  exact ⟨hcommits, by rw [persist, hcommits]; rfl⟩

/-- When a generation was applied, its record is committed first, as a row that is not active, and
then the row is activated. -/
lemma persist_of_applied (hunique : t.UniqueGenerations) (files : Files)
    (h : result.applied = true) : ∃ id₀,
    (∀ id, (t.record (persistedRow files result)).get? id =
      if id = id₀ then some (persistedRow files result) else t.get? id) ∧
    (∀ id old, t.get? id = some old → (old.generation = result.generation ↔ id = id₀)) ∧
    t.persistCommits files result = [t.record (persistedRow files result),
      (t.record (persistedRow files result)).activateRow id₀] ∧
    t.persist files result = (t.record (persistedRow files result)).activateRow id₀ := by
  obtain ⟨id₀, hget, hplace⟩ := get?_record t (persistedRow files result)
  have hsame : ∀ id old, t.get? id = some old →
      (old.generation = result.generation ↔ id = id₀) := by
    intro id old hold
    rcases hplace with ⟨old', hold', hgeneration'⟩ | ⟨hfree, hnew⟩
    · refine ⟨fun hgeneration => hunique hold hold' (hgeneration.trans hgeneration'.symm), ?_⟩
      rintro rfl
      rw [Option.some.inj (hold.symm.trans hold')]
      exact hgeneration'
    · refine iff_of_false (hnew id old hold) ?_
      rintro rfl
      exact absurd (hold.symm.trans hfree) (Option.some_ne_none _)
  have hcommits : t.persistCommits files result = [t.record (persistedRow files result),
      (t.record (persistedRow files result)).activateRow id₀] := by
    cases hrowOf : (t.record (persistedRow files result)).rowOf result.generation with
    | none =>
      -- the record is there, so its generation can be activated
      have hrecorded := hget id₀
      rw [if_pos rfl] at hrecorded
      exact absurd rfl (rowOf_eq_none_iff.mp hrowOf id₀ _ hrecorded)
    | some e =>
      obtain ⟨id, row⟩ := e
      obtain ⟨hrow, hgeneration⟩ := get?_of_rowOf hrowOf
      have hid : id = id₀ := by
        rw [hget] at hrow
        split at hrow
        · assumption
        · exact (hsame id row hrow).mp hgeneration
      rw [persistCommits, h, if_pos rfl, activate, hrowOf, hid]
      rfl
  exact ⟨id₀, hget, hsame, hcommits, by rw [persist, hcommits]; rfl⟩

lemma uniqueGenerations_record (h : t.UniqueGenerations) (row : GenerationRow) :
    (t.record row).UniqueGenerations := by
  unfold record
  split
  · rename_i hnone
    exact Table.UniqueOn.add h (rowOf_eq_none_iff.mp hnone)
  · rename_i id₀ old hsome
    obtain ⟨hold, hgeneration⟩ := get?_of_rowOf hsome
    intro id id' row' row'' hrow' hrow'' hkey
    rw [Table.get?_modify] at hrow' hrow''
    obtain ⟨old', hold', rfl⟩ := Option.map_eq_some_iff.mp hrow'
    obtain ⟨old'', hold'', rfl⟩ := Option.map_eq_some_iff.mp hrow''
    -- the row that is replaced keeps its generation
    refine h hold' hold'' ?_
    split at hkey <;> split at hkey
    · rename_i hid hid'
      rw [hid, hold] at hold'
      rw [hid', hold] at hold''
      rw [← Option.some.inj hold', ← Option.some.inj hold'']
    · rename_i hid hid'
      rw [hid, hold] at hold'
      rw [← Option.some.inj hold', hgeneration, hkey]
    · rename_i hid hid'
      rw [hid', hold] at hold''
      rw [← Option.some.inj hold'', hgeneration, hkey]
    · exact hkey

lemma uniqueGenerations_activateRow (h : t.UniqueGenerations) (id : ℕ) :
    (t.activateRow id).UniqueGenerations := by
  refine Table.UniqueOn.modify (Table.UniqueOn.mapRows h fun id row => ?_) fun row => ?_ <;> rfl

lemma uniqueGenerations_persist (h : t.UniqueGenerations) (files : Files)
    (result : ReconcileResult) : (t.persist files result).UniqueGenerations := by
  cases happlied : result.applied with
  | false =>
    rw [(persist_of_not_applied happlied).2]
    exact uniqueGenerations_record h _
  | true =>
    obtain ⟨id₀, -, -, -, hpersist⟩ := persist_of_applied h files happlied
    rw [hpersist]
    exact uniqueGenerations_activateRow (uniqueGenerations_record h _) id₀

/-! ## The state and the flag -/

/-- A row has the state `active` when it is active. -/
def StateNamesActive (t : GenerationTable) : Prop :=
  ∀ id row, t.get? id = some row → (row.state = .active ↔ row.isActive = true)

/-- No row of another generation is active. -/
def OnlyActive (t : GenerationTable) (generation : String) : Prop :=
  ∀ id row, t.get? id = some row → row.isActive = true → row.generation = generation

/-- An operation on the table. -/
inductive Op
  | stage (generation : String) (files : Files)
  | persist (files : Files) (result : ReconcileResult)
  | activate (generation : String)
  | clearActive

/-- The table behind an operation; one that raises leaves it as it was. -/
def Op.apply (t : GenerationTable) : Op → GenerationTable
  | .stage generation files => t.stage generation files
  | .persist files result => t.persist files result
  | .activate generation => (t.activate generation).toOption.getD t
  | .clearActive => t.clearActive

/-- The table behind several operations. -/
def applyAll (ops : List Op) : GenerationTable := ops.foldl Op.apply Table.empty

/-- A generation is activated while no other one is active. -/
def Op.Keeps (t : GenerationTable) : Op → Prop
  | .stage _ _ | .clearActive => True
  | .persist _ result => result.applied = true → t.OnlyActive result.generation
  | .activate generation =>
    (∃ id row, t.get? id = some row ∧ row.generation = generation) → t.OnlyActive generation

lemma uniqueGenerations_apply (h : t.UniqueGenerations) (op : Op) :
    (op.apply t).UniqueGenerations := by
  cases op with
  | stage generation files =>
    simp only [Op.apply, stage]
    split
    · rename_i hnone
      exact Table.UniqueOn.add h (rowOf_eq_none_iff.mp hnone)
    · split
      · exact h
      · exact Table.UniqueOn.modify h fun _ => rfl
  | persist files result => exact uniqueGenerations_persist h files result
  | activate generation =>
    rw [Op.apply]
    cases hactivate : t.activate generation with
    | error e => exact h
    | ok t' =>
      obtain ⟨id, row, -, -, rfl⟩ := activate_eq_ok hactivate
      exact uniqueGenerations_activateRow h id
  | clearActive =>
    simp only [Op.apply, clearActive]
    split
    · exact h
    · exact Table.UniqueOn.modify h fun _ => rfl

/-- An activation takes the flag of the other rows and leaves their state. -/
lemma stateNamesActive_activateRow_iff {id₀ : ℕ}
    (hothers : ∀ id row, t.get? id = some row → id ≠ id₀ →
      (row.state = .active ↔ row.isActive = true)) :
    (t.activateRow id₀).StateNamesActive ↔
      ∀ id row, t.get? id = some row → row.isActive = true → id = id₀ := by
  constructor
  · intro hnames id row hrow hactive
    by_contra hid
    have hrow' : (t.activateRow id₀).get? id = some { row with isActive := false } := by
      rw [get?_activateRow, hrow, Option.map_some, if_neg hid]
    exact absurd ((hnames id _ hrow').mp ((hothers id row hrow hid).mpr hactive))
      Bool.false_ne_true
  · intro honly id row' hrow'
    rw [get?_activateRow] at hrow'
    obtain ⟨row, hrow, rfl⟩ := Option.map_eq_some_iff.mp hrow'
    split
    · exact iff_of_true rfl rfl
    · rename_i hid
      have hinactive : ¬ row.isActive = true := fun hactive => hid (honly id row hrow hactive)
      refine iff_of_false (fun hstate => hinactive ?_) Bool.false_ne_true
      exact (hothers id row hrow hid).mp hstate

lemma stateNamesActive_add (h : t.StateNamesActive)
    (hrow : row.state = .active ↔ row.isActive = true) : StateNamesActive (t.add row) := by
  intro id row' hrow'
  rw [Table.get?_add] at hrow'
  split at hrow'
  · exact Option.some.inj hrow' ▸ hrow
  · exact h id row' hrow'

lemma stateNamesActive_modify (h : t.StateNamesActive) {f : GenerationRow → GenerationRow}
    (hf : ∀ row, t.get? id = some row → ((f row).state = .active ↔ (f row).isActive = true)) :
    StateNamesActive (t.modify id f) := by
  intro id' row' hrow'
  rw [Table.get?_modify] at hrow'
  obtain ⟨row, hrow, rfl⟩ := Option.map_eq_some_iff.mp hrow'
  split
  · rename_i hid
    exact hf row (hid ▸ hrow)
  · exact h id' row hrow

/-- One operation. -/
lemma stateNamesActive_apply_iff (hunique : t.UniqueGenerations) (h : t.StateNamesActive) (op : Op) :
    (op.apply t).StateNamesActive ↔ op.Keeps t := by
  cases op with
  | stage generation files =>
    refine iff_of_true ?_ trivial
    simp only [Op.apply, stage]
    split
    · exact stateNamesActive_add h (iff_of_false nofun Bool.false_ne_true)
    · rename_i id row hsome
      split
      · exact h
      · rename_i hinactive
        refine stateNamesActive_modify h fun row' hrow' => iff_of_false nofun ?_
        rw [Option.some.inj (hrow'.symm.trans (get?_of_rowOf hsome).1)]
        exact hinactive
  | persist files result =>
    rw [Op.apply, Op.Keeps]
    cases happlied : result.applied with
    | false =>
      refine iff_of_true ?_ fun h => absurd h Bool.false_ne_true
      rw [(persist_of_not_applied happlied).2]
      have hfailed : (persistedRow files result).state = .active ↔
          (persistedRow files result).isActive = true := by
        simp [persistedRow, happlied]
      obtain ⟨id₀, hget, -⟩ := get?_record t (persistedRow files result)
      intro id row hrow
      rw [hget] at hrow
      split at hrow
      · exact Option.some.inj hrow ▸ hfailed
      · exact h id row hrow
    | true =>
      obtain ⟨id₀, hget, hsame, -, hpersist⟩ := persist_of_applied hunique files happlied
      have hother : ∀ id row, id ≠ id₀ →
          ((t.record (persistedRow files result)).get? id = some row ↔ t.get? id = some row) := by
        intro id row hid
        rw [hget, if_neg hid]
      rw [hpersist, stateNamesActive_activateRow_iff fun id row hrow hid =>
        h id row ((hother id row hid).mp hrow)]
      -- the recorded row is not active, and the others are as they were
      constructor
      · intro honly _ id row hrow hactive
        refine (hsame id row hrow).mpr ?_
        by_contra hid
        exact hid (honly id row ((hother id row hid).mpr hrow) hactive)
      · intro honly id row hrow hactive
        by_contra hid
        have hrow' := (hother id row hid).mp hrow
        exact hid ((hsame id row hrow').mp (honly rfl id row hrow' hactive))
  | activate generation =>
    rw [Op.apply, Op.Keeps]
    cases hactivate : t.activate generation with
    | error e =>
      refine iff_of_true h ?_
      rintro ⟨id, row, hrow, hgeneration⟩
      unfold activate at hactivate
      split at hactivate
      · rename_i hnone
        exact absurd hgeneration (rowOf_eq_none_iff.mp hnone id row hrow)
      · exact nomatch hactivate
    | ok t' =>
      obtain ⟨id₀, row₀, hrow₀, rfl, rfl⟩ := activate_eq_ok hactivate
      have hactivated : (t.activateRow id₀).StateNamesActive ↔ _ :=
        stateNamesActive_activateRow_iff fun id row hrow _ => h id row hrow
      refine hactivated.trans ⟨fun honly _ id row hrow hactive => ?_, fun honly id row hrow hactive => ?_⟩
      · obtain rfl := honly id row hrow hactive
        rw [Option.some.inj (hrow.symm.trans hrow₀)]
      · exact hunique hrow hrow₀ (honly ⟨id₀, row₀, hrow₀, rfl⟩ id row hrow hactive)
  | clearActive =>
    refine iff_of_true ?_ trivial
    simp only [Op.apply, clearActive]
    split
    · exact h
    · exact stateNamesActive_modify h fun _ _ => iff_of_false nofun Bool.false_ne_true

lemma applyAll_append (ops : List Op) (op : Op) :
    applyAll (ops ++ [op]) = op.apply (applyAll ops) := by
  simp [applyAll]

lemma uniqueGenerations_applyAll (ops : List Op) : (applyAll ops).UniqueGenerations := by
  induction ops using List.reverseRecOn with
  | nil => exact Table.uniqueOn_empty _
  | append_singleton ops op ih =>
    rw [applyAll_append]
    exact uniqueGenerations_apply ih op

/-- The state and the flag of generations.  From an empty table, a row has the state `active`
exactly when it is active behind every operation, if and only if no operation activates a
generation while another one is active. -/
theorem stateNamesActive_iff (ops : List Op) :
    (∀ before, before <+: ops → (applyAll before).StateNamesActive) ↔
      ∀ before op, before ++ [op] <+: ops → op.Keeps (applyAll before) := by
  constructor
  · intro hnames before op hprefix
    have hbefore := hnames before ((List.prefix_append before [op]).trans hprefix)
    rw [← stateNamesActive_apply_iff (uniqueGenerations_applyAll before) hbefore,
      ← applyAll_append]
    exact hnames _ hprefix
  · intro hkeeps before hprefix
    induction before using List.reverseRecOn with
    | nil => exact fun id row hrow => absurd hrow (by simp [applyAll, Table.get?, Table.empty])
    | append_singleton before op ih =>
      rw [applyAll_append]
      have hbefore := ih ((List.prefix_append before [op]).trans hprefix)
      exact (stateNamesActive_apply_iff (uniqueGenerations_applyAll before) hbefore op).mpr
        (hkeeps before op hprefix)

/-- A reconciliation that was applied. -/
def appliedResult (generation : String) : ReconcileResult where
  generation := generation
  previousGeneration := none
  changed := true
  applied := true

/-- A second generation is applied: the row of the first one keeps the state `active`. -/
theorem applied_twice_two_active :
    ¬ (applyAll [.persist oneFile (appliedResult "a"),
      .persist oneFile (appliedResult "b")]).StateNamesActive := by
  intro h
  have hfirst := h 1 { generation := "a", files := oneFile, state := .active } (by decide)
  exact absurd (hfirst.mp rfl) Bool.false_ne_true

end GenerationTable

end Portwyrm.Runtime

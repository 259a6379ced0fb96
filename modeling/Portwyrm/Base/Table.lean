import Mathlib.Data.List.Forall2
import Portwyrm.Base.Dict

/-!
# Tables with a generated primary key

A database table whose integer primary key is generated: the rows by id, and a counter that
every id in use lies below.
-/

namespace Portwyrm.Base

variable {ρ : Type*}

/-- A table with a generated integer key. -/
structure Table (ρ : Type*) where
  /-- The rows, by id. -/
  rows : Dict ℕ ρ
  /-- The next id to be generated. -/
  next : ℕ
  /-- Generated ids are new. -/
  fresh : ∀ id ∈ rows, id < next

namespace Table

/-- The table without rows. -/
def empty : Table ρ := ⟨Dict.empty, 1, by simp⟩

instance : Inhabited (Table ρ) := ⟨empty⟩

/-- The row with a given id. -/
def get? (t : Table ρ) (id : ℕ) : Option ρ := t.rows.get? id

/-- `db.add(row)`: insert a row under a generated id. -/
def add (t : Table ρ) (row : ρ) : Table ρ where
  rows := t.rows.set t.next row
  next := t.next + 1
  fresh := by
    intro id hid
    rcases Dict.mem_set.mp hid with rfl | hid
    · exact Nat.lt_succ_self _
    · exact Nat.lt_succ_of_lt (t.fresh id hid)

/-- Insert a row under a given id. -/
def insert (t : Table ρ) (id : ℕ) (row : ρ) : Table ρ where
  rows := t.rows.set id row
  next := max t.next (id + 1)
  fresh := by
    intro id' hid
    rcases Dict.mem_set.mp hid with rfl | hid
    · exact Nat.lt_of_lt_of_le (Nat.lt_succ_self _) (Nat.le_max_right _ _)
    · exact Nat.lt_of_lt_of_le (t.fresh id' hid) (Nat.le_max_left _ _)

/-- Store a row under an id in use. -/
def setRow (t : Table ρ) (id : ℕ) (row : ρ) (h : id ∈ t.rows) : Table ρ where
  rows := t.rows.set id row
  next := t.next
  fresh := by
    intro id' hid
    rcases Dict.mem_set.mp hid with rfl | hid
    · exact t.fresh id' h
    · exact t.fresh id' hid

/-- `update(table)`: every row is replaced where it stands. -/
def mapRows (t : Table ρ) (f : ℕ → ρ → ρ) : Table ρ where
  rows := t.rows.mapEntries f
  next := t.next
  fresh := by
    intro id hid
    obtain ⟨row, hrow⟩ := Dict.mem_iff.mp hid
    rw [Dict.get?_mapEntries] at hrow
    obtain ⟨row', hrow', -⟩ := Option.map_eq_some_iff.mp hrow
    exact t.fresh id (Dict.mem_iff.mpr ⟨row', hrow'⟩)

/-- Assignments to the columns of one row. -/
def modify (t : Table ρ) (id : ℕ) (f : ρ → ρ) : Table ρ :=
  t.mapRows fun id' row => if id' = id then f row else row

/-- The first row, oldest first, that meets a condition, with its id. -/
def selectOne (t : Table ρ) (p : ρ → Bool) : Option (ℕ × ρ) := t.rows.entries.find? fun e => p e.2

/-- The rows that meet a condition, oldest first. -/
def select (t : Table ρ) (p : ρ → Bool) : List ρ := t.rows.values.filter p

/-- The newest row that meets a condition. -/
def selectLast (t : Table ρ) (p : ρ → Bool) : Option ρ := (t.select p).getLast?

/-- `delete(table).where(p)`. -/
def deleteWhere (t : Table ρ) (p : ρ → Bool) : Table ρ where
  rows :=
    { entries := t.rows.entries.filter fun e => !p e.2
      nodup := t.rows.nodup.sublist (List.Sublist.map _ List.filter_sublist) }
  next := t.next
  fresh := by
    intro id hid
    refine t.fresh id ?_
    exact (List.Sublist.map Prod.fst List.filter_sublist).subset hid

lemma get?_next (t : Table ρ) : t.get? t.next = none :=
  Dict.get?_eq_none_iff.mpr fun h => Nat.lt_irrefl _ (t.fresh _ h)

lemma get?_add (t : Table ρ) (row : ρ) (id : ℕ) :
    (t.add row).get? id = if id = t.next then some row else t.get? id :=
  Dict.get?_set t.rows t.next id row

lemma get?_insert (t : Table ρ) (id : ℕ) (row : ρ) (id' : ℕ) :
    (t.insert id row).get? id' = if id' = id then some row else t.get? id' :=
  Dict.get?_set t.rows id id' row

lemma get?_setRow (t : Table ρ) {id : ℕ} (row : ρ) (h : id ∈ t.rows) (id' : ℕ) :
    (t.setRow id row h).get? id' = if id' = id then some row else t.get? id' :=
  Dict.get?_set t.rows id id' row

/-- Adding a row leaves the rows that are there. -/
lemma get?_add_of_eq_some {t : Table ρ} {row r : ρ} {id : ℕ} (h : t.get? id = some r) :
    (t.add row).get? id = some r := by
  have hne : id ≠ t.next := by
    rintro rfl
    rw [get?_next] at h
    exact absurd h (by simp)
  rw [get?_add, if_neg hne, h]

lemma get?_of_selectOne {t : Table ρ} {p : ρ → Bool} {id : ℕ} {row : ρ}
    (h : t.selectOne p = some (id, row)) : t.get? id = some row ∧ p row = true :=
  ⟨Dict.mem_entries_iff.mp (List.mem_of_find?_eq_some h), by
    have := List.find?_some h
    simpa using this⟩

lemma selectOne_eq_none_iff {t : Table ρ} {p : ρ → Bool} :
    t.selectOne p = none ↔ ∀ id row, t.get? id = some row → ¬ p row = true := by
  rw [selectOne, List.find?_eq_none]
  constructor
  · intro h id row hrow
    exact h (id, row) (Dict.mem_entries_iff.mpr hrow)
  · intro h e he
    exact h e.1 e.2 (Dict.mem_entries_iff.mp he)

@[simp] lemma get?_mapRows (t : Table ρ) (f : ℕ → ρ → ρ) (id : ℕ) :
    (t.mapRows f).get? id = (t.get? id).map (f id) :=
  Dict.get?_mapEntries f t.rows id

@[simp] lemma get?_modify (t : Table ρ) (id id' : ℕ) (f : ρ → ρ) : (t.modify id f).get? id' =
    (t.get? id').map fun row => if id' = id then f row else row :=
  get?_mapRows t _ id'

lemma get?_deleteWhere {t : Table ρ} {p : ρ → Bool} {id : ℕ} {row : ρ} :
    (t.deleteWhere p).get? id = some row ↔ t.get? id = some row ∧ ¬ p row = true := by
  rw [get?, ← Dict.mem_entries_iff, get?, ← Dict.mem_entries_iff, deleteWhere, List.mem_filter]
  simp

/-- A condition that no row meets deletes nothing. -/
lemma deleteWhere_eq_self {t : Table ρ} {p : ρ → Bool}
    (h : ∀ id row, t.get? id = some row → ¬ p row = true) : t.deleteWhere p = t := by
  have hentries : (t.deleteWhere p).rows.entries = t.rows.entries := by
    refine List.filter_eq_self.mpr fun e he => ?_
    simpa using h e.1 e.2 (Dict.mem_entries_iff.mp he)
  obtain ⟨⟨entries, nodup⟩, next, fresh⟩ := t
  simp only [deleteWhere] at hentries ⊢
  congr

lemma values_add (t : Table ρ) (row : ρ) : (t.add row).rows.values = t.rows.values ++ [row] := by
  have hnew : t.next ∉ t.rows := fun h => Nat.lt_irrefl _ (t.fresh _ h)
  simp only [add, Dict.values, Dict.entries_set_of_not_mem hnew, List.map_append, List.map_cons,
    List.map_nil]

/-- Rows that are added one by one stand behind those that are there, in their order. -/
lemma foldlM_add {α ε : Type*} {step : Table ρ → α → Except ε (Table ρ)} {R : α → ρ → Prop}
    (hstep : ∀ t a t', step t a = .ok t' → ∃ row, t' = t.add row ∧ R a row) {l : List α}
    {t t' : Table ρ} (h : l.foldlM step t = .ok t') :
    ∃ rows, t'.rows.values = t.rows.values ++ rows ∧ List.Forall₂ R l rows := by
  induction l generalizing t with
  | nil =>
    obtain rfl : t = t' := Except.ok.inj h
    exact ⟨[], by simp, .nil⟩
  | cons a l ih =>
    rw [List.foldlM_cons] at h
    cases hfirst : step t a with
    | error e =>
      rw [hfirst] at h
      exact absurd h (by simp [bind, Except.bind])
    | ok t₁ =>
      rw [hfirst] at h
      obtain ⟨row, rfl, hrow⟩ := hstep t a t₁ hfirst
      obtain ⟨rows, hvalues, hrows⟩ := ih h
      refine ⟨row :: rows, ?_, .cons hrow hrows⟩
      rw [hvalues, values_add, List.append_assoc, List.singleton_append]

lemma values_deleteWhere (t : Table ρ) (p : ρ → Bool) :
    (t.deleteWhere p).rows.values = t.rows.values.filter fun row => !p row := by
  simp only [deleteWhere, Dict.values, List.filter_map, Function.comp_def]

/-! ## Unique columns -/

section UniqueOn

variable {κ : Type*} {key : ρ → κ} {t : Table ρ}

/-- A unique constraint: no two rows have the same key. -/
def UniqueOn (t : Table ρ) (key : ρ → κ) : Prop :=
  ∀ ⦃id id' row row'⦄, t.get? id = some row → t.get? id' = some row' → key row = key row' → id = id'

lemma uniqueOn_empty (key : ρ → κ) : (empty : Table ρ).UniqueOn key := by
  intro id id' row row' h
  exact absurd h (by simp [get?, empty])

/-- The rows with one key are one row. -/
lemma UniqueOn.row_eq (h : t.UniqueOn key) {id id' : ℕ} {row row' : ρ} (hrow : t.get? id = some row)
    (hrow' : t.get? id' = some row') (hkey : key row = key row') : row = row' := by
  rw [h hrow hrow' hkey, hrow'] at hrow
  exact (Option.some.inj hrow).symm

lemma UniqueOn.add (h : t.UniqueOn key) {new : ρ}
    (hnew : ∀ id row, t.get? id = some row → key row ≠ key new) : (t.add new).UniqueOn key := by
  intro id id' row row' hrow hrow' hkey
  rw [get?_add] at hrow hrow'
  split at hrow <;> split at hrow'
  · rename_i hid hid'
    rw [hid, hid']
  · rw [← Option.some.inj hrow] at hkey
    exact absurd hkey.symm (hnew id' row' hrow')
  · rw [← Option.some.inj hrow'] at hkey
    exact absurd hkey (hnew id row hrow)
  · exact h hrow hrow' hkey

lemma UniqueOn.mapRows (h : t.UniqueOn key) {f : ℕ → ρ → ρ}
    (hf : ∀ id row, key (f id row) = key row) : (t.mapRows f).UniqueOn key := by
  intro id id' row row' hrow hrow' hkey
  rw [get?_mapRows] at hrow hrow'
  obtain ⟨old, hold, rfl⟩ := Option.map_eq_some_iff.mp hrow
  obtain ⟨old', hold', rfl⟩ := Option.map_eq_some_iff.mp hrow'
  rw [hf, hf] at hkey
  exact h hold hold' hkey

lemma UniqueOn.modify (h : t.UniqueOn key) {id : ℕ} {f : ρ → ρ} (hf : ∀ row, key (f row) = key row) :
    (t.modify id f).UniqueOn key := by
  refine h.mapRows fun id' row => ?_
  split
  · exact hf row
  · rfl

lemma UniqueOn.deleteWhere (h : t.UniqueOn key) (p : ρ → Bool) : (t.deleteWhere p).UniqueOn key := by
  intro id id' row row' hrow hrow' hkey
  exact h (get?_deleteWhere.mp hrow).1 (get?_deleteWhere.mp hrow').1 hkey

end UniqueOn

end Table

end Portwyrm.Base

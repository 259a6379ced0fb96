import Mathlib.Data.List.Sort
import Mathlib.Data.String.Basic
import Mathlib.Tactic.Lemma

/-!
# Finite sets listed in order

A finite set over a linear order, kept as its strictly increasing list of elements.  The
representation is canonical, so equality of sets is equality of the lists; iterating over a
set and sorting it are both the projection `elems`.
-/

namespace Portwyrm.Base

variable {α : Type*} [LinearOrder α]

/-- A finite set, listed in increasing order. -/
structure FrozenSet (α : Type*) [LinearOrder α] where
  /-- The elements, in increasing order. -/
  elems : List α
  /-- The order is strict, so no element occurs twice. -/
  sorted : elems.Pairwise (· < ·)
deriving DecidableEq

namespace FrozenSet

/-- Insert an element into an increasing list that may already contain it. -/
def insertElem (a : α) : List α → List α
  | [] => [a]
  | b :: rest => if a < b then a :: b :: rest else if a = b then b :: rest
      else b :: insertElem a rest

lemma mem_insertElem {a x : α} {l : List α} : x ∈ insertElem a l ↔ x = a ∨ x ∈ l := by
  induction l with
  | nil => simp [insertElem]
  | cons b rest ih =>
    simp only [insertElem]
    split
    · simp
    · split
      · rename_i h
        simp [h]
      · simp only [List.mem_cons, ih]
        tauto

lemma insertElem_sorted {a : α} {l : List α} (hl : l.Pairwise (· < ·)) :
    (insertElem a l).Pairwise (· < ·) := by
  induction l with
  | nil => simp [insertElem]
  | cons b rest ih =>
    simp only [insertElem]
    obtain ⟨hb, hrest⟩ := List.pairwise_cons.mp hl
    split
    · rename_i hab
      refine List.pairwise_cons.mpr ⟨fun c hc => ?_, hl⟩
      rcases List.mem_cons.mp hc with rfl | hc
      · exact hab
      · exact hab.trans (hb c hc)
    · split
      · exact hl
      · rename_i hlt hne
        refine List.pairwise_cons.mpr ⟨fun c hc => ?_, ih hrest⟩
        rcases mem_insertElem.mp hc with rfl | hc
        · exact lt_of_le_of_ne (not_lt.mp hlt) (Ne.symm hne)
        · exact hb c hc

instance : Membership α (FrozenSet α) := ⟨fun s a => a ∈ s.elems⟩

instance (s : FrozenSet α) (a : α) : Decidable (a ∈ s) :=
  inferInstanceAs (Decidable (a ∈ s.elems))

/-- The set without elements. -/
def empty : FrozenSet α := ⟨[], List.Pairwise.nil⟩

instance : Inhabited (FrozenSet α) := ⟨empty⟩

/-- Add one element. -/
def insert (a : α) (s : FrozenSet α) : FrozenSet α :=
  ⟨insertElem a s.elems, insertElem_sorted s.sorted⟩

/-- The set of the elements of a list. -/
def ofList (l : List α) : FrozenSet α := l.foldr insert empty

/-- The set with one element. -/
def single (a : α) : FrozenSet α := insert a empty

/-- The elements that satisfy a test. -/
def filter (p : α → Bool) (s : FrozenSet α) : FrozenSet α :=
  ⟨s.elems.filter p, s.sorted.sublist List.filter_sublist⟩

/-- The set without one element. -/
def erase (s : FrozenSet α) (a : α) : FrozenSet α := s.filter fun b => b ≠ a

lemma mem_def {a : α} {s : FrozenSet α} : a ∈ s ↔ a ∈ s.elems := Iff.rfl

@[ext] lemma ext {s t : FrozenSet α} (h : ∀ a, a ∈ s ↔ a ∈ t) : s = t := by
  obtain ⟨l, hl⟩ := s
  obtain ⟨m, hm⟩ := t
  have : l = m := hl.eq_of_mem_iff hm fun {a} => h a
  subst this
  rfl

@[simp] lemma not_mem_empty (a : α) : a ∉ (empty : FrozenSet α) := by
  simp [mem_def, empty]

@[simp] lemma mem_insert {a b : α} {s : FrozenSet α} : a ∈ s.insert b ↔ a = b ∨ a ∈ s :=
  mem_insertElem

@[simp] lemma mem_single {a b : α} : a ∈ single b ↔ a = b := by simp [single]

@[simp] lemma mem_filter {a : α} {p : α → Bool} {s : FrozenSet α} :
    a ∈ s.filter p ↔ a ∈ s ∧ p a = true := List.mem_filter

@[simp] lemma mem_erase {a b : α} {s : FrozenSet α} : a ∈ s.erase b ↔ a ∈ s ∧ a ≠ b := by
  simp [erase]

@[simp] lemma mem_ofList {a : α} {l : List α} : a ∈ ofList l ↔ a ∈ l := by
  induction l with
  | nil => simp [ofList]
  | cons b rest ih => simpa [ofList] using or_congr_right ih

/-- Listing a set and collecting it again gives the set back. -/
@[simp] lemma ofList_elems (s : FrozenSet α) : ofList s.elems = s := by
  ext a
  rw [mem_ofList, mem_def]

lemma elems_eq_nil_iff {s : FrozenSet α} : s.elems = [] ↔ ∀ a, a ∉ s := by
  simp [mem_def, List.eq_nil_iff_forall_not_mem]

end FrozenSet

end Portwyrm.Base

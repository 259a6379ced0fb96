import Mathlib.Data.List.Basic
import Mathlib.Tactic.Lemma

/-!
# Pieces of a list

A piece of a list is a sublist with the position where it stands.  Pieces that overlap, in any
order, cover some positions of the list; this file describes the longest prefix that they cover.
Pieces that differ where they overlap are laid over each other, and the one that starts first is on
top.
-/

namespace Portwyrm.Base

variable {β : Type*}

/-- A piece stands where it says that it stands. -/
def IsPiece (M : List β) (e : ℕ × List β) : Prop := e.2 <+: M.drop e.1

/-- A piece holds a position. -/
def Holds (e : ℕ × List β) (p : ℕ) : Prop := e.1 ≤ p ∧ p < e.1 + e.2.length

/-- One of the pieces holds a position. -/
def Covered (pieces : List (ℕ × List β)) (p : ℕ) : Prop := ∃ e ∈ pieces, Holds e p

/-- The longest prefix of a list that pieces cover. -/
def LongestCovered (M : List β) (pieces : List (ℕ × List β)) (l : List β) : Prop :=
  ∃ n ≤ M.length, l = M.take n ∧ (∀ p < n, Covered pieces p) ∧ ¬ Covered pieces n

instance (e : ℕ × List β) (p : ℕ) : Decidable (Holds e p) :=
  inferInstanceAs (Decidable (_ ∧ _))

instance (pieces : List (ℕ × List β)) (p : ℕ) : Decidable (Covered pieces p) :=
  inferInstanceAs (Decidable (∃ e ∈ pieces, Holds e p))

variable {M : List β} {e : ℕ × List β} {pieces : List (ℕ × List β)}

/-- There is one longest prefix. -/
lemma LongestCovered.unique {l l' : List β} (h : LongestCovered M pieces l)
    (h' : LongestCovered M pieces l') : l = l' := by
  obtain ⟨n, -, rfl, hn, hnot⟩ := h
  obtain ⟨n', -, rfl, hn', hnot'⟩ := h'
  have hle : ¬ n < n' := fun hlt => hnot (hn' n hlt)
  have hge : ¬ n' < n := fun hlt => hnot' (hn n' hlt)
  rw [show n = n' by omega]

/-- Fewer pieces cover the same prefix exactly when they hold each of its positions. -/
lemma longestCovered_iff_of_subset {kept : List (ℕ × List β)} {l : List β}
    (hkept : ∀ p, Covered kept p → Covered pieces p)
    (h : LongestCovered M kept l) :
    LongestCovered M pieces l ↔ ∀ p, (∀ q ≤ p, Covered pieces q) → Covered kept p := by
  obtain ⟨n, hn, rfl, hcovered, hnot⟩ := h
  constructor
  · rintro ⟨m, hm, heq, hcovered', hnot'⟩ p hp
    have hmn : m = n := by
      have hlength := congrArg List.length heq
      rw [List.length_take, List.length_take] at hlength
      omega
    refine hcovered p ?_
    by_contra hle
    exact hnot' (hp m (by omega))
  · intro hsame
    refine ⟨n, hn, rfl, fun p hp => hkept p (hcovered p hp), fun hcov => hnot ?_⟩
    refine hsame n fun q hq => ?_
    rcases Nat.lt_or_eq_of_le hq with hlt | rfl
    · exact hkept q (hcovered q hlt)
    · exact hcov

/-! ## Pieces over each other -/

/-- The piece on top at a position: among those that hold it, one that starts first. -/
def IsFirst (pieces : List (ℕ × List β)) (e : ℕ × List β) (p : ℕ) : Prop :=
  e ∈ pieces ∧ Holds e p ∧ ∀ e' ∈ pieces, Holds e' p → e.1 ≤ e'.1

/-- The list that pieces over each other give from the start to the first gap. -/
structure Overlaid (pieces : List (ℕ × List β)) (l : List β) : Prop where
  value : ∀ p < l.length, ∃ e, IsFirst pieces e p ∧ l[p]? = e.2[p - e.1]?
  ends : ¬ Covered pieces l.length

/-- The list that pieces without a gap give. -/
structure Laid (pieces : List (ℕ × List β)) (l : List β) : Prop where
  value : ∀ p < l.length, ∃ e, IsFirst pieces e p ∧ l[p]? = e.2[p - e.1]?
  ends : ∀ e ∈ pieces, e.1 + e.2.length ≤ l.length

variable {l : List β}

lemma laid_nil : Laid ([] : List (ℕ × List β)) [] :=
  ⟨fun p hp => absurd hp (Nat.not_lt_zero p), fun _ he => absurd he List.not_mem_nil⟩

/-- A piece stays on top when the later pieces do not start before it. -/
lemma IsFirst.append {rest : List (ℕ × List β)} {p : ℕ} (h : IsFirst pieces e p)
    (hrest : ∀ e' ∈ rest, e.1 ≤ e'.1) : IsFirst (pieces ++ rest) e p := by
  obtain ⟨he, hholds, hfirst⟩ := h
  refine ⟨List.mem_append_left _ he, hholds, fun e' he' hholds' => ?_⟩
  rcases List.mem_append.mp he' with hpieces | hlater
  · exact hfirst e' hpieces hholds'
  · exact hrest e' hlater

/-- A piece that does not start before the others, and not behind a gap, adds its end. -/
lemma Laid.snoc (h : Laid pieces l) (hlater : ∀ d ∈ pieces, d.1 ≤ e.1) (hgap : e.1 ≤ l.length) :
    Laid (pieces ++ [e]) (l ++ e.2.drop (l.length - e.1)) := by
  refine ⟨fun p hp => ?_, fun d hd => ?_⟩
  · rw [List.length_append, List.length_drop] at hp
    by_cases hold : p < l.length
    · obtain ⟨d, hd, hvalue⟩ := h.value p hold
      refine ⟨d, hd.append (by simpa using hlater d hd.1), ?_⟩
      rw [List.getElem?_append_left hold, hvalue]
    · -- no piece before the new one reaches so far
      refine ⟨e, ⟨by simp, ⟨by omega, by omega⟩, fun d hd hholds => ?_⟩, ?_⟩
      · rcases List.mem_append.mp hd with hd | hd
        · have hend := h.ends d hd
          have hlt := hholds.2
          omega
        · obtain rfl := List.mem_singleton.mp hd
          exact Nat.le_refl _
      · rw [List.getElem?_append_right (Nat.not_lt.mp hold), List.getElem?_drop]
        congr 1
        omega
  · rw [List.length_append, List.length_drop]
    rcases List.mem_append.mp hd with hd | hd
    · have hend := h.ends d hd
      omega
    · rw [List.mem_singleton.mp hd]
      omega

/-- Pieces behind a gap add nothing. -/
lemma Laid.overlaid (h : Laid pieces l) {rest : List (ℕ × List β)}
    (hrest : ∀ e ∈ rest, l.length < e.1) : Overlaid (pieces ++ rest) l := by
  refine ⟨fun p hp => ?_, ?_⟩
  · obtain ⟨d, hd, hvalue⟩ := h.value p hp
    refine ⟨d, hd.append fun e he => ?_, hvalue⟩
    have hstart := hd.2.1.1
    have hgap := hrest e he
    omega
  · rintro ⟨e, he, hstart, hend⟩
    rcases List.mem_append.mp he with he | he
    · have hle := h.ends e he
      omega
    · have hgap := hrest e he
      omega

/-- The positions up to the end are those before the first gap. -/
lemma Overlaid.lt_length_iff (h : Overlaid pieces l) (p : ℕ) :
    p < l.length ↔ ∀ q ≤ p, Covered pieces q := by
  constructor
  · intro hp q hq
    obtain ⟨e, ⟨he, hholds, -⟩, -⟩ := h.value q (by omega)
    exact ⟨e, he, hholds⟩
  · intro hcovered
    by_contra hp
    exact h.ends (hcovered l.length (by omega))

/-- A value of a piece is the value of the list. -/
lemma IsPiece.getElem?_eq (h : IsPiece M e) {p : ℕ} (hp : Holds e p) : e.2[p - e.1]? = M[p]? := by
  obtain ⟨hstart, hend⟩ := hp
  obtain ⟨rest, hrest⟩ := h
  have hdrop : M[p]? = (M.drop e.1)[p - e.1]? := by
    rw [List.getElem?_drop]
    congr 1
    omega
  rw [hdrop, ← hrest, List.getElem?_append_left (by omega)]

/-- Pieces of one list that are laid over each other give its longest covered prefix. -/
lemma Overlaid.longestCovered (h : Overlaid pieces l) (hpieces : ∀ e ∈ pieces, IsPiece M e) :
    LongestCovered M pieces l := by
  have hvalue : ∀ p < l.length, l[p]? = M[p]? := by
    intro p hp
    obtain ⟨e, ⟨he, hholds, -⟩, heq⟩ := h.value p hp
    rw [heq, (hpieces e he).getElem?_eq hholds]
  have hlength : l.length ≤ M.length := by
    by_contra hlt
    have hnone := hvalue M.length (by omega)
    rw [List.getElem?_eq_none (Nat.le_refl _), List.getElem?_eq_none_iff] at hnone
    omega
  refine ⟨l.length, hlength, List.ext_getElem? fun p => ?_, fun p hp => ?_, h.ends⟩
  · -- up to the end the values are those of the list, and behind it neither has any
    by_cases hp : p < l.length
    · rw [List.getElem?_take_of_lt hp, hvalue p hp]
    · rw [List.getElem?_eq_none (by omega), List.getElem?_eq_none (by
        rw [List.length_take]
        omega)]
  · obtain ⟨e, ⟨he, hholds, -⟩, -⟩ := h.value p hp
    exact ⟨e, he, hholds⟩

end Portwyrm.Base

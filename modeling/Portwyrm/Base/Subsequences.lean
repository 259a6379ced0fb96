import Mathlib.Data.List.Basic
import Mathlib.Data.Nat.Notation
import Mathlib.Tactic.Lemma

/-!
# Common subsequences

The length of a longest common subsequence of two lists, by the recurrence on their first entries.
-/

namespace Portwyrm.Base

open scoped List

variable {α : Type*}

/-- A number is the length of a longest common subsequence. -/
def IsLongestCommon (l r : List α) (n : ℕ) : Prop :=
  (∃ s : List α, s <+ l ∧ s <+ r ∧ s.length = n) ∧
    ∀ s : List α, s <+ l → s <+ r → s.length ≤ n

/-- A common subsequence of lists that start alike is, but for the first entry, one of what is
behind. -/
lemma length_le_of_sublist_cons {a : α} {l r s : List α} {n : ℕ}
    (h : ∀ s : List α, s <+ l → s <+ r → s.length ≤ n) (hl : s <+ a :: l) (hr : s <+ a :: r) :
    s.length ≤ n + 1 := by
  cases s with
  | nil => exact Nat.zero_le _
  | cons c s => exact Nat.succ_le_succ (h s hl.tail hr.tail)

/-- A common subsequence of lists that start differently leaves one of the first entries out. -/
lemma sublist_or_of_ne {a b : α} (hne : a ≠ b) {l r s : List α} (hl : s <+ a :: l)
    (hr : s <+ b :: r) : s <+ l ∨ s <+ r := by
  rcases List.sublist_cons_iff.mp hl with hl | ⟨s, rfl, -⟩
  · exact .inl hl
  · rcases List.sublist_cons_iff.mp hr with hr | ⟨s', heq, -⟩
    · exact .inr hr
    · exact absurd (List.cons.inj heq).1 hne

variable [DecidableEq α]

/-- The recurrence of longest common subsequences. -/
def commonLength : List α → List α → ℕ
  | [], _ => 0
  | _ :: _, [] => 0
  | a :: l, b :: r =>
    if a = b then commonLength l r + 1 else max (commonLength l (b :: r)) (commonLength (a :: l) r)
termination_by l r => l.length + r.length

lemma commonLength_nil_right (l : List α) : commonLength l [] = 0 := by
  cases l <;> rw [commonLength]

lemma commonLength_cons_self (a : α) (l r : List α) :
    commonLength (a :: l) (a :: r) = commonLength l r + 1 := by
  rw [commonLength, if_pos rfl]

lemma commonLength_cons_of_ne {a b : α} (h : a ≠ b) (l r : List α) :
    commonLength (a :: l) (b :: r) = max (commonLength l (b :: r)) (commonLength (a :: l) r) := by
  rw [commonLength, if_neg h]

/-- No common subsequence is longer than the recurrence says. -/
lemma length_le_commonLength {l r s : List α} (hl : s <+ l) (hr : s <+ r) :
    s.length ≤ commonLength l r := by
  induction l, r using commonLength.induct generalizing s with
  | case1 r =>
    rw [List.sublist_nil.mp hl]
    exact Nat.zero_le _
  | case2 a l =>
    rw [List.sublist_nil.mp hr]
    exact Nat.zero_le _
  | case3 a l r ih =>
    rw [commonLength_cons_self]
    exact length_le_of_sublist_cons (fun s => ih) hl hr
  | case4 a l b r hne ihLeft ihRight =>
    rw [commonLength_cons_of_ne hne]
    rcases sublist_or_of_ne hne hl hr with hleft | hright
    · exact Nat.le_trans (ihLeft hleft hr) (Nat.le_max_left _ _)
    · exact Nat.le_trans (ihRight hl hright) (Nat.le_max_right _ _)

/-- A common subsequence that is as long as the recurrence says is a longest one. -/
lemma isLongestCommon_of_length_eq {l r s : List α} (hl : s <+ l) (hr : s <+ r)
    (h : s.length = commonLength l r) : IsLongestCommon l r s.length :=
  ⟨⟨s, hl, hr, rfl⟩, fun _ hl' hr' => h ▸ length_le_commonLength hl' hr'⟩

end Portwyrm.Base

import Portwyrm.Base.Subsequences

/-!
# Differences of configurations

`diffConfig` of `nginxConfig.ts`, which shows how an edited Nginx configuration differs from the one
that is in use: a table of the lengths of longest common subsequences of the lines, and a walk
through the table.
-/

namespace Portwyrm.Frontend

open Base
open scoped List

/-! ## The table and the walk -/

/-- A text of the frontend: its UTF-16 code units. -/
abbrev CodeUnits := List UInt16

/-- The types of the lines of a difference. -/
inductive DiffType
  | same
  | add
  | remove
deriving DecidableEq

/-- `ConfigDiffLine`, with lines of any kind. -/
structure ConfigDiffLine (α : Type) where
  type : DiffType
  line : α
deriving DecidableEq

/-- The table, one row and one column longer than the lists of lines. -/
abbrev Matrix (m n : ℕ) := Vector (Vector ℕ (n + 1)) (m + 1)

section Diff

variable {α : Type} [DecidableEq α] (left right : List α)

/-- The value of a cell, from those below it and on its right. -/
def cell (matrix : Matrix left.length right.length) (i j : ℕ) (hi : i < left.length)
    (hj : j < right.length) : ℕ :=
  if left[i] = right[j] then matrix[i + 1][j + 1] + 1 else max matrix[i + 1][j] matrix[i][j + 1]

/-- The inner loop: the cells of a row before column `j`, from the right. -/
def fillRow (i : ℕ) (hi : i < left.length) : (j : ℕ) → j ≤ right.length →
    Matrix left.length right.length → Matrix left.length right.length
  | 0, _, matrix => matrix
  | j + 1, hj, matrix =>
    fillRow i hi j (by omega)
      (matrix.set i (matrix[i].set j (cell left right matrix i j hi (by omega))))

/-- The outer loop: the rows before row `i`, from the bottom. -/
def fillRows : (i : ℕ) → i ≤ left.length →
    Matrix left.length right.length → Matrix left.length right.length
  | 0, _, matrix => matrix
  | i + 1, hi, matrix =>
    fillRows i (by omega) (fillRow left right i (by omega) right.length (Nat.le_refl _) matrix)

/-- The table when both loops are done. -/
def filledMatrix : Matrix left.length right.length :=
  fillRows left right left.length (Nat.le_refl _)
    (Vector.replicate (left.length + 1) (Vector.replicate (right.length + 1) 0))

/-- The lines that are pushed from row `i` and column `j` on: in the first `while` loop, and then,
when the lines of one side are exhausted, in the other two. -/
def walk (matrix : Matrix left.length right.length) (i j : ℕ) : List (ConfigDiffLine α) :=
  if h : i < left.length ∧ j < right.length then
    if left[i] = right[j] then ⟨.same, left[i]⟩ :: walk matrix (i + 1) (j + 1)
    else if matrix[i][j + 1] ≤ matrix[i + 1][j] then ⟨.remove, left[i]⟩ :: walk matrix (i + 1) j
    else ⟨.add, right[j]⟩ :: walk matrix i (j + 1)
  else
    (left.drop i).map (fun line => ⟨.remove, line⟩) ++
      (right.drop j).map fun line => ⟨.add, line⟩
termination_by left.length - i + (right.length - j)

/-- `diffConfig`, on lists of lines. -/
def diffLines : List (ConfigDiffLine α) := walk left right (filledMatrix left right) 0 0

end Diff

/-- The code unit of a line feed. -/
def lineFeed : UInt16 := 10

/-- `diffConfig`. -/
def diffConfig (before after : CodeUnits) : List (ConfigDiffLine CodeUnits) :=
  diffLines (before.splitOn lineFeed) (after.splitOn lineFeed)

/-! ## What the table holds -/

section Table

variable {α : Type} [DecidableEq α] {left right : List α}

/-- The cells on the right margin, and those that the loops have come to, hold the lengths for the
lines behind them. -/
def FilledFrom (matrix : Matrix left.length right.length) (i j : ℕ) : Prop :=
  ∀ (i' j' : ℕ) (hi' : i' ≤ left.length) (hj' : j' ≤ right.length),
    (i < i' ∨ (i' = i ∧ j ≤ j') ∨ j' = right.length) →
      matrix[i'][j'] = commonLength (left.drop i') (right.drop j')

variable {matrix : Matrix left.length right.length} {i j : ℕ}

lemma commonLength_drop_of_eq (hi : i < left.length) (hj : j < right.length)
    (heq : left[i] = right[j]) : commonLength (left.drop i) (right.drop j) =
      commonLength (left.drop (i + 1)) (right.drop (j + 1)) + 1 := by
  rw [List.drop_eq_getElem_cons hi, List.drop_eq_getElem_cons hj, heq, commonLength_cons_self]

lemma commonLength_drop_of_ne (hi : i < left.length) (hj : j < right.length)
    (hne : left[i] ≠ right[j]) : commonLength (left.drop i) (right.drop j) =
      max (commonLength (left.drop (i + 1)) (right.drop j))
        (commonLength (left.drop i) (right.drop (j + 1))) := by
  rw [List.drop_eq_getElem_cons hi, List.drop_eq_getElem_cons hj, commonLength_cons_of_ne hne]

/-- The value of the next cell. -/
lemma cell_eq (hi : i < left.length) (hj : j < right.length) (h : FilledFrom matrix i (j + 1)) :
    cell left right matrix i j hi hj = commonLength (left.drop i) (right.drop j) := by
  rw [cell]
  split
  · rename_i heq
    rw [commonLength_drop_of_eq hi hj heq,
      h (i + 1) (j + 1) (by omega) (by omega) (.inl (by omega))]
  · rename_i hne
    rw [commonLength_drop_of_ne hi hj hne,
      h (i + 1) j (by omega) (by omega) (.inl (by omega)),
      h i (j + 1) (by omega) (by omega) (.inr (.inl ⟨rfl, Nat.le_refl _⟩))]

/-- The next cell is filled. -/
lemma FilledFrom.set (hi : i < left.length) (hj : j < right.length)
    (h : FilledFrom matrix i (j + 1)) :
    FilledFrom (matrix.set i (matrix[i].set j (cell left right matrix i j hi hj))) i j := by
  intro i' j' hi' hj' hcell
  rw [Vector.getElem_set]
  -- the other rows, and the other cells of the row, are as before
  split
  · subst_vars
    rw [Vector.getElem_set]
    split
    · subst_vars
      exact cell_eq hi hj h
    · exact h _ j' hi' hj' (by omega)
  · exact h i' j' hi' hj' (by omega)

lemma filledFrom_fillRow (hi : i < left.length) (hj : j ≤ right.length)
    (h : FilledFrom matrix i j) : FilledFrom (fillRow left right i hi j hj matrix) i 0 := by
  induction j generalizing matrix with
  | zero => exact h
  | succ j ih =>
    rw [fillRow]
    exact ih _ (h.set hi (by omega))

lemma filledFrom_fillRows (hi : i ≤ left.length)
    (h : ∀ i' j' (hi' : i' ≤ left.length) (hj' : j' ≤ right.length),
      (i ≤ i' ∨ j' = right.length) →
        matrix[i'][j'] = commonLength (left.drop i') (right.drop j')) :
    ∀ i' j' (hi' : i' ≤ left.length) (hj' : j' ≤ right.length),
      (fillRows left right i hi matrix)[i'][j'] = commonLength (left.drop i') (right.drop j') := by
  induction i generalizing matrix with
  | zero => exact fun i' j' hi' hj' => h i' j' hi' hj' (.inl (Nat.zero_le _))
  | succ i ih =>
    rw [fillRows]
    refine ih _ fun i' j' hi' hj' hcell => ?_
    have hrow : FilledFrom matrix i right.length := by
      intro i' j' hi' hj' hcell
      exact h i' j' hi' hj' (by omega)
    exact filledFrom_fillRow (by omega) (Nat.le_refl _) hrow i' j' hi' hj' (by omega)

/-- Every cell of the table is the length of a longest common subsequence of the lines behind it. -/
lemma getElem_filledMatrix (hi : i ≤ left.length) (hj : j ≤ right.length) :
    (filledMatrix left right)[i][j] = commonLength (left.drop i) (right.drop j) := by
  refine filledFrom_fillRows (Nat.le_refl _) (fun i' j' hi' hj' hcell => ?_) i j hi hj
  rw [Vector.getElem_replicate, Vector.getElem_replicate]
  rcases hcell with hi | hj
  · rw [List.drop_eq_nil_of_le hi, commonLength]
  · have hbehind : right.drop j' = [] := List.drop_eq_nil_of_le (by omega)
    rw [hbehind, commonLength_nil_right]

end Table

/-! ## What the walk shows -/

section Walk

variable {α : Type}

/-- The lines of some types. -/
def linesOf (types : List DiffType) (diff : List (ConfigDiffLine α)) : List α :=
  (diff.filter fun entry => entry.type ∈ types).map ConfigDiffLine.line

@[simp] lemma linesOf_nil (types : List DiffType) :
    linesOf types ([] : List (ConfigDiffLine α)) = [] := rfl

lemma linesOf_cons (types : List DiffType) (type : DiffType) (line : α)
    (diff : List (ConfigDiffLine α)) : linesOf types (⟨type, line⟩ :: diff) =
      if type ∈ types then line :: linesOf types diff else linesOf types diff := by
  rw [linesOf, List.filter_cons]
  split
  · rename_i h
    rw [if_pos (of_decide_eq_true h)]
    rfl
  · rename_i h
    rw [if_neg fun hmem => h (decide_eq_true hmem)]
    rfl

lemma linesOf_append (types : List DiffType) (diff diff' : List (ConfigDiffLine α)) :
    linesOf types (diff ++ diff') = linesOf types diff ++ linesOf types diff' := by
  rw [linesOf, List.filter_append, List.map_append]
  rfl

lemma linesOf_map (types : List DiffType) (type : DiffType) (lines : List α) :
    linesOf types (lines.map fun line => ⟨type, line⟩) = if type ∈ types then lines else [] := by
  induction lines with
  | nil => simp
  | cons line lines ih =>
    rw [List.map_cons, linesOf_cons, ih]
    split <;> rfl

/-- Fewer types give a part of the lines. -/
lemma linesOf_sublist {types types' : List DiffType} (h : types ⊆ types')
    (diff : List (ConfigDiffLine α)) : linesOf types diff <+ linesOf types' diff := by
  refine List.Sublist.map _ (List.monotone_filter_right diff fun entry hentry => ?_)
  exact decide_eq_true (h (of_decide_eq_true hentry))

variable [DecidableEq α] {left right : List α}

/-- The lines of both sides are shown in their order. -/
lemma linesOf_walk (matrix : Matrix left.length right.length) (i j : ℕ) :
    linesOf [.same, .remove] (walk left right matrix i j) = left.drop i ∧
      linesOf [.same, .add] (walk left right matrix i j) = right.drop j := by
  -- equal lines, a line that goes, a line that comes, and the end of one side
  induction i, j using walk.induct left right matrix with
  | case1 i j h heq ih =>
    rw [walk, dif_pos h, if_pos heq, linesOf_cons, linesOf_cons, if_pos (by decide),
      if_pos (by decide), ih.1, ih.2, List.drop_eq_getElem_cons h.1,
      List.drop_eq_getElem_cons h.2, heq]
    exact ⟨rfl, rfl⟩
  | case2 i j h hne hle ih =>
    rw [walk, dif_pos h, if_neg hne, if_pos hle, linesOf_cons, linesOf_cons, if_pos (by decide),
      if_neg (by decide), ih.1, ih.2, List.drop_eq_getElem_cons h.1]
    exact ⟨rfl, rfl⟩
  | case3 i j h hne hle ih =>
    rw [walk, dif_pos h, if_neg hne, if_neg hle, linesOf_cons, linesOf_cons, if_neg (by decide),
      if_pos (by decide), ih.1, ih.2, List.drop_eq_getElem_cons h.2]
    exact ⟨rfl, rfl⟩
  | case4 i j h =>
    rw [walk, dif_neg h, linesOf_append, linesOf_append, linesOf_map, linesOf_map, linesOf_map,
      linesOf_map, if_pos (by decide), if_neg (by decide), if_neg (by decide), if_pos (by decide),
      List.append_nil, List.nil_append]
    exact ⟨rfl, rfl⟩

/-- With the lengths in its cells, the table leads the walk along a longest common subsequence. -/
lemma length_same_walk {matrix : Matrix left.length right.length}
    (hmatrix : ∀ (i j : ℕ) (hi : i ≤ left.length) (hj : j ≤ right.length),
      matrix[i][j] = commonLength (left.drop i) (right.drop j)) (i j : ℕ) :
    (linesOf [.same] (walk left right matrix i j)).length =
      commonLength (left.drop i) (right.drop j) := by
  induction i, j using walk.induct left right matrix with
  | case1 i j h heq ih =>
    rw [walk, dif_pos h, if_pos heq, linesOf_cons, if_pos (by decide), List.length_cons, ih,
      commonLength_drop_of_eq h.1 h.2 heq]
  | case2 i j h hne hle ih =>
    rw [walk, dif_pos h, if_neg hne, if_pos hle, linesOf_cons, if_neg (by decide), ih]
    -- the cells say that nothing is lost when the left line goes
    rw [hmatrix i (j + 1) (by omega) (by omega), hmatrix (i + 1) j (by omega) (by omega)] at hle
    rw [commonLength_drop_of_ne h.1 h.2 hne, Nat.max_eq_left hle]
  | case3 i j h hne hlt ih =>
    rw [walk, dif_pos h, if_neg hne, if_neg hlt, linesOf_cons, if_neg (by decide), ih]
    rw [hmatrix i (j + 1) (by omega) (by omega), hmatrix (i + 1) j (by omega) (by omega)] at hlt
    rw [commonLength_drop_of_ne h.1 h.2 hne, Nat.max_eq_right (by omega)]
  | case4 i j h =>
    rw [walk, dif_neg h, linesOf_append, linesOf_map, linesOf_map, if_neg (by decide),
      if_neg (by decide), List.append_nil]
    -- one side is at its end, and has nothing in common with the rest of the other
    rcases Nat.lt_or_ge i left.length with hi | hi
    · have hright : right.drop j = [] := List.drop_eq_nil_of_le (by omega)
      rw [hright, commonLength_nil_right]
      rfl
    · rw [List.drop_eq_nil_of_le hi, commonLength]
      rfl

/-- The lines of both sides are shown, and as many of them as the same as there can be. -/
lemma diffLines_spec (left right : List α) :
    linesOf [.same, .remove] (diffLines left right) = left ∧
    linesOf [.same, .add] (diffLines left right) = right ∧
    IsLongestCommon left right (linesOf [.same] (diffLines left right)).length := by
  have hleft : linesOf [.same, .remove] (diffLines left right) = left := (linesOf_walk _ 0 0).1
  have hright : linesOf [.same, .add] (diffLines left right) = right := (linesOf_walk _ 0 0).2
  have hlength : (linesOf [.same] (diffLines left right)).length = commonLength left right :=
    length_same_walk (fun _ _ hi hj => getElem_filledMatrix hi hj) 0 0
  refine ⟨hleft, hright, isLongestCommon_of_length_eq ?_ ?_ hlength⟩
  · have hpart : linesOf [.same] (diffLines left right) <+
        linesOf [.same, .remove] (diffLines left right) := linesOf_sublist (by simp) _
    rwa [hleft] at hpart
  · have hpart : linesOf [.same] (diffLines left right) <+
        linesOf [.same, .add] (diffLines left right) := linesOf_sublist (by simp) _
    rwa [hright] at hpart

end Walk

/-- The difference of two texts: the lines that stay and those that are removed are the lines of the
old text, the lines that stay and those that are added are the lines of the new text, and the lines
that stay are a longest common subsequence. -/
theorem diffConfig_spec (before after : CodeUnits) :
    linesOf [.same, .remove] (diffConfig before after) = before.splitOn lineFeed ∧
    linesOf [.same, .add] (diffConfig before after) = after.splitOn lineFeed ∧
    IsLongestCommon (before.splitOn lineFeed) (after.splitOn lineFeed)
      (linesOf [.same] (diffConfig before after)).length :=
  diffLines_spec _ _

end Portwyrm.Frontend

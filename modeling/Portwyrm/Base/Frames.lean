import Mathlib.Tactic.Lemma

/-!
# Framed blocks

Blocks that are written one after the other, each of them ended by a separator.  Two sequences of
blocks are written alike exactly when they have the same pieces between separators.
-/

namespace Portwyrm.Base.Frames

variable {α : Type} (sep : α)

/-- The blocks, each of them ended by the separator. -/
def framed (blocks : List (List α)) : List α := blocks.flatMap fun block => block ++ [sep]

variable [BEq α]

/-- The pieces of the blocks between separators. -/
def pieces (blocks : List (List α)) : List (List α) := blocks.flatMap fun block => block.splitOn sep

variable [LawfulBEq α] {sep} {blocks blocks' : List (List α)}

/-- What is written splits into the pieces, and an empty one behind the last separator. -/
lemma splitOn_framed : (framed sep blocks).splitOn sep = pieces sep blocks ++ [[]] := by
  induction blocks with
  | nil => rfl
  | cons block blocks ih =>
    have happend : framed sep (block :: blocks) = block ++ sep :: framed sep blocks := by
      simp [framed]
    rw [happend, List.splitOn_append_cons_self, ih, ← List.append_assoc]
    rfl

/-- The pieces tell what is written. -/
theorem framed_eq_framed_iff :
    framed sep blocks = framed sep blocks' ↔ pieces sep blocks = pieces sep blocks' := by
  constructor
  · intro h
    have hsplit := congrArg (List.splitOn sep) h
    rw [splitOn_framed, splitOn_framed] at hsplit
    exact List.append_cancel_right hsplit
  · intro h
    calc framed sep blocks = [sep].intercalate ((framed sep blocks).splitOn sep) :=
          (List.intercalate_splitOn sep).symm
      _ = [sep].intercalate ((framed sep blocks').splitOn sep) := by
          rw [splitOn_framed, h, ← splitOn_framed]
      _ = framed sep blocks' := List.intercalate_splitOn sep

/-- Blocks without separators are the pieces. -/
lemma pieces_of_not_mem (h : ∀ block ∈ blocks, sep ∉ block) : pieces sep blocks = blocks := by
  induction blocks with
  | nil => rfl
  | cons block blocks ih =>
    obtain ⟨hblock, hblocks⟩ := List.forall_mem_cons.mp h
    rw [pieces, List.flatMap_cons, List.splitOn_eq_singleton hblock, ← pieces, ih hblocks]
    rfl

end Portwyrm.Base.Frames

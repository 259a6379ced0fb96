import Mathlib.Data.List.DropRight
import Mathlib.Data.List.Infix
import Portwyrm.Base.Text

/-!
# Lines and pieces of texts

What is left of a text in its lines, in the pieces between separators, and in the text without the
white space around it.
-/

namespace Portwyrm.Base

namespace Text

/-! ## Lines -/

/-- Lines with a line feed behind each. -/
def ended (lines : List String) : String :=
  String.ofList (lines.flatMap fun line => line.toList ++ ['\n'])

lemma linesFrom_append_newline {line : List Char} (h : ∀ c ∈ line, isLineBreak c = false)
    (current rest : List Char) :
    linesFrom current (line ++ '\n' :: rest) = (current.reverse ++ line) :: linesFrom [] rest := by
  induction line generalizing current with
  | nil =>
    rw [List.nil_append, linesFrom]
    · simp [show isLineBreak '\n' = true from rfl]
    · exact nofun
  | cons c line ih =>
    have hc : isLineBreak c = false := h c (by simp)
    have hline : ∀ d ∈ line, isLineBreak d = false := fun d hd => h d (by simp [hd])
    rw [List.cons_append, linesFrom]
    · rw [hc, if_neg Bool.false_ne_true, ih hline]
      simp
    · rintro r rfl -
      exact absurd hc (by decide)

/-- Lines without line breaks are read back. -/
lemma splitlines_ended {lines : List String}
    (h : ∀ line ∈ lines, ∀ c ∈ line.toList, isLineBreak c = false) :
    splitlines (ended lines) = lines := by
  have hchars : linesFrom [] (lines.flatMap fun line => line.toList ++ ['\n']) =
      lines.map String.toList := by
    induction lines with
    | nil => rfl
    | cons line lines ih =>
      rw [List.flatMap_cons, List.append_assoc, List.singleton_append,
        linesFrom_append_newline (h line (by simp)), ih fun l hl => h l (by simp [hl])]
      rfl
  rw [splitlines, ended, String.toList_ofList, hchars, List.map_map]
  simp [Function.comp_def]

/-! ## White space around a text -/

variable {p l x y : List Char}

lemma dropWhile_append_cons {c : Char} (hc : isSpace c = false) (x r : List Char) :
    (x ++ c :: r).dropWhile isSpace = x.dropWhile isSpace ++ c :: r := by
  induction x with
  | nil => simp [hc]
  | cons d x ih =>
    by_cases hd : isSpace d = true
    · simpa [hd] using ih
    · simp [hd]

lemma infix_dropWhile (hp : ∀ c ∈ p, isSpace c = false) (h : p <:+: l) :
    p <:+: l.dropWhile isSpace := by
  obtain ⟨x, y, rfl⟩ := h
  cases p with
  | nil => exact List.nil_infix
  | cons c p =>
    rw [List.append_assoc, List.cons_append, dropWhile_append_cons (hp c (by simp))]
    exact ⟨x.dropWhile isSpace, y, by simp⟩

lemma rdropWhile_append_cons {c : Char} (hc : isSpace c = false) (x r : List Char) :
    (x ++ c :: r).rdropWhile isSpace = x ++ c :: r.rdropWhile isSpace := by
  rw [List.rdropWhile, List.rdropWhile, List.reverse_append, List.reverse_cons, List.append_assoc,
    List.singleton_append, dropWhile_append_cons hc]
  simp

/-- A part without white space is in a text when it is in the stripped text. -/
lemma infix_strip_iff {s : String} (hp : ∀ c ∈ p, isSpace c = false) :
    p <:+: (strip s).toList ↔ p <:+: s.toList := by
  rw [strip, String.toList_ofList]
  constructor
  · intro h
    exact h.trans ((List.rdropWhile_prefix _ _).isInfix.trans (List.dropWhile_suffix _).isInfix)
  · intro h
    have hreverse : p.reverse <:+: (s.toList.dropWhile isSpace).reverse :=
      List.reverse_infix.mpr (infix_dropWhile hp h)
    have hright := infix_dropWhile (fun c hc => hp c (List.mem_reverse.mp hc)) hreverse
    rw [List.rdropWhile, ← List.reverse_infix, List.reverse_reverse]
    exact hright

/-- Stripping takes nothing but white space away. -/
lemma mem_strip_iff {s : String} {c : Char} (hc : isSpace c = false) :
    c ∈ (strip s).toList ↔ c ∈ s.toList := by
  rw [← List.singleton_infix_iff, ← List.singleton_infix_iff]
  exact infix_strip_iff (by simpa using hc)

/-! ## Pieces -/

/-- A part without the separator is in one of two texts around it. -/
lemma infix_append_cons {sep : Char} (hp : sep ∉ p) (h : p <:+: x ++ sep :: y) :
    p <:+: x ∨ p <:+: y := by
  rcases List.infix_append_iff.mp h with hx | hy | ⟨p₁, p₂, rfl, hx, hy⟩
  · exact .inl hx
  · rcases List.infix_cons_iff.mp hy with hprefix | hpart
    · cases p with
      | nil => exact .inl (List.nil_infix)
      | cons c p =>
        obtain rfl := (List.cons_prefix_cons.mp hprefix).1
        exact absurd (by simp) hp
    · exact .inr hpart
  · cases p₂ with
    | nil =>
      rw [List.append_nil]
      exact .inl hx.isInfix
    | cons c p₂ =>
      obtain rfl := (List.cons_prefix_cons.mp hy).1
      exact absurd (by simp) hp

/-- A part without the separator is in one of the pieces. -/
lemma exists_piece_of_infix {sep : Char} (hp : sep ∉ p) (h : p <:+: l) :
    ∃ piece ∈ l.splitOn sep, p <:+: piece := by
  have hpieces : ∀ pieces : List (List Char), pieces ≠ [] → p <:+: [sep].intercalate pieces →
      ∃ piece ∈ pieces, p <:+: piece := by
    intro pieces hne hpart
    induction pieces with
    | nil => exact absurd rfl hne
    | cons piece pieces ih =>
      cases pieces with
      | nil => exact ⟨piece, by simp, by simpa using hpart⟩
      | cons piece' pieces =>
        rw [List.intercalate_cons_cons, List.append_assoc, List.singleton_append] at hpart
        rcases infix_append_cons hp hpart with hleft | hright
        · exact ⟨piece, by simp, hleft⟩
        · obtain ⟨found, hfound, hin⟩ := ih (by simp) hright
          exact ⟨found, by simp [hfound], hin⟩
  refine hpieces _ (by simp) ?_
  rwa [List.intercalate_splitOn]

/-- A character of joined pieces is in the separator or in a piece. -/
lemma mem_intercalate {sep : List Char} {pieces : List (List Char)} {c : Char}
    (h : c ∈ sep.intercalate pieces) : c ∈ sep ∨ ∃ piece ∈ pieces, c ∈ piece := by
  induction pieces with
  | nil => exact absurd h (by simp)
  | cons piece pieces ih =>
    cases pieces with
    | nil => exact .inr ⟨piece, by simp, by simpa using h⟩
    | cons piece' pieces =>
      rw [List.intercalate_cons_cons, List.append_assoc, List.mem_append, List.mem_append] at h
      rcases h with hpiece | hsep | hrest
      · exact .inr ⟨piece, by simp, hpiece⟩
      · exact .inl hsep
      · exact (ih hrest).imp id fun ⟨found, hfound, hc⟩ => ⟨found, by simp [hfound], hc⟩

lemma infix_intercalate {sep piece : List Char} {pieces : List (List Char)} (h : piece ∈ pieces) :
    piece <:+: sep.intercalate pieces := by
  induction pieces with
  | nil => exact absurd h List.not_mem_nil
  | cons first pieces ih =>
    cases pieces with
    | nil =>
      obtain rfl := List.mem_singleton.mp h
      simp
    | cons second pieces =>
      rw [List.intercalate_cons_cons]
      rcases List.mem_cons.mp h with rfl | hrest
      · exact (List.prefix_append _ _).isInfix.trans (List.prefix_append _ _).isInfix
      · exact (ih hrest).trans (List.suffix_append _ _).isInfix

lemma getLast?_intercalate {sep : List Char} {pieces : List (List Char)} (hne : ∀ piece ∈ pieces, piece ≠ [])
    {c : Char} (h : c ∈ (sep.intercalate pieces).getLast?) : ∃ piece ∈ pieces, c ∈ piece.getLast? := by
  induction pieces with
  | nil => exact absurd h (by simp)
  | cons first pieces ih =>
    cases pieces with
    | nil => exact ⟨first, by simp, by simpa using h⟩
    | cons second pieces =>
      have hrest : sep.intercalate (second :: pieces) ≠ [] := fun hnil =>
        hne second (by simp) (List.infix_nil.mp (hnil ▸ infix_intercalate List.mem_cons_self))
      rw [List.intercalate_cons_cons, List.getLast?_append_of_ne_nil _ hrest] at h
      obtain ⟨piece, hpiece, hc⟩ := ih (fun l hl => hne l (List.mem_cons_of_mem _ hl)) h
      exact ⟨piece, List.mem_cons_of_mem _ hpiece, hc⟩

/-- Pieces behind a separator and a blank start with the blank. -/
lemma intercalate_blank {sep : Char} (piece : List Char) (pieces : List (List Char)) :
    [sep, ' '].intercalate (piece :: pieces) =
      [sep].intercalate (piece :: pieces.map fun l => ' ' :: l) := by
  induction pieces generalizing piece with
  | nil => simp
  | cons piece' pieces ih =>
    rw [List.map_cons, List.intercalate_cons_cons, List.intercalate_cons_cons, ih]
    cases pieces with
    | nil => simp
    | cons piece'' pieces =>
      rw [List.map_cons, List.intercalate_cons_cons, List.intercalate_cons_cons]
      simp

end Text

end Portwyrm.Base

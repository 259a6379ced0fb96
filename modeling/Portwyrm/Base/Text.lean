import Mathlib.Data.List.DropRight
import Mathlib.Tactic.Lemma

/-!
# Python text

The string operations that programs written in Python lean on, as functions on lists of
characters: `str.strip`, `str.partition`, `str.split` with a bound, `str.replace` of one
character, `str.join`.  Each is structurally recursive, so that concrete texts evaluate.

`casefold` is exact on every text that folds to ASCII; a character whose folding leaves
ASCII is kept as it is, which is still outside ASCII.
-/

namespace Portwyrm.Base

namespace Text

/-! ## Deciding along a text -/

section decidable

-- The characters of a text are few, those of Unicode are not: a property of the former is
-- decided by a pass over the text.
variable (p : Char → Prop) [DecidablePred p]

instance decidableForallMem (l : List Char) : Decidable (∀ c ∈ l, p c) := List.decidableBAll p l

instance decidableExistsMem (l : List Char) : Decidable (∃ c ∈ l, p c) := List.decidableBEx p l

instance decidableForallMemOption (o : Option Char) : Decidable (∀ c ∈ o, p c) :=
  Option.decidableForallMem o

end decidable

/-! ## White space -/

/-- The code points for which `str.isspace` holds. -/
def isSpace (c : Char) : Bool :=
  let n := c.toNat
  (9 ≤ n && n ≤ 13) || (28 ≤ n && n ≤ 32) || n == 0x85 || n == 0xa0 || n == 0x1680 ||
    (0x2000 ≤ n && n ≤ 0x200a) || n == 0x2028 || n == 0x2029 || n == 0x202f || n == 0x205f ||
    n == 0x3000

/-- `str.strip`. -/
def strip (s : String) : String :=
  String.ofList ((s.toList.dropWhile isSpace).rdropWhile isSpace)

/-- `str.rstrip`. -/
def rstrip (s : String) : String := String.ofList (s.toList.rdropWhile isSpace)

/-- A text that `strip` leaves alone: it neither starts nor ends with white space. -/
def Stripped (s : String) : Prop :=
  (∀ c ∈ s.toList.head?, isSpace c = false) ∧ ∀ c ∈ s.toList.getLast?, isSpace c = false

lemma stripped_strip (s : String) : Stripped (strip s) := by
  refine ⟨?_, ?_⟩
  · intro c hc
    simp only [strip, String.toList_ofList] at hc
    generalize hl : s.toList.dropWhile isSpace = l at hc
    cases l with
    | nil => simp at hc
    | cons a l =>
      have ha : isSpace a = false := by
        have := List.head?_dropWhile_not isSpace s.toList
        rw [hl] at this
        simpa using this
      obtain ⟨t, ht⟩ := List.rdropWhile_prefix isSpace (a :: l)
      cases hr : (a :: l).rdropWhile isSpace with
      | nil => simp [hr] at hc
      | cons b r =>
        rw [hr] at ht hc
        simp only [List.cons_append, List.cons.injEq] at ht
        simp only [List.head?_cons, Option.mem_def, Option.some.injEq] at hc
        rw [← hc, ht.1, ha]
  · intro c hc
    simp only [strip, String.toList_ofList] at hc
    have hne : ((s.toList.dropWhile isSpace).rdropWhile isSpace) ≠ [] := by
      intro h
      simp [h] at hc
    rw [List.getLast?_eq_some_getLast hne, Option.mem_def, Option.some.injEq] at hc
    have := List.rdropWhile_last_not isSpace (s.toList.dropWhile isSpace) hne
    simpa [hc] using this

lemma strip_of_stripped {s : String} (h : Stripped s) : strip s = s := by
  have h1 : s.toList.dropWhile isSpace = s.toList := by
    cases hs : s.toList with
    | nil => rfl
    | cons a l => simp [h.1 a (by simp [hs])]
  have h2 : s.toList.rdropWhile isSpace = s.toList := by
    rw [List.rdropWhile_eq_self_iff]
    intro hne
    simp [h.2 (s.toList.getLast hne) (by simp [List.getLast?_eq_some_getLast hne])]
  rw [strip, h1, h2, String.ofList_toList]

/-- `strip` takes the line feed off a stripped text. -/
lemma strip_append_newline {s : String} (h : Stripped s) : strip (s ++ "\n") = s := by
  have hspace : isSpace '\n' = true := by decide
  have h2 : s.toList.rdropWhile isSpace = s.toList := by
    rw [List.rdropWhile_eq_self_iff]
    intro hne
    simp [h.2 (s.toList.getLast hne) (by simp [List.getLast?_eq_some_getLast hne])]
  rw [strip, String.toList_append, show "\n".toList = ['\n'] from rfl]
  cases hs : s.toList with
  | nil =>
    have hempty : s = "" := String.toList_injective hs
    simp [hempty, hspace]
  | cons a l =>
    have ha : isSpace a = false := h.1 a (by simp [hs])
    rw [List.cons_append, List.dropWhile_cons_of_neg (by simp [ha]), ← List.cons_append,
      List.rdropWhile_concat_pos _ _ _ hspace, ← hs, h2, String.ofList_toList]

@[simp] lemma strip_strip (s : String) : strip (strip s) = strip s :=
  strip_of_stripped (stripped_strip s)

/-- A text is blank when all of its characters are white space. -/
lemma strip_eq_empty_iff {s : String} : strip s = "" ↔ ∀ c ∈ s.toList, isSpace c = true := by
  have hempty : strip s = "" ↔ (s.toList.dropWhile isSpace).rdropWhile isSpace = [] := by
    rw [← String.toList_inj, strip, String.toList_ofList]
    rfl
  rw [hempty, List.rdropWhile_eq_nil_iff]
  constructor
  · intro h
    by_contra hnot
    have hne : s.toList.dropWhile isSpace ≠ [] := fun hnil =>
      hnot (List.dropWhile_eq_nil_iff.mp hnil)
    exact absurd (h _ (List.head_mem hne)) (by simpa using List.head_dropWhile_not isSpace hne)
  · intro h c hc
    exact h c ((List.dropWhile_sublist isSpace).subset hc)

/-! ## Case folding -/

/-- The characters outside ASCII whose folding is ASCII. -/
def asciiFoldings : List (ℕ × List Char) :=
  [(0x17f, ['s']), (0x212a, ['k']), (0xdf, ['s', 's']), (0x1e9e, ['s', 's']),
    (0xfb00, ['f', 'f']), (0xfb01, ['f', 'i']), (0xfb02, ['f', 'l']), (0xfb03, ['f', 'f', 'i']),
    (0xfb04, ['f', 'f', 'l']), (0xfb05, ['s', 't']), (0xfb06, ['s', 't'])]

/-- The folding of one character, where it is ASCII. -/
def foldChar (c : Char) : List Char := (asciiFoldings.lookup c.toNat).getD [c.toLower]

/-- `str.casefold`. -/
def casefold (s : String) : String := String.ofList (s.toList.flatMap foldChar)

/-- `str.lower`, exact on ASCII texts. -/
def lower (s : String) : String := String.ofList (s.toList.map Char.toLower)

/-- The characters outside ASCII whose upper case is ASCII. -/
def asciiUppers : List (ℕ × List Char) :=
  [(0xdf, ['S', 'S']), (0x131, ['I']), (0x17f, ['S']), (0xfb00, ['F', 'F']), (0xfb01, ['F', 'I']),
    (0xfb02, ['F', 'L']), (0xfb03, ['F', 'F', 'I']), (0xfb04, ['F', 'F', 'L']),
    (0xfb05, ['S', 'T']), (0xfb06, ['S', 'T'])]

/-- `str.upper`, exact on every text whose upper case is ASCII. -/
def upper (s : String) : String :=
  String.ofList (s.toList.flatMap fun c => (asciiUppers.lookup c.toNat).getD [c.toUpper])

/-- A character has one of finitely many exceptional foldings, or folds to its lower case. -/
lemma foldChar_cases (c : Char) :
    (∃ e ∈ asciiFoldings, foldChar c = e.2) ∨ foldChar c = [c.toLower] := by
  unfold foldChar
  cases h : asciiFoldings.lookup c.toNat with
  | none => exact Or.inr rfl
  | some l =>
    obtain ⟨l₁, l₂, hl, _⟩ := List.lookup_eq_some_iff.mp h
    exact Or.inl ⟨(c.toNat, l), by simp [hl], rfl⟩

lemma foldChar_of_lt {c : Char} (h : c.toNat < 128) : foldChar c = [c.toLower] := by
  have hnone : asciiFoldings.lookup c.toNat = none := by
    refine List.lookup_eq_none_iff.mpr fun e he => ?_
    have hall : (asciiFoldings.all fun e => 128 ≤ e.1) = true := by decide
    have hle : 128 ≤ e.1 := of_decide_eq_true (List.all_eq_true.mp hall e he)
    rw [bne_iff_ne]
    omega
  rw [foldChar, hnone]
  rfl

/-- On ASCII texts `casefold` and `lower` agree. -/
lemma casefold_eq_lower {s : String} (h : ∀ c ∈ s.toList, c.toNat < 128) : casefold s = lower s := by
  rw [casefold, lower, ← List.flatMap_pure_eq_map]
  exact congrArg String.ofList (List.flatMap_congr fun c hc => foldChar_of_lt (h c hc))

lemma toLower_of_not_isUpper {c : Char} (h : ¬ c.isUpper = true) : c.toLower = c := by
  unfold Char.toLower
  rw [dif_neg]
  exact fun hrange => h (decide_eq_true hrange)

lemma exists_of_isUpper {c : Char} (h : c.isUpper = true) :
    ∃ n ∈ List.range' 65 26, c = Char.ofNat n := by
  refine ⟨c.toNat, ?_, (Char.ofNat_toNat c).symm⟩
  have hrange : 'A'.val ≤ c.val ∧ c.val ≤ 'Z'.val := of_decide_eq_true h
  have h1 : 65 ≤ c.toNat := hrange.1
  have h2 : c.toNat ≤ 90 := hrange.2
  rw [List.mem_range'_1]
  omega

/-- What a character folds to folds to itself. -/
lemma foldChar_of_mem {c d : Char} (h : d ∈ foldChar c) : foldChar d = [d] := by
  rcases foldChar_cases c with ⟨e, he, hc⟩ | hc
  · have hall : (asciiFoldings.all fun e => e.2.all fun d => foldChar d = [d]) = true := by
      decide
    simp only [List.all_eq_true, decide_eq_true_eq] at hall
    exact hall e he d (hc ▸ h)
  · have hd : d = c.toLower := by simpa [hc] using h
    subst hd
    by_cases hu : c.isUpper = true
    · obtain ⟨n, hn, rfl⟩ := exists_of_isUpper hu
      have hall : ∀ n ∈ List.range' 65 26,
          foldChar (Char.ofNat n).toLower = [(Char.ofNat n).toLower] := by decide
      exact hall n hn
    · rw [toLower_of_not_isUpper hu] at hc ⊢
      exact hc

/-- A folded text is its own folding. -/
lemma casefold_casefold (s : String) : casefold (casefold s) = casefold s := by
  rw [casefold, casefold, String.toList_ofList, List.flatMap_assoc]
  refine congrArg String.ofList (List.flatMap_congr fun c _ => ?_)
  calc (foldChar c).flatMap foldChar = (foldChar c).flatMap (fun d => [d]) :=
        List.flatMap_congr fun d hd => foldChar_of_mem hd
    _ = foldChar c := List.flatMap_singleton' _

/-- Folding does not produce white space. -/
lemma isSpace_of_mem_foldChar {c d : Char} (h : d ∈ foldChar c) (hc : isSpace c = false) :
    isSpace d = false := by
  rcases foldChar_cases c with ⟨e, he, hf⟩ | hf
  · have hall : (asciiFoldings.all fun e => e.2.all fun d => isSpace d = false) = true := by
      decide
    simp only [List.all_eq_true, decide_eq_true_eq] at hall
    exact hall e he d (hf ▸ h)
  · have hd : d = c.toLower := by simpa [hf] using h
    subst hd
    by_cases hu : c.isUpper = true
    · obtain ⟨n, hn, rfl⟩ := exists_of_isUpper hu
      have hall : ∀ n ∈ List.range' 65 26, isSpace (Char.ofNat n).toLower = false := by decide
      exact hall n hn
    · rwa [toLower_of_not_isUpper hu]

lemma foldChar_ne_nil (c : Char) : foldChar c ≠ [] := by
  rcases foldChar_cases c with ⟨e, he, hc⟩ | hc
  · have hall : (asciiFoldings.all fun e => !e.2.isEmpty) = true := by decide
    simp only [List.all_eq_true] at hall
    intro h
    have := hall e he
    rw [← hc, h] at this
    exact absurd this (by simp)
  · simp [hc]

/-- Strip a text, then expand each of its characters. -/
def stripExpand (f : Char → List Char) (s : String) : String :=
  String.ofList ((strip s).toList.flatMap f)

/-- Stripping and expanding twice changes nothing more, when an expansion is not empty, is
stable and does not produce white space. -/
lemma stripExpand_idem {f : Char → List Char} (hne : ∀ c, f c ≠ [])
    (hfix : ∀ c, ∀ d ∈ f c, f d = [d])
    (hspace : ∀ c, ∀ d ∈ f c, isSpace c = false → isSpace d = false) (s : String) :
    stripExpand f (stripExpand f s) = stripExpand f s := by
  have hstripped : Stripped (stripExpand f s) := by
    obtain ⟨hhead, hlast⟩ := stripped_strip s
    refine ⟨?_, ?_⟩
    · intro d hd
      simp only [stripExpand, String.toList_ofList] at hd
      cases hl : (strip s).toList with
      | nil => simp [hl] at hd
      | cons c rest =>
        cases hf : f c with
        | nil => exact absurd hf (hne c)
        | cons x xs =>
          simp only [hl, List.flatMap_cons, hf, List.cons_append, List.head?_cons,
            Option.mem_def, Option.some.injEq] at hd
          exact hspace c d (by simp [hf, hd]) (hhead c (by simp [hl]))
    · intro d hd
      simp only [stripExpand, String.toList_ofList] at hd
      rcases List.eq_nil_or_concat (strip s).toList with hl | ⟨rest, c, hl⟩
      · simp [hl] at hd
      · rcases List.eq_nil_or_concat (f c) with hf | ⟨xs, x, hf⟩
        · exact absurd hf (hne c)
        · rw [List.concat_eq_append] at hl hf
          simp only [hl, List.flatMap_append, List.flatMap_singleton, hf, ← List.append_assoc,
            List.getLast?_concat, Option.mem_def, Option.some.injEq] at hd
          exact hspace c d (by simp [hf, hd]) (hlast c (by simp [hl]))
  have hmem : ∀ d ∈ (strip s).toList.flatMap f, f d = [d] := by
    intro d hd
    obtain ⟨c, _, hc⟩ := List.mem_flatMap.mp hd
    exact hfix c d hc
  have hflat : ((strip s).toList.flatMap f).flatMap f = (strip s).toList.flatMap f := by
    generalize (strip s).toList.flatMap f = l at hmem
    induction l with
    | nil => rfl
    | cons d rest ih =>
      rw [List.flatMap_cons, hmem d (by simp), ih fun x hx => hmem x (by simp [hx])]
      rfl
  rw [stripExpand, strip_of_stripped hstripped, stripExpand, String.toList_ofList, hflat]

/-! ## Replacing, cutting and joining -/

/-- `str.replace` of one character by another. -/
def replaceChar (a b : Char) (s : String) : String :=
  String.ofList (s.toList.map fun c => if c = a then b else c)

/-- Cut a list of characters at the first occurrence of `sep`. -/
def cutAt (sep : Char) : List Char → Option (List Char × List Char)
  | [] => none
  | c :: rest =>
    if c = sep then some ([], rest)
    else (cutAt sep rest).map fun p => (c :: p.1, p.2)

/-- `str.partition` at a one-character separator: the text before it and the text after it,
or `none` when the separator does not occur. -/
def partition (sep : Char) (s : String) : Option (String × String) :=
  (cutAt sep s.toList).map fun p => (String.ofList p.1, String.ofList p.2)

/-- The fields of a text cut at the first `n` occurrences of `sep`. -/
def splitChars (sep : Char) : ℕ → List Char → List (List Char)
  | 0, l => [l]
  | n + 1, l =>
    match cutAt sep l with
    | none => [l]
    | some (a, b) => a :: splitChars sep n b

/-- `str.split(sep, n)`. -/
def split (sep : Char) (n : ℕ) (s : String) : List String :=
  (splitChars sep n s.toList).map String.ofList

lemma cutAt_eq_none_iff {sep : Char} {l : List Char} : cutAt sep l = none ↔ sep ∉ l := by
  induction l with
  | nil => simp [cutAt]
  | cons c rest ih =>
    by_cases h : c = sep
    · simp [cutAt, h]
    · have h' : ¬ sep = c := fun e => h e.symm
      simp [cutAt, h, h', ih]

lemma cutAt_eq_some_iff {sep : Char} {l a b : List Char} :
    cutAt sep l = some (a, b) ↔ l = a ++ sep :: b ∧ sep ∉ a := by
  induction l generalizing a with
  | nil => simp [cutAt]
  | cons c rest ih =>
    by_cases h : c = sep
    · subst h
      cases a with
      | nil => simp [cutAt]
      | cons a₀ a => simp [cutAt]; grind
    · cases a with
      | nil => simp [cutAt, h]
      | cons a₀ a =>
        simp only [cutAt, if_neg h, Option.map_eq_some_iff, Prod.mk.injEq, Prod.exists,
          List.cons.injEq, List.cons_append, List.mem_cons, not_or]
        constructor
        · rintro ⟨x, y, hxy, ⟨rfl, rfl⟩, rfl⟩
          obtain ⟨h1, h2⟩ := ih.mp hxy
          exact ⟨⟨rfl, h1⟩, fun h' => h h'.symm, h2⟩
        · rintro ⟨⟨rfl, h1⟩, _, h2⟩
          exact ⟨a, b, ih.mpr ⟨h1, h2⟩, ⟨rfl, rfl⟩, rfl⟩

/-- Cutting a text of three fields, the first two of them without the separator. -/
lemma split_two {sep : Char} {a b : String} (c : String) (ha : sep ∉ a.toList)
    (hb : sep ∉ b.toList) :
    split sep 2 (a ++ String.singleton sep ++ b ++ String.singleton sep ++ c) = [a, b, c] := by
  have h₁ : cutAt sep (a ++ String.singleton sep ++ b ++ String.singleton sep ++ c).toList =
      some (a.toList, b.toList ++ sep :: c.toList) :=
    cutAt_eq_some_iff.mpr ⟨by simp, ha⟩
  have h₂ : cutAt sep (b.toList ++ sep :: c.toList) = some (b.toList, c.toList) :=
    cutAt_eq_some_iff.mpr ⟨rfl, hb⟩
  simp only [split, splitChars, h₁, h₂, List.map_cons, List.map_nil, String.ofList_toList]

lemma partition_eq_none_iff {sep : Char} {s : String} :
    partition sep s = none ↔ sep ∉ s.toList := by
  rw [partition, Option.map_eq_none_iff, cutAt_eq_none_iff]

lemma partition_eq_some_iff {sep : Char} {s a b : String} :
    partition sep s = some (a, b) ↔ s = a ++ String.singleton sep ++ b ∧ sep ∉ a.toList := by
  simp only [partition, Option.map_eq_some_iff, Prod.exists, Prod.mk.injEq]
  constructor
  · rintro ⟨x, y, hxy, rfl, rfl⟩
    obtain ⟨h1, h2⟩ := cutAt_eq_some_iff.mp hxy
    refine ⟨?_, by simpa using h2⟩
    apply String.toList_injective
    simp [h1]
  · rintro ⟨rfl, h⟩
    exact ⟨a.toList, b.toList, cutAt_eq_some_iff.mpr ⟨by simp, h⟩, by simp, by simp⟩

/-- Joining two parts with a separator the first does not contain, then cutting. -/
lemma partition_join {sep : Char} {a : String} (b : String) (h : sep ∉ a.toList) :
    partition sep (a ++ String.singleton sep ++ b) = some (a, b) :=
  partition_eq_some_iff.mpr ⟨rfl, h⟩

/-! ## Lines -/

/-- The characters that end a line for `str.splitlines`. -/
def isLineBreak (c : Char) : Bool :=
  let n := c.toNat
  (10 ≤ n && n ≤ 13) || (28 ≤ n && n ≤ 30) || n == 0x85 || n == 0x2028 || n == 0x2029

/-- The lines of a list of characters behind the characters `current` of an open line, which
are kept in reverse order. -/
def linesFrom (current : List Char) : List Char → List (List Char)
  | [] => if current = [] then [] else [current.reverse]
  | '\r' :: '\n' :: rest => current.reverse :: linesFrom [] rest
  | c :: rest =>
    if isLineBreak c then current.reverse :: linesFrom [] rest else linesFrom (c :: current) rest

/-- `str.splitlines`. -/
def splitlines (s : String) : List String := (linesFrom [] s.toList).map String.ofList

/-- A text without line breaks is one line. -/
lemma linesFrom_of_no_break {l : List Char} (h : ∀ c ∈ l, isLineBreak c = false)
    (current : List Char) :
    linesFrom current l = if current.reverse ++ l = [] then [] else [current.reverse ++ l] := by
  fun_induction linesFrom current l with
  | case1 => simp
  | case2 current hne => simp [hne]
  | case3 current rest _ => exact absurd (h '\r' (by simp)) (by decide)
  | case4 current c rest _ hbreak => exact absurd (h c (by simp)) (by simp [hbreak])
  | case5 current c rest _ _ ih => simpa using ih fun x hx => h x (by simp [hx])

lemma splitlines_of_no_break {s : String} (hne : s ≠ "")
    (h : ∀ c ∈ s.toList, isLineBreak c = false) : splitlines s = [s] := by
  have hl : s.toList ≠ [] := by simpa using hne
  simp [splitlines, linesFrom_of_no_break h, hl]

/-- `str.split()`: the words between white space. -/
def words (s : String) : List String :=
  ((s.toList.splitOnP isSpace).filter (· ≠ [])).map String.ofList

/-- `sub in s`. -/
def Contains (s sub : String) : Prop := sub.toList <:+: s.toList

instance (s sub : String) : Decidable (Contains s sub) :=
  inferInstanceAs (Decidable (sub.toList <:+: s.toList))

/-- One character in the representation of a text that is quoted by `quote`. -/
def reprChar (quote c : Char) : List Char :=
  if c = quote ∨ c = '\\' then ['\\', c]
  else if c = '\n' then ['\\', 'n']
  else if c = '\r' then ['\\', 'r']
  else if c = '\t' then ['\\', 't']
  else if c.toNat < 32 ∨ c.toNat = 127 then
    ['\\', 'x', Nat.digitChar (c.toNat / 16), Nat.digitChar (c.toNat % 16)]
  else [c]

/-- `repr`, exact for texts whose characters outside ASCII are printable. -/
def repr (s : String) : String :=
  let quote := if '\'' ∈ s.toList ∧ '"' ∉ s.toList then '"' else '\''
  String.ofList (quote :: (s.toList.flatMap (reprChar quote) ++ [quote]))

/-- `"\n".join`. -/
def joinLines (lines : List String) : String := "\n".intercalate lines

end Text

end Portwyrm.Base

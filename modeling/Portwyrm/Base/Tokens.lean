import Mathlib.Data.List.Count
import Mathlib.Data.List.Forall2
import Mathlib.Tactic.Lemma
import Portwyrm.Base.Numeral
import Portwyrm.Base.Text

/-!
# The tokens of a configuration text

A text of directives is read character by character into words, semicolons, braces and comments, as
Nginx reads its configuration: a word ends at a blank, a semicolon or an opening brace, a backslash
takes the meaning from the character behind it, and quotes and `$` followed by a brace keep a word
together.  Line ends are kept in the reading, so that it tells on which line a token stands.

Two texts of equally many lines, one of which is known to be well formed, read the same exactly when
they do so line by line.
-/

namespace Portwyrm.Base.Tokens

/-- What a reader reports. -/
inductive Mark
  | word
  | semicolon
  | opening
  | closing
  | newline
  | comment
  | unexpected
deriving DecidableEq, Repr

/-- Where a reader stands. -/
inductive Place
  | gap
  | word
  | escaped
  | dollar
  | quote (single : Bool)
  | quoteEscaped (single : Bool)
  | quoteEnd
  | comment
deriving DecidableEq, Repr

/-- A blank within a line. -/
def isBlank (c : Char) : Bool := c = ' ' || c = '\t' || c = '\r'

/-- The mark of a quote. -/
def quoteMark (single : Bool) : Char := if single then '\'' else '"'

/-- A line end inside a token. -/
def lineEnd (c : Char) : List Mark := if c = '\n' then [.newline] else []

/-- What ends a word: a blank, a line end, a semicolon or an opening brace. -/
def wordEnd (c : Char) : Option (List Mark) :=
  if isBlank c then some []
  else if c = '\n' then some [.newline]
  else if c = ';' then some [.semicolon]
  else if c = '\x7b' then some [.opening]
  else none

/-- A character inside a word. -/
def readWord (c : Char) : Place × List Mark :=
  match wordEnd c with
  | some marks => (.gap, marks)
  | none => (if c = '\\' then .escaped else if c = '$' then .dollar else .word, [])

/-- One character. -/
def read : Place → Char → Place × List Mark
  | .gap, c =>
    match wordEnd c with
    | some marks => (.gap, marks)
    | none =>
      if c = '\x7d' then (.gap, [.closing])
      else if c = '#' then (.comment, [.comment])
      else if c = quoteMark false then (.quote false, [.word])
      else if c = quoteMark true then (.quote true, [.word])
      else ((readWord c).1, [.word])
  | .word, c => readWord c
  | .escaped, c => (.word, lineEnd c)
  | .dollar, c => if c = '\x7b' then (.dollar, []) else readWord c
  | .quote single, c =>
    if c = '\\' then (.quoteEscaped single, [])
    else if c = quoteMark single then (.quoteEnd, [])
    else (.quote single, lineEnd c)
  | .quoteEscaped single, c => (.quote single, lineEnd c)
  | .quoteEnd, c =>
    match wordEnd c with
    | some marks => (.gap, marks)
    | none => (.word, [.unexpected])
  | .comment, c => if c = '\n' then (.gap, [.newline]) else (.comment, [])

/-- A list of characters, from a place on. -/
def readAll (p : Place) : List Char → Place × List Mark
  | [] => (p, [])
  | c :: rest =>
    ((readAll (read p c).1 rest).1, (read p c).2 ++ (readAll (read p c).1 rest).2)

/-- The tokens of a text. -/
def tokens (s : String) : List Mark := (readAll .gap s.toList).2

/-! ## Reading in parts -/

/-- A text with its characters spelled out. -/
lemma readAll_ofList {p : Place} {l : List Char} {r : Place × List Mark} (h : readAll p l = r) :
    readAll p (String.ofList l).toList = r := by
  rwa [String.toList_ofList]

@[simp] lemma readAll_nil (p : Place) : readAll p [] = (p, []) := rfl

lemma readAll_cons (p : Place) (c : Char) (rest : List Char) : readAll p (c :: rest) =
    ((readAll (read p c).1 rest).1, (read p c).2 ++ (readAll (read p c).1 rest).2) := rfl

lemma readAll_append (p : Place) (l m : List Char) : readAll p (l ++ m) =
    ((readAll (readAll p l).1 m).1, (readAll p l).2 ++ (readAll (readAll p l).1 m).2) := by
  induction l generalizing p with
  | nil => rfl
  | cons c rest ih => rw [List.cons_append, readAll_cons, ih, readAll_cons, List.append_assoc]

/-- A character that stands for itself, wherever it is read outside of quotes and comments. -/
def IsPlain (c : Char) : Prop :=
  wordEnd c = none ∧ c ≠ '\\' ∧ c ≠ '$' ∧ c ≠ '\x7d' ∧ c ≠ '#' ∧ c ≠ quoteMark false ∧
    c ≠ quoteMark true

instance (c : Char) : Decidable (IsPlain c) := inferInstanceAs (Decidable (_ ∧ _))

lemma readWord_of_isPlain {c : Char} (h : IsPlain c) : readWord c = (.word, []) := by
  obtain ⟨hend, hescape, hdollar, -⟩ := h
  rw [readWord, hend]
  dsimp only
  rw [if_neg hescape, if_neg hdollar]

/-- Plain characters carry a word on. -/
lemma readAll_word_of_isPlain {l : List Char} (h : ∀ c ∈ l, IsPlain c) :
    readAll .word l = (.word, []) := by
  induction l with
  | nil => rfl
  | cons c rest ih =>
    rw [readAll_cons, read, readWord_of_isPlain (h c List.mem_cons_self)]
    rw [ih fun d hd => h d (List.mem_cons_of_mem _ hd), List.nil_append]

/-- Plain characters after a gap are a word. -/
lemma readAll_gap_of_isPlain {l : List Char} (hne : l ≠ []) (h : ∀ c ∈ l, IsPlain c) :
    readAll .gap l = (.word, [.word]) := by
  cases l with
  | nil => exact absurd rfl hne
  | cons c rest =>
    have hc := h c List.mem_cons_self
    have hread : read .gap c = (.word, [.word]) := by
      obtain ⟨hend, -, -, hclosing, hcomment, hdouble, hsingle⟩ := hc
      rw [read, hend]
      dsimp only
      rw [if_neg hclosing, if_neg hcomment, if_neg hdouble, if_neg hsingle,
        readWord_of_isPlain (h c List.mem_cons_self)]
    rw [readAll_cons, hread, readAll_word_of_isPlain fun d hd => h d (List.mem_cons_of_mem _ hd),
      List.append_nil]

lemma ne_newline_of_isPlain {c : Char} (h : IsPlain c) : c ≠ '\n' := by
  rintro rfl
  exact absurd h.1 (by decide)

/-- Plain characters are kept inside quotes. -/
lemma readAll_quote_of_isPlain (single : Bool) {l : List Char} (h : ∀ c ∈ l, IsPlain c) :
    readAll (.quote single) l = (.quote single, []) := by
  induction l with
  | nil => rfl
  | cons c rest ih =>
    have hc := h c List.mem_cons_self
    have hescape : c ≠ '\\' := hc.2.1
    have hmark : c ≠ quoteMark single := by
      cases single with
      | false => exact hc.2.2.2.2.2.1
      | true => exact hc.2.2.2.2.2.2
    rw [readAll_cons, read, if_neg hescape, if_neg hmark, lineEnd,
      if_neg (ne_newline_of_isPlain hc)]
    rw [ih fun d hd => h d (List.mem_cons_of_mem _ hd), List.nil_append]

/-- Plain characters are kept inside comments. -/
lemma readAll_comment_of_isPlain {l : List Char} (h : ∀ c ∈ l, IsPlain c) :
    readAll .comment l = (.comment, []) := by
  induction l with
  | nil => rfl
  | cons c rest ih =>
    rw [readAll_cons, read, if_neg (ne_newline_of_isPlain (h c List.mem_cons_self))]
    rw [ih fun d hd => h d (List.mem_cons_of_mem _ hd), List.nil_append]

/-- A text that is written where a word may stand. -/
def IsField (w : String) : Prop := w.toList ≠ [] ∧ ∀ c ∈ w.toList, IsPlain c

instance (w : String) : Decidable (IsField w) := inferInstanceAs (Decidable (_ ∧ _))

/-- The characters that a reader treats in a way of their own. -/
def special : List Char :=
  [' ', '\t', '\r', '\n', ';', '\x7b', '\\', '$', '\x7d', '#', '"', '\'']

/-- Characters of a kind are plain when no special character is of that kind. -/
lemma isPlain_of_special {q : Char → Prop} {c : Char} (hc : q c) (h : ∀ d ∈ special, ¬ q d) :
    IsPlain c := by
  have hne : ∀ d ∈ special, c ≠ d := fun d hd heq => h d hd (heq ▸ hc)
  simp only [special, List.forall_mem_cons] at hne
  obtain ⟨hblank, htab, hreturn, hnewline, hsemicolon, hopening, hescape, hdollar, hclosing, hcomment,
    hdouble, hsingle, -⟩ := hne
  refine ⟨?_, hescape, hdollar, hclosing, hcomment, hdouble, hsingle⟩
  simp [wordEnd, isBlank, hblank, htab, hreturn, hnewline, hsemicolon, hopening]

lemma isPlain_of_isSome_digitValue {c : Char} (h : (Numeral.digitValue c).isSome) : IsPlain c :=
  isPlain_of_special (q := fun c => (Numeral.digitValue c).isSome) h (by decide)

lemma isField_ofList {l : List Char} (h : l ≠ [] ∧ ∀ c ∈ l, IsPlain c) :
    IsField (String.ofList l) := by
  rwa [IsField, String.toList_ofList]

/-- A number is a field. -/
lemma isField_toString (n : ℕ) : IsField (toString n) := by
  have hlist : (toString n).toList = Nat.toDigits 10 n := String.toList_ofList
  refine ⟨?_, ?_⟩
  · rw [hlist]
    exact Nat.toDigits_ne_nil
  · intro c hc
    rw [hlist] at hc
    exact isPlain_of_isSome_digitValue
      (Numeral.digitValue_isSome_of_mem_toDigits (by decide) (by decide) hc)

/-! ## Line ends -/

lemma count_lineEnd (c : Char) : (lineEnd c).count .newline = [c].count '\n' := by
  unfold lineEnd
  split
  · rename_i h
    rw [h]
    rfl
  · rename_i h
    simp [h]

lemma read_newline (p : Place) : (read p '\n').2 = [.newline] := by
  cases p with
  | quote single => cases single <;> rfl
  | _ => rfl

/-- A character is reported as a line end when it is one. -/
lemma count_newline_read (p : Place) (c : Char) :
    (read p c).2.count .newline = [c].count '\n' := by
  by_cases hc : c = '\n'
  · rw [hc, read_newline]
    rfl
  · have hzero : [c].count '\n' = 0 := by simp [hc]
    have hend : ∀ marks, wordEnd c = some marks → marks.count .newline = 0 := by
      intro marks hmarks
      unfold wordEnd at hmarks
      split_ifs at hmarks <;> simp [← Option.some.inj hmarks]
    have hword : (readWord c).2.count .newline = 0 := by
      unfold readWord
      split
      · rename_i marks hmarks
        exact hend marks hmarks
      · rfl
    rw [hzero]
    cases p with
    | gap =>
      simp only [read]
      split
      · rename_i marks hmarks
        exact hend marks hmarks
      · split_ifs <;> rfl
    | word => exact hword
    | escaped => exact (count_lineEnd c).trans hzero
    | dollar =>
      simp only [read]
      split_ifs
      · rfl
      · exact hword
    | quote single =>
      simp only [read]
      split_ifs
      · rfl
      · rfl
      · exact (count_lineEnd c).trans hzero
    | quoteEscaped single => exact (count_lineEnd c).trans hzero
    | quoteEnd =>
      simp only [read]
      split
      · rename_i marks hmarks
        exact hend marks hmarks
      · rfl
    | comment =>
      simp only [read, if_neg hc]
      rfl

lemma count_newline (p : Place) (l : List Char) :
    (readAll p l).2.count .newline = l.count '\n' := by
  induction l generalizing p with
  | nil => rfl
  | cons c rest ih =>
    rw [readAll_cons, List.count_append, ih, count_newline_read, ← List.count_append,
      List.singleton_append]

/-! ## Ends of directives -/

/-- A mark that ends a directive or opens its block. -/
def EndsDirective (m : Mark) : Prop := m = .semicolon ∨ m = .opening ∨ m = .closing

/-- A character inside a word that does not end it reports nothing. -/
lemma readWord_of_ne_gap {c : Char} (h : (readWord c).1 ≠ .gap) : (readWord c).2 = [] := by
  unfold readWord at h ⊢
  split
  · rename_i marks hmarks
    rw [hmarks] at h
    exact absurd rfl h
  · rfl

/-- A character that does not lead to a gap ends no directive, and reports something when it comes
behind a gap. -/
lemma read_of_ne_gap {p : Place} {c : Char} (h : (read p c).1 ≠ .gap) :
    (∀ m ∈ (read p c).2, ¬ EndsDirective m) ∧ (p = .gap → (read p c).2 ≠ []) := by
  have hlineEnd : ∀ m ∈ lineEnd c, ¬ EndsDirective m := by
    intro m hm
    unfold lineEnd at hm
    split at hm
    · obtain rfl := List.mem_singleton.mp hm
      simp [EndsDirective]
    · exact absurd hm List.not_mem_nil
  cases p with
  | gap =>
    simp only [read] at h ⊢
    split
    · rename_i marks hmarks
      rw [hmarks] at h
      exact absurd rfl h
    · rename_i hmarks
      rw [hmarks] at h
      dsimp only at h
      split_ifs at h ⊢ <;> simp [EndsDirective] at h ⊢
  | word =>
    simp only [read] at h ⊢
    simp [readWord_of_ne_gap h]
  | escaped => exact ⟨hlineEnd, nofun⟩
  | dollar =>
    simp only [read] at h ⊢
    split_ifs at h ⊢
    · simp
    · simp [readWord_of_ne_gap h]
  | quote single =>
    simp only [read] at h ⊢
    split_ifs
    · simp
    · simp
    · exact ⟨hlineEnd, nofun⟩
  | quoteEscaped single => exact ⟨hlineEnd, nofun⟩
  | quoteEnd =>
    simp only [read] at h ⊢
    split
    · rename_i marks hmarks
      rw [hmarks] at h
      exact absurd rfl h
    · simp [EndsDirective]
  | comment =>
    simp only [read] at h ⊢
    split_ifs at h ⊢
    · exact absurd rfl h
    · simp

/-- Behind such a mark, a reader is in a gap. -/
lemma gap_of_endsDirective {l : List Char} {m : Mark}
    (h : (readAll .gap l).2.getLast? = some m) (hm : EndsDirective m) : (readAll .gap l).1 = .gap := by
  induction l using List.reverseRecOn with
  | nil => rfl
  | append_singleton l c ih =>
    by_contra hgap
    rw [readAll_append, readAll_cons, readAll_nil, List.append_nil] at h hgap
    obtain ⟨hnone, hsome⟩ := read_of_ne_gap hgap
    rcases List.eq_nil_or_concat (read (readAll .gap l).1 c).2 with hnil | ⟨marks, last, hlast⟩
    · -- the mark stands before the character, which therefore comes behind a gap
      rw [hnil, List.append_nil] at h
      exact hsome (ih h) hnil
    · rw [List.concat_eq_append] at hlast
      rw [hlast, ← List.append_assoc, List.getLast?_concat] at h
      obtain rfl := Option.some.inj h
      exact hnone last (hlast ▸ List.mem_append_right _ List.mem_cons_self) hm

/-! ## Lines -/

/-- A line that is well formed by itself. -/
structure IsLine (s : String) : Prop where
  ends : (readAll .gap s.toList).1 = .gap
  single : '\n' ∉ s.toList

instance (s : String) : Decidable (IsLine s) :=
  decidable_of_iff ((readAll .gap s.toList).1 = .gap ∧ '\n' ∉ s.toList)
    ⟨fun h => ⟨h.1, h.2⟩, fun h => ⟨h.ends, h.single⟩⟩

/-- A line of a template, and the line that is written for it: the same line, or one that ends a
directive. -/
structure Stands (line template : String) : Prop where
  isLine : IsLine template
  same_or_ends : line = template ∨ ∃ m, (tokens template).getLast? = some m ∧ EndsDirective m

/-- A line with its characters spelled out. -/
lemma isLine_ofList {l : List Char} (h : (readAll .gap l).1 = .gap ∧ '\n' ∉ l) :
    IsLine (String.ofList l) := by
  obtain ⟨hends, hsingle⟩ := h
  rw [← String.toList_ofList (l := l)] at hends hsingle
  exact ⟨hends, hsingle⟩

lemma isLine_nil : ∀ line ∈ ([] : List String), IsLine line :=
  fun _ hline => absurd hline List.not_mem_nil

lemma isLine_cons {l : List Char} {lines : List String} (h : (readAll .gap l).1 = .gap ∧ '\n' ∉ l)
    (h' : ∀ line ∈ lines, IsLine line) : ∀ line ∈ String.ofList l :: lines, IsLine line :=
  List.forall_mem_cons.mpr ⟨isLine_ofList h, h'⟩

/-- What a reader says to the text before a field, and to the text behind it. -/
def Surrounds (before after : List Char) : Prop :=
  ((readAll .gap before).1 = .gap ∨ (readAll .gap before).1 = .word) ∧
    (readAll .word after).1 = .gap ∧ '\n' ∉ before ∧ '\n' ∉ after

instance (before after : List Char) : Decidable (Surrounds before after) :=
  inferInstanceAs (Decidable (_ ∧ _))

/-- A line with a field in it. -/
lemma isLine_field {before after : List Char} {w : String} (hw : IsField w)
    (h : Surrounds before after) : IsLine (String.ofList before ++ w ++ String.ofList after) := by
  obtain ⟨hbefore, hafter, hb, ha⟩ := h
  have hlist : (String.ofList before ++ w ++ String.ofList after).toList =
      before ++ (w.toList ++ after) := by
    rw [String.toList_append, String.toList_append, String.toList_ofList, String.toList_ofList,
      List.append_assoc]
  refine ⟨?_, ?_⟩
  · have hword : (readAll (readAll .gap before).1 w.toList).1 = .word := by
      rcases hbefore with hgap | hword
      · rw [hgap, readAll_gap_of_isPlain hw.1 hw.2]
      · rw [hword, readAll_word_of_isPlain hw.2]
    rw [hlist, readAll_append, readAll_append, hword, hafter]
  · rw [hlist, List.mem_append, List.mem_append]
    rintro (hmem | hmem | hmem)
    · exact hb hmem
    · exact absurd (hw.2 _ hmem).1 (by decide)
    · exact ha hmem

/-- The text of a list of lines, each with its line end. -/
def text (lines : List String) : List Char := lines.flatMap fun line => line.toList ++ ['\n']

lemma text_cons (line : String) (lines : List String) :
    text (line :: lines) = line.toList ++ '\n' :: text lines := by
  rw [text, List.flatMap_cons, List.append_assoc]
  rfl

/-- The reading of a line that leads to a gap, and of the lines behind it. -/
lemma readAll_text_cons {line : String} (h : (readAll .gap line.toList).1 = .gap)
    (lines : List String) : (readAll .gap (text (line :: lines))).2 =
      tokens line ++ .newline :: (readAll .gap (text lines)).2 := by
  rw [text_cons, readAll_append, h]
  rfl

/-- The text of lines that are joined, with a line end behind the last one. -/
lemma toList_joinLines {lines : List String} (hne : lines ≠ []) :
    (Text.joinLines lines ++ "\n").toList = text lines := by
  rw [Text.joinLines, String.toList_append, String.toList_intercalate]
  show ['\n'].intercalate (lines.map String.toList) ++ ['\n'] = text lines
  induction lines with
  | nil => exact absurd rfl hne
  | cons line rest ih =>
    by_cases hrest : rest = []
    · subst hrest
      simp [text]
    · have hrest' : rest.map String.toList ≠ [] := by simpa using hrest
      rw [text_cons, ← ih hrest, List.map_cons, List.intercalate_cons_of_ne_nil hrest']
      simp

lemma newline_not_mem_tokens {line : String} (h : '\n' ∉ line.toList) : .newline ∉ tokens line := by
  rw [← List.count_eq_zero, tokens, count_newline]
  exact List.count_eq_zero.mpr h

/-- A line that reads as its template does leads to a gap, as the template does. -/
lemma Stands.gap {line template : String} (h : Stands line template)
    (heq : tokens line = tokens template) : (readAll .gap line.toList).1 = .gap := by
  rcases h.same_or_ends with rfl | ⟨m, hlast, hm⟩
  · exact h.isLine.ends
  · exact gap_of_endsDirective ((congrArg List.getLast? heq).trans hlast) hm

/-- Lists are cut at the first occurrence of a member. -/
lemma append_cons_inj {α : Type} {a : α} {l l' m m' : List α} (h : a ∉ l) (h' : a ∉ l')
    (heq : l ++ a :: m = l' ++ a :: m') : l = l' ∧ m = m' := by
  rcases List.append_eq_append_iff.mp heq with ⟨k, rfl, hk⟩ | ⟨k, rfl, hk⟩
  · cases k with
    | nil => simpa using hk
    | cons b k =>
      obtain rfl := (List.cons.inj hk).1
      exact absurd (List.mem_append_right _ List.mem_cons_self) h'
  · cases k with
    | nil => simpa using hk.symm
    | cons b k =>
      obtain rfl := (List.cons.inj hk).1
      exact absurd (List.mem_append_right _ List.mem_cons_self) h

/-- Lines that stand for a template have no line end inside, once the texts have as many line ends. -/
lemma single_of_count {lines template : List String} (h : List.Forall₂ Stands lines template)
    (hcount : (text lines).count '\n' = (text template).count '\n') :
    ∀ line ∈ lines, '\n' ∉ line.toList := by
  have hge : ∀ {lines template : List String}, List.Forall₂ Stands lines template →
      (text template).count '\n' ≤ (text lines).count '\n' := by
    intro lines template h
    induction h with
    | nil => exact le_rfl
    | cons hline _ ih =>
      have hnone := List.count_eq_zero.mpr hline.isLine.single
      rw [text_cons, text_cons, List.count_append, List.count_append, List.count_cons_self,
        List.count_cons_self, hnone]
      omega
  induction h with
  | nil => exact fun _ hmem => absurd hmem List.not_mem_nil
  | cons hline hrest ih =>
    have hnone := List.count_eq_zero.mpr hline.isLine.single
    have hle := hge hrest
    rw [text_cons, text_cons, List.count_append, List.count_append, List.count_cons_self,
      List.count_cons_self, hnone] at hcount
    intro line hmem
    rcases List.mem_cons.mp hmem with rfl | hmem
    · exact List.count_eq_zero.mp (by omega)
    · exact ih (by omega) line hmem

/-- A text that stands for a template reads as the template does exactly when each of its lines does. -/
theorem readAll_text_iff {lines template : List String} (h : List.Forall₂ Stands lines template) :
    (readAll .gap (text lines)).2 = (readAll .gap (text template)).2 ↔
      List.Forall₂ (fun line t => tokens line = tokens t) lines template := by
  constructor
  · intro heq
    -- there are as many line ends, so the lines of one text are those of the other one
    have hcount := congrArg (List.count .newline) heq
    rw [count_newline, count_newline] at hcount
    have hsingle := single_of_count h hcount
    clear hcount
    induction h with
    | nil => exact .nil
    | @cons line t lines template hline hrest ih =>
      have hnone := newline_not_mem_tokens (hsingle line List.mem_cons_self)
      have hnone' := newline_not_mem_tokens hline.isLine.single
      rw [readAll_text_cons hline.isLine.ends, text_cons, readAll_append, readAll_cons,
        read_newline] at heq
      obtain ⟨hhead, htail⟩ := append_cons_inj hnone hnone' heq
      rw [hline.gap hhead] at htail
      exact .cons hhead (ih htail fun l hl => hsingle l (List.mem_cons_of_mem _ hl))
  · intro hsame
    induction h with
    | nil => rfl
    | cons hline _ ih =>
      obtain ⟨heq, hrest⟩ := List.forall₂_cons.mp hsame
      rw [readAll_text_cons (hline.gap heq), readAll_text_cons hline.isLine.ends, heq, ih hrest]

/-! ## Lines under a condition -/

/-- Lines that stand for a template, and read as it does under a condition. -/
structure Fits (lines template : List String) (p : Prop) : Prop where
  stands : List.Forall₂ Stands lines template
  same_iff : List.Forall₂ (fun line t => tokens line = tokens t) lines template ↔ p

lemma forall₂_append_iff {α β : Type} {R : α → β → Prop} {l l' : List α} {m m' : List β}
    (h : l.length = m.length) :
    List.Forall₂ R (l ++ l') (m ++ m') ↔ List.Forall₂ R l m ∧ List.Forall₂ R l' m' := by
  induction l generalizing m with
  | nil =>
    obtain rfl := List.length_eq_zero_iff.mp h.symm
    simp
  | cons a rest ih =>
    cases m with
    | nil => exact absurd h (by simp)
    | cons b ms =>
      rw [List.cons_append, List.cons_append, List.forall₂_cons, List.forall₂_cons,
        ih (Nat.succ.inj h), and_assoc]

namespace Fits

variable {lines lines' template template' : List String} {p q : Prop}

lemma congr (h : Fits lines template p) (hpq : p ↔ q) : Fits lines template q :=
  ⟨h.stands, h.same_iff.trans hpq⟩

lemma nil : Fits [] [] True := ⟨.nil, iff_of_true .nil trivial⟩

lemma append (h : Fits lines template p) (h' : Fits lines' template' q) :
    Fits (lines ++ lines') (template ++ template') (p ∧ q) where
  stands := (forall₂_append_iff h.stands.length_eq).mpr ⟨h.stands, h'.stands⟩
  same_iff := by rw [forall₂_append_iff h.stands.length_eq, h.same_iff, h'.same_iff]

/-- The lines of the template itself. -/
lemma same (h : ∀ line ∈ lines, IsLine line) : Fits lines lines True where
  stands := List.forall₂_same.mpr fun line hline => ⟨h line hline, .inl rfl⟩
  same_iff := iff_of_true (List.forall₂_same.mpr fun _ _ => rfl) trivial

/-- A line that ends a directive. -/
lemma line {line template : String} {m : Mark} (h : IsLine template)
    (hlast : (tokens template).getLast? = some m) (hm : EndsDirective m)
    (hp : tokens line = tokens template ↔ p) : Fits [line] [template] p where
  stands := .cons ⟨h, .inr ⟨m, hlast, hm⟩⟩ .nil
  same_iff := by simp [List.forall₂_cons, hp]

/-- Groups of lines, one for each member of a list. -/
lemma flatMap {α : Type} {f g : α → List String} {p : α → Prop} {l : List α}
    (h : ∀ a ∈ l, Fits (f a) (g a) (p a)) : Fits (l.flatMap f) (l.flatMap g) (∀ a ∈ l, p a) := by
  induction l with
  | nil => exact nil.congr (by simp)
  | cons a rest ih =>
    rw [List.flatMap_cons, List.flatMap_cons]
    exact ((h a List.mem_cons_self).append (ih fun b hb => h b (List.mem_cons_of_mem _ hb))).congr
      (by simp)

/-- The texts of the lines read the same exactly under the condition. -/
theorem tokens_joinLines_iff (h : Fits lines template p) (hne : lines ≠ []) :
    tokens (Text.joinLines lines ++ "\n") = tokens (Text.joinLines template ++ "\n") ↔ p := by
  have hne' : template ≠ [] := fun hnil =>
    hne (List.length_eq_zero_iff.mp (h.stands.length_eq.trans (congrArg List.length hnil)))
  rw [tokens, tokens, toList_joinLines hne, toList_joinLines hne', readAll_text_iff h.stands,
    h.same_iff]

/-- Lines, one for each member of a list. -/
lemma map {α : Type} {f g : α → String} {p : α → Prop} {l : List α}
    (h : ∀ a ∈ l, Fits [f a] [g a] (p a)) : Fits (l.map f) (l.map g) (∀ a ∈ l, p a) := by
  rw [List.map_eq_flatMap, List.map_eq_flatMap]
  exact flatMap h

end Fits

end Portwyrm.Base.Tokens

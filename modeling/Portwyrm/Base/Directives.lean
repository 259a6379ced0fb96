import Portwyrm.Base.Tokens

/-!
# Directives

A configuration text as Nginx reads it: the words of the text with what they stand for, and the
directives that they form, each a name with arguments, and with a block of further directives or
without.  The tokens of directives are read back as these directives, and a text of lines that are
well formed by themselves is read line by line.
-/

namespace Portwyrm.Base.Directives

open Tokens

/-! ## Words -/

/-- A token with its contents. -/
inductive Token
  | word (w : String)
  | semicolon
  | opening
  | closing
  | unexpected
deriving DecidableEq, Repr

/-- What a mark stands for, besides a word. -/
def punctuation : Mark → List Token
  | .semicolon => [.semicolon]
  | .opening => [.opening]
  | .closing => [.closing]
  | .unexpected => [.unexpected]
  | _ => []

/-- A character behind a backslash. -/
def unescaped (c : Char) : List Char :=
  if c = '"' ∨ c = '\'' ∨ c = '\\' then [c]
  else if c = 't' then ['\t']
  else if c = 'r' then ['\r']
  else if c = 'n' then ['\n']
  else ['\\', c]

/-- What a character adds to the word that it stands in, by the places before and behind it. -/
def kept : Place → Place → Char → List Char
  | .gap, .quote _, _ => []
  | .quote _, .quoteEnd, _ => []
  | .escaped, _, c => unescaped c
  | .quoteEscaped _, _, c => unescaped c
  | _, .escaped, _ => []
  | _, .quoteEscaped _, _ => []
  | _, .comment, _ => []
  | _, _, c => [c]

/-- A reader and the letters of the word that it stands in. -/
structure Lexer where
  place : Place
  letters : List Char
deriving DecidableEq

/-- Between two words. -/
def start : Lexer := ⟨.gap, []⟩

/-- The reader stands in a word. -/
def Place.InWord (p : Place) : Prop := p ≠ .gap ∧ p ≠ .comment

instance (p : Place) : Decidable (Place.InWord p) := inferInstanceAs (Decidable (_ ∧ _))

/-- One character. -/
def lex (s : Lexer) (c : Char) : Lexer × List Token :=
  let (p, marks) := read s.place c
  (⟨p, if p = .gap then [] else s.letters ++ kept s.place p c⟩,
    (if p = .gap ∧ Place.InWord s.place then [.word (String.ofList s.letters)] else []) ++
      marks.flatMap punctuation)

/-- A list of characters. -/
def lexAll (s : Lexer) : List Char → Lexer × List Token
  | [] => (s, [])
  | c :: rest => ((lexAll (lex s c).1 rest).1, (lex s c).2 ++ (lexAll (lex s c).1 rest).2)

/-! ## Directives -/

/-- A directive of a configuration. -/
inductive Directive
  | simple (name : String) (arguments : List String)
  | block (name : String) (arguments : List String) (body : List Directive)

mutual

/-- The tokens of a directive. -/
def Directive.tokens : Directive → List Token
  | .simple name arguments => .word name :: arguments.map .word ++ [.semicolon]
  | .block name arguments body =>
    .word name :: arguments.map .word ++ .opening :: bodyTokens body ++ [.closing]

/-- The tokens of several directives. -/
def bodyTokens : List Directive → List Token
  | [] => []
  | d :: rest => d.tokens ++ bodyTokens rest

end

/-- A block that has been opened, and the directives before it. -/
structure Frame where
  before : List Directive
  name : String
  arguments : List String

/-- The blocks around a place in a configuration, the directives before it in its own block, and the
words of the directive that it stands in. -/
structure Reading where
  frames : List Frame
  directives : List Directive
  words : List String

/-- One token; none where it may not stand. -/
def Reading.next (r : Reading) : Token → Option Reading
  | .word w => some { r with words := r.words ++ [w] }
  | .semicolon =>
    match r.words with
    | [] => none
    | name :: arguments => some ⟨r.frames, r.directives ++ [.simple name arguments], []⟩
  | .opening =>
    match r.words with
    | [] => none
    | name :: arguments => some ⟨⟨r.directives, name, arguments⟩ :: r.frames, [], []⟩
  | .closing =>
    match r.words, r.frames with
    | [], f :: frames => some ⟨frames, f.before ++ [.block f.name f.arguments r.directives], []⟩
    | _, _ => none
  | .unexpected => none

/-- The directives of a list of tokens. -/
def directivesOf (tokens : List Token) : Option (List Directive) :=
  match tokens.foldlM Reading.next ⟨[], [], []⟩ with
  | some ⟨[], directives, []⟩ => some directives
  | _ => none

/-- The directives of a text. -/
def parse (text : String) : Option (List Directive) :=
  if (lexAll start text.toList).1 = start then directivesOf (lexAll start text.toList).2 else none

/-! ### Reading directives back -/

/-- Words are collected. -/
lemma foldlM_words (words : List String) (r : Reading) :
    (words.map Token.word).foldlM Reading.next r = some { r with words := r.words ++ words } := by
  induction words generalizing r with
  | nil => simp
  | cons w words ih =>
    rw [List.map_cons, List.foldlM_cons, Reading.next, Option.bind_eq_bind, Option.bind_some, ih]
    simp

/-- The tokens of directives are read as these directives, wherever they stand. -/
lemma foldlM_bodyTokens (body : List Directive) (frames : List Frame) (before : List Directive) :
    (bodyTokens body).foldlM Reading.next ⟨frames, before, []⟩ =
      some ⟨frames, before ++ body, []⟩ := by
  refine @Directive.rec_1
    (fun d => ∀ frames before, d.tokens.foldlM Reading.next ⟨frames, before, []⟩ =
      some ⟨frames, before ++ [d], []⟩)
    (fun body => ∀ frames before, (bodyTokens body).foldlM Reading.next ⟨frames, before, []⟩ =
      some ⟨frames, before ++ body, []⟩) ?_ ?_ ?_ ?_ body frames before
  · intro name arguments frames before
    have hwords := foldlM_words (name :: arguments) ⟨frames, before, []⟩
    rw [List.map_cons] at hwords
    rw [Directive.tokens, List.foldlM_append, hwords]
    rfl
  · intro name arguments body ih frames before
    have hwords := foldlM_words (name :: arguments) ⟨frames, before, []⟩
    rw [List.map_cons] at hwords
    rw [Directive.tokens, List.foldlM_append, List.foldlM_append, hwords]
    simp only [Option.bind_eq_bind, Option.bind_some, List.foldlM_cons, Reading.next,
      List.nil_append, ih, List.foldlM_nil, Option.pure_def]
  · intro frames before
    rw [bodyTokens, List.append_nil]
    rfl
  · intro d rest hd hrest frames before
    rw [bodyTokens, List.foldlM_append, hd, Option.bind_eq_bind, Option.bind_some, hrest,
      List.append_assoc, List.singleton_append]

theorem directivesOf_bodyTokens (body : List Directive) :
    directivesOf (bodyTokens body) = some body := by
  rw [directivesOf, foldlM_bodyTokens]
  rfl

lemma bodyTokens_append (body body' : List Directive) :
    bodyTokens (body ++ body') = bodyTokens body ++ bodyTokens body' := by
  induction body with
  | nil => rfl
  | cons d rest ih => rw [List.cons_append, bodyTokens, bodyTokens, ih, List.append_assoc]

lemma bodyTokens_flatMap {α : Type} (f : α → List Directive) (l : List α) :
    bodyTokens (l.flatMap f) = l.flatMap fun a => bodyTokens (f a) := by
  induction l with
  | nil => rfl
  | cons a l ih => rw [List.flatMap_cons, List.flatMap_cons, bodyTokens_append, ih]

/-! ## Reading in parts -/

lemma lexAll_nil (s : Lexer) : lexAll s [] = (s, []) := rfl

lemma lexAll_cons (s : Lexer) (c : Char) (rest : List Char) : lexAll s (c :: rest) =
    ((lexAll (lex s c).1 rest).1, (lex s c).2 ++ (lexAll (lex s c).1 rest).2) := rfl

lemma lexAll_append (s : Lexer) (l m : List Char) : lexAll s (l ++ m) =
    ((lexAll (lexAll s l).1 m).1, (lexAll s l).2 ++ (lexAll (lexAll s l).1 m).2) := by
  induction l generalizing s with
  | nil => rfl
  | cons c rest ih => rw [List.cons_append, lexAll_cons, ih, lexAll_cons, List.append_assoc]

/-- A text with its characters spelled out. -/
lemma lexAll_ofList {s : Lexer} {l : List Char} {r : Lexer × List Token} (h : lexAll s l = r) :
    lexAll s (String.ofList l).toList = r := by
  rwa [String.toList_ofList]

/-- Where a word goes on that a reader stands in, or is about to enter. -/
def Takes (p p' : Place) : Prop :=
  p = .gap ∧ p' = .word ∨ p = .word ∧ p' = .word ∨ ∃ single, p = .quote single ∧ p' = .quote single

/-- A plain character is taken into a word. -/
lemma lex_of_isPlain {p p' : Place} (hp : Takes p p') {letters : List Char}
    (hletters : p = .gap → letters = []) {c : Char} (h : IsPlain c) :
    lex ⟨p, letters⟩ c = (⟨p', letters ++ [c]⟩, []) := by
  have hplain := readWord_of_isPlain h
  obtain ⟨hend, hescape, -, hclosing, hcomment, hdouble, hsingle⟩ := h
  have hread : read p c = (p', if p = .gap then [.word] else []) := by
    rcases hp with ⟨rfl, rfl⟩ | ⟨rfl, rfl⟩ | ⟨single, rfl, rfl⟩
    · rw [Tokens.read, hend]
      dsimp only
      rw [if_neg hclosing, if_neg hcomment, if_neg hdouble, if_neg hsingle, hplain, if_pos rfl]
    · exact hplain
    · have hmark : c ≠ quoteMark single := by
        cases single with
        | false => exact hdouble
        | true => exact hsingle
      have hline : c ≠ '\n' := by
        rintro rfl
        exact absurd hend (by decide)
      rw [Tokens.read, if_neg hescape, if_neg hmark, lineEnd, if_neg hline, if_neg (by simp)]
  have hgap : p' ≠ .gap := by
    rcases hp with ⟨-, rfl⟩ | ⟨-, rfl⟩ | ⟨single, -, rfl⟩ <;> simp
  have hkept : kept p p' c = [c] := by
    rcases hp with ⟨rfl, rfl⟩ | ⟨rfl, rfl⟩ | ⟨single, rfl, rfl⟩ <;> rfl
  have hmarks : (if p = .gap then [Mark.word] else []).flatMap punctuation = [] := by
    split <;> rfl
  rw [lex, hread]
  dsimp only
  rw [if_neg hgap, hkept, hmarks, if_neg fun h => hgap h.1, List.append_nil]

/-- A field is taken into the word that it stands in. -/
lemma lexAll_field {p p' : Place} (hp : Takes p p') {letters : List Char}
    (hletters : p = .gap → letters = []) {w : String} (hw : IsField w) :
    lexAll ⟨p, letters⟩ w.toList = (⟨p', letters ++ w.toList⟩, []) := by
  have hgo : ∀ {p : Place}, Takes p p → ∀ (l letters : List Char), (p = .gap → letters = []) →
      (∀ c ∈ l, IsPlain c) → lexAll ⟨p, letters⟩ l = (⟨p, letters ++ l⟩, []) := by
    intro p hp l
    induction l with
    | nil => simp [lexAll]
    | cons c rest ih =>
      intro letters hletters hl
      have hgap : p ≠ .gap := by
        rintro rfl
        simp [Takes] at hp
      rw [lexAll_cons, lex_of_isPlain hp hletters (hl c List.mem_cons_self),
        ih _ (fun h => absurd h hgap) fun d hd => hl d (List.mem_cons_of_mem c hd)]
      simp
  obtain ⟨hne, hplain⟩ := hw
  cases hlist : w.toList with
  | nil => exact absurd hlist hne
  | cons c rest =>
    rw [hlist] at hplain
    have hp' : Takes p' p' := by
      rcases hp with ⟨-, rfl⟩ | ⟨-, rfl⟩ | ⟨single, -, rfl⟩ <;> simp [Takes]
    have hgap : p' ≠ .gap := by
      rcases hp with ⟨-, rfl⟩ | ⟨-, rfl⟩ | ⟨single, -, rfl⟩ <;> simp
    rw [lexAll_cons, lex_of_isPlain hp hletters (hplain c List.mem_cons_self),
      hgo hp' rest _ (fun h => absurd h hgap) fun d hd => hplain d (List.mem_cons_of_mem c hd)]
    simp

/-- A reader that does not leave a word stays in it. -/
lemma inWord_read {p : Place} (hp : Place.InWord p) {c : Char} (hgap : (Tokens.read p c).1 ≠ .gap) :
    Place.InWord (Tokens.read p c).1 := by
  have hword : (readWord c).1 ≠ .comment := by
    unfold readWord
    split <;> [simp; split_ifs <;> simp]
  refine ⟨hgap, ?_⟩
  cases p with
  | gap => exact absurd rfl hp.1
  | word => exact hword
  | escaped => simp [Tokens.read]
  | dollar =>
    rw [Tokens.read]
    split
    · simp
    · exact hword
  | quote single =>
    rw [Tokens.read]
    split_ifs <;> simp
  | quoteEscaped single => simp [Tokens.read]
  | quoteEnd =>
    rw [Tokens.read]
    split <;> simp
  | comment => exact absurd rfl hp.2

lemma word_not_mem_punctuation (w : String) (m : Mark) : .word w ∉ punctuation m := by
  cases m <;> simp [punctuation]

/-- Letters in front of a word are read as part of it. -/
lemma lexAll_letters {p : Place} (hp : Place.InWord p) {letters : List Char} {after : List Char}
    {s : Lexer} {tail : String} {tokens : List Token}
    (h : lexAll ⟨p, letters⟩ after = (s, .word tail :: tokens)) (front : List Char) :
    lexAll ⟨p, front ++ letters⟩ after = (s, .word (String.ofList front ++ tail) :: tokens) := by
  induction after generalizing p letters with
  | nil =>
    obtain ⟨-, h⟩ := Prod.mk.inj h
    cases h
  | cons c rest ih =>
    rw [lexAll_cons] at h ⊢
    obtain ⟨hs, htokens⟩ := Prod.mk.inj h
    by_cases hgap : (Tokens.read p c).1 = .gap
    · -- the word ends here
      have hlex : ∀ l, lex ⟨p, l⟩ c =
          (start, .word (String.ofList l) :: (Tokens.read p c).2.flatMap punctuation) := by
        intro l
        rw [lex]
        dsimp only
        rw [if_pos hgap, if_pos ⟨hgap, hp⟩, hgap]
        rfl
      rw [hlex] at hs htokens
      rw [hlex]
      rw [List.cons_append] at htokens
      obtain ⟨hword, htokens⟩ := List.cons.inj htokens
      refine Prod.ext hs ?_
      rw [← Token.word.inj hword, ← String.ofList_append, ← htokens, List.cons_append]
    · have hlex : ∀ l, lex ⟨p, l⟩ c =
          (⟨(Tokens.read p c).1, l ++ kept p (Tokens.read p c).1 c⟩,
            (Tokens.read p c).2.flatMap punctuation) := by
        intro l
        rw [lex]
        dsimp only
        rw [if_neg hgap, if_neg fun h => hgap h.1, List.nil_append]
      rw [hlex] at hs htokens
      have hnone : (Tokens.read p c).2.flatMap punctuation = [] := by
        rcases hmarks : (Tokens.read p c).2.flatMap punctuation with _ | ⟨t, ts⟩
        · rfl
        · rw [hmarks, List.cons_append] at htokens
          have hmem : t ∈ (Tokens.read p c).2.flatMap punctuation := hmarks ▸ List.mem_cons_self
          obtain ⟨m, -, ht⟩ := List.mem_flatMap.mp hmem
          exact absurd ((List.cons.inj htokens).1 ▸ ht) (word_not_mem_punctuation tail m)
      rw [hnone, List.nil_append] at htokens
      have hrest := ih (inWord_read hp hgap) (Prod.ext hs htokens)
      rw [hlex, hnone, List.append_assoc, hrest, List.nil_append]

/-- A line that holds a field reads as its parts do. -/
lemma lexAll_around {p p' : Place} (hp : Takes p p') {letters before after : List Char} {w : String}
    {tail : String} {ts ts' : List Token} (hw : IsField w)
    (hbefore : lexAll start before = (⟨p, letters⟩, ts)) (hletters : p = .gap → letters = [])
    (hafter : lexAll ⟨p', []⟩ after = (start, .word tail :: ts')) :
    lexAll start (before ++ w.toList ++ after) =
      (start, ts ++ .word (String.ofList letters ++ w ++ tail) :: ts') := by
  have hword : Place.InWord p' := by
    rcases hp with ⟨-, rfl⟩ | ⟨-, rfl⟩ | ⟨single, -, rfl⟩ <;> simp [Place.InWord]
  have hrest := lexAll_letters hword hafter (letters ++ w.toList)
  rw [List.append_nil, String.ofList_append, String.ofList_toList] at hrest
  rw [lexAll_append, lexAll_append, hbefore, lexAll_field hp hletters hw]
  dsimp only
  rw [hrest, List.append_nil]

/-- A line whose last word ends with a field. -/
lemma lexAll_last {before w : String} {p : Place} {letters : List Char} {ts tokens : List Token}
    (hw : IsField w) (hp : p = .gap ∧ letters = [] ∨ p = .word)
    (hbefore : lexAll start before.toList = (⟨p, letters⟩, ts))
    (htokens : ts ++ [.word (String.ofList letters ++ w), .semicolon] = tokens) :
    lexAll start (before ++ w ++ ";").toList = (start, tokens) := by
  have hafter : lexAll ⟨.word, []⟩ [';'] = (start, [.word "", .semicolon]) := rfl
  have htakes : Takes p .word := by
    rcases hp with ⟨rfl, -⟩ | rfl <;> simp [Takes]
  have hline := lexAll_around htakes hw hbefore
    (fun hgap => hp.elim (fun h => h.2) fun h => absurd (h.symm.trans hgap) (by simp)) hafter
  rw [String.append_empty] at hline
  rw [String.toList_append, String.toList_append, ← htokens]
  exact hline

/-- A line with a field inside one of its words. -/
lemma lexAll_inside {before w after tail : String} {letters : List Char}
    {ts ts' tokens : List Token} (hw : IsField w)
    (hbefore : lexAll start before.toList = (⟨.word, letters⟩, ts))
    (hafter : lexAll ⟨.word, []⟩ after.toList = (start, .word tail :: ts'))
    (htokens : ts ++ .word (String.ofList letters ++ w ++ tail) :: ts' = tokens) :
    lexAll start (before ++ w ++ after).toList = (start, tokens) := by
  rw [String.toList_append, String.toList_append, ← htokens]
  exact lexAll_around (by simp [Takes]) hw hbefore (by simp) hafter

/-- Words between blanks, up to a semicolon. -/
lemma lexAll_names {names : List String} (h : ∀ name ∈ names, IsField name) :
    lexAll start ([' '].intercalate (names.map String.toList) ++ [';']) =
      (start, names.map .word ++ [.semicolon]) := by
  induction names with
  | nil => rfl
  | cons name rest ih =>
    have hname := h name List.mem_cons_self
    have hrest := ih fun n hn => h n (List.mem_cons_of_mem _ hn)
    have hword : ∀ {after : List Char} {ts : List Token},
        lexAll ⟨.word, []⟩ after = (start, .word "" :: ts) →
        lexAll start (name.toList ++ after) = (start, .word name :: ts) := by
      intro after ts hafter
      have hline := lexAll_around (.inl ⟨rfl, rfl⟩) hname (lexAll_nil start) (fun _ => rfl) hafter
      simpa using hline
    by_cases hnil : rest = []
    · subst hnil
      have hafter : lexAll ⟨.word, []⟩ [';'] = (start, [.word "", .semicolon]) := rfl
      rw [List.map_cons, List.map_nil, List.intercalate_singleton, hword hafter]
      rfl
    · have hnil' : rest.map String.toList ≠ [] := by simpa using hnil
      have hafter : lexAll ⟨.word, []⟩ [' '] = (start, [.word ""]) := rfl
      rw [List.map_cons, List.intercalate_cons_of_ne_nil hnil', List.append_assoc, lexAll_append,
        hword hafter]
      dsimp only
      rw [hrest, List.map_cons]
      rfl

/-! ## Lines -/

/-- Lines that read as tokens, each by itself. -/
inductive ReadAs : List String → List Token → Prop
  | nil : ReadAs [] []
  | cons {line : String} {lines : List String} {ts tokens : List Token} :
    lexAll start line.toList = (start, ts) → ReadAs lines tokens →
      ReadAs (line :: lines) (ts ++ tokens)

namespace ReadAs

variable {line : String} {lines lines' : List String} {tokens tokens' : List Token}

lemma congr (h : ReadAs lines tokens) (heq : tokens = tokens') : ReadAs lines tokens' := heq ▸ h

lemma single (h : lexAll start line.toList = (start, tokens)) : ReadAs [line] tokens :=
  (cons h nil).congr (List.append_nil tokens)

lemma append (h : ReadAs lines tokens) (h' : ReadAs lines' tokens') :
    ReadAs (lines ++ lines') (tokens ++ tokens') := by
  induction h with
  | nil => exact h'
  | cons hline _ ih =>
    rw [List.cons_append, List.append_assoc]
    exact cons hline ih

lemma flatMap {α : Type} {f : α → List String} {g : α → List Token} {l : List α}
    (h : ∀ a ∈ l, ReadAs (f a) (g a)) : ReadAs (l.flatMap f) (l.flatMap g) := by
  induction l with
  | nil => exact nil
  | cons a l ih =>
    rw [List.flatMap_cons, List.flatMap_cons]
    exact (h a List.mem_cons_self).append (ih fun b hb => h b (List.mem_cons_of_mem a hb))

/-- Blanks before lines make no difference. -/
lemma pad {blanks : String} (hblanks : lexAll start blanks.toList = (start, []))
    (h : ReadAs lines tokens) : ReadAs (lines.map fun line => blanks ++ line) tokens := by
  induction h with
  | nil => exact nil
  | cons hline _ ih =>
    refine cons ?_ ih
    rw [String.toList_append, lexAll_append, hblanks, hline, List.nil_append]

/-- The text of lines reads as the lines do. -/
lemma lexAll_text (h : ReadAs lines tokens) : lexAll start (text lines) = (start, tokens) := by
  induction h with
  | nil => rfl
  | cons hline _ ih =>
    have hend : lexAll start ['\n'] = (start, []) := by decide
    rw [text_cons, lexAll_append, hline, ← List.singleton_append, lexAll_append, hend, ih,
      List.nil_append]

end ReadAs

/-- Lines in which directives are written. -/
def Writes (lines : List String) (body : List Directive) : Prop := ReadAs lines (bodyTokens body)

namespace Writes

variable {line opening closing : String} {lines lines' : List String} {body body' : List Directive}
  {name : String} {arguments : List String}

lemma nil : Writes [] [] := ReadAs.nil

lemma append (h : Writes lines body) (h' : Writes lines' body') :
    Writes (lines ++ lines') (body ++ body') := by
  unfold Writes
  rw [bodyTokens_append]
  exact ReadAs.append h h'

lemma ite {p : Prop} [Decidable p] (h : p → Writes lines body) (h' : ¬ p → Writes lines' body') :
    Writes (if p then lines else lines') (if p then body else body') := by
  split
  · rename_i hp
    exact h hp
  · rename_i hp
    exact h' hp

lemma flatMap {α : Type} {f : α → List String} {g : α → List Directive} {l : List α}
    (h : ∀ a ∈ l, Writes (f a) (g a)) : Writes (l.flatMap f) (l.flatMap g) := by
  unfold Writes
  rw [bodyTokens_flatMap]
  exact ReadAs.flatMap h

/-- Blanks before lines make no difference. -/
lemma pad {blanks : String} (hblanks : lexAll start blanks.toList = (start, []))
    (h : Writes lines body) : Writes (lines.map fun line => blanks ++ line) body :=
  ReadAs.pad hblanks h

/-- A directive without a block. -/
lemma simple (h : lexAll start line.toList =
    (start, .word name :: (arguments.map .word ++ [.semicolon]))) :
    Writes [line] [.simple name arguments] :=
  (ReadAs.single h).congr (List.append_nil _).symm

/-- A directive with a block. -/
lemma block (hopening : lexAll start opening.toList =
      (start, .word name :: (arguments.map .word ++ [.opening])))
    (hbody : Writes lines body) (hclosing : lexAll start closing.toList = (start, [.closing])) :
    Writes ([opening] ++ lines ++ [closing]) [.block name arguments body] := by
  refine (((ReadAs.single hopening).append hbody).append (.single hclosing)).congr ?_
  simp [bodyTokens, Directive.tokens]

/-- A text of lines in which directives are written is parsed into these directives. -/
theorem parse_joinLines (h : Writes lines body) (hne : lines ≠ []) :
    parse (Text.joinLines lines ++ "\n") = some body := by
  rw [parse, toList_joinLines hne, ReadAs.lexAll_text h, if_pos rfl]
  exact directivesOf_bodyTokens body

end Writes

end Portwyrm.Base.Directives

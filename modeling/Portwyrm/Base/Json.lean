import Portwyrm.Base.Numeral
import Portwyrm.Base.Text

/-!
# JSON

Reading JSON documents whose numbers are integers, and the texts that are read back as a given
value.  A document is read with a bound on the number of nested calls; twice the length of a
text is always enough.
-/

namespace Portwyrm.Base

/-- A JSON value. -/
inductive Json
  | null
  | bool (b : Bool)
  | number (n : ℤ)
  | text (s : String)
  | list (items : List Json)
  | object (members : List (String × Json))

namespace Json

/-! ## Reading -/

/-- White space between tokens. -/
def isBlank (c : Char) : Bool := c == ' ' || c == '\t' || c == '\n' || c == '\r'

/-- The text behind white space. -/
def skipBlanks (l : List Char) : List Char := l.dropWhile isBlank

/-- The code points of the escapes of one letter. -/
def escapes : List (Char × ℕ) :=
  [('"', 34), ('\\', 92), ('/', 47), ('b', 8), ('f', 12), ('n', 10), ('r', 13), ('t', 9)]

/-- The code units of a text up to its closing quote, and what stands behind it. -/
def units : List Char → Option (List ℕ × List Char)
  | [] => none
  | '"' :: rest => some ([], rest)
  | '\\' :: 'u' :: a :: b :: c :: d :: rest => do
    let n ← Numeral.numeral 16 [a, b, c, d]
    let (l, rest) ← units rest
    some (n :: l, rest)
  | '\\' :: c :: rest => do
    let n ← escapes.lookup c
    let (l, rest) ← units rest
    some (n :: l, rest)
  | c :: rest =>
    if c.toNat < 32 then none
    else do
      let (l, rest) ← units rest
      some (c.toNat :: l, rest)

/-- The first half of a surrogate pair. -/
def isHigh (n : ℕ) : Prop := 0xd800 ≤ n ∧ n < 0xdc00

/-- The second half of a surrogate pair. -/
def isLow (n : ℕ) : Prop := 0xdc00 ≤ n ∧ n < 0xe000

instance (n : ℕ) : Decidable (isHigh n) := inferInstanceAs (Decidable (_ ∧ _))

instance (n : ℕ) : Decidable (isLow n) := inferInstanceAs (Decidable (_ ∧ _))

/-- The characters of a list of code units, with surrogate pairs joined. -/
def joinUnits : List ℕ → Option (List Char)
  | [] => some []
  | high :: low :: rest =>
    if isHigh high ∧ isLow low then
      (joinUnits rest).map
        (Char.ofNat (0x10000 + (high - 0xd800) * 1024 + (low - 0xdc00)) :: ·)
    else if isHigh high ∨ isLow high then none
    else (joinUnits (low :: rest)).map (Char.ofNat high :: ·)
  | [n] => if isHigh n ∨ isLow n then none else some [Char.ofNat n]

/-- A text behind its opening quote. -/
def textBody (l : List Char) : Option (String × List Char) := do
  let (l, rest) ← units l
  let cs ← joinUnits l
  some (String.ofList cs, rest)

/-- An integer without a sign. -/
def natural (l : List Char) : Option (ℕ × List Char) :=
  let digits := l.takeWhile Char.isDigit
  let rest := l.dropWhile Char.isDigit
  if digits.head? = some '0' ∧ digits ≠ ['0'] then none
  else if rest.head? = some '.' ∨ rest.head? = some 'e' ∨ rest.head? = some 'E' then none
  else if digits = [] then none
  else (Numeral.numeral 10 digits).map fun n => (n, rest)

mutual

/-- A value at the start of a text, and what stands behind it. -/
def value : ℕ → List Char → Option (Json × List Char)
  | 0, _ => none
  | fuel + 1, l =>
    match l with
    | '"' :: rest => (textBody rest).map fun p => (.text p.1, p.2)
    | '[' :: rest =>
      match skipBlanks rest with
      | ']' :: rest => some (.list [], rest)
      | rest => (items fuel rest).map fun p => (.list p.1, p.2)
    | '\x7b' :: rest =>
      match skipBlanks rest with
      | '\x7d' :: rest => some (.object [], rest)
      | rest => (members fuel rest).map fun p => (.object p.1, p.2)
    | 'n' :: 'u' :: 'l' :: 'l' :: rest => some (.null, rest)
    | 't' :: 'r' :: 'u' :: 'e' :: rest => some (.bool true, rest)
    | 'f' :: 'a' :: 'l' :: 's' :: 'e' :: rest => some (.bool false, rest)
    | '-' :: rest => (natural rest).map fun p => (.number (-(p.1 : ℤ)), p.2)
    | l => (natural l).map fun p => (.number p.1, p.2)

/-- The items of a list up to its closing bracket. -/
def items : ℕ → List Char → Option (List Json × List Char)
  | 0, _ => none
  | fuel + 1, l => do
    let (v, rest) ← value fuel l
    match skipBlanks rest with
    | ',' :: rest => (items fuel (skipBlanks rest)).map fun p => (v :: p.1, p.2)
    | ']' :: rest => some ([v], rest)
    | _ => none

/-- The members of an object up to its closing brace. -/
def members : ℕ → List Char → Option (List (String × Json) × List Char)
  | 0, _ => none
  | fuel + 1, l =>
    match l with
    | '"' :: rest => do
      let (k, rest) ← textBody rest
      match skipBlanks rest with
      | ':' :: rest => do
        let (v, rest) ← value fuel (skipBlanks rest)
        match skipBlanks rest with
        | ',' :: rest => (members fuel (skipBlanks rest)).map fun p => ((k, v) :: p.1, p.2)
        | '\x7d' :: rest => some ([(k, v)], rest)
        | _ => none
      | _ => none
    | _ => none

end

/-- `json.loads`. -/
def loads (s : String) : Option Json := do
  let (v, rest) ← value (2 * s.toList.length + 2) (skipBlanks s.toList)
  if skipBlanks rest = [] then some v else none

/-- `d.get(key)`; of several members with one key the last counts. -/
def get? (members : List (String × Json)) (key : String) : Option Json := members.reverse.lookup key

/-! ## Texts that are read back -/

/-- What may stand behind a value: the end, white space, or the end of an item. -/
def Follow (rest : List Char) : Prop :=
  ∀ c ∈ rest.head?, c = ',' ∨ c = ']' ∨ c = '\x7d' ∨ isBlank c = true

/-- A text is read as a value, wherever it stands. -/
structure Reads (text : List Char) (v : Json) : Prop where
  starts : ∃ c rest, text = c :: rest ∧ isBlank c = false ∧ c ≠ ']'
  value_eq : ∀ fuel rest, 2 * text.length ≤ fuel → Follow rest →
    value fuel (text ++ rest) = some (v, rest)

lemma follow_cons {c : Char} (h : c = ',' ∨ c = ']' ∨ c = '\x7d' ∨ isBlank c = true)
    (rest : List Char) : Follow (c :: rest) := by
  intro d hd
  obtain rfl : c = d := by simpa using hd
  exact h

lemma skipBlanks_cons {c : Char} (h : isBlank c = false) (rest : List Char) :
    skipBlanks (c :: rest) = c :: rest := by
  rw [skipBlanks, List.dropWhile_cons_of_neg (by simp [h])]

lemma Reads.skipBlanks_eq {text : List Char} {v : Json} (h : Reads text v) (rest : List Char) :
    skipBlanks (text ++ rest) = text ++ rest := by
  obtain ⟨c, tail, rfl, hc, -⟩ := h.starts
  exact skipBlanks_cons hc _

lemma Reads.length_pos {text : List Char} {v : Json} (h : Reads text v) : 0 < text.length := by
  obtain ⟨c, tail, rfl, -⟩ := h.starts
  exact Nat.succ_pos _

/-- A document is one text, with white space behind it. -/
lemma loads_of_reads {s : String} {text rest : List Char} {v : Json} (h : Reads text v)
    (hs : s.toList = text ++ rest) (hrest : ∀ c ∈ rest, isBlank c = true) :
    loads s = some v := by
  have hfollow : Follow rest := fun c hc =>
    .inr (.inr (.inr (hrest c (List.mem_of_mem_head? hc))))
  have hfuel : 2 * text.length ≤ 2 * (text ++ rest).length + 2 := by
    rw [List.length_append]
    omega
  have hblank : skipBlanks rest = [] := List.dropWhile_eq_nil_iff.mpr hrest
  rw [loads, hs, h.skipBlanks_eq, h.value_eq _ rest hfuel hfollow]
  simp [hblank]

/-! ### Strings -/

/-- The code units of a character. -/
def utf16 (c : Char) : List ℕ :=
  if c.toNat < 0x10000 then [c.toNat]
  else [0xd800 + (c.toNat - 0x10000) / 1024, 0xdc00 + (c.toNat - 0x10000) % 1024]

/-- A word inside quotes is read as one character. -/
def IsEscape (word : List Char) (c : Char) : Prop :=
  ∀ rest, units (word ++ rest) = (units rest).map fun p => (utf16 c ++ p.1, p.2)

lemma joinUnits_utf16 (c : Char) (l : List ℕ) :
    joinUnits (utf16 c ++ l) = (joinUnits l).map (c :: ·) := by
  have hvalid : c.toNat < 0xd800 ∨ 0xdfff < c.toNat ∧ c.toNat < 0x110000 := c.valid
  unfold utf16
  split
  · have hhigh : ¬ isHigh c.toNat := fun h => by have := h.1; have := h.2; omega
    have hlow : ¬ isLow c.toNat := fun h => by have := h.1; have := h.2; omega
    cases l with
    | nil => simp [joinUnits, hhigh, hlow]
    | cons n l => simp [joinUnits, hhigh, hlow]
  · have hhigh : isHigh (0xd800 + (c.toNat - 0x10000) / 1024) := ⟨by omega, by omega⟩
    have hlow : isLow (0xdc00 + (c.toNat - 0x10000) % 1024) := ⟨by omega, by omega⟩
    have hjoin : 0x10000 + (0xd800 + (c.toNat - 0x10000) / 1024 - 0xd800) * 1024 +
        (0xdc00 + (c.toNat - 0x10000) % 1024 - 0xdc00) = c.toNat := by omega
    simp only [List.cons_append, List.nil_append, joinUnits, hhigh, hlow, and_self, if_true]
    rw [hjoin, Char.ofNat_toNat]

lemma joinUnits_flatMap (cs : List Char) : joinUnits (cs.flatMap utf16) = some cs := by
  induction cs with
  | nil => rfl
  | cons c cs ih => rw [List.flatMap_cons, joinUnits_utf16, ih, Option.map_some]

section

variable {escape : Char → List Char}

lemma units_flatMap (h : ∀ c, IsEscape (escape c) c) (cs rest : List Char) :
    units (cs.flatMap escape ++ '"' :: rest) = some (cs.flatMap utf16, rest) := by
  induction cs with
  | nil => simp [units]
  | cons c cs ih =>
    rw [List.flatMap_cons, List.append_assoc, h c, ih, Option.map_some, List.flatMap_cons]

lemma textBody_flatMap (h : ∀ c, IsEscape (escape c) c) (s : String) (rest : List Char) :
    textBody (s.toList.flatMap escape ++ '"' :: rest) = some (s, rest) := by
  simp [textBody, units_flatMap h, joinUnits_flatMap]

lemma reads_text (h : ∀ c, IsEscape (escape c) c) (s : String) :
    Reads ('"' :: (s.toList.flatMap escape ++ ['"'])) (.text s) where
  starts := ⟨_, _, rfl, rfl, by decide⟩
  value_eq := by
    intro fuel rest hfuel _
    obtain ⟨fuel, rfl⟩ : ∃ n, fuel = n + 1 := by
      refine Nat.exists_eq_add_of_le' (le_trans ?_ hfuel)
      rw [List.length_cons]
      omega
    simp [value, textBody_flatMap h]

end

/-! ### Numbers -/

/-- Only zero is written with a zero in front. -/
lemma toDigits_of_head_zero (n : ℕ) (h : (Nat.toDigits 10 n).head? = some '0') :
    Nat.toDigits 10 n = ['0'] := by
  induction n using Nat.strong_induction_on with
  | _ n ih =>
    rcases Nat.lt_or_ge n 10 with hn | hn
    · rw [Nat.toDigits_of_lt_base hn] at h ⊢
      simpa using h
    · exfalso
      have hne : Nat.toDigits 10 (n / 10) ≠ [] := Nat.toDigits_ne_nil
      rw [Nat.toDigits_of_base_le (by decide) hn, List.head?_append_of_ne_nil _ hne] at h
      have hnumeral := Numeral.numeral_toDigits (b := 10) (by decide) (by decide) (n / 10)
      rw [ih (n / 10) (by omega) h] at hnumeral
      have hzero : n / 10 = 0 := (Option.some.inj hnumeral).symm
      omega

lemma natural_toDigits (n : ℕ) {rest : List Char} (h : Follow rest) :
    natural (Nat.toDigits 10 n ++ rest) = some (n, rest) := by
  have hdigits : ∀ c ∈ Nat.toDigits 10 n, c.isDigit = true := fun c hc =>
    Nat.isDigit_of_mem_toDigits (by decide) (by decide) hc
  have hstop : ∀ c ∈ rest.head?, c.isDigit = false ∧ c ≠ '.' ∧ c ≠ 'e' ∧ c ≠ 'E' := by
    intro c hc
    rcases h c hc with rfl | rfl | rfl | hblank
    · decide
    · decide
    · decide
    · simp only [isBlank, Bool.or_eq_true, beq_iff_eq] at hblank
      rcases hblank with ((rfl | rfl) | rfl) | rfl <;> decide
  have hrest : rest.takeWhile Char.isDigit = [] ∧ rest.dropWhile Char.isDigit = rest := by
    cases rest with
    | nil => exact ⟨rfl, rfl⟩
    | cons c rest => simp [(hstop c rfl).1]
  have htake : (Nat.toDigits 10 n ++ rest).takeWhile Char.isDigit = Nat.toDigits 10 n := by
    rw [List.takeWhile_append_of_pos hdigits, hrest.1, List.append_nil]
  have hdrop : (Nat.toDigits 10 n ++ rest).dropWhile Char.isDigit = rest := by
    rw [List.dropWhile_append_of_pos hdigits, hrest.2]
  have hzero : ¬ ((Nat.toDigits 10 n).head? = some '0' ∧ Nat.toDigits 10 n ≠ ['0']) :=
    fun hz => hz.2 (toDigits_of_head_zero n hz.1)
  have hend : ¬ (rest.head? = some '.' ∨ rest.head? = some 'e' ∨ rest.head? = some 'E') := by
    rintro (hc | hc | hc)
    · exact (hstop _ hc).2.1 rfl
    · exact (hstop _ hc).2.2.1 rfl
    · exact (hstop _ hc).2.2.2 rfl
  simp only [natural, htake, hdrop]
  rw [if_neg hzero, if_neg hend, if_neg Nat.toDigits_ne_nil,
    Numeral.numeral_toDigits (by decide) (by decide), Option.map_some]

lemma value_of_digit {c : Char} (h : c.isDigit = true) (fuel : ℕ) (l : List Char) :
    value (fuel + 1) (c :: l) = (natural (c :: l)).map fun p => (.number p.1, p.2) := by
  rw [value]
  -- none of the other beginnings of a value is a digit
  all_goals
    intro rest heq
    obtain ⟨rfl, -⟩ := List.cons.inj heq
    exact absurd h (by decide)

lemma reads_nat (n : ℕ) : Reads (Nat.toDigits 10 n) (.number n) where
  starts := by
    cases hl : Nat.toDigits 10 n with
    | nil => exact absurd hl Nat.toDigits_ne_nil
    | cons c rest =>
      have hc : c.isDigit = true :=
        Nat.isDigit_of_mem_toDigits (b := 10) (n := n) (by decide) (by decide) (by simp [hl])
      refine ⟨c, rest, rfl, ?_, ?_⟩
      · by_contra hblank
        simp only [isBlank, Bool.not_eq_false, Bool.or_eq_true, beq_iff_eq] at hblank
        rcases hblank with ((rfl | rfl) | rfl) | rfl <;> exact absurd hc (by decide)
      · rintro rfl
        exact absurd hc (by decide)
  value_eq := by
    intro fuel rest hfuel hfollow
    cases hl : Nat.toDigits 10 n with
    | nil => exact absurd hl Nat.toDigits_ne_nil
    | cons c tail =>
      have hc : c.isDigit = true :=
        Nat.isDigit_of_mem_toDigits (b := 10) (n := n) (by decide) (by decide) (by simp [hl])
      obtain ⟨fuel, rfl⟩ : ∃ m, fuel = m + 1 := by
        refine Nat.exists_eq_add_of_le' (le_trans ?_ hfuel)
        rw [hl, List.length_cons]
        omega
      rw [List.cons_append, value_of_digit hc, ← List.cons_append, ← hl,
        natural_toDigits n hfollow, Option.map_some]

/-! ### Lists and objects -/

lemma intercalate_starts {text : List Char} {v : Json} (h : Reads text v)
    (texts : List (List Char)) : ∃ c rest,
    List.intercalate [','] (text :: texts) = c :: rest ∧ isBlank c = false ∧ c ≠ ']' := by
  obtain ⟨c, tail, rfl, hc⟩ := h.starts
  cases texts with
  | nil => exact ⟨c, tail, List.intercalate_singleton, hc⟩
  | cons t ts => exact ⟨c, _, List.intercalate_cons_cons, hc⟩

/-- Reading the items of a list takes at most two calls for each character. -/
lemma items_eq {texts : List (List Char)} {values : List Json}
    (h : List.Forall₂ Reads texts values) (hne : texts ≠ []) (fuel : ℕ)
    (hfuel : 2 * (List.intercalate [','] texts).length + 1 ≤ fuel) (rest : List Char) :
    items fuel (List.intercalate [','] texts ++ ']' :: rest) = some (values, rest) := by
  induction h generalizing fuel with
  | nil => exact absurd rfl hne
  | @cons text v texts values hread htail ih =>
    obtain ⟨fuel, rfl⟩ : ∃ n, fuel = n + 1 := Nat.exists_eq_add_of_le' (le_trans (by omega) hfuel)
    cases htail with
    | nil =>
      rw [List.intercalate_singleton] at hfuel ⊢
      have hvalue := hread.value_eq fuel (']' :: rest) (by omega) (follow_cons (by simp) rest)
      rw [items, hvalue]
      simp [skipBlanks_cons (c := ']') rfl]
    | @cons text' v' texts values hread' htail =>
      obtain ⟨c, tail, hstart, hc, -⟩ := intercalate_starts hread' texts
      rw [List.intercalate_cons_cons] at hfuel ⊢
      simp only [List.length_append, List.length_cons, List.length_nil] at hfuel
      have hvalue := hread.value_eq fuel
        (',' :: (List.intercalate [','] (text' :: texts) ++ ']' :: rest)) (by omega)
        (follow_cons (by simp) _)
      have hblank : skipBlanks (List.intercalate [','] (text' :: texts) ++ ']' :: rest) =
          List.intercalate [','] (text' :: texts) ++ ']' :: rest := by
        rw [hstart, List.cons_append, skipBlanks_cons hc]
      rw [List.append_assoc, List.append_assoc, List.singleton_append, items, hvalue]
      simp only [Option.bind_eq_bind, Option.bind_some, skipBlanks_cons (c := ',') rfl, hblank]
      rw [ih (by simp) fuel (by omega), Option.map_some]

lemma reads_list {texts : List (List Char)} {values : List Json}
    (h : List.Forall₂ Reads texts values) :
    Reads ('[' :: (List.intercalate [','] texts ++ [']'])) (.list values) where
  starts := ⟨_, _, rfl, rfl, by decide⟩
  value_eq := by
    intro fuel rest hfuel _
    simp only [List.length_cons, List.length_append] at hfuel
    obtain ⟨fuel, rfl⟩ : ∃ n, fuel = n + 1 := Nat.exists_eq_add_of_le' (le_trans (by omega) hfuel)
    cases h with
    | nil => simp [value, skipBlanks_cons (c := ']') rfl]
    | @cons text v texts values hread htail =>
      have hitems := items_eq (.cons hread htail) (by simp) fuel (by omega) rest
      obtain ⟨c, tail, hstart, hc, hne⟩ := intercalate_starts hread texts
      rw [hstart, List.cons_append] at hitems
      rw [List.cons_append, List.append_assoc, List.singleton_append, hstart, List.cons_append]
      rw [value, skipBlanks_cons hc]
      split
      · rename_i heq
        exact absurd (List.cons.inj heq).1 hne
      · rw [hitems, Option.map_some]

/-- The text of a member: its key in quotes, a colon, its value. -/
def memberText (escape : Char → List Char) (m : String × List Char) : List Char :=
  '"' :: (m.1.toList.flatMap escape ++ '"' :: ':' :: m.2)

section

variable {escape : Char → List Char}

lemma memberText_append (m : String × List Char) (rest : List Char) :
    memberText escape m ++ rest =
      '"' :: (m.1.toList.flatMap escape ++ '"' :: ':' :: (m.2 ++ rest)) := by
  simp [memberText]

lemma length_memberText (m : String × List Char) :
    (memberText escape m).length = (m.1.toList.flatMap escape).length + m.2.length + 3 := by
  simp only [memberText, List.length_cons, List.length_append]
  omega

lemma members_starts (escape : Char → List Char) (t : String × List Char) (texts : List (String × List Char)) :
    ∃ rest, List.intercalate [','] ((t :: texts).map (memberText escape)) = '"' :: rest := by
  cases texts with
  | nil => exact ⟨_, List.intercalate_singleton⟩
  | cons t' ts => exact ⟨_, List.intercalate_cons_cons⟩

/-- Reading the members of an object takes at most two calls for each character. -/
lemma members_eq (hescape : ∀ c, IsEscape (escape c) c) {texts : List (String × List Char)}
    {values : List (String × Json)}
    (h : List.Forall₂ (fun t v => t.1 = v.1 ∧ Reads t.2 v.2) texts values) (hne : texts ≠ [])
    (fuel : ℕ)
    (hfuel : 2 * (List.intercalate [','] (texts.map (memberText escape))).length + 1 ≤ fuel)
    (rest : List Char) :
    members fuel (List.intercalate [','] (texts.map (memberText escape)) ++ '\x7d' :: rest) =
      some (values, rest) := by
  induction h generalizing fuel with
  | nil => exact absurd rfl hne
  | @cons t v texts values hread htail ih =>
    obtain ⟨key, text⟩ := t
    obtain ⟨key', v⟩ := v
    obtain ⟨rfl, hread⟩ : key = key' ∧ Reads text v := hread
    obtain ⟨fuel, rfl⟩ : ∃ n, fuel = n + 1 := Nat.exists_eq_add_of_le' (le_trans (by omega) hfuel)
    cases htail with
    | nil =>
      simp only [List.map_cons, List.map_nil, List.intercalate_singleton, length_memberText]
        at hfuel ⊢
      have hvalue := hread.value_eq fuel ('\x7d' :: rest) (by omega) (follow_cons (by simp) rest)
      rw [memberText_append, members, textBody_flatMap hescape]
      simp only [Option.bind_eq_bind, Option.bind_some, skipBlanks_cons (c := ':') rfl,
        hread.skipBlanks_eq, hvalue, skipBlanks_cons (c := '\x7d') rfl]
    | @cons t' v' texts values hread' htail =>
      simp only [List.map_cons, List.intercalate_cons_cons, List.length_append, length_memberText,
        List.length_cons, List.length_nil] at hfuel ih ⊢
      rw [← List.map_cons] at hfuel ih ⊢
      have hmembers := ih (by simp) fuel (by omega)
      obtain ⟨tail, hstart⟩ := members_starts escape t' texts
      rw [hstart, List.cons_append] at hmembers
      have hvalue := hread.value_eq fuel (',' :: '"' :: (tail ++ '\x7d' :: rest)) (by omega)
        (follow_cons (by simp) _)
      rw [List.append_assoc, List.append_assoc, List.singleton_append, hstart, List.cons_append,
        memberText_append, members, textBody_flatMap hescape]
      simp only [Option.bind_eq_bind, Option.bind_some, skipBlanks_cons (c := ':') rfl,
        hread.skipBlanks_eq, hvalue, skipBlanks_cons (c := ',') rfl,
        skipBlanks_cons (c := '"') rfl, hmembers, Option.map_some]

lemma reads_object (hescape : ∀ c, IsEscape (escape c) c) {texts : List (String × List Char)}
    {values : List (String × Json)}
    (h : List.Forall₂ (fun t v => t.1 = v.1 ∧ Reads t.2 v.2) texts values) :
    Reads ('\x7b' :: (List.intercalate [','] (texts.map (memberText escape)) ++ ['\x7d']))
      (.object values) where
  starts := ⟨_, _, rfl, rfl, by decide⟩
  value_eq := by
    intro fuel rest hfuel _
    simp only [List.length_cons, List.length_append] at hfuel
    obtain ⟨fuel, rfl⟩ : ∃ n, fuel = n + 1 := Nat.exists_eq_add_of_le' (le_trans (by omega) hfuel)
    cases h with
    | nil => simp [value, skipBlanks_cons (c := '\x7d') rfl]
    | @cons t v texts values hread htail =>
      have hmembers := members_eq hescape (.cons hread htail) (by simp) fuel (by omega) rest
      obtain ⟨tail, hstart⟩ := members_starts escape t texts
      rw [hstart, List.cons_append] at hmembers
      rw [List.cons_append, List.append_assoc, List.singleton_append, hstart, List.cons_append,
        value, skipBlanks_cons (c := '"') rfl]
      split
      · rename_i heq
        exact absurd (List.cons.inj heq).1 (by decide)
      · rw [hmembers, Option.map_some]

end

end Json

end Portwyrm.Base

import Mathlib.Algebra.Order.Field.Rat
import Mathlib.Data.List.Lex
import Mathlib.Data.String.Basic
import Mathlib.Tactic.FieldSimp
import Mathlib.Tactic.Linarith
import Mathlib.Tactic.Positivity
import Portwyrm.Base.Numeral

/-!
# Times as texts

The extended format of ISO 8601: a date and a time of day, a fraction of a second with any number of
digits or none, and a suffix for the offset.  The order of the texts is compared with the order of
the instants that they spell.
-/

namespace Portwyrm.Base

/-! ## The order of lists -/

section Lexicographic

variable {α : Type*} [LinearOrder α]

lemma cons_le_cons_iff {a b : α} {x y : List α} : a :: x ≤ b :: y ↔ a < b ∨ a = b ∧ x ≤ y := by
  simp only [le_iff_lt_or_eq, List.cons_lt_cons_iff, List.cons.injEq]
  tauto

lemma append_le_append_iff (u x y : List α) : u ++ x ≤ u ++ y ↔ x ≤ y := by
  induction u with
  | nil => rfl
  | cons a u ih =>
    rw [List.cons_append, List.cons_append, cons_le_cons_iff, ih]
    simp

/-- How two lists differ first. -/
inductive FirstDifference (u v : List α) : Prop
  | none (h : u = v)
  | endsLeft (a : α) (w : List α) (h : v = u ++ a :: w)
  | endsRight (a : α) (w : List α) (h : u = v ++ a :: w)
  | element (p : List α) (a b : α) (w w' : List α) (hu : u = p ++ a :: w) (hv : v = p ++ b :: w')
      (hne : a ≠ b)

lemma firstDifference (u v : List α) : FirstDifference u v := by
  induction u generalizing v with
  | nil =>
    cases v with
    | nil => exact .none rfl
    | cons b v => exact .endsLeft b v rfl
  | cons a u ih =>
    cases v with
    | nil => exact .endsRight a u rfl
    | cons b v =>
      by_cases hab : a = b
      · subst hab
        cases ih v with
        | none h => exact .none (by rw [h])
        | endsLeft c w h => exact .endsLeft c w (by rw [h]; rfl)
        | endsRight c w h => exact .endsRight c w (by rw [h]; rfl)
        | element p c d w w' hu hv hne =>
          exact .element (a :: p) c d w w' (by rw [hu]; rfl) (by rw [hv]; rfl) hne
      · exact .element [] a b u v rfl rfl hab

end Lexicographic

/-! ## Numbers of a fixed width -/

/-- A number with leading zeros. -/
def padded (k n : ℕ) : List Char := (Numeral.groups 10 k n).map Nat.digitChar

lemma digitChar_lt_iff : ∀ a < 10, ∀ b < 10, (Nat.digitChar a < Nat.digitChar b ↔ a < b) := by decide

lemma digitChar_inj : ∀ a < 10, ∀ b < 10, Nat.digitChar a = Nat.digitChar b → a = b := by decide

/-- Texts that start with numbers of one width are in the order of the numbers first. -/
lemma padded_append_le_iff {k m n : ℕ} (hm : m < 10 ^ k) (hn : n < 10 ^ k) (x y : List Char) :
    padded k m ++ x ≤ padded k n ++ y ↔ m < n ∨ m = n ∧ x ≤ y := by
  induction k generalizing m n x y with
  | zero =>
    obtain rfl : m = 0 := by simpa using hm
    obtain rfl : n = 0 := by simpa using hn
    simp [padded, Numeral.groups]
  | succ k ih =>
    have hdiv : ∀ {l : ℕ}, l < 10 ^ (k + 1) → l / 10 < 10 ^ k := fun hl =>
      Nat.div_lt_of_lt_mul (by rwa [Nat.pow_succ, Nat.mul_comm] at hl)
    have hsplit : ∀ (l : ℕ) (z : List Char),
        padded (k + 1) l ++ z = padded k (l / 10) ++ Nat.digitChar (l % 10) :: z := by
      intro l z
      simp [padded, Numeral.groups]
    rw [hsplit, hsplit, ih (hdiv hm) (hdiv hn), cons_le_cons_iff,
      digitChar_lt_iff _ (Nat.mod_lt _ (by decide)) _ (Nat.mod_lt _ (by decide))]
    have hdigit : Nat.digitChar (m % 10) = Nat.digitChar (n % 10) ↔ m % 10 = n % 10 :=
      ⟨digitChar_inj _ (Nat.mod_lt _ (by decide)) _ (Nat.mod_lt _ (by decide)), congrArg _⟩
    rw [hdigit]
    constructor
    · rintro (h | ⟨h, h' | ⟨h', hle⟩⟩)
      · exact .inl (by omega)
      · exact .inl (by omega)
      · exact .inr ⟨by omega, hle⟩
    · rintro (h | ⟨rfl, hle⟩)
      · rcases Nat.lt_or_ge (m / 10) (n / 10) with hlt | hge
        · exact .inl hlt
        · exact .inr ⟨by omega, .inl (by omega)⟩
      · exact .inr ⟨rfl, .inr ⟨rfl, hle⟩⟩

/-! ## The calendar -/

/-- A leap year of the Gregorian calendar. -/
def IsLeap (year : ℕ) : Prop := year % 4 = 0 ∧ (year % 100 ≠ 0 ∨ year % 400 = 0)

instance (year : ℕ) : Decidable (IsLeap year) :=
  inferInstanceAs (Decidable (year % 4 = 0 ∧ (year % 100 ≠ 0 ∨ year % 400 = 0)))

/-- The days of a month, which is counted from one. -/
def daysInMonth (year month : ℕ) : ℕ :=
  match month with
  | 1 | 3 | 5 | 7 | 8 | 10 | 12 => 31
  | 4 | 6 | 9 | 11 => 30
  | 2 => if IsLeap year then 29 else 28
  | _ => 0

/-- The days of a year before a month. -/
def daysBeforeMonth (year : ℕ) : ℕ → ℕ
  | 0 => 0
  | month + 1 => daysBeforeMonth year month + daysInMonth year month

/-- The days before a year, from the year one on. -/
def daysBeforeYear (year : ℕ) : ℕ :=
  (year - 1) * 365 + (year - 1) / 4 - (year - 1) / 100 + (year - 1) / 400

/-- The number of a day. -/
def ordinal (year month day : ℕ) : ℕ := daysBeforeYear year + daysBeforeMonth year month + day

variable {year year' month month' day day' : ℕ}

lemma daysBeforeMonth_mono (year : ℕ) : Monotone (daysBeforeMonth year) :=
  monotone_nat_of_le_succ fun _ => Nat.le_add_right _ _

lemma daysBeforeMonth_thirteen (year : ℕ) :
    daysBeforeMonth year 13 = if IsLeap year then 366 else 365 := by
  by_cases h : IsLeap year <;> simp [daysBeforeMonth, daysInMonth, h]

/-- A quotient grows where a multiple is reached. -/
lemma pred_div {n : ℕ} (k : ℕ) (hn : 1 ≤ n) :
    n / k = (n - 1) / k + if n % k = 0 then 1 else 0 := by
  obtain ⟨m, rfl⟩ := Nat.exists_eq_add_of_le' hn
  rw [Nat.add_sub_cancel, Nat.succ_div]
  simp only [Nat.dvd_iff_mod_eq_zero]

lemma daysBeforeYear_succ (h : 1 ≤ year) :
    daysBeforeYear (year + 1) = daysBeforeYear year + if IsLeap year then 366 else 365 := by
  have hfour := pred_div 4 h
  have hhundred := pred_div 100 h
  have hfourHundred := pred_div 400 h
  have hcentury : (year - 1) / 100 ≤ (year - 1) / 4 := Nat.div_le_div_left (by decide) (by decide)
  have h100 : year % 400 = 0 → year % 100 = 0 := by omega
  have h4 : year % 100 = 0 → year % 4 = 0 := by omega
  unfold daysBeforeYear IsLeap
  rw [Nat.add_sub_cancel, hfour, hhundred, hfourHundred]
  generalize (year - 1) / 4 = fours at hcentury ⊢
  generalize (year - 1) / 100 = hundreds at hcentury ⊢
  generalize (year - 1) / 400 = fourHundreds
  by_cases hfour : year % 4 = 0 <;> by_cases hhundred : year % 100 = 0 <;>
    by_cases hfourHundred : year % 400 = 0 <;> simp [hfour, hhundred, hfourHundred] at h100 h4 ⊢ <;>
    omega

lemma daysBeforeYear_mono (h : 1 ≤ year) (hle : year ≤ year') :
    daysBeforeYear year ≤ daysBeforeYear year' := by
  induction year', hle using Nat.le_induction with
  | base => exact le_rfl
  | succ n hn ih =>
    rw [daysBeforeYear_succ (h.trans hn)]
    omega

/-- A date that there is. -/
structure IsDate (year month day : ℕ) : Prop where
  year_pos : 1 ≤ year
  year_lt : year < 10000
  month_le : month ≤ 12
  day_pos : 1 ≤ day
  day_le : day ≤ daysInMonth year month

/-- Dates are numbered in the order of their years, months and days. -/
lemma ordinal_lt_of (h : IsDate year month day) (h' : IsDate year' month' day')
    (hlt : year < year' ∨ year = year' ∧ (month < month' ∨ month = month' ∧ day < day')) :
    ordinal year month day < ordinal year' month' day' := by
  have hday := h.day_le
  have hday' := h'.day_pos
  have hnext : ∀ y m, daysBeforeMonth y (m + 1) = daysBeforeMonth y m + daysInMonth y m :=
    fun _ _ => rfl
  unfold ordinal
  rcases hlt with hyear | ⟨rfl, hmonth | ⟨rfl, hlt⟩⟩
  · have hmonths : daysBeforeMonth year (month + 1) ≤ daysBeforeMonth year 13 :=
      daysBeforeMonth_mono year (Nat.succ_le_succ h.month_le)
    have hyears := daysBeforeYear_mono (Nat.succ_pos year) hyear
    rw [daysBeforeYear_succ h.year_pos, ← daysBeforeMonth_thirteen] at hyears
    rw [hnext] at hmonths
    omega
  · have hmonths : daysBeforeMonth year (month + 1) ≤ daysBeforeMonth year month' :=
      daysBeforeMonth_mono year (Nat.succ_le_of_lt hmonth)
    rw [hnext] at hmonths
    omega
  · omega

/-! ## Wall times -/

/-- A date with a time of day. -/
structure WallTime where
  year : ℕ
  month : ℕ
  day : ℕ
  hour : ℕ
  minute : ℕ
  second : ℕ
  isDate : IsDate year month day
  hour_lt : hour < 24
  minute_lt : minute < 60
  second_lt : second < 60

namespace WallTime

/-- The seconds of a wall time, from a fixed day on. -/
def seconds (t : WallTime) : ℕ :=
  ((ordinal t.year t.month t.day * 24 + t.hour) * 60 + t.minute) * 60 + t.second

/-- The text of a wall time. -/
def text (t : WallTime) : List Char :=
  padded 4 t.year ++ '-' :: padded 2 t.month ++ '-' :: padded 2 t.day ++ 'T' ::
    padded 2 t.hour ++ ':' :: padded 2 t.minute ++ ':' :: padded 2 t.second

/-- The order of the fields, one after the other. -/
def Before (a b : WallTime) : Prop :=
  a.year < b.year ∨ a.year = b.year ∧ (a.month < b.month ∨ a.month = b.month ∧
    (a.day < b.day ∨ a.day = b.day ∧ (a.hour < b.hour ∨ a.hour = b.hour ∧
      (a.minute < b.minute ∨ a.minute = b.minute ∧ a.second < b.second))))

variable {a b : WallTime}

lemma seconds_lt_of_before (h : a.Before b) : a.seconds < b.seconds := by
  have := a.hour_lt
  have := b.hour_lt
  have := a.minute_lt
  have := b.minute_lt
  have := a.second_lt
  have := b.second_lt
  unfold seconds
  by_cases hdate : a.year = b.year ∧ a.month = b.month ∧ a.day = b.day
  · obtain ⟨hyear, hmonth, hday⟩ := hdate
    rw [hyear, hmonth, hday]
    unfold Before at h
    omega
  · have hlt := ordinal_lt_of a.isDate b.isDate (by unfold Before at h; omega)
    omega

lemma before_or (a b : WallTime) : a.Before b ∨ a = b ∨ b.Before a := by
  unfold Before
  rw [WallTime.mk.injEq a.year]
  omega

lemma seconds_inj (h : a.seconds = b.seconds) : a = b := by
  rcases before_or a b with hlt | heq | hlt
  · exact absurd (seconds_lt_of_before hlt) (by omega)
  · exact heq
  · exact absurd (seconds_lt_of_before hlt) (by omega)

lemma before_iff : a.Before b ↔ a.seconds < b.seconds := by
  constructor
  · exact seconds_lt_of_before
  · intro hlt
    rcases before_or a b with hbefore | rfl | hafter
    · exact hbefore
    · exact absurd hlt (lt_irrefl _)
    · exact absurd (seconds_lt_of_before hafter) (by omega)

/-- Texts that start with wall times are in the order of the wall times first. -/
lemma text_append_le_iff (x y : List Char) :
    a.text ++ x ≤ b.text ++ y ↔ a.seconds < b.seconds ∨ a.seconds = b.seconds ∧ x ≤ y := by
  have hmonth : ∀ t : WallTime, t.month < 10 ^ 2 := fun t => by have := t.isDate.month_le; omega
  have hday : ∀ t : WallTime, t.day < 10 ^ 2 := by
    intro t
    have hle := t.isDate.day_le
    have hmax : daysInMonth t.year t.month ≤ 31 := by
      unfold daysInMonth
      split <;> first | omega | split <;> omega
    omega
  have hhour : ∀ t : WallTime, t.hour < 10 ^ 2 := fun t => by have := t.hour_lt; omega
  have hminute : ∀ t : WallTime, t.minute < 10 ^ 2 := fun t => by have := t.minute_lt; omega
  have hsecond : ∀ t : WallTime, t.second < 10 ^ 2 := fun t => by have := t.second_lt; omega
  have hfields : a.text ++ x ≤ b.text ++ y ↔ a.Before b ∨ a = b ∧ x ≤ y := by
    simp only [text, List.append_assoc, List.cons_append]
    rw [padded_append_le_iff a.isDate.year_lt b.isDate.year_lt, cons_le_cons_iff,
      padded_append_le_iff (hmonth a) (hmonth b), cons_le_cons_iff,
      padded_append_le_iff (hday a) (hday b), cons_le_cons_iff,
      padded_append_le_iff (hhour a) (hhour b), cons_le_cons_iff,
      padded_append_le_iff (hminute a) (hminute b), cons_le_cons_iff,
      padded_append_le_iff (hsecond a) (hsecond b)]
    simp only [lt_irrefl, false_or, true_and]
    unfold Before
    rw [WallTime.mk.injEq a.year]
    tauto
  rw [hfields, before_iff]
  exact or_congr_right (and_congr_left fun _ => ⟨congrArg seconds, seconds_inj⟩)

end WallTime

/-! ## Fractions -/

/-- The value of the digits behind the point. -/
def fractionValue : List (Fin 10) → ℚ
  | [] => 0
  | d :: digits => (d.val + fractionValue digits) / 10

lemma fractionValue_nonneg (digits : List (Fin 10)) : 0 ≤ fractionValue digits := by
  induction digits with
  | nil => exact le_rfl
  | cons d digits ih =>
    rw [fractionValue]
    positivity

lemma fractionValue_lt_one (digits : List (Fin 10)) : fractionValue digits < 1 := by
  induction digits with
  | nil => exact zero_lt_one
  | cons d digits ih =>
    have hd : (d.val : ℚ) ≤ 9 := by exact_mod_cast Nat.le_of_lt_succ d.isLt
    rw [fractionValue]
    linarith

/-- Behind equal digits the order is that of the rest. -/
lemma fractionValue_append_lt_iff (p u v : List (Fin 10)) :
    fractionValue (p ++ u) < fractionValue (p ++ v) ↔ fractionValue u < fractionValue v := by
  induction p with
  | nil => rfl
  | cons d p ih =>
    rw [List.cons_append, List.cons_append, fractionValue, fractionValue, ← ih]
    constructor <;> intro h <;> linarith

lemma fractionValue_cons_lt {a b : Fin 10} (h : a < b) (u v : List (Fin 10)) :
    fractionValue (a :: u) < fractionValue (b :: v) := by
  have hlt : (a.val : ℚ) + 1 ≤ b.val := by exact_mod_cast h
  have hu := fractionValue_lt_one u
  have hv := fractionValue_nonneg v
  rw [fractionValue, fractionValue]
  linarith

lemma fractionValue_le_append (u v : List (Fin 10)) : fractionValue u ≤ fractionValue (u ++ v) := by
  refine not_lt.mp fun h => ?_
  have hrest := (fractionValue_append_lt_iff u v []).mp (by rwa [List.append_nil])
  exact absurd (fractionValue_nonneg v) (not_le.mpr hrest)

/-- The last `k` digits of a number, as a fraction. -/
lemma fractionValue_digits (n k : ℕ) (hn : n < 10 ^ k) :
    fractionValue ((List.range k).reverse.map fun i => Fin.ofNat 10 (n / 10 ^ i)) = n / 10 ^ k := by
  induction k generalizing n with
  | zero =>
    obtain rfl : n = 0 := by simpa using hn
    simp [fractionValue]
  | succ k ih =>
    -- the first digit, and the digits of what it leaves
    have hfirst : (Fin.ofNat 10 (n / 10 ^ k)).val = n / 10 ^ k :=
      Nat.mod_eq_of_lt (Nat.div_lt_of_lt_mul (by rwa [← Nat.pow_succ]))
    have hrest : ((List.range k).reverse.map fun i => Fin.ofNat 10 (n / 10 ^ i)) =
        (List.range k).reverse.map fun i => Fin.ofNat 10 (n % 10 ^ k / 10 ^ i) := by
      refine List.map_congr_left fun i hi => Fin.ext ?_
      have hik : i < k := by simpa using hi
      have hdvd : 10 ^ i * 10 ∣ 10 ^ k := by
        rw [← Nat.pow_succ]
        exact Nat.pow_dvd_pow 10 hik
      change n / 10 ^ i % 10 = n % 10 ^ k / 10 ^ i % 10
      rw [← Nat.mod_mul_right_div_self, ← Nat.mod_mul_right_div_self, Nat.mod_mod_of_dvd _ hdvd]
    have hsplit : (n : ℚ) = 10 ^ k * (n / 10 ^ k : ℕ) + (n % 10 ^ k : ℕ) := by
      exact_mod_cast (Nat.div_add_mod n (10 ^ k)).symm
    rw [List.range_succ, List.reverse_append, List.reverse_singleton, List.singleton_append,
      List.map_cons, fractionValue, hfirst, hrest, ih _ (Nat.mod_lt _ (by positivity)), hsplit, pow_succ]
    field_simp

/-- The text of a fraction, with its point. -/
def fractionText (digits : List (Fin 10)) : List Char :=
  if digits = [] then [] else '.' :: digits.map fun d => Nat.digitChar d

/-! ## Suffixes -/

/-- The suffix of a time. -/
inductive Zone
  | utc
  | hours (negative : Bool) (h : Fin 24)
  | minutes (negative : Bool) (h : Fin 24) (m : Fin 60)
deriving DecidableEq

namespace Zone

/-- The sign of an offset. -/
def sign (negative : Bool) : Char := if negative then '-' else '+'

/-- The text of a suffix. -/
def text : Zone → List Char
  | .utc => ['Z']
  | .hours negative h => sign negative :: padded 2 h
  | .minutes negative h m => sign negative :: padded 2 h ++ ':' :: padded 2 m

/-- By how many seconds the wall time is ahead of UTC. -/
def offset : Zone → ℤ
  | .utc => 0
  | .hours negative h => (if negative then -1 else 1) * (h * 3600)
  | .minutes negative h m => (if negative then -1 else 1) * (h * 3600 + m * 60)

end Zone

/-! ## Spellings -/

/-- A time as it is spelled. -/
structure Spelling where
  wall : WallTime
  fraction : List (Fin 10)
  zone : Zone

namespace Spelling

/-- The text of a spelling. -/
def text (t : Spelling) : List Char := t.wall.text ++ (fractionText t.fraction ++ t.zone.text)

/-- The instant that is spelled, in seconds. -/
def instant (t : Spelling) : ℚ := t.wall.seconds + fractionValue t.fraction - t.zone.offset

end Spelling

/-- A point or a digit. -/
def IsInner (c : Char) : Prop := c = '.' ∨ ∃ d : Fin 10, c = Nat.digitChar d

/-- A suffix that is no `Z` comes before points and digits, and `Z` comes behind them. -/
lemma zone_le_iff {c : Char} (hc : IsInner c) (z : Zone) (x : List Char) :
    (z.text ≤ c :: x ↔ z ≠ .utc) ∧ (c :: x ≤ z.text ↔ z = .utc) := by
  have hbounds : '+' < c ∧ '-' < c ∧ c < 'Z' := by
    rcases hc with rfl | ⟨d, rfl⟩
    · decide
    · revert d
      decide
  have hsign : ∀ negative, Zone.sign negative < c := by
    rintro (_ | _)
    · exact hbounds.1
    · exact hbounds.2.1
  have hsigned : ∀ negative y, Zone.sign negative :: y ≤ c :: x ∧ ¬ c :: x ≤ Zone.sign negative :: y := by
    intro negative y
    refine ⟨cons_le_cons_iff.mpr (.inl (hsign negative)), fun hle => ?_⟩
    rcases cons_le_cons_iff.mp hle with hlt | ⟨heq, -⟩
    · exact absurd hlt (hsign negative).asymm
    · exact absurd heq (hsign negative).ne'
  cases z with
  | utc =>
    refine ⟨iff_of_false (fun hle => ?_) (by simp), iff_of_true ?_ rfl⟩
    · rcases cons_le_cons_iff.mp hle with hlt | ⟨heq, -⟩
      · exact absurd hlt hbounds.2.2.asymm
      · exact absurd heq hbounds.2.2.ne'
    · exact cons_le_cons_iff.mpr (.inl hbounds.2.2)
  | hours negative h =>
    exact ⟨iff_of_true (hsigned negative _).1 (by simp), iff_of_false (hsigned negative _).2 (by simp)⟩
  | minutes negative h m =>
    exact ⟨iff_of_true (hsigned negative _).1 (by simp), iff_of_false (hsigned negative _).2 (by simp)⟩

/-- Digits that follow on a fraction start with a point or with a digit. -/
lemma fractionText_append (digits : List (Fin 10)) (d : Fin 10) (rest : List (Fin 10)) :
    ∃ c x, IsInner c ∧ fractionText (digits ++ d :: rest) = fractionText digits ++ c :: x := by
  cases digits with
  | nil => exact ⟨'.', _, .inl rfl, rfl⟩
  | cons d' digits =>
    refine ⟨Nat.digitChar d, rest.map fun d => Nat.digitChar d, .inr ⟨d, rfl⟩, ?_⟩
    simp [fractionText]

/-- The part of a text behind the seconds. -/
def tail (digits : List (Fin 10)) (z : Zone) : List Char := fractionText digits ++ z.text

variable {u v p w w' : List (Fin 10)} {z z' : Zone} {d d' : Fin 10}

lemma tail_le_of_longer (h : v = u ++ d :: w) : tail u z ≤ tail v z' ↔ z ≠ .utc := by
  obtain ⟨c, x, hc, htext⟩ := fractionText_append u d w
  rw [tail, tail, h, htext, List.append_assoc, append_le_append_iff, List.cons_append]
  exact (zone_le_iff hc z _).1

lemma tail_le_of_shorter (h : u = v ++ d :: w) : tail u z ≤ tail v z' ↔ z' = .utc := by
  obtain ⟨c, x, hc, htext⟩ := fractionText_append v d w
  rw [tail, tail, h, htext, List.append_assoc, append_le_append_iff, List.cons_append]
  exact (zone_le_iff hc z' _).2

lemma tail_le_of_element (hu : u = p ++ d :: w) (hv : v = p ++ d' :: w') (hne : d ≠ d') :
    tail u z ≤ tail v z' ↔ fractionValue u < fractionValue v := by
  have htext : ∀ (e : Fin 10) (rest : List (Fin 10)), ∃ x,
      fractionText (p ++ e :: rest) = '.' :: (p.map fun d => Nat.digitChar d) ++ Nat.digitChar e :: x := by
    intro e rest
    refine ⟨rest.map fun d => Nat.digitChar d, ?_⟩
    simp [fractionText]
  obtain ⟨x, hx⟩ := htext d w
  obtain ⟨y, hy⟩ := htext d' w'
  have hdigit : Nat.digitChar d ≠ Nat.digitChar d' := fun heq =>
    hne (Fin.ext (digitChar_inj d d.isLt d' d'.isLt heq))
  rw [tail, tail, hu, hv, hx, hy, List.append_assoc, List.append_assoc, append_le_append_iff,
    List.cons_append, List.cons_append, cons_le_cons_iff, digitChar_lt_iff d d.isLt d' d'.isLt,
    fractionValue_append_lt_iff]
  constructor
  · rintro (hlt | ⟨heq, -⟩)
    · exact fractionValue_cons_lt hlt w w'
    · exact absurd heq hdigit
  · intro hlt
    rcases lt_trichotomy d d' with h | h | h
    · exact .inl h
    · exact absurd h hne
    · exact absurd (fractionValue_cons_lt h w' w) hlt.asymm

/-! ## Texts and instants -/

namespace Spelling

/-- By how many seconds of wall time a spelling is behind another one. -/
def lead (s r : Spelling) : ℤ := r.wall.seconds - s.wall.seconds

/-- By how many seconds the offset of a spelling is larger than that of another one. -/
def shift (s r : Spelling) : ℤ := r.zone.offset - s.zone.offset

variable {s r : Spelling}

lemma text_le_iff : s.text ≤ r.text ↔
    0 < lead s r ∨ lead s r = 0 ∧ tail s.fraction s.zone ≤ tail r.fraction r.zone := by
  rw [text, text, WallTime.text_append_le_iff, lead]
  refine or_congr ?_ (and_congr_left fun _ => ?_) <;> omega

/-- Fractions decide where the wall times and the offsets differ by the same. -/
lemma instant_le_iff : s.instant ≤ r.instant ↔ shift s r < lead s r ∨
    shift s r = lead s r ∧ fractionValue s.fraction ≤ fractionValue r.fraction := by
  have hs := fractionValue_nonneg s.fraction
  have hs' := fractionValue_lt_one s.fraction
  have hr := fractionValue_nonneg r.fraction
  have hr' := fractionValue_lt_one r.fraction
  have hlead : (lead s r : ℚ) = r.wall.seconds - s.wall.seconds := by
    rw [lead]
    push_cast
    rfl
  have hshift : (shift s r : ℚ) = r.zone.offset - s.zone.offset := by
    rw [shift]
    push_cast
    rfl
  unfold instant
  rcases lt_trichotomy (shift s r) (lead s r) with hlt | heq | hgt
  · have hone : (shift s r : ℚ) + 1 ≤ lead s r := by exact_mod_cast hlt
    exact iff_of_true (by linarith) (.inl hlt)
  · have hcast : (shift s r : ℚ) = lead s r := by exact_mod_cast heq
    rw [or_iff_right (by omega), and_iff_right heq]
    constructor <;> intro h <;> linarith
  · have hone : (lead s r : ℚ) + 1 ≤ shift s r := by exact_mod_cast hgt
    refine iff_of_false (fun h => ?_) (by omega)
    linarith

/-- When the texts of two times are in the order of the instants. -/
structure Agrees (s r : Spelling) : Prop where
  /-- In different seconds of wall time the offsets do not turn the order round. -/
  otherSecond : lead s r ≠ 0 → (0 < lead s r ↔ shift s r < lead s r ∨
    shift s r = lead s r ∧ fractionValue s.fraction ≤ fractionValue r.fraction)
  /-- With the same digits the suffixes are in the order of the instants. -/
  sameFraction : lead s r = 0 → s.fraction = r.fraction →
    (s.zone.text ≤ r.zone.text ↔ shift s r ≤ 0)
  /-- The second time has the digits of the first one and more. -/
  moreDigits : lead s r = 0 → s.fraction ≠ r.fraction → s.fraction <+: r.fraction →
    (s.zone ≠ .utc ↔ shift s r ≤ 0)
  /-- The second time has some of the digits of the first one. -/
  fewerDigits : lead s r = 0 → s.fraction ≠ r.fraction → r.fraction <+: s.fraction →
    (r.zone = .utc ↔ shift s r < 0 ∨
      shift s r = 0 ∧ fractionValue s.fraction ≤ fractionValue r.fraction)
  /-- A digit differs. -/
  otherDigits : lead s r = 0 → ¬ s.fraction <+: r.fraction → ¬ r.fraction <+: s.fraction →
    (fractionValue s.fraction < fractionValue r.fraction ↔ shift s r < 0 ∨
      shift s r = 0 ∧ fractionValue s.fraction < fractionValue r.fraction)

/-- In one second of wall time the rests of the texts decide. -/
lemma agrees_iff_of_lead (hlead : lead s r = 0) : Agrees s r ↔
    (tail s.fraction s.zone ≤ tail r.fraction r.zone ↔ shift s r < 0 ∨
      shift s r = 0 ∧ fractionValue s.fraction ≤ fractionValue r.fraction) := by
  have hprefix : ∀ {u v : List (Fin 10)} {d w}, v = u ++ d :: w → u ≠ v ∧ u <+: v ∧ ¬ v <+: u := by
    rintro u _ d w rfl
    refine ⟨by simp, List.prefix_append _ _, fun h => ?_⟩
    have hlength := h.length_le
    simp at hlength
  have hother : lead s r ≠ 0 → (0 < lead s r ↔ shift s r < lead s r ∨
      shift s r = lead s r ∧ fractionValue s.fraction ≤ fractionValue r.fraction) :=
    fun h => absurd hlead h
  cases firstDifference s.fraction r.fraction with
  | none h =>
    rw [h, tail, tail, append_le_append_iff, and_iff_left le_rfl, ← le_iff_lt_or_eq]
    exact ⟨fun hagrees => hagrees.sameFraction hlead h, fun hzone =>
      ⟨hother, fun _ _ => hzone, fun _ hne => absurd h hne, fun _ hne => absurd h hne,
        fun _ hno => absurd (by rw [h]) hno⟩⟩
  | endsLeft d w h =>
    obtain ⟨hne, hle, hnot⟩ := hprefix h
    have hvalue : fractionValue s.fraction ≤ fractionValue r.fraction := by
      rw [h]
      exact fractionValue_le_append _ _
    rw [tail_le_of_longer h, and_iff_left hvalue, ← le_iff_lt_or_eq]
    exact ⟨fun hagrees => hagrees.moreDigits hlead hne hle, fun hzone =>
      ⟨hother, fun _ heq => absurd heq hne, fun _ _ _ => hzone, fun _ _ hle' => absurd hle' hnot,
        fun _ hno => absurd hle hno⟩⟩
  | endsRight d w h =>
    obtain ⟨hne, hle, hnot⟩ := hprefix h
    rw [tail_le_of_shorter h]
    exact ⟨fun hagrees => hagrees.fewerDigits hlead hne.symm hle, fun hzone =>
      ⟨hother, fun _ heq => absurd heq.symm hne, fun _ _ hle' => absurd hle' hnot,
        fun _ _ _ => hzone, fun _ _ hno => absurd hle hno⟩⟩
  | element p d d' w w' hu hv hne =>
    have hnot : ∀ {u v : List (Fin 10)} {d d' w w'}, u = p ++ d :: w → v = p ++ d' :: w' → d ≠ d' →
        ¬ u <+: v := by
      rintro _ _ d d' w w' rfl rfl hne hle
      rw [List.prefix_append_right_inj, List.cons_prefix_cons] at hle
      exact hne hle.1
    have hsr := hnot hu hv hne
    have hrs := hnot hv hu hne.symm
    have hvalue : fractionValue s.fraction ≠ fractionValue r.fraction := by
      rw [hu, hv]
      rcases lt_or_gt_of_ne hne with hlt | hgt
      · exact ((fractionValue_append_lt_iff p _ _).mpr (fractionValue_cons_lt hlt w w')).ne
      · exact ((fractionValue_append_lt_iff p _ _).mpr (fractionValue_cons_lt hgt w' w)).ne'
    rw [tail_le_of_element hu hv hne, hvalue.le_iff_lt]
    exact ⟨fun hagrees => hagrees.otherDigits hlead hsr hrs, fun hdigits =>
      ⟨hother, fun _ heq => absurd (by rw [heq]) hsr, fun _ _ hle => absurd hle hsr,
        fun _ _ hle => absurd hle hrs, fun _ _ _ => hdigits⟩⟩

/-- The texts are in the order of the instants if and only if the spellings agree. -/
theorem text_le_iff_instant_le_iff :
    (s.text ≤ r.text ↔ s.instant ≤ r.instant) ↔ Agrees s r := by
  rw [text_le_iff, instant_le_iff]
  by_cases hlead : lead s r = 0
  · rw [agrees_iff_of_lead hlead, hlead]
    simp
  · have hpos : (0 < lead s r ∨ lead s r = 0 ∧ tail s.fraction s.zone ≤ tail r.fraction r.zone) ↔
        0 < lead s r := or_iff_left fun h => hlead h.1
    rw [hpos]
    exact ⟨fun h => ⟨fun _ => h, fun h' => absurd h' hlead, fun h' => absurd h' hlead,
      fun h' => absurd h' hlead, fun h' => absurd h' hlead⟩, fun h => h.otherSecond hlead⟩

end Spelling

end Portwyrm.Base

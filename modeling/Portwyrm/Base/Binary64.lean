import Mathlib.Data.Int.Log
import Mathlib.Data.Rat.Floor
import Mathlib.Tactic.FieldSimp
import Mathlib.Tactic.Linarith
import Mathlib.Tactic.Positivity
import Mathlib.Tactic.Ring

/-!
# Doubles

The doubles of IEEE 754 with rounding to the nearest, ties to even.  A finite double is the
rational number it stands for.  Signs of zeros and of infinities are left out: no operation here
reads them.
-/

namespace Portwyrm.Base.Binary64

/-! ## Rounding -/

/-- The nearest integer, and the even one of two. -/
def roundHalfEven (x : ℚ) : ℤ :=
  let below := ⌊x⌋
  if x - below < 1 / 2 then below
  else if 1 / 2 < x - below then below + 1
  else if below % 2 = 0 then below
  else below + 1

/-- The exponent of the last place of the doubles around `x`. -/
def lastPlace (x : ℚ) : ℤ := max (Int.log 2 |x| - 52) (-1074)

/-- The nearest double, were there no largest one. -/
def nearest (x : ℚ) : ℚ := roundHalfEven (x / 2 ^ lastPlace x) * 2 ^ lastPlace x

/-- The part of a number before its point. -/
def trunc (x : ℚ) : ℤ := if 0 ≤ x then ⌊x⌋ else ⌈x⌉

/-- A double. -/
inductive Double
  | finite (x : ℚ)
  | infinite
  | nan
deriving DecidableEq

/-- The double that an exact result is rounded to. -/
def ofRat (x : ℚ) : Double :=
  if |nearest x| < 2 ^ 1024 then .finite (nearest x) else .infinite

/-- `float(n)`, which there is for an integer that does not overflow. -/
def ofInt (n : ℤ) : Option ℚ :=
  if |nearest n| < 2 ^ 1024 then some (nearest n) else none

/-- `x + y`. -/
def add (x y : ℚ) : Double := ofRat (x + y)

/-- `math.fmod(x, y)`, which is exact. -/
def fmod (x y : ℚ) : ℚ := x - y * trunc (x / y)

/-- `x // y` for a positive `y`: the remainder is taken off before the division, and the rounded
quotient is moved to an integer. -/
def floorDiv (x y : ℚ) : ℚ :=
  let rest := fmod x y
  let quotient := nearest (nearest (x - rest) / y)
  let quotient := if rest < 0 then nearest (quotient - 1) else quotient
  if 1 / 2 < nearest (quotient - ⌊quotient⌋) then nearest (⌊quotient⌋ + 1) else ⌊quotient⌋

/-! ## Integers -/

variable {n : ℤ} {d : ℕ}

@[simp] lemma roundHalfEven_intCast : roundHalfEven n = n := by
  simp [roundHalfEven]

/-- Below `2 ^ 53` the last place of an integer is behind its point. -/
lemma lastPlace_intCast_nonpos (h : |n| < 2 ^ 53) : lastPlace n ≤ 0 := by
  have hlog : Int.log 2 |(n : ℚ)| ≤ 52 := by
    rw [← Int.cast_abs, Int.abs_eq_natAbs, Int.cast_natCast, Int.log_natCast]
    have hlt : Nat.log 2 n.natAbs < 53 :=
      Nat.log_lt_of_lt_pow' (by decide) (by rw [Int.abs_eq_natAbs] at h; omega)
    omega
  exact max_le (by omega) (by decide)

/-- Integers below `2 ^ 53` are doubles. -/
@[simp] lemma nearest_intCast (h : |n| < 2 ^ 53) : nearest n = n := by
  have hplace := lastPlace_intCast_nonpos h
  obtain ⟨k, hk⟩ := Int.eq_ofNat_of_zero_le (Int.neg_nonneg.mpr hplace)
  have hpow : (2 : ℚ) ^ lastPlace n = (2 ^ k)⁻¹ := by
    rw [show lastPlace n = -(k : ℤ) by omega, zpow_neg, zpow_natCast]
  have hshift : (n : ℚ) / 2 ^ lastPlace n = ((n * 2 ^ k : ℤ) : ℚ) := by
    rw [hpow, div_inv_eq_mul]
    push_cast
    rfl
  rw [nearest, hshift, roundHalfEven_intCast, ← hshift]
  field_simp

lemma abs_nearest_intCast_lt (h : |n| < 2 ^ 53) : |nearest n| < 2 ^ 1024 := by
  rw [nearest_intCast h]
  calc |(n : ℚ)| = ((|n| : ℤ) : ℚ) := Int.cast_abs.symm
    _ < ((2 ^ 53 : ℤ) : ℚ) := Int.cast_lt.mpr h
    _ = 2 ^ 53 := by norm_cast
    _ < 2 ^ 1024 := pow_lt_pow_right₀ one_lt_two (by decide)

@[simp] lemma ofInt_of_abs_lt (h : |n| < 2 ^ 53) : ofInt n = some (n : ℚ) := by
  rw [ofInt, if_pos (abs_nearest_intCast_lt h), nearest_intCast h]

/-- Sums of integers are exact below `2 ^ 53`. -/
lemma add_intCast {m : ℤ} (h : |m + n| < 2 ^ 53) : add m n = .finite ((m + n : ℤ) : ℚ) := by
  rw [add, ← Int.cast_add, ofRat, if_pos (abs_nearest_intCast_lt h), nearest_intCast h]

@[simp] lemma trunc_intCast : trunc n = n := by
  simp [trunc]

lemma trunc_intCast_div (hd : 0 < d) : trunc (n / d) = n.tdiv d := by
  have hd' : (0 : ℚ) < d := Nat.cast_pos.mpr hd
  rcases le_or_gt 0 n with hn | hn
  · have hq : (0 : ℚ) ≤ n / d := by positivity
    rw [trunc, if_pos hq, Rat.floor_intCast_div_natCast, Int.tdiv_eq_ediv_of_nonneg hn]
  · have hq : (n : ℚ) / d < 0 := div_neg_of_neg_of_pos (Int.cast_lt_zero.mpr hn) hd'
    rw [trunc, if_neg (not_le.mpr hq), Rat.ceil_intCast_div_natCast,
      ← Int.tdiv_eq_ediv_of_nonneg (by omega), Int.neg_tdiv, neg_neg]

lemma fmod_intCast (hd : 0 < d) : fmod n d = (n.tmod d : ℤ) := by
  rw [fmod, trunc_intCast_div hd, Int.tmod_def]
  push_cast
  rfl

lemma abs_lt_of_natAbs_le {m : ℤ} (hle : m.natAbs ≤ n.natAbs) (h : |n| < 2 ^ 53) :
    |m| < 2 ^ 53 := by
  rw [Int.abs_eq_natAbs] at h ⊢
  omega

/-- The quotient of integers, before it is moved below a negative number. -/
lemma quotient_intCast (hd : 0 < d) (h : |n| < 2 ^ 53) :
    nearest (nearest (n - fmod n d) / d) = (n.tdiv d : ℤ) := by
  have hd' : (d : ℚ) ≠ 0 := Nat.cast_ne_zero.mpr hd.ne'
  have hmul : (n : ℚ) - fmod n d = ((d * n.tdiv d : ℤ) : ℚ) := by
    rw [fmod_intCast hd, ← Int.cast_sub, sub_eq_of_eq_add (Int.mul_tdiv_add_tmod n d).symm]
  have hle : ((d : ℤ) * n.tdiv d).natAbs ≤ n.natAbs := by
    rw [Int.natAbs_mul, Int.natAbs_tdiv, Int.natAbs_natCast]
    exact Nat.mul_div_le _ _
  rw [hmul, nearest_intCast (abs_lt_of_natAbs_le hle h), Int.cast_mul, Int.cast_natCast,
    mul_div_cancel_left₀ _ hd', nearest_intCast (abs_lt_of_natAbs_le (n.natAbs_tdiv_le_natAbs d) h)]

/-- Below `2 ^ 53` the quotient of integers is the one of integer division. -/
theorem floorDiv_intCast (hd : 0 < d) (h : |n| < 2 ^ 53) : floorDiv n d = (n / d : ℤ) := by
  have hquot : |n / (d : ℤ)| < 2 ^ 53 := abs_lt_of_natAbs_le (n.natAbs_ediv_le_natAbs d) h
  have hlast : (if fmod n d < 0 then nearest ((n.tdiv d : ℤ) - 1) else ((n.tdiv d : ℤ) : ℚ)) =
      (n / d : ℤ) := by
    simp only [fmod_intCast hd, Int.cast_lt_zero, Int.tmod_eq_emod, Int.tdiv_eq_ediv]
    by_cases hexact : 0 ≤ n ∨ (d : ℤ) ∣ n
    · have hrest := Int.emod_nonneg n (show (d : ℤ) ≠ 0 by omega)
      rw [if_pos hexact, if_pos hexact, if_neg (by omega), add_zero]
    · have hrest := Int.emod_lt_of_pos n (show (0 : ℤ) < d by omega)
      rw [if_neg hexact, if_neg hexact, if_pos (by simp; omega), Int.sign_eq_one_of_pos (by omega),
        Int.cast_add, Int.cast_one, add_sub_cancel_right, nearest_intCast hquot]
  simp only [floorDiv, quotient_intCast hd h, hlast, Int.floor_intCast, sub_self]
  have hzero : nearest 0 = 0 := by simpa using nearest_intCast (n := 0) (by decide)
  rw [hzero, if_neg (by norm_num)]

end Portwyrm.Base.Binary64

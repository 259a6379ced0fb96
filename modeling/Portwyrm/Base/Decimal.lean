import Mathlib.Tactic.Choose
import Mathlib.Tactic.Positivity
import Portwyrm.Base.Numeral
import Portwyrm.Base.Text

/-!
# Decimal texts

The digits of `str.isdigit`, and numbers written with a fixed count of digits.
-/

namespace Portwyrm.Base.Decimal

/-! ## Digits -/

/-- The zeros of the decimal digits of Unicode 15.  The other nine follow each of them. -/
def zeros : List ℕ :=
  [0x30, 0x660, 0x6f0, 0x7c0, 0x966, 0x9e6, 0xa66, 0xae6, 0xb66, 0xbe6, 0xc66, 0xce6, 0xd66, 0xde6,
    0xe50, 0xed0, 0xf20, 0x1040, 0x1090, 0x17e0, 0x1810, 0x1946, 0x19d0, 0x1a80, 0x1a90, 0x1b50,
    0x1bb0, 0x1c40, 0x1c50, 0xa620, 0xa8d0, 0xa900, 0xa9d0, 0xa9f0, 0xaa50, 0xabf0, 0xff10,
    0x104a0, 0x10d30, 0x11066, 0x110f0, 0x11136, 0x111d0, 0x112f0, 0x11450, 0x114d0, 0x11650,
    0x116c0, 0x11730, 0x118e0, 0x11950, 0x11c50, 0x11d50, 0x11da0, 0x11f50, 0x16a60, 0x16ac0,
    0x16b50, 0x1d7ce, 0x1d7d8, 0x1d7e2, 0x1d7ec, 0x1d7f6, 0x1e140, 0x1e2f0, 0x1e4f0, 0x1e950,
    0x1fbf0]

/-- The first and the last of the other characters that are digits, such as superscripts. -/
def otherDigits : List (ℕ × ℕ) :=
  [(0xb2, 0xb3), (0xb9, 0xb9), (0x1369, 0x1371), (0x19da, 0x19da), (0x2070, 0x2070),
    (0x2074, 0x2079), (0x2080, 0x2089), (0x2460, 0x2468), (0x2474, 0x247c), (0x2488, 0x2490),
    (0x24ea, 0x24ea), (0x24f5, 0x24fd), (0x24ff, 0x24ff), (0x2776, 0x277e), (0x2780, 0x2788),
    (0x278a, 0x2792), (0x10a40, 0x10a43), (0x10e60, 0x10e68), (0x11052, 0x1105a),
    (0x1f100, 0x1f10a)]

/-- The code point is one of a digit. -/
def isDigitPoint (n : ℕ) : Bool :=
  (zeros.any fun z => z ≤ n && n ≤ z + 9) || otherDigits.any fun r => r.1 ≤ n && n ≤ r.2

/-- `str.isdigit`. -/
def isDigit (s : String) : Bool := s ≠ "" && s.toList.all fun c => isDigitPoint c.toNat

/-- The text is in ASCII. -/
def IsAscii (s : String) : Prop := ∀ c ∈ s.toList, c.toNat < 128

instance (s : String) : Decidable (IsAscii s) :=
  inferInstanceAs (Decidable (∀ c ∈ s.toList, c.toNat < 128))

/-- The digits of ASCII are those of the decimal system. -/
lemma exists_digitChar_of_isDigitPoint {c : Char} (hascii : c.toNat < 128)
    (h : isDigitPoint c.toNat = true) : ∃ d < 10, c = Nat.digitChar d := by
  have hall : ∀ n < 128, isDigitPoint n = true → ∃ d < 10, Char.ofNat n = Nat.digitChar d := by
    decide +kernel
  simpa using hall c.toNat hascii h

lemma digitChar_ascii : ∀ d < 10, (Nat.digitChar d).toNat < 128 := by decide

lemma isDigitPoint_digitChar : ∀ d < 10, isDigitPoint (Nat.digitChar d).toNat = true := by decide

/-! ## A fixed count of digits -/

/-- `str.zfill`, for a text without a sign. -/
def zfill (k : ℕ) (s : String) : String :=
  String.ofList (List.replicate (k - s.length) '0' ++ s.toList)

variable {k n : ℕ}

lemma groups_zero {b : ℕ} : Numeral.groups b k 0 = List.replicate k 0 := by
  induction k with
  | zero => rfl
  | succ k ih => rw [Numeral.groups, Nat.zero_div, Nat.zero_mod, ih, List.replicate_succ']

/-- The digits of a number, with zeros in front of them. -/
lemma replicate_append_toDigits (hn : n < 10 ^ (k + 1)) :
    List.replicate (k + 1 - (Nat.toDigits 10 n).length) '0' ++ Nat.toDigits 10 n =
      (Numeral.groups 10 (k + 1) n).map Nat.digitChar := by
  induction k generalizing n with
  | zero =>
    have hlt : n < 10 := by simpa using hn
    simp [Nat.toDigits_of_lt_base hlt, Numeral.groups, Nat.mod_eq_of_lt hlt]
  | succ k ih =>
    rcases Nat.lt_or_ge n 10 with hlt | hge
    · rw [Nat.toDigits_of_lt_base hlt, Numeral.groups, Nat.div_eq_of_lt hlt, groups_zero,
        Nat.mod_eq_of_lt hlt, List.map_append, List.map_replicate]
      rfl
    · have hdiv : n / 10 < 10 ^ (k + 1) :=
        Nat.div_lt_of_lt_mul (by rw [← Nat.pow_succ']; exact hn)
      rw [Nat.toDigits_of_base_le (by decide) hge, List.length_append, List.length_singleton,
        Nat.add_sub_add_right, ← List.append_assoc, ih hdiv]
      have hlast : Numeral.groups 10 (k + 2) n = Numeral.groups 10 (k + 1) (n / 10) ++ [n % 10] :=
        rfl
      rw [hlast, List.map_append]
      rfl

lemma toList_zfill_toString (hk : 0 < k) (hn : n < 10 ^ k) :
    (zfill k (toString n)).toList = (Numeral.groups 10 k n).map Nat.digitChar := by
  obtain ⟨k, rfl⟩ := Nat.exists_eq_succ_of_ne_zero hk.ne'
  rw [zfill, String.toList_ofList, ← replicate_append_toDigits hn, ← String.length_toList]
  simp only [Nat.toString_eq_repr, Nat.toList_repr]

lemma exists_digit_of_mem_zfill {c : Char} (hk : 0 < k) (hn : n < 10 ^ k)
    (h : c ∈ (zfill k (toString n)).toList) : ∃ d < 10, Nat.digitChar d = c := by
  rw [toList_zfill_toString hk hn] at h
  obtain ⟨d, hd, rfl⟩ := List.mem_map.mp h
  exact ⟨d, Numeral.lt_of_mem_groups (by decide) hd, rfl⟩

lemma length_zfill_toString (hk : 0 < k) (hn : n < 10 ^ k) :
    (zfill k (toString n)).length = k := by
  rw [← String.length_toList, toList_zfill_toString hk hn, List.length_map, Numeral.length_groups]

lemma isAscii_zfill_toString (hk : 0 < k) (hn : n < 10 ^ k) : IsAscii (zfill k (toString n)) := by
  intro c hc
  obtain ⟨d, hd, rfl⟩ := exists_digit_of_mem_zfill hk hn hc
  exact digitChar_ascii d hd

lemma isDigit_zfill_toString (hk : 0 < k) (hn : n < 10 ^ k) :
    isDigit (zfill k (toString n)) = true := by
  have hne : zfill k (toString n) ≠ "" := by
    intro h
    have hlength := length_zfill_toString hk hn
    rw [h] at hlength
    exact hk.ne hlength
  rw [isDigit, Bool.and_eq_true, decide_eq_true_eq, List.all_eq_true]
  refine ⟨hne, fun c hc => ?_⟩
  obtain ⟨d, hd, rfl⟩ := exists_digit_of_mem_zfill hk hn hc
  exact isDigitPoint_digitChar d hd

/-- Every text of `k` digits of ASCII is a number of `k` digits. -/
theorem exists_zfill_toString_eq {s : String} (hk : 0 < k) (hlength : s.length = k)
    (hdigit : isDigit s = true) (hascii : IsAscii s) :
    ∃ n < 10 ^ k, zfill k (toString n) = s := by
  rw [isDigit, Bool.and_eq_true, List.all_eq_true] at hdigit
  have hchars : ∀ c ∈ s.toList, ∃ d < 10, c = Nat.digitChar d := fun c hc =>
    exists_digitChar_of_isDigitPoint (hascii c hc) (hdigit.2 c hc)
  choose! digit hlt hchar using hchars
  obtain ⟨l, hl, hs⟩ : ∃ l : List ℕ, (∀ d ∈ l, d < 10) ∧ s.toList = l.map Nat.digitChar := by
    refine ⟨s.toList.map digit, List.forall_mem_map.mpr hlt, ?_⟩
    rw [List.map_map]
    exact (List.map_id _).symm.trans (List.map_congr_left hchar)
  have hk' : l.length = k := by rw [← hlength, ← String.length_toList, hs, List.length_map]
  have hlt : Numeral.ofGroups 10 l < 10 ^ k := hk' ▸ Numeral.ofGroups_lt hl
  refine ⟨Numeral.ofGroups 10 l, hlt, String.toList_injective ?_⟩
  rw [toList_zfill_toString hk hlt, hs, ← hk', Numeral.groups_ofGroups hl]

/-- Some number has another text. -/
lemma exists_zfill_toString_ne (hk : 0 < k) (s : String) :
    ∃ n < 10 ^ k, zfill k (toString n) ≠ s := by
  by_contra! h
  have hzero : (0 : ℕ) < 10 ^ k := by positivity
  have hone : 1 < 10 ^ k := Nat.one_lt_pow hk.ne' (by decide)
  have heq := congrArg String.toList ((h 0 hzero).trans (h 1 hone).symm)
  rw [toList_zfill_toString hk hzero, toList_zfill_toString hk hone] at heq
  obtain ⟨k, rfl⟩ := Nat.exists_eq_succ_of_ne_zero hk.ne'
  have hchar : Nat.digitChar 0 = Nat.digitChar 1 := by simpa [Numeral.groups] using heq
  exact absurd hchar (by decide)

end Portwyrm.Base.Decimal

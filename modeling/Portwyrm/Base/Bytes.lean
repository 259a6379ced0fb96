import Mathlib.Data.List.DropRight
import Portwyrm.Base.Numeral

/-!
# Bytes

Numbers as bytes, the most significant first, and the base32 encoding of bytes as
`base64.b32decode` reads it.
-/

namespace Portwyrm.Base.Bytes

/-! ## Numbers -/

/-- `n.to_bytes(k, "big")`. -/
def ofNat (k n : ℕ) : List UInt8 := (Numeral.groups 256 k n).map UInt8.ofNat

/-- `int.from_bytes(bytes, "big")`. -/
def toNat (bytes : List UInt8) : ℕ := Numeral.ofGroups 256 (bytes.map UInt8.toNat)

variable {k m n : ℕ}

@[simp] lemma length_ofNat : (ofNat k n).length = k := by
  simp [ofNat]

lemma toNat_ofNat (h : n < 256 ^ k) : toNat (ofNat k n) = n := by
  have hbytes : (ofNat k n).map UInt8.toNat = Numeral.groups 256 k n := by
    rw [ofNat, List.map_map]
    refine (List.map_congr_left fun d hd => ?_).trans (List.map_id _)
    exact UInt8.toNat_ofNat_of_lt (Numeral.lt_of_mem_groups (by decide) hd)
  rw [toNat, hbytes, Numeral.ofGroups_groups h]

/-- On more bytes, a number starts with zeros. -/
lemma ofNat_add (j : ℕ) (h : n < 256 ^ k) : ofNat (j + k) n = List.replicate j 0 ++ ofNat k n := by
  rw [ofNat, Numeral.groups_add j h, List.map_append, List.map_replicate]
  rfl

/-- Numbers that fit have different bytes. -/
lemma ofNat_injective (hm : m < 256 ^ k) (hn : n < 256 ^ k) (h : ofNat k m = ofNat k n) :
    m = n := by
  rw [← toNat_ofNat hm, h, toNat_ofNat hn]

/-! ## Base32 -/

/-- The value of a base32 digit. -/
def base32Digit (c : Char) : Option ℕ :=
  if 'A' ≤ c ∧ c ≤ 'Z' then some (c.toNat - 'A'.toNat)
  else if '2' ≤ c ∧ c ≤ '7' then some (c.toNat - '2'.toNat + 26)
  else none

/-- `base64.b32decode` of a text of upper case: the digits before the padding, eight at a time,
are five bytes each, and the padding tells how many bytes of the last ones count. -/
def b32decode (s : List Char) : Option (List UInt8) := do
  guard (s.length % 8 = 0)
  let body := s.rdropWhile (· = '=')
  let padchars := s.length - body.length
  let quanta ← (body.toChunks 8).mapM fun quantum => quantum.mapM base32Digit
  guard (padchars ∈ [0, 1, 3, 4, 6])
  let decoded := quanta.flatMap fun quantum => ofNat 5 (Numeral.ofGroups 32 quantum)
  if padchars ≠ 0 ∧ decoded ≠ [] then
    let last := ofNat 5 (Numeral.ofGroups 32 (quanta.getLastD []) * 32 ^ padchars)
    pure (decoded.take (decoded.length - 5) ++ last.take ((43 - 5 * padchars) / 8))
  else pure decoded

example : b32decode "MZXW6===".toList = some [102, 111, 111] := by decide

end Portwyrm.Base.Bytes

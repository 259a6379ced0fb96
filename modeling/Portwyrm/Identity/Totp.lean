import Portwyrm.Errors
import Portwyrm.Base.Binary64
import Portwyrm.Base.Bytes
import Portwyrm.Base.Decimal
import Portwyrm.Base.Text

/-!
# Time-based codes

`totp_code` and `verify_totp` of `portwyrm.identity.mfa`, with a moment given as an integer.  The
counter of a moment is computed with doubles, as the program computes it.  Exceptions of classes
that `Exc` does not have are runtime errors with their texts.
-/

namespace Portwyrm.Identity.Totp

open Base Binary64

/-! ## Conversions -/

/-- `float(n)`. -/
def toFloat (n : ℤ) : Result ℚ :=
  (Binary64.ofInt n).elim (throw (.runtimeError "int too large to convert to float")) pure

/-- `int(at // period)`.  Dividing an infinity gives no number. -/
def counter (moment : Double) (period : ℤ) : Result ℤ := do
  let divisor ← toFloat period
  match moment with
  | .finite x => pure (trunc (floorDiv x divisor))
  | .infinite | .nan => throw (.valueError "cannot convert float NaN to integer")

/-- `struct.pack(">Q", counter)`. -/
def packCounter (counter : ℤ) : Result (List UInt8) :=
  if 0 ≤ counter ∧ counter < 2 ^ 64 then pure (Bytes.ofNat 8 counter.toNat)
  else throw (.runtimeError "int too large to convert")

/-- `_decode_base32`. -/
def decodeBase32 (secret : String) : Result (List UInt8) :=
  let normalized := (Text.words (Text.upper secret)).flatMap String.toList
  let padding := List.replicate ((8 - normalized.length % 8) % 8) '='
  match Bytes.b32decode (normalized ++ padding) with
  | some bytes => pure bytes
  | none => throw (.valueError "invalid base32 TOTP secret")

/-- `hmac.compare_digest`, which takes texts of ASCII only. -/
def compareDigest (a b : String) : Result Bool :=
  if Decimal.IsAscii a ∧ Decimal.IsAscii b then pure (a == b)
  else throw (.runtimeError "comparing strings with non-ASCII characters is not supported")

/-! ## Codes -/

/-- The code of a digest: four of its bytes, at the offset that its last byte tells, without
their sign, and the last digits of that number. -/
def truncated (digest : Vector UInt8 20) (digits : ℕ) : String :=
  let offset := digest[19].toNat &&& 0x0F
  let binary := Bytes.toNat ((digest.toList.drop offset).take 4) &&& 0x7FFFFFFF
  Decimal.zfill digits (toString (binary % 10 ^ digits))

section MessageDigest

variable (hmacSha1 : List UInt8 → List UInt8 → Vector UInt8 20)

/-- `totp_code`. -/
def totpCode (secret : String) (moment : Double) (period : ℤ := 30) (digits : ℕ := 6) :
    Result String := do
  raiseIf (period < 1 ∨ digits ∉ [6, 7, 8]) (.valueError "invalid TOTP parameters")
  let counter ← counter moment period
  let key ← decodeBase32 secret
  let message ← packCounter counter
  pure (truncated (hmacSha1 key message) digits)

/-- `range(-window, window + 1)`. -/
def offsets (window : ℤ) : List ℤ :=
  (List.range (2 * window + 1).toNat).map fun i : ℕ => (i : ℤ) - window

/-- `verify_totp`. -/
def verifyTotp (secret code : String) (time : ℤ) (window : ℤ := 1) (period : ℤ := 30)
    (digits : ℕ := 6) : Result Bool :=
  if window < 0 ∨ Decimal.isDigit code = false ∨ code.length ≠ digits then pure false
  else do
    let moment ← toFloat time
    (offsets window).anyM fun offset => do
      let shift ← toFloat (offset * period)
      let expected ← totpCode hmacSha1 secret (add moment shift) period digits
      compareDigest expected code

end MessageDigest

end Portwyrm.Identity.Totp

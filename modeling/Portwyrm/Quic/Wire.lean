import Mathlib.Algebra.Group.Nat.Defs
import Mathlib.Data.List.Sort
import Portwyrm.Base.Dict
import Portwyrm.Base.Text
import Portwyrm.Errors

/-!
# The QUIC wire format

The part of `portwyrm.runtime.quic_router` that reads packets: the connection ids of a long
header, the protection of an Initial packet, its CRYPTO frames, and the ClientHello in them.

The primitives of the `cryptography` and `hmac` packages are parameters.  A slice of a byte
string is cut at the end of the string, as in Python; loops over an offset are bounded by the
number of bytes, since each round moves the offset forward.
-/

namespace Portwyrm.Quic

open Base

/-- A byte string. -/
abbrev Bytes := List UInt8

/-- `data[start:stop]`. -/
def slice (data : Bytes) (start stop : ℕ) : Bytes := (data.drop start).take (stop - start)

/-- `int.from_bytes(data, "big")`. -/
def fromBytes (data : Bytes) : ℕ := data.foldl (fun value byte => value * 256 + byte.toNat) 0

/-- `data[offset]`. -/
def byteAt (data : Bytes) (offset : ℕ) : Result UInt8 :=
  match data[offset]? with
  | some byte => pure byte
  | none => throw .indexError

/-- A long header: `data` is not empty, and the first bit of its first byte is set. -/
def isLong : Bytes → Bool
  | [] => false
  | first :: _ => 128 ≤ first.toNat

/-- `_varint`: the value at an offset, and the offset behind it. -/
def varint (data : Bytes) (offset : ℕ) : Result (ℕ × ℕ) :=
  match data[offset]? with
  | none => throw (.quicParseError "truncated QUIC varint")
  | some first =>
    let size := 2 ^ (first.toNat / 64)
    if data.length < offset + size then throw (.quicParseError "truncated QUIC varint")
    else
      pure ((slice data (offset + 1) (offset + size)).foldl
        (fun value byte => value * 256 + byte.toNat) (first.toNat % 64), offset + size)

/-- A varint is read inside the data, and the offset moves forward. -/
lemma varint_eq_ok {data : Bytes} {offset value offset' : ℕ}
    (h : varint data offset = .ok (value, offset')) : offset < offset' ∧ offset' ≤ data.length := by
  unfold varint at h
  cases hfirst : data[offset]? with
  | none => simp [hfirst] at h
  | some first =>
    simp only [hfirst] at h
    split at h
    · simp at h
    · rename_i hlength
      simp only [pure_eq_ok_iff, Prod.mk.injEq] at h
      have hpos := Nat.two_pow_pos (first.toNat / 64)
      omega

/-! ## Protection of Initial packets -/

/-- The primitives that the router takes from other packages. -/
structure Cryptography where
  /-- `hmac.new(key, message, hashlib.sha256).digest()`. -/
  hmacSha256 : Bytes → Bytes → Bytes
  /-- One block of AES in ECB mode, by key. -/
  aesEcb : Bytes → Bytes → Bytes
  /-- `AESGCM(key).decrypt(nonce, ciphertext, header)`. -/
  aesGcmDecrypt : Bytes → Bytes → Bytes → Bytes → Option Bytes
  length_hmacSha256 : ∀ key message, (hmacSha256 key message).length = 32
  length_aesEcb : ∀ key block, block.length = 16 → (aesEcb key block).length = 16

/-- `_V1`. -/
def v1 : ℕ := 0x00000001

/-- `_V2`. -/
def v2 : ℕ := 0x6B3343CF

/-- `_SALTS`. -/
def salts : List (ℕ × Bytes) :=
  [ (v1, [0x38, 0x76, 0x2c, 0xf7, 0xf5, 0x59, 0x34, 0xb3, 0x4d, 0x17, 0x9a, 0xe6, 0xa4, 0xc8,
      0x0c, 0xad, 0xcc, 0xbb, 0x7f, 0x0a]),
    (v2, [0x0d, 0xed, 0xe3, 0xde, 0xf7, 0x00, 0xa6, 0xdb, 0x81, 0x93, 0x81, 0xbe, 0x6e, 0x26,
      0x9d, 0xcb, 0xf9, 0xbd, 0x2e, 0xd9]) ]

/-- `str.encode()` of an ASCII text. -/
def ascii (s : String) : Bytes := s.toList.map fun c => UInt8.ofNat c.toNat

section Protection

variable (C : Cryptography)

/-- The rounds of `_hkdf_expand`: each adds a block to the output until it is long enough. -/
def hkdfRounds (secret info : Bytes) (length : ℕ) : ℕ → Bytes → Bytes → ℕ → Bytes
  | 0, output, _, _ => output
  | rounds + 1, output, block, counter =>
    if length ≤ output.length then output
    else
      let block := C.hmacSha256 secret (block ++ info ++ [UInt8.ofNat counter])
      hkdfRounds secret info length rounds (output ++ block) block (counter + 1)

/-- `_hkdf_expand`. -/
def hkdfExpand (secret info : Bytes) (length : ℕ) : Bytes :=
  (hkdfRounds C secret info length length [] [] 1).take length

/-- `_label`. -/
def expandLabel (secret : Bytes) (label : String) (length : ℕ) : Bytes :=
  let encoded := ascii "tls13 " ++ ascii label
  let info := [UInt8.ofNat (length / 256), UInt8.ofNat length] ++
    [UInt8.ofNat encoded.length] ++ encoded ++ [0]
  hkdfExpand C secret info length

/-- A number in hexadecimal notation with at least eight digits. -/
def hex8 (n : ℕ) : String :=
  let digits := Nat.toDigits 16 n
  String.ofList (List.replicate (8 - digits.length) '0' ++ digits)

/-- `_initial_keys`: the key, the nonce and the header protection key of the client. -/
def initialKeys (version : ℕ) (dcid : Bytes) : Result (Bytes × Bytes × Bytes) :=
  match salts.lookup version with
  | none => throw (.quicParseError s!"unsupported QUIC version 0x{hex8 version}")
  | some salt =>
    let client := expandLabel C (C.hmacSha256 salt dcid) "client in" 32
    let label := if version = v2 then "quicv2 " else "quic "
    pure (expandLabel C client (label ++ "key") 16, expandLabel C client (label ++ "iv") 12,
      expandLabel C client (label ++ "hp") 16)

/-- Byte-wise exclusive or. -/
def xorBytes (a b : Bytes) : Bytes := List.zipWith (· ^^^ ·) a b

/-- `decrypt_initial`. -/
def decryptInitial (datagram : Bytes) : Result Bytes := do
  raiseIf (datagram.length < 40 ∨ isLong datagram = false)
    (.quicParseError "not a QUIC long-header packet")
  let version := fromBytes (slice datagram 1 5)
  let dcidLength := (← byteAt datagram 5).toNat
  let dcid := slice datagram 6 (6 + dcidLength)
  let offset := 6 + dcidLength
  raiseIf (datagram.length ≤ offset) (.quicParseError "truncated destination connection id")
  let scidLength := (← byteAt datagram offset).toNat
  let (tokenLength, offset) ← varint datagram (offset + 1 + scidLength)
  let (packetLength, pnOffset) ← varint datagram (offset + tokenLength)
  let packetEnd := pnOffset + packetLength
  raiseIf (datagram.length < packetEnd ∨ packetEnd < pnOffset + 20)
    (.quicParseError "truncated QUIC Initial packet")
  let (key, iv, hp) ← initialKeys C version dcid
  let mask := C.aesEcb hp (slice datagram (pnOffset + 4) (pnOffset + 20))
  let first := (← byteAt datagram 0) ^^^ ((← byteAt mask 0) &&& 0x0F)
  let packetNumberLength := (first &&& 0x03).toNat + 1
  let packetNumber := xorBytes (slice datagram pnOffset (pnOffset + packetNumberLength))
    (slice mask 1 (1 + packetNumberLength))
  let header := first :: slice datagram 1 pnOffset ++ packetNumber
  let nonce := xorBytes iv (List.replicate (iv.length - packetNumberLength) 0 ++ packetNumber)
  let ciphertext := slice datagram (pnOffset + packetNumberLength) packetEnd
  match C.aesGcmDecrypt key nonce ciphertext header with
  | some plaintext => pure plaintext
  | none => throw (.quicParseError "unable to decrypt QUIC Initial")

end Protection

/-! ## Connection ids -/

/-- `initial_connection_ids`: the destination and the source connection id. -/
def initialConnectionIds (datagram : Bytes) : Result (Bytes × Bytes) := do
  raiseIf (datagram.length < 7 ∨ isLong datagram = false)
    (.quicParseError "not a QUIC long-header packet")
  let dcidLength := (← byteAt datagram 5).toNat
  let dcid := slice datagram 6 (6 + dcidLength)
  let offset := 6 + dcidLength
  raiseIf (datagram.length ≤ offset) (.quicParseError "truncated destination connection id")
  let scidLength := (← byteAt datagram offset).toNat
  let scid := slice datagram (offset + 1) (offset + 1 + scidLength)
  raiseIf (dcid.length ≠ dcidLength ∨ scid.length ≠ scidLength)
    (.quicParseError "truncated QUIC connection id")
  pure (dcid, scid)

/-! ## CRYPTO frames -/

/-- The frames of a plaintext from an offset on, added to those read before. -/
def fragmentsFrom (plaintext : Bytes) : ℕ → ℕ → Dict ℕ Bytes → Result (Dict ℕ Bytes)
  | 0, _, fragments => pure fragments
  | rounds + 1, offset, fragments =>
    if plaintext.length ≤ offset then pure fragments
    else do
      let (frameType, offset) ← varint plaintext offset
      if frameType = 0 ∨ frameType = 1 then fragmentsFrom plaintext rounds offset fragments
      else if frameType = 6 then do
        let (cryptoOffset, offset) ← varint plaintext offset
        let (length, offset) ← varint plaintext offset
        raiseIf (plaintext.length < offset + length)
          (.quicParseError "truncated QUIC CRYPTO frame")
        fragmentsFrom plaintext rounds (offset + length)
          (fragments.set cryptoOffset (slice plaintext offset (offset + length)))
      else pure fragments

/-- `crypto_fragments`. -/
def cryptoFragments (plaintext : Bytes) : Result (Dict ℕ Bytes) :=
  fragmentsFrom plaintext plaintext.length 0 Dict.empty

/-- The loop of `assemble_crypto`. -/
def assembleFrom (assembled : Bytes) : List (ℕ × Bytes) → Bytes
  | [] => assembled
  | (fragmentOffset, fragment) :: rest =>
    if assembled.length < fragmentOffset then assembled
    else assembleFrom (assembled ++ fragment.drop (assembled.length - fragmentOffset)) rest

/-- `assemble_crypto`. -/
def assembleCrypto (fragments : Dict ℕ Bytes) : Bytes :=
  assembleFrom [] (fragments.entries.insertionSort fun a b => a.1 ≤ b.1)

/-! ## ClientHello -/

/-- `bytes.decode("ascii")`. -/
def decodeAscii (data : Bytes) : Result String := do
  raiseIf (∃ byte ∈ data, 128 ≤ byte.toNat) .unicodeError
  pure (String.ofList (data.map fun byte => Char.ofNat byte.toNat))

/-- `str.rstrip(".")`. -/
def rstripDots (s : String) : String := String.ofList (s.toList.rdropWhile (· = '.'))

/-- The names in the value of an ALPN extension from a cursor on. -/
def alpnsFrom (value : Bytes) : ℕ → ℕ → Result (List String)
  | 0, _ => pure []
  | rounds + 1, cursor =>
    match value[cursor]? with
    | none => pure []
    | some length => do
      let name ← decodeAscii (slice value (cursor + 1) (cursor + 1 + length.toNat))
      return name :: (← alpnsFrom value rounds (cursor + 1 + length.toNat))

/-- The extensions between two offsets, behind those read before. -/
def extensionsFrom (body : Bytes) (stop : ℕ) :
    ℕ → ℕ → String → List String → Result (String × List String)
  | 0, _, serverName, alpns => pure (serverName, alpns)
  | rounds + 1, offset, serverName, alpns =>
    if stop < offset + 4 then pure (serverName, alpns)
    else do
      let extensionType := fromBytes (slice body offset (offset + 2))
      let extensionLength := fromBytes (slice body (offset + 2) (offset + 4))
      let value := slice body (offset + 4) (offset + 4 + extensionLength)
      let offset := offset + 4 + extensionLength
      if extensionType = 0 ∧ 5 ≤ value.length then do
        let name ← decodeAscii (slice value 5 (5 + fromBytes (slice value 3 5)))
        extensionsFrom body stop rounds offset (rstripDots (Text.casefold name)) alpns
      else if extensionType = 16 ∧ 2 ≤ value.length then do
        let names ← alpnsFrom value value.length 2
        extensionsFrom body stop rounds offset serverName (alpns ++ names)
      else extensionsFrom body stop rounds offset serverName alpns

/-- `parse_client_hello`: the server name and the protocols that the client offers. -/
def parseClientHello (crypto : Bytes) : Result (String × List String) := do
  raiseIf (crypto.length < 4 ∨ crypto.head? ≠ some 1)
    (.quicParseError "QUIC CRYPTO data does not start with ClientHello")
  let length := fromBytes (slice crypto 1 4)
  let body := slice crypto 4 (4 + length)
  raiseIf (body.length ≠ length) (.quicParseError "fragmented ClientHello is not yet complete")
  let sessionLength := (← byteAt body 34).toNat
  let offset := 35 + sessionLength
  let offset := offset + 2 + fromBytes (slice body offset (offset + 2))
  let compressionLength := (← byteAt body offset).toNat
  let offset := offset + 1 + compressionLength
  let extensionsLength := fromBytes (slice body offset (offset + 2))
  let offset := offset + 2
  let (serverName, alpns) ← extensionsFrom body (offset + extensionsLength) extensionsLength offset
    "" []
  raiseIf (serverName = "") (.quicParseError "ClientHello does not contain SNI")
  pure (serverName, alpns)

end Portwyrm.Quic

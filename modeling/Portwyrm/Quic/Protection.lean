import Portwyrm.Base.Bytes
import Portwyrm.Quic.Encoding

/-!
# The protection of Initial packets

The sender's side of an Initial packet: the keys that a client derives from the connection id that it
has chosen, the encryption of the payload, and the protection of the header.  `decrypt_initial`
undoes it for every packet.
-/

namespace Portwyrm.Quic

open Base

/-! ## Keys -/

section Keys

variable (C : Cryptography)

/-- The blocks of HKDF-Expand: each is the digest of the block before it, the info and a counter. -/
def hkdfBlock (secret info : Bytes) : ℕ → Bytes
  | 0 => []
  | i + 1 => C.hmacSha256 secret (hkdfBlock secret info i ++ info ++ [UInt8.ofNat (i + 1)])

/-- The first blocks of HKDF-Expand. -/
def hkdfBlocks (secret info : Bytes) (count : ℕ) : Bytes :=
  (List.range count).flatMap fun i => hkdfBlock C secret info (i + 1)

/-- HKDF-Expand: the first bytes of as many blocks as are needed. -/
def hkdfOutput (secret info : Bytes) (length : ℕ) : Bytes :=
  (hkdfBlocks C secret info ((length + 31) / 32)).take length

/-- HKDF-Expand-Label with an empty context. -/
def hkdfLabel (secret : Bytes) (label : String) (length : ℕ) : Bytes :=
  let label := ascii ("tls13 " ++ label)
  hkdfOutput C secret (bytes2 length ++ [UInt8.ofNat label.length] ++ label ++ [0]) length

lemma hkdfBlocks_succ (secret info : Bytes) (count : ℕ) : hkdfBlocks C secret info (count + 1) =
    hkdfBlocks C secret info count ++ hkdfBlock C secret info (count + 1) := by
  simp only [hkdfBlocks, List.range_succ, List.flatMap_append, List.flatMap_singleton]

lemma length_hkdfBlocks (secret info : Bytes) (count : ℕ) :
    (hkdfBlocks C secret info count).length = 32 * count := by
  induction count with
  | zero => rfl
  | succ count ih =>
    rw [hkdfBlocks_succ, List.length_append, ih, hkdfBlock, C.length_hmacSha256]
    omega

/-- Behind some blocks, the rounds of `_hkdf_expand` add those that are missing. -/
lemma hkdfRounds_eq (secret info : Bytes) (length : ℕ) {rounds count : ℕ}
    (hrounds : (length + 31) / 32 ≤ count + rounds) (hcount : count ≤ (length + 31) / 32) :
    hkdfRounds C secret info length rounds (hkdfBlocks C secret info count)
      (hkdfBlock C secret info count) (count + 1) =
        hkdfBlocks C secret info ((length + 31) / 32) := by
  induction rounds generalizing count with
  | zero => rw [hkdfRounds, le_antisymm hcount hrounds]
  | succ rounds ih =>
    rw [hkdfRounds, length_hkdfBlocks]
    split
    · rw [show count = (length + 31) / 32 by omega]
    · have hnext := ih (show (length + 31) / 32 ≤ count + 1 + rounds by omega) (by omega)
      rwa [hkdfBlocks_succ] at hnext

lemma hkdfExpand_eq (secret info : Bytes) (length : ℕ) :
    hkdfExpand C secret info length = hkdfOutput C secret info length := by
  have hrounds : hkdfRounds C secret info length length [] [] 1 =
      hkdfBlocks C secret info ((length + 31) / 32) :=
    hkdfRounds_eq C secret info length (by omega) (Nat.zero_le _)
  rw [hkdfExpand, hkdfOutput, hrounds]

lemma length_hkdfLabel (secret : Bytes) (label : String) (length : ℕ) :
    (hkdfLabel C secret label length).length = length := by
  rw [hkdfLabel, hkdfOutput, List.length_take, length_hkdfBlocks]
  omega

lemma expandLabel_eq (secret : Bytes) (label : String) (length : ℕ) :
    expandLabel C secret label length = hkdfLabel C secret label length := by
  have hlabel : ascii "tls13 " ++ ascii label = ascii ("tls13 " ++ label) := by
    rw [ascii, ascii, ascii, String.toList_append, List.map_append]
  rw [expandLabel, hlabel, hkdfExpand_eq]
  rfl

end Keys

/-- A version of QUIC. -/
inductive Version
  | one
  | two

namespace Version

/-- The number of a version. -/
def number : Version → ℕ
  | .one => 0x00000001
  | .two => 0x6b3343cf

/-- The salt of the secret of Initial packets. -/
def salt : Version → Bytes
  | .one => [0x38, 0x76, 0x2c, 0xf7, 0xf5, 0x59, 0x34, 0xb3, 0x4d, 0x17, 0x9a, 0xe6, 0xa4, 0xc8,
      0x0c, 0xad, 0xcc, 0xbb, 0x7f, 0x0a]
  | .two => [0x0d, 0xed, 0xe3, 0xde, 0xf7, 0x00, 0xa6, 0xdb, 0x81, 0x93, 0x81, 0xbe, 0x6e, 0x26,
      0x9d, 0xcb, 0xf9, 0xbd, 0x2e, 0xd9]

/-- The labels of the key, the nonce and the key of the header protection. -/
def labels : Version → String × String × String
  | .one => ("quic key", "quic iv", "quic hp")
  | .two => ("quicv2 key", "quicv2 iv", "quicv2 hp")

/-- The bits of the packet type Initial in the first byte. -/
def initialType : Version → ℕ
  | .one => 0
  | .two => 1

/-- The keys of the client for a connection id that it has chosen. -/
def keys (C : Cryptography) (version : Version) (dcid : Bytes) : Bytes × Bytes × Bytes :=
  let secret := hkdfLabel C (C.hmacSha256 version.salt dcid) "client in" 32
  (hkdfLabel C secret version.labels.1 16, hkdfLabel C secret version.labels.2.1 12,
    hkdfLabel C secret version.labels.2.2 16)

lemma initialKeys_eq (C : Cryptography) (version : Version) (dcid : Bytes) :
    initialKeys C version.number dcid = .ok (version.keys C dcid) := by
  cases version with
  | one =>
    have hsalt : salts.lookup (number .one) = some (salt .one) := by decide
    have hone : ¬ number .one = v2 := by decide
    rw [initialKeys, hsalt, keys]
    simp only [expandLabel_eq, if_neg hone]
    rfl
  | two =>
    have hsalt : salts.lookup (number .two) = some (salt .two) := by decide
    have htwo : number .two = v2 := by decide
    rw [initialKeys, hsalt, keys]
    simp only [expandLabel_eq, if_pos htwo]
    rfl

end Version

/-! ## Packets -/

/-- AES-GCM encryption, which decryption under the same key, nonce and header inverts. -/
structure Sealing (C : Cryptography) where
  /-- `AESGCM(key).encrypt(nonce, plaintext, header)`. -/
  aesGcmEncrypt : Bytes → Bytes → Bytes → Bytes → Bytes
  decrypt_encrypt : ∀ key nonce plaintext header,
    C.aesGcmDecrypt key nonce (aesGcmEncrypt key nonce plaintext header) header = some plaintext

/-- An Initial packet of a client, before its protection.  The length of the token is given with the
bytes that it is written in. -/
structure InitialPacket where
  version : Version
  dcid : Bytes
  scid : Bytes
  token : Bytes
  tokenLength : Bytes
  numberLength : ℕ
  number : ℕ
  payload : Bytes
  length_dcid : dcid.length < 256
  length_scid : scid.length < 256
  isVarint_tokenLength : IsVarint tokenLength token.length
  numberLength_pos : 1 ≤ numberLength
  numberLength_le : numberLength ≤ 4
  number_lt : number < 256 ^ numberLength

namespace InitialPacket

variable {C : Cryptography} (S : Sealing C) (p : InitialPacket)

/-- The first byte: a long header, the type of the packet, and the length of the packet number. -/
def first : UInt8 := UInt8.ofNat (192 + 16 * p.version.initialType + (p.numberLength - 1))

/-- The packet number in its field. -/
def numberBytes : Bytes := Base.Bytes.ofNat p.numberLength p.number

/-- The header between its first byte and the packet number, for a length field. -/
def fields (lengthField : Bytes) : Bytes :=
  Base.Bytes.ofNat 4 p.version.number ++ ([UInt8.ofNat p.dcid.length] ++ (p.dcid ++
    ([UInt8.ofNat p.scid.length] ++ (p.scid ++ (p.tokenLength ++ (p.token ++ lengthField))))))

/-- The header, which the encryption of the payload authenticates. -/
def header (lengthField : Bytes) : Bytes :=
  p.first :: (p.fields lengthField ++ p.numberBytes)

/-- The nonce: that of the keys, combined with the packet number on as many bytes. -/
def nonce (C : Cryptography) : Bytes :=
  xorBytes (p.version.keys C p.dcid).2.1 (Base.Bytes.ofNat 12 p.number)

/-- The encrypted payload. -/
def ciphertext (lengthField : Bytes) : Bytes :=
  S.aesGcmEncrypt (p.version.keys C p.dcid).1 (p.nonce C) p.payload (p.header lengthField)

/-- The mask of the header protection, from the bytes that start four bytes behind the start of the
packet number. -/
def mask (lengthField : Bytes) : Bytes :=
  C.aesEcb (p.version.keys C p.dcid).2.2
    (((p.ciphertext S lengthField).drop (4 - p.numberLength)).take 16)

/-- The packet as it is sent: the header protection covers the length of the packet number in the
first byte, and the packet number. -/
def protect (lengthField : Bytes) : Bytes :=
  let mask := p.mask S lengthField
  (p.first ^^^ (mask.headD 0 &&& 0x0f)) :: (p.fields lengthField ++
    (xorBytes p.numberBytes (mask.drop 1) ++ p.ciphertext S lengthField))

/-! ### What the receiver reads -/

lemma xorBytes_cancel {a b : Bytes} (h : a.length ≤ b.length) : xorBytes (xorBytes a b) b = a := by
  induction a generalizing b with
  | nil => rfl
  | cons x a ih =>
    cases b with
    | nil => exact absurd h (Nat.not_succ_le_zero _)
    | cons y b =>
      have htail := ih (Nat.le_of_succ_le_succ h)
      rw [xorBytes, xorBytes] at htail ⊢
      rw [List.zipWith_cons_cons, List.zipWith_cons_cons, htail, UInt8.xor_assoc, UInt8.xor_self,
        UInt8.xor_zero]

lemma length_numberBytes : p.numberBytes.length = p.numberLength := Base.Bytes.length_ofNat

lemma xorBytes_take {a b : Bytes} : xorBytes a (b.take a.length) = xorBytes a b := by
  induction a generalizing b with
  | nil => rfl
  | cons x a ih =>
    cases b with
    | nil => rfl
    | cons y b => exact congrArg (_ :: ·) ih

variable {p}

lemma first_eq : ∃ i < 2, ∃ j < 4, p.numberLength = j + 1 ∧ p.first = UInt8.ofNat (192 + 16 * i + j) := by
  have hpos := p.numberLength_pos
  have hle := p.numberLength_le
  refine ⟨p.version.initialType, ?_, p.numberLength - 1, by omega, by omega, rfl⟩
  cases p.version <;> decide

variable (p) in
/-- The header protection leaves the bit of long headers alone. -/
lemma isLong_protected (m : UInt8) (rest : Bytes) :
    isLong ((p.first ^^^ (m &&& 0x0f)) :: rest) = true := by
  obtain ⟨i, hi, j, hj, -, hfirst⟩ := p.first_eq
  have hall : ∀ i < 2, ∀ j < 4, ∀ k < 16,
      128 ≤ (UInt8.ofNat (192 + 16 * i + j) ^^^ UInt8.ofNat k).toNat := by decide
  have hlow : (m &&& 0x0f).toNat < 16 := by
    rw [UInt8.toNat_and]
    exact Nat.lt_succ_of_le Nat.and_le_right
  have hlong := hall i hi j hj _ hlow
  rw [UInt8.ofNat_toNat, ← hfirst] at hlong
  exact decide_eq_true hlong

lemma numberLength_of_first : (p.first &&& 0x03).toNat + 1 = p.numberLength := by
  obtain ⟨i, hi, j, hj, hlength, hfirst⟩ := p.first_eq
  have hall : ∀ i < 2, ∀ j < 4, (UInt8.ofNat (192 + 16 * i + j) &&& 0x03).toNat + 1 = j + 1 := by
    decide
  rw [hlength, hfirst]
  exact hall i hi j hj

lemma length_maskedNumber {masks : Bytes} (hmasks : masks.length = 15) :
    (xorBytes p.numberBytes masks).length = p.numberLength := by
  have hle := p.numberLength_le
  rw [xorBytes, List.length_zipWith, length_numberBytes, hmasks]
  omega

/-- The mask is taken off the packet number. -/
lemma unmask_number {masks : Bytes} (hmasks : masks.length = 15) (m : UInt8) :
    xorBytes (xorBytes p.numberBytes masks) (slice (m :: masks) 1 (1 + p.numberLength)) =
      p.numberBytes := by
  have hle := p.numberLength_le
  have hslice : slice (m :: masks) 1 (1 + p.numberLength) =
      masks.take (xorBytes p.numberBytes masks).length := by
    rw [length_maskedNumber hmasks, slice, Nat.add_sub_cancel_left]
    rfl
  rw [hslice, xorBytes_take, xorBytes_cancel (by rw [length_numberBytes]; omega)]

/-- The packet number is padded to the length of the nonce. -/
lemma xorBytes_padded (C : Cryptography) :
    xorBytes (p.version.keys C p.dcid).2.1
        (List.replicate ((p.version.keys C p.dcid).2.1.length - p.numberLength) 0 ++
          p.numberBytes) =
      p.nonce C := by
  have hle := p.numberLength_le
  have hiv : (p.version.keys C p.dcid).2.1.length = 12 := length_hkdfLabel C _ _ _
  have hpadded := Base.Bytes.ofNat_add (12 - p.numberLength) p.number_lt
  rw [Nat.sub_add_cancel (by omega)] at hpadded
  rw [hiv, nonce, hpadded, numberBytes]

/-- The sample starts four bytes behind the start of the packet number, however long that is. -/
lemma slice_sample {data number ciphertext rest : Bytes} {start : ℕ}
    (h : StandsAt data start (number ++ (ciphertext ++ rest))) (hnumber : number.length ≤ 4)
    (hsample : 20 ≤ number.length + ciphertext.length) :
    slice data (start + 4) (start + 20) = (ciphertext.drop (4 - number.length)).take 16 := by
  obtain ⟨behind, hbehind⟩ := h
  have hdrop : data.drop (start + 4) =
      (ciphertext ++ (rest ++ behind)).drop (4 - number.length) := by
    rw [← List.drop_drop, ← hbehind, List.append_assoc, List.append_assoc, List.drop_append,
      List.drop_eq_nil_of_le hnumber, List.nil_append]
  rw [slice, hdrop, Nat.add_sub_add_left, List.drop_append_of_le_length (by omega),
    List.take_append_of_le_length]
  rw [List.length_drop]
  omega

/-- The receiver recovers the payload of a packet that is long enough, whatever follows it. -/
theorem decryptInitial_protect {lengthField : Bytes} (hlengthField :
    IsVarint lengthField (p.numberLength + (p.ciphertext S lengthField).length))
    (hsample : 20 ≤ p.numberLength + (p.ciphertext S lengthField).length) (trailing : Bytes)
    (hlong : 40 ≤ (p.protect S lengthField ++ trailing).length) :
    decryptInitial C (p.protect S lengthField ++ trailing) = .ok p.payload := by
  have hle := p.numberLength_le
  have hmask : (p.mask S lengthField).length = 16 := by
    refine C.length_aesEcb _ _ ?_
    rw [List.length_take, List.length_drop]
    omega
  obtain ⟨m, masks, hm⟩ : ∃ m masks, p.mask S lengthField = m :: masks :=
    List.exists_cons_of_length_eq_add_one hmask
  have hmasks : masks.length = 15 := by
    rw [hm, List.length_cons] at hmask
    omega
  -- the datagram, field by field
  obtain ⟨datagram, hdatagram⟩ : ∃ datagram, datagram = p.protect S lengthField ++ trailing :=
    ⟨_, rfl⟩
  have hwhole : datagram = [p.first ^^^ (m &&& 0x0f)] ++ (p.fields lengthField ++
      (xorBytes p.numberBytes masks ++ (p.ciphertext S lengthField ++ trailing))) := by
    rw [hdatagram, protect, hm]
    simp
  have hstart : StandsAt datagram 0 ([p.first ^^^ (m &&& 0x0f)] ++ _) :=
    ⟨[], (List.append_nil _).trans hwhole.symm⟩
  have hfields : StandsAt datagram 1 (p.fields lengthField) := (hstart.behind 1 rfl).left
  have hdcid : StandsAt datagram 5 ([UInt8.ofNat p.dcid.length] ++ _) := hfields.behind 5 rfl
  have hscid : StandsAt datagram (6 + p.dcid.length) ([UInt8.ofNat p.scid.length] ++ _) :=
    (hdcid.behind 6 rfl).behind _ rfl
  have htokenLength : StandsAt datagram (6 + p.dcid.length + 1 + p.scid.length) (p.tokenLength ++ _) :=
    (hscid.behind _ rfl).behind _ rfl
  have hlengthAt : StandsAt datagram (6 + p.dcid.length + 1 + p.scid.length + p.tokenLength.length +
      p.token.length) lengthField :=
    (htokenLength.behind _ rfl).behind _ rfl
  have hnumberAt : 1 + (p.fields lengthField).length = 6 + p.dcid.length + 1 + p.scid.length +
      p.tokenLength.length + p.token.length + lengthField.length := by
    simp only [fields, List.length_append, List.length_cons, List.length_nil,
      Base.Bytes.length_ofNat]
    omega
  have hnumber : StandsAt datagram (1 + (p.fields lengthField).length)
      (xorBytes p.numberBytes masks ++ _) :=
    (hstart.behind 1 rfl).behind _ rfl
  -- the values that are read from the fields
  have hversion : fromBytes (slice datagram 1 5) = p.version.number := by
    have hslice : slice datagram 1 5 = Base.Bytes.ofNat 4 p.version.number := hfields.left.slice_eq
    rw [hslice]
    cases p.version <;> decide
  have hdcidLength : (UInt8.ofNat p.dcid.length).toNat = p.dcid.length :=
    UInt8.toNat_ofNat_of_lt p.length_dcid
  have hscidLength : (UInt8.ofNat p.scid.length).toNat = p.scid.length :=
    UInt8.toNat_ofNat_of_lt p.length_scid
  have hdcidAt : slice datagram 6 (6 + p.dcid.length) = p.dcid := (hdcid.behind 6 rfl).left.slice_eq
  have htoken := p.isVarint_tokenLength.varint_of_standsAt htokenLength.left
  have hlength := hlengthField.varint_of_standsAt hlengthAt
  have hnumberMask := p.length_maskedNumber hmasks
  have hdatagramLength : datagram.length = 1 + (p.fields lengthField).length + (p.numberLength +
      (p.ciphertext S lengthField).length) + trailing.length := by
    rw [hwhole]
    simp only [List.length_append, List.length_cons, List.length_nil, hnumberMask]
    omega
  have hfirst : byteAt datagram 0 = .ok (p.first ^^^ (m &&& 0x0f)) := hstart.byteAt_eq
  have hisLong : isLong datagram = true := hwhole ▸ p.isLong_protected m _
  have hfieldsAt : slice datagram 1 (1 + (p.fields lengthField).length) = p.fields lengthField :=
    hfields.slice_eq
  have hsampleAt : slice datagram (1 + (p.fields lengthField).length + 4)
      (1 + (p.fields lengthField).length + 20) =
        ((p.ciphertext S lengthField).drop (4 - p.numberLength)).take 16 := by
    have hslice := slice_sample hnumber (hnumberMask ▸ hle) (hnumberMask ▸ hsample)
    rwa [hnumberMask] at hslice
  have hciphertextAt : slice datagram (1 + (p.fields lengthField).length + p.numberLength)
      (1 + (p.fields lengthField).length + (p.numberLength + (p.ciphertext S lengthField).length)) =
        p.ciphertext S lengthField := by
    rw [← Nat.add_assoc]
    exact (hnumber.behind _ (by rw [hnumberMask])).left.slice_eq
  have hnumberSlice : slice datagram (1 + (p.fields lengthField).length)
      (1 + (p.fields lengthField).length + p.numberLength) = xorBytes p.numberBytes masks := by
    have hslice := hnumber.left.slice_eq
    rwa [hnumberMask] at hslice
  have hfirstBack : p.first ^^^ (m &&& 0x0f) ^^^ (m &&& 0x0f) = p.first := by
    rw [UInt8.xor_assoc, UInt8.xor_self, UInt8.xor_zero]
  rw [← hdatagram] at hlong ⊢
  rw [← hnumberAt] at hlength
  generalize 1 + (p.fields lengthField).length = start at *
  have hcheck : ¬ (datagram.length < 40 ∨ isLong datagram = false) := by
    rw [hisLong]
    simp only [Bool.true_eq_false, or_false]
    omega
  have hcheck₁ : ¬ datagram.length ≤ 6 + p.dcid.length := by omega
  have hcheck₂ : ¬ (datagram.length < start + (p.numberLength + (p.ciphertext S lengthField).length) ∨
      start + (p.numberLength + (p.ciphertext S lengthField).length) < start + 20) := by omega
  have hopened := S.decrypt_encrypt (p.version.keys C p.dcid).1 (p.nonce C) p.payload
    (p.header lengthField)
  have hmaskAt : C.aesEcb (p.version.keys C p.dcid).2.2 (slice datagram (start + 4) (start + 20)) =
      m :: masks := by
    rw [hsampleAt, ← hm, mask]
  have hmaskFirst : byteAt (m :: masks) 0 = .ok m := rfl
  simp only [decryptInitial, raiseIf, if_neg hcheck, hversion, hdcid.byteAt_eq, hdcidLength, hdcidAt,
    if_neg hcheck₁, hscid.byteAt_eq, hscidLength, htoken, hlength, if_neg hcheck₂, ok_bind, pure_bind,
    p.version.initialKeys_eq, hfirst, hmaskAt, hmaskFirst, hfirstBack, numberLength_of_first,
    hnumberSlice, p.unmask_number hmasks, p.xorBytes_padded, hciphertextAt, hfieldsAt]
  generalize hdecrypted : C.aesGcmDecrypt _ _ _ _ = decrypted
  obtain rfl : decrypted = some p.payload := hdecrypted.symm.trans hopened
  rfl

end InitialPacket

/-! ### A packet -/

/-- The secret of Initial packets for the connection id of the sample. -/
def sampleSecret : Bytes :=
  [0x7d, 0xb5, 0xdf, 6, 0xe7, 0xa6, 0x9e, 0x43, 0x24, 0x96, 0xad, 0xed, 0xb0, 8, 0x51, 0x92,
   0x35, 0x95, 0x22, 0x15, 0x96, 0xae, 0x2a, 0xe9, 0xfb, 0x81, 0x15, 0xc1, 0xe9, 0xed, 0xa,
   0x44]

/-- The client's secret for this connection id. -/
def sampleClientSecret : Bytes :=
  [0xc0, 0xc, 0xf1, 0x51, 0xca, 0x5b, 0xe0, 0x75, 0xed, 0xe, 0xbf, 0xb5, 0xc8, 3, 0x23, 0xc4,
   0x2d, 0x6b, 0x7d, 0xb6, 0x78, 0x81, 0x28, 0x9a, 0xf4, 0, 0x8f, 0x1f, 0x6c, 0x35, 0x7a,
   0xea]

/-- The digests that the keys of the sample come from. -/
def sampleDigests : List ((Bytes × Bytes) × Bytes) :=
  [ ((Version.salt .one, [0x83, 0x94, 0xc8, 0xf0, 0x3e, 0x51, 0x57, 8]), sampleSecret),
    ((sampleSecret, [0, 0x20, 0xf, 0x74, 0x6c, 0x73, 0x31, 0x33, 0x20, 0x63, 0x6c, 0x69, 0x65, 0x6e, 0x74, 0x20,
     0x69, 0x6e, 0, 1]),
      sampleClientSecret),
    ((sampleClientSecret, [0, 0x10, 0xe, 0x74, 0x6c, 0x73, 0x31, 0x33, 0x20, 0x71, 0x75, 0x69, 0x63, 0x20, 0x6b, 0x65,
     0x79, 0, 1]),
      [0x1f, 0x36, 0x96, 0x13, 0xdd, 0x76, 0xd5, 0x46, 0x77, 0x30, 0xef, 0xcb, 0xe3, 0xb1, 0xa2,
       0x2d, 0xa9, 4, 0xe7, 0x3a, 0x8b, 0xaf, 0xfb, 0x25, 0xa4, 0xd9, 0xc5, 0xcd, 0xc6,
       0x33, 0xf2, 0xd2]),
    ((sampleClientSecret, [0, 0xc, 0xd, 0x74, 0x6c, 0x73, 0x31, 0x33, 0x20, 0x71, 0x75, 0x69, 0x63, 0x20, 0x69, 0x76,
     0, 1]),
      [0xfa, 4, 0x4b, 0x2f, 0x42, 0xa3, 0xfd, 0x3b, 0x46, 0xfb, 0x25, 0x5c, 0x5d, 0xeb, 0xfb,
       0xff, 0x80, 0x3b, 0x7e, 0xd3, 0xed, 0x22, 0x27, 0x27, 0x77, 0x13, 0x2e, 0xad, 0xf8,
       0x88, 0x9d, 0xc6]),
    ((sampleClientSecret, [0, 0x10, 0xd, 0x74, 0x6c, 0x73, 0x31, 0x33, 0x20, 0x71, 0x75, 0x69, 0x63, 0x20, 0x68, 0x70,
     0, 1]),
      [0x9f, 0x50, 0x44, 0x9e, 4, 0xa0, 0xe8, 0x10, 0x28, 0x3a, 0x1e, 0x99, 0x33, 0xad, 0xed,
       0xd2, 0x2d, 0xed, 0x50, 0x9c, 0x3d, 0x9f, 0xac, 0xe, 0x73, 0x71, 0x5a, 0x6a, 0x20,
       0x96, 0x3f, 0xbf]) ]

/-- What goes into the encryption of the sample: the key, the nonce, the payload and the header. -/
def sampleInput : Bytes × Bytes × Bytes × Bytes :=
  ([0x1f, 0x36, 0x96, 0x13, 0xdd, 0x76, 0xd5, 0x46, 0x77, 0x30, 0xef, 0xcb, 0xe3, 0xb1, 0xa2,
    0x2d],
    [0xfa, 4, 0x4b, 0x2f, 0x42, 0xa3, 0xfd, 0x3b, 0x46, 0xfb, 0x25, 0x5e],
    [6, 0, 4, 1, 0, 0, 0, 0],
    [0xc1, 0, 0, 0, 1, 8, 0x83, 0x94, 0xc8, 0xf0, 0x3e, 0x51, 0x57, 8, 0, 1, 0xaa, 0x1a, 0, 2])

/-- What comes out of it. -/
def sampleOutput : Bytes :=
  [0xd1, 0xb1, 0x8d, 0x7d, 0xd6, 0x68, 0x9f, 0x55, 2, 0x7b, 1, 0xcb, 0x78, 0x67, 0x98, 0x2d,
   0x1b, 0xc9, 0xbf, 0xfd, 0xe6, 0xd8, 0xba, 0x14]

/-- The primitives on the inputs of the sample; elsewhere digests and blocks are zero, and encryption
adds sixteen zeros. -/
def sampleCryptography : Cryptography where
  hmacSha256 key message := (sampleDigests.lookup (key, message)).getD (List.replicate 32 0)
  aesEcb key block :=
    if key = [0x9f, 0x50, 0x44, 0x9e, 4, 0xa0, 0xe8, 0x10, 0x28, 0x3a, 0x1e, 0x99, 0x33, 0xad,
              0xed, 0xd2] ∧
        block = [0x8d, 0x7d, 0xd6, 0x68, 0x9f, 0x55, 2, 0x7b, 1, 0xcb, 0x78, 0x67, 0x98, 0x2d,
                 0x1b, 0xc9] then
      [0x34, 0xe2, 0xb8, 0xaa, 0xd2, 0x5d, 0xfb, 0xd4, 9, 0x81, 0x11, 0x56, 0x1e, 0xd9, 0x74,
       0x6e]
    else List.replicate 16 0
  aesGcmDecrypt key nonce ciphertext header :=
    if (key, nonce, header) = (sampleInput.1, sampleInput.2.1, sampleInput.2.2.2) ∧
        ciphertext = sampleOutput then
      some sampleInput.2.2.1
    else if ciphertext.drop (ciphertext.length - 16) = List.replicate 16 0 then
      some (ciphertext.take (ciphertext.length - 16))
    else none
  length_hmacSha256 key message := by
    have hall : ∀ e ∈ sampleDigests, e.2.length = 32 := by decide
    cases h : sampleDigests.lookup (key, message) with
    | none => rfl
    | some digest =>
      obtain ⟨before, behind, heq, -⟩ := List.lookup_eq_some_iff.mp h
      exact hall ((key, message), digest) (heq ▸ List.mem_append_right _ List.mem_cons_self)
  length_aesEcb key block _ := by
    split <;> rfl

/-- The encryption that goes with it. -/
def sampleSealing : Sealing sampleCryptography where
  aesGcmEncrypt key nonce plaintext header :=
    if (key, nonce, plaintext, header) = sampleInput then sampleOutput
    else plaintext ++ List.replicate 16 0
  decrypt_encrypt key nonce plaintext header := by
    have hzeros : sampleOutput.drop 8 ≠ List.replicate 16 0 := by decide
    by_cases hinput : (key, nonce, plaintext, header) = sampleInput
    · have hkey := congrArg Prod.fst hinput
      obtain ⟨hnonce, hplaintext, hheader⟩ :
          nonce = sampleInput.2.1 ∧ plaintext = sampleInput.2.2.1 ∧ header = sampleInput.2.2.2 :=
        ⟨congrArg (·.2.1) hinput, congrArg (·.2.2.1) hinput, congrArg (·.2.2.2) hinput⟩
      rw [if_pos hinput, hplaintext]
      exact if_pos ⟨by rw [hnonce, hheader, ← hkey], rfl⟩
    · rw [if_neg hinput]
      have hlength : (plaintext ++ List.replicate 16 (0 : UInt8)).length - 16 = plaintext.length := by
        simp
      have hother : plaintext ++ List.replicate 16 0 ≠ sampleOutput := by
        intro heq
        have hcount : plaintext.length = 8 := by
          have hlengths := congrArg List.length heq
          rw [List.length_append, List.length_replicate] at hlengths
          exact Nat.add_right_cancel hlengths
        exact hzeros (by rw [← heq, ← hcount, List.drop_left])
      have hnot := not_and_of_not_right
        ((key, nonce, header) = (sampleInput.1, sampleInput.2.1, sampleInput.2.2.2)) hother
      dsimp only [sampleCryptography]
      rw [if_neg hnot, hlength, if_pos List.drop_left, List.take_left]

/-- The sample: a packet of version 1 with a token of one byte. -/
def samplePacket : InitialPacket where
  version := .one
  dcid := [0x83, 0x94, 0xc8, 0xf0, 0x3e, 0x51, 0x57, 8]
  scid := []
  token := [0xaa]
  tokenLength := [1]
  numberLength := 2
  number := 2
  payload := [6, 0, 4, 1, 0, 0, 0, 0]
  length_dcid := by decide
  length_scid := length_nil_lt
  isVarint_tokenLength := isVarint_byte (by decide)
  numberLength_pos := by decide
  numberLength_le := by decide
  number_lt := by decide

/-- The bytes on the wire. -/
example : samplePacket.protect sampleSealing [26] =
    [0xc5, 0, 0, 0, 1, 8, 0x83, 0x94, 0xc8, 0xf0, 0x3e, 0x51, 0x57, 8, 0, 1, 0xaa, 0x1a, 0xe2,
     0xba, 0xd1, 0xb1, 0x8d, 0x7d, 0xd6, 0x68, 0x9f, 0x55, 2, 0x7b, 1, 0xcb, 0x78, 0x67,
     0x98, 0x2d, 0x1b, 0xc9, 0xbf, 0xfd, 0xe6, 0xd8, 0xba, 0x14] := by
  decide

/-- The sample is decrypted, with two bytes behind it. -/
theorem decryptInitial_sample : decryptInitial sampleCryptography
    (samplePacket.protect sampleSealing [26] ++ [0, 0]) = .ok [6, 0, 4, 1, 0, 0, 0, 0] := by
  have hlength : (samplePacket.ciphertext sampleSealing [26]).length = 24 := by decide
  refine InitialPacket.decryptInitial_protect sampleSealing ?_ ?_ [0, 0] ?_
  · rw [hlength]
    exact isVarint_byte (by decide)
  · rw [hlength]
    decide
  · decide

end Portwyrm.Quic

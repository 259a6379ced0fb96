import Mathlib.Tactic.Ring
import Portwyrm.Quic.Wire

/-!
# What senders write

Numbers in network byte order, variable-length integers, and what is read from the bytes that stand
at an offset of a byte string.
-/

namespace Portwyrm.Quic

open Base

/-! ## Bytes at an offset -/

/-- A slice between two parts of known lengths. -/
lemma slice_append {data a b c : Bytes} {start stop : ℕ} (hdata : data = a ++ (b ++ c))
    (hstart : a.length = start) (hstop : start + b.length = stop) : slice data start stop = b := by
  subst hdata hstart hstop
  rw [slice, List.drop_left, Nat.add_sub_cancel_left, List.take_left]

/-- A piece stands in the data from an offset on. -/
def StandsAt (data : Bytes) (offset : ℕ) (piece : Bytes) : Prop := piece <+: data.drop offset

namespace StandsAt

variable {data a b : Bytes} {offset : ℕ}

lemma of_append {c : Bytes} (hdata : data = a ++ (b ++ c)) (hoffset : offset = a.length) :
    StandsAt data offset b := by
  subst hdata hoffset
  rw [StandsAt, List.drop_left]
  exact List.prefix_append _ _

lemma left (h : StandsAt data offset (a ++ b)) : StandsAt data offset a :=
  (List.prefix_append a b).trans h

lemma right (h : StandsAt data offset (a ++ b)) : StandsAt data (offset + a.length) b := by
  obtain ⟨rest, hrest⟩ := h
  rw [List.append_assoc] at hrest
  rw [StandsAt, ← List.drop_drop, ← hrest, List.drop_left]
  exact List.prefix_append _ _

/-- What stands behind a piece of known length. -/
lemma behind (h : StandsAt data offset (a ++ b)) (offset' : ℕ) (heq : offset + a.length = offset') :
    StandsAt data offset' b :=
  heq ▸ h.right

lemma slice_eq (h : StandsAt data offset a) : slice data offset (offset + a.length) = a := by
  rw [slice, Nat.add_sub_cancel_left]
  exact (List.prefix_iff_eq_take.mp h).symm

lemma getElem?_eq {byte : UInt8} {rest : Bytes} (h : StandsAt data offset (byte :: rest)) :
    data[offset]? = some byte := by
  obtain ⟨more, hmore⟩ := h
  rw [← Nat.add_zero offset, ← List.getElem?_drop, ← hmore]
  rfl

lemma byteAt_eq {byte : UInt8} {rest : Bytes} (h : StandsAt data offset (byte :: rest)) :
    byteAt data offset = .ok byte := by
  rw [byteAt, h.getElem?_eq]
  rfl

lemma length_le (h : StandsAt data offset a) (hle : offset ≤ data.length) :
    offset + a.length ≤ data.length := by
  have hlength := List.IsPrefix.length_le h
  rw [List.length_drop] at hlength
  omega

end StandsAt

lemma length_le_length_flatMap {α : Type} {f : α → Bytes} (h : ∀ a, 0 < (f a).length) (l : List α) :
    l.length ≤ (l.flatMap f).length := by
  induction l with
  | nil => exact le_rfl
  | cons a l ih =>
    have hpos := h a
    rw [List.flatMap_cons, List.length_append, List.length_cons]
    omega

/-! ## Numbers -/

/-- A number in two bytes, in network byte order. -/
def bytes2 (n : ℕ) : Bytes := [UInt8.ofNat (n / 256), UInt8.ofNat n]

/-- A number in three bytes, in network byte order. -/
def bytes3 (n : ℕ) : Bytes := UInt8.ofNat (n / 65536) :: bytes2 n

lemma fromBytes_bytes2 {n : ℕ} (h : n < 65536) : fromBytes (bytes2 n) = n := by
  simp only [fromBytes, bytes2, List.foldl_cons, List.foldl_nil, UInt8.toNat_ofNat']
  omega

lemma fromBytes_bytes3 {n : ℕ} (h : n < 16777216) : fromBytes (bytes3 n) = n := by
  simp only [fromBytes, bytes3, bytes2, List.foldl_cons, List.foldl_nil, UInt8.toNat_ofNat']
  omega

lemma foldl_eq_fromBytes (rest : Bytes) (value : ℕ) :
    rest.foldl (fun value byte => value * 256 + byte.toNat) value =
      value * 256 ^ rest.length + fromBytes rest := by
  induction rest generalizing value with
  | nil => simp [fromBytes]
  | cons byte rest ih =>
    have hfrom : fromBytes (byte :: rest) = byte.toNat * 256 ^ rest.length + fromBytes rest := by
      show rest.foldl _ (0 * 256 + byte.toNat) = _
      rw [ih, Nat.zero_mul, Nat.zero_add]
    rw [List.foldl_cons, ih, hfrom, List.length_cons, Nat.pow_succ]
    ring

/-! ## Variable-length integers -/

/-- A variable-length integer: the two high bits of the first byte give the number of bytes,
and the other bits give the value in network byte order. -/
def IsVarint (bs : Bytes) (n : ℕ) : Prop :=
  ∃ first rest, bs = first :: rest ∧ rest.length + 1 = 2 ^ (first.toNat / 64) ∧
    n = first.toNat % 64 * 256 ^ rest.length + fromBytes rest

lemma IsVarint.length_pos {bs : Bytes} {n : ℕ} (h : IsVarint bs n) : 0 < bs.length := by
  obtain ⟨first, rest, rfl, -, -⟩ := h
  exact Nat.succ_pos _

/-- A variable-length integer is read where it stands. -/
lemma IsVarint.varint_of_standsAt {bs data : Bytes} {n offset : ℕ} (h : IsVarint bs n)
    (hdata : StandsAt data offset bs) : varint data offset = .ok (n, offset + bs.length) := by
  obtain ⟨first, rest, rfl, hlength, rfl⟩ := h
  have hrest : slice data (offset + 1) (offset + 2 ^ (first.toNat / 64)) = rest := by
    have hslice := (StandsAt.right (a := [first]) hdata).slice_eq
    rwa [List.length_singleton, Nat.add_assoc, Nat.add_comm 1, hlength] at hslice
  have hend : ¬ data.length < offset + 2 ^ (first.toNat / 64) := by
    have hle := hdata.length_le (List.getElem?_eq_some_iff.mp hdata.getElem?_eq).1.le
    rw [List.length_cons] at hle
    omega
  unfold varint
  rw [hdata.getElem?_eq]
  dsimp only
  rw [if_neg hend, hrest, foldl_eq_fromBytes, List.length_cons, hlength]
  rfl

lemma IsVarint.varint_eq {bs data pre post : Bytes} {n offset : ℕ} (h : IsVarint bs n)
    (hdata : data = pre ++ (bs ++ post)) (hoffset : offset = pre.length) :
    varint data offset = .ok (n, offset + bs.length) :=
  h.varint_of_standsAt (.of_append hdata hoffset)

lemma length_nil_lt : ([] : Bytes).length < 256 := by
  decide

/-- A number below 64 takes one byte. -/
lemma isVarint_byte {n : UInt8} (hn : n.toNat < 64) : IsVarint [n] n.toNat := by
  refine ⟨n, [], rfl, ?_, ?_⟩
  · rw [Nat.div_eq_of_lt hn]
    rfl
  · rw [Nat.mod_eq_of_lt hn]
    simp [fromBytes]

end Portwyrm.Quic

import Portwyrm.Quic.Reassembly

/-!
# The scan of CRYPTO frames

The loop of `crypto_fragments` without a bound on its rounds: on every byte string it comes to an
end, with fragments or with a `QuicParseError`, and what the bounded loop returns is what it ends
with.
-/

namespace Portwyrm.Quic

open Base

/-! ## Rounds -/

/-- One round of the loop of `crypto_fragments`: the fragments at a frame of another type, or the
offset and the fragments behind the frame. -/
def scanFrame (plaintext : Bytes) (offset : ℕ) (fragments : Dict ℕ Bytes) :
    Result (Dict ℕ Bytes ⊕ ℕ × Dict ℕ Bytes) := do
  let (frameType, offset) ← varint plaintext offset
  if frameType = 0 ∨ frameType = 1 then pure (.inr (offset, fragments))
  else if frameType = 6 then do
    let (cryptoOffset, offset) ← varint plaintext offset
    let (length, offset) ← varint plaintext offset
    raiseIf (plaintext.length < offset + length)
      (.quicParseError "truncated QUIC CRYPTO frame")
    pure (.inr (offset + length,
      fragments.set cryptoOffset (slice plaintext offset (offset + length))))
  else pure (.inl fragments)

/-- The loop of `crypto_fragments` from an offset on ends with an outcome. -/
inductive ScanEnds (plaintext : Bytes) : ℕ → Dict ℕ Bytes → Result (Dict ℕ Bytes) → Prop
  | finished {offset : ℕ} {fragments : Dict ℕ Bytes} (h : plaintext.length ≤ offset) :
      ScanEnds plaintext offset fragments (.ok fragments)
  | stopped {offset : ℕ} {fragments result : Dict ℕ Bytes} (h : offset < plaintext.length)
      (hround : scanFrame plaintext offset fragments = .ok (.inl result)) :
      ScanEnds plaintext offset fragments (.ok result)
  | raised {offset : ℕ} {fragments : Dict ℕ Bytes} {e : Exc} (h : offset < plaintext.length)
      (hround : scanFrame plaintext offset fragments = .error e) :
      ScanEnds plaintext offset fragments (.error e)
  | round {offset offset' : ℕ} {fragments fragments' : Dict ℕ Bytes} {outcome : Result (Dict ℕ Bytes)}
      (h : offset < plaintext.length)
      (hround : scanFrame plaintext offset fragments = .ok (.inr (offset', fragments')))
      (hrest : ScanEnds plaintext offset' fragments' outcome) :
      ScanEnds plaintext offset fragments outcome

/-- The exceptions that the readers of frames raise. -/
def IsParseError (e : Exc) : Prop := ∃ text, e = .quicParseError text

lemma raises_varint (data : Bytes) (offset : ℕ) : Raises IsParseError (varint data offset) := by
  unfold varint
  split
  · exact .throw ⟨_, rfl⟩
  · dsimp only
    split
    · exact .throw ⟨_, rfl⟩
    · exact .pure _

variable {plaintext : Bytes} {offset offset' : ℕ} {fragments fragments' : Dict ℕ Bytes}

lemma raises_scanFrame : Raises IsParseError (scanFrame plaintext offset fragments) := by
  unfold scanFrame
  refine .bind (raises_varint _ _) fun type _ => ?_
  obtain ⟨frameType, offset₁⟩ := type
  dsimp only
  split
  · exact .pure _
  · split
    · refine .bind (raises_varint _ _) fun cryptoOffset _ => ?_
      refine .bind (raises_varint _ _) fun length _ => ?_
      exact .bind (.raiseIf ⟨_, rfl⟩) fun _ _ => .pure _
    · exact .pure _

/-- A round that does not end the loop moves the offset forward. -/
lemma lt_of_scanFrame
    (h : scanFrame plaintext offset fragments = .ok (.inr (offset', fragments'))) :
    offset < offset' := by
  obtain ⟨⟨frameType, offset₁⟩, htype, h⟩ := bind_eq_ok_iff.mp h
  have hfirst := (varint_eq_ok htype).1
  dsimp only at h
  split at h
  · obtain ⟨rfl, -⟩ := Prod.mk.inj (Sum.inr.inj (pure_eq_ok_iff.mp h))
    exact hfirst
  · split at h
    · obtain ⟨⟨cryptoOffset, offset₂⟩, hcrypto, h⟩ := bind_eq_ok_iff.mp h
      obtain ⟨⟨length, offset₃⟩, hlength, h⟩ := bind_eq_ok_iff.mp h
      obtain ⟨-, -, h⟩ := bind_eq_ok_iff.mp h
      obtain ⟨rfl, -⟩ := Prod.mk.inj (Sum.inr.inj (pure_eq_ok_iff.mp h))
      have hsecond := (varint_eq_ok hcrypto).1
      have hthird := (varint_eq_ok hlength).1
      omega
    · cases pure_eq_ok_iff.mp h

/-- The bounded loop runs the rounds one by one. -/
lemma fragmentsFrom_succ (rounds : ℕ) (h : offset < plaintext.length) :
    fragmentsFrom plaintext (rounds + 1) offset fragments =
      scanFrame plaintext offset fragments >>= fun
        | .inl result => pure result
        | .inr (offset', fragments') => fragmentsFrom plaintext rounds offset' fragments' := by
  rw [fragmentsFrom, if_neg (by omega), scanFrame]
  cases htype : varint plaintext offset with
  | error e => rfl
  | ok read =>
    obtain ⟨frameType, offset₁⟩ := read
    simp only [ok_bind]
    split
    · rfl
    · split
      · cases hcrypto : varint plaintext offset₁ with
        | error e => rfl
        | ok read =>
          simp only [ok_bind]
          cases hlength : varint plaintext read.2 with
          | error e => rfl
          | ok read' =>
            simp only [ok_bind, raiseIf]
            split <;> rfl
      · rfl

/-- As many rounds as there are bytes left are enough. -/
lemma scanEnds_fragmentsFrom {rounds : ℕ} (hrounds : plaintext.length - offset ≤ rounds) :
    ScanEnds plaintext offset fragments (fragmentsFrom plaintext rounds offset fragments) := by
  induction rounds generalizing offset fragments with
  | zero => exact .finished (by omega)
  | succ rounds ih =>
    by_cases hend : plaintext.length ≤ offset
    · rw [fragmentsFrom, if_pos hend]
      exact .finished hend
    · rw [fragmentsFrom_succ rounds (by omega)]
      cases hround : scanFrame plaintext offset fragments with
      | error e => exact .raised (by omega) hround
      | ok read =>
        cases read with
        | inl result => exact .stopped (by omega) hround
        | inr next =>
          have hlt := lt_of_scanFrame hround
          exact .round (by omega) hround (ih (by omega))

lemma ScanEnds.raises {outcome : Result (Dict ℕ Bytes)}
    (h : ScanEnds plaintext offset fragments outcome) : Raises IsParseError outcome := by
  induction h with
  | finished => exact .pure _
  | stopped => exact .pure _
  | raised _ hround => exact .throw (raises_scanFrame _ hround)
  | round _ _ _ ih => exact ih

/-! ## What is found -/

/-- The frames that the scan reads through. -/
def Frame.IsRead : Frame → Prop
  | .other _ _ => False
  | _ => True

lemma readFrames_append {frames : List Frame} {rest : Option (ℕ × Bytes)}
    (h : ∀ f ∈ frames, f.IsRead) :
    readFrames (frames ++ (rest.map fun e => Frame.other e.1 e.2).toList) = frames := by
  induction frames with
  | nil => cases rest <;> rfl
  | cons f frames ih =>
    obtain ⟨hf, hframes⟩ := List.forall_mem_cons.mp h
    have htail := ih hframes
    rw [readFrames] at htail
    rw [readFrames, List.cons_append, List.takeWhile_cons_of_pos, htail]
    cases f with
    | other => exact absurd hf id
    | padding | ping | crypto => rfl

/-- The scan of every byte string ends with fragments or with a `QuicParseError`.  When the bytes
are those of PADDING, PING and CRYPTO frames with different offsets, and perhaps of a frame of another
type with any bytes behind it, it ends with the data of each CRYPTO frame at its offset. -/
theorem cryptoFragments_exact (plaintext : Bytes) :
    (ScanEnds plaintext 0 Dict.empty (cryptoFragments plaintext) ∧
      ((∃ fragments, cryptoFragments plaintext = .ok fragments) ∨
        ∃ text, cryptoFragments plaintext = .error (.quicParseError text))) ∧
    ∀ (frames : List Frame) (rest : Option (ℕ × Bytes)), (∀ f ∈ frames, f.IsRead) →
      ((cryptoFrames frames).map Prod.fst).Nodup →
      IsPlaintext (frames ++ (rest.map fun e => Frame.other e.1 e.2).toList) plaintext →
      ∃ fragments, cryptoFragments plaintext = .ok fragments ∧
        ∀ offset data, fragments.get? offset = some data ↔ (offset, data) ∈ cryptoFrames frames := by
  have hends : ScanEnds plaintext 0 Dict.empty (cryptoFragments plaintext) :=
    scanEnds_fragmentsFrom (Nat.sub_le _ _)
  refine ⟨⟨hends, ?_⟩, fun frames rest hread hdistinct hplaintext => ?_⟩
  · cases houtcome : cryptoFragments plaintext with
    | ok fragments => exact .inl ⟨fragments, rfl⟩
    | error e =>
      obtain ⟨text, rfl⟩ := hends.raises e houtcome
      exact .inr ⟨text, rfl⟩
  · refine ⟨_, cryptoFragments_eq hplaintext, fun offset data => ?_⟩
    rw [readFrames_append hread, Dict.ofList_of_nodup hdistinct, ← Dict.mem_entries_iff]

end Portwyrm.Quic

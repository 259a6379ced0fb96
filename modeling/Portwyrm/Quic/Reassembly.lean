import Mathlib.Tactic.IntervalCases
import Portwyrm.Base.Pieces
import Portwyrm.Quic.Encoding
import Portwyrm.Quic.Router

/-!
# Reassembly of the ClientHello

The CRYPTO frames of Initial packets carry pieces of one byte string.  The router keeps, for each
offset, the last frame that starts there, and puts the frames together in the order of their
offsets.  This file gives the grammar of the packets, shows what the router reads from them, and
says when the bytes that it puts together are all that it could have.
-/

namespace Portwyrm.Quic

open Base

/-! ## The grammar of a plaintext -/

/-- A frame of an Initial packet. -/
inductive Frame
  | padding
  | ping
  | crypto (offset : ℕ) (data : Bytes)
  /-- A frame of another type, such as ACK and CONNECTION_CLOSE. -/
  | other (type : ℕ) (body : Bytes)

/-- The bytes of a frame. -/
inductive Frame.Encodes : Frame → Bytes → Prop
  | padding {t : Bytes} (ht : IsVarint t 0) : Encodes .padding t
  | ping {t : Bytes} (ht : IsVarint t 1) : Encodes .ping t
  | crypto {t o l data : Bytes} {offset : ℕ} (ht : IsVarint t 6) (ho : IsVarint o offset)
      (hl : IsVarint l data.length) : Encodes (.crypto offset data) (t ++ (o ++ (l ++ data)))
  | other {t body : Bytes} {type : ℕ} (ht : IsVarint t type) (h : type ∉ [0, 1, 6]) :
      Encodes (.other type body) (t ++ body)

/-- A plaintext that consists of the frames. -/
def IsPlaintext (frames : List Frame) (plaintext : Bytes) : Prop :=
  ∃ parts, List.Forall₂ Frame.Encodes frames parts ∧ plaintext = parts.flatten

/-- The pieces in the CRYPTO frames. -/
def cryptoFrames (frames : List Frame) : List (ℕ × Bytes) :=
  frames.filterMap fun
    | .crypto offset data => some (offset, data)
    | _ => none

/-- The frames of a plaintext that are read: those before a frame of another type. -/
def readFrames (frames : List Frame) : List Frame :=
  frames.takeWhile fun
    | .other _ _ => false
    | _ => true

/-! ## What the router reads -/

lemma Frame.Encodes.length_pos {f : Frame} {bs : Bytes} (h : f.Encodes bs) : 0 < bs.length := by
  cases h with
  | padding ht => exact ht.length_pos
  | ping ht => exact ht.length_pos
  | crypto ht ho hl =>
    rw [List.length_append]
    have hpos := ht.length_pos
    omega
  | other ht h =>
    rw [List.length_append]
    have hpos := ht.length_pos
    omega

/-- Behind some bytes that have been read, the frames that follow are read one by one. -/
lemma fragmentsFrom_eq {frames : List Frame} {parts : List Bytes}
    (h : List.Forall₂ Frame.Encodes frames parts) {data pre : Bytes} {offset : ℕ}
    (hdata : data = pre ++ parts.flatten) (hoffset : offset = pre.length) {rounds : ℕ}
    (hrounds : parts.flatten.length ≤ rounds) (fragments : Dict ℕ Bytes) :
    fragmentsFrom data rounds offset fragments =
      .ok ((cryptoFrames (readFrames frames)).foldl (fun d e => d.set e.1 e.2) fragments) := by
  -- every frame has a byte, so that the rounds suffice for those behind it
  induction h generalizing pre offset rounds fragments with
  | nil =>
    cases rounds with
    | zero => rfl
    | succ rounds =>
      rw [fragmentsFrom, if_pos]
      · rfl
      · rw [hdata, hoffset, List.flatten_nil, List.append_nil]
  | @cons f bs frames parts hf hrest ih =>
    rw [List.flatten_cons, List.length_append] at hrounds
    rw [List.flatten_cons] at hdata
    have hlength : data.length = pre.length + (bs.length + parts.flatten.length) := by
      rw [hdata, List.length_append, List.length_append]
    have hpos := hf.length_pos
    obtain ⟨rounds, rfl⟩ : ∃ n, rounds = n + 1 := ⟨rounds - 1, by omega⟩
    -- the frames behind the first one
    have hnext : ∀ offset' fragments, offset' = offset + bs.length →
        fragmentsFrom data rounds offset' fragments =
          .ok ((cryptoFrames (readFrames frames)).foldl (fun d e => d.set e.1 e.2) fragments) := by
      intro offset' fragments hoffset'
      have hbehind : data = (pre ++ bs) ++ parts.flatten := by rw [hdata, List.append_assoc]
      exact ih hbehind (by rw [hoffset', hoffset, List.length_append]) (by omega) fragments
    rw [fragmentsFrom, if_neg (by omega)]
    cases hf with
    | padding ht =>
      rw [ht.varint_eq hdata hoffset, ok_bind]
      dsimp only
      rw [if_pos (.inl rfl), hnext _ _ rfl]
      rfl
    | ping ht =>
      rw [ht.varint_eq hdata hoffset, ok_bind]
      dsimp only
      rw [if_pos (.inr rfl), hnext _ _ rfl]
      rfl
    | @crypto t o l value position ht ho hl =>
      simp only [List.append_assoc] at hdata
      rw [ht.varint_eq hdata hoffset, ok_bind]
      dsimp only
      have hbehind : data = (pre ++ t) ++ (o ++ (l ++ (value ++ parts.flatten))) := by
        rw [hdata, List.append_assoc]
      have hbehind' : data = (pre ++ t ++ o) ++ (l ++ (value ++ parts.flatten)) := by
        rw [hdata, List.append_assoc, List.append_assoc]
      have hposition : varint data (offset + t.length) =
          .ok (position, offset + t.length + o.length) :=
        ho.varint_eq hbehind (by rw [List.length_append, hoffset])
      have hsize : varint data (offset + t.length + o.length) =
          .ok (value.length, offset + t.length + o.length + l.length) :=
        hl.varint_eq hbehind' (by rw [List.length_append, List.length_append, hoffset])
      have hvalue : slice data (offset + t.length + o.length + l.length)
          (offset + t.length + o.length + l.length + value.length) = value := by
        rw [slice, Nat.add_sub_cancel_left, hdata, hoffset]
        simp only [← List.drop_drop, List.drop_left, List.take_left]
      simp only [List.length_append] at hlength hnext
      rw [if_neg (by decide), if_pos rfl, hposition, ok_bind]
      dsimp only
      rw [hsize, ok_bind]
      dsimp only
      rw [raiseIf, if_neg (by omega), hvalue]
      exact hnext _ _ (by omega)
    | @other t body type ht hother =>
      -- a frame of another type ends the loop, whatever follows
      rw [List.append_assoc] at hdata
      simp only [List.mem_cons, List.not_mem_nil, or_false, not_or] at hother
      rw [ht.varint_eq hdata hoffset, ok_bind]
      dsimp only
      rw [if_neg (by tauto), if_neg hother.2.2]
      rfl

/-- The router reads the CRYPTO frames of a plaintext, the last one for each offset. -/
lemma cryptoFragments_eq {frames : List Frame} {plaintext : Bytes}
    (h : IsPlaintext frames plaintext) :
    cryptoFragments plaintext = .ok (Dict.ofList (cryptoFrames (readFrames frames))) := by
  obtain ⟨parts, hparts, rfl⟩ := h
  exact fragmentsFrom_eq hparts (List.nil_append _).symm rfl le_rfl Dict.empty

/-! ## Putting pieces together -/

/-- Pieces in the order of their offsets are laid over those before them. -/
lemma overlaid_assembleFrom {pieces l : List (ℕ × Bytes)} {assembled : Bytes}
    (h : Laid pieces assembled) (hsorted : l.Pairwise fun a b => a.1 ≤ b.1)
    (hlater : ∀ d ∈ pieces, ∀ e ∈ l, d.1 ≤ e.1) :
    Overlaid (pieces ++ l) (assembleFrom assembled l) := by
  induction l generalizing pieces assembled with
  | nil =>
    rw [assembleFrom]
    exact h.overlaid (fun e he => absurd he List.not_mem_nil)
  | cons e l ih =>
    obtain ⟨hfirst, hsorted⟩ := List.pairwise_cons.mp hsorted
    rw [assembleFrom]
    split
    · -- a gap: all that follows starts behind it
      rename_i hgap
      refine h.overlaid fun e' he' => ?_
      rcases List.mem_cons.mp he' with rfl | he'
      · exact hgap
      · exact lt_of_lt_of_le hgap (hfirst e' he')
    · rename_i hgap
      have hnext := h.snoc (fun d hd => hlater d hd e List.mem_cons_self) (not_lt.mp hgap)
      rw [List.append_cons]
      refine ih hnext hsorted fun d hd e' he' => ?_
      rcases List.mem_append.mp hd with hd | hd
      · exact hlater d hd e' (List.mem_cons_of_mem _ he')
      · rw [List.mem_singleton.mp hd]
        exact hfirst e' he'

/-- Fragments are put together up to the first gap. -/
lemma overlaid_assembleCrypto (fragments : Dict ℕ Bytes) :
    Overlaid fragments.entries (assembleCrypto fragments) := by
  let sorted := fragments.entries.insertionSort fun a b => a.1 ≤ b.1
  have hmem : ∀ e, e ∈ sorted ↔ e ∈ fragments.entries := fun e =>
    (List.perm_insertionSort _ _).mem_iff
  have hsorted : Overlaid sorted (assembleCrypto fragments) :=
    overlaid_assembleFrom laid_nil (List.pairwise_insertionSort _ _)
      (fun d hd => absurd hd List.not_mem_nil)
  refine ⟨fun p hp => ?_, fun hcovered => hsorted.ends ?_⟩
  · obtain ⟨e, ⟨he, hholds, hfirst⟩, hvalue⟩ := hsorted.value p hp
    exact ⟨e, ⟨(hmem e).mp he, hholds, fun e' he' => hfirst e' ((hmem e').mpr he')⟩, hvalue⟩
  · obtain ⟨e, he, hholds⟩ := hcovered
    exact ⟨e, (hmem e).mpr he, hholds⟩

/-- Fragments that overlap, and may differ where they do, are put together up to the first position
that none of them holds, and the byte at each position is that of the fragment that starts first
among those that hold it. -/
theorem assembleCrypto_spec (fragments : Dict ℕ Bytes) :
    (∀ p, p < (assembleCrypto fragments).length ↔ ∀ q ≤ p, Covered fragments.entries q) ∧
    ∀ p < (assembleCrypto fragments).length, ∃ e, IsFirst fragments.entries e p ∧
      (∀ e', IsFirst fragments.entries e' p → e' = e) ∧
      (assembleCrypto fragments)[p]? = e.2[p - e.1]? := by
  have h := overlaid_assembleCrypto fragments
  refine ⟨h.lt_length_iff, fun p hp => ?_⟩
  obtain ⟨⟨offset, data⟩, hfirst, hvalue⟩ := h.value p hp
  refine ⟨(offset, data), hfirst, ?_, hvalue⟩
  rintro ⟨offset', data'⟩ hfirst'
  -- both start at the same position, where there is one fragment
  have hle := hfirst.2.2 _ hfirst'.1 hfirst'.2.1
  have hge := hfirst'.2.2 _ hfirst.1 hfirst.2.1
  obtain rfl : offset = offset' := le_antisymm hle hge
  have hdata := Dict.mem_entries_iff.mp hfirst'.1
  rw [Dict.mem_entries_iff.mp hfirst.1] at hdata
  rw [Option.some.inj hdata]

/-- The bytes that are put together are the longest prefix that the kept pieces cover. -/
lemma longestCovered_assembleCrypto {M : Bytes} {fragments : Dict ℕ Bytes}
    (h : ∀ e ∈ fragments.entries, IsPiece M e) :
    LongestCovered M fragments.entries (assembleCrypto fragments) :=
  (overlaid_assembleCrypto fragments).longestCovered h

/-! ## A sequence of packets -/

/-- A position lies in a frame, and in all later ones with the offset of this frame. -/
def Survives (frames : List (ℕ × Bytes)) (p : ℕ) : Prop :=
  ∃ before e later, frames = before ++ e :: later ∧ Holds e p ∧ ∀ e' ∈ later, e'.1 = e.1 → Holds e' p

/-- What is kept of frames: the last one for each offset. -/
lemma covered_entries_iff {frames : List (ℕ × Bytes)} {fragments : Dict ℕ Bytes}
    (h : ∀ o, fragments.get? o = (Dict.ofList frames).get? o) (p : ℕ) :
    Covered fragments.entries p ↔ Survives frames p := by
  constructor
  · rintro ⟨⟨o, data⟩, he, hholds⟩
    rw [Dict.mem_entries_iff, h] at he
    obtain ⟨before, later, heq, hne⟩ := Dict.get?_ofList_eq_some_iff.mp he
    exact ⟨before, (o, data), later, heq, hholds, fun e' he' ho => absurd ho (hne e' he')⟩
  · rintro ⟨before, ⟨o, data⟩, later, rfl, hholds, hlater⟩
    have hget : fragments.get? o = (later.reverse.lookup o).or (some data) := by
      rw [h, Dict.get?_ofList, List.reverse_append, List.reverse_cons, List.append_assoc,
        Dict.lookup_append, List.singleton_append, Dict.lookup_cons_eq_ite, if_pos rfl]
    -- a later fragment at the same offset replaces this one
    cases hlast : later.reverse.lookup o with
    | none =>
      rw [hlast, Option.none_or] at hget
      exact ⟨(o, data), Dict.mem_entries_iff.mpr hget, hholds⟩
    | some data' =>
      rw [hlast, Option.some_or] at hget
      have hmem : (o, data') ∈ later := List.mem_reverse.mp (Dict.mem_of_lookup_eq_some hlast)
      exact ⟨(o, data'), Dict.mem_entries_iff.mpr hget, hlater (o, data') hmem rfl⟩

/-- The CRYPTO frames that the router reads from packets. -/
def framesRead (packets : List (List Frame)) : List (ℕ × Bytes) :=
  packets.flatMap fun frames => cryptoFrames (readFrames frames)

lemma foldlM_foldCrypto {packets : List (List Frame)} {plaintexts : List Bytes}
    (h : List.Forall₂ IsPlaintext packets plaintexts) (fragments : Dict ℕ Bytes) :
    ∃ fragments', plaintexts.foldlM Router.foldCrypto fragments = .ok fragments' ∧ ∀ o,
      fragments'.get? o = ((framesRead packets).reverse.lookup o).or (fragments.get? o) := by
  induction h generalizing fragments with
  | nil => exact ⟨fragments, rfl, fun o => rfl⟩
  | @cons frames plaintext packets plaintexts hplaintext hrest ih =>
    obtain ⟨fragments', hfold, hget⟩ := ih
      (fragments.update (Dict.ofList (cryptoFrames (readFrames frames))))
    have hfirst : Router.foldCrypto fragments plaintext =
        .ok (fragments.update (Dict.ofList (cryptoFrames (readFrames frames)))) := by
      rw [Router.foldCrypto, cryptoFragments_eq hplaintext, ok_bind]
      rfl
    refine ⟨fragments', ?_, fun o => ?_⟩
    · rw [List.foldlM_cons, hfirst, ok_bind]
      exact hfold
    · have hsplit : framesRead (frames :: packets) =
          cryptoFrames (readFrames frames) ++ framesRead packets := List.flatMap_cons
      rw [hget, Dict.get?_update, Dict.get?_ofList, hsplit, List.reverse_append, Dict.lookup_append,
        Option.or_assoc]

lemma cryptoFrames_subset {packets : List (List Frame)} {e : ℕ × Bytes}
    (he : e ∈ framesRead packets) : e ∈ packets.flatMap cryptoFrames := by
  obtain ⟨frames, hframes, he⟩ := List.mem_flatMap.mp he
  obtain ⟨f, hf, heq⟩ := List.mem_filterMap.mp he
  exact List.mem_flatMap.mpr ⟨frames, hframes,
    List.mem_filterMap.mpr ⟨f, (List.takeWhile_prefix _).subset hf, heq⟩⟩

lemma Survives.covered {packets : List (List Frame)} {p : ℕ} (h : Survives (framesRead packets) p) :
    Covered (packets.flatMap cryptoFrames) p := by
  obtain ⟨before, e, later, heq, hholds, -⟩ := h
  refine ⟨e, cryptoFrames_subset ?_, hholds⟩
  rw [heq]
  exact List.mem_append_right _ List.mem_cons_self

/-- The state behind some packets. -/
lemma longestCovered_iff {M : Bytes} {packets : List (List Frame)} {plaintexts : List Bytes}
    (h : List.Forall₂ IsPlaintext packets plaintexts)
    (hslices : ∀ frames ∈ packets, ∀ e ∈ cryptoFrames frames, IsPiece M e) :
    (∃ fragments, plaintexts.foldlM Router.foldCrypto Dict.empty = .ok fragments ∧
      LongestCovered M (packets.flatMap cryptoFrames) (assembleCrypto fragments)) ↔
    ∀ p, (∀ q ≤ p, Covered (packets.flatMap cryptoFrames) q) → Survives (framesRead packets) p := by
  obtain ⟨fragments, hfold, hget⟩ := foldlM_foldCrypto h Dict.empty
  have hkept : ∀ o, fragments.get? o = (Dict.ofList (framesRead packets)).get? o := by
    intro o
    rw [hget, Dict.get?_ofList, Dict.get?_empty, Option.or_none]
  have hpieces : ∀ e ∈ fragments.entries, IsPiece M e := by
    rintro ⟨o, data⟩ he
    rw [Dict.mem_entries_iff, hkept, Dict.get?_ofList] at he
    have hread : (o, data) ∈ framesRead packets :=
      List.mem_reverse.mp (Dict.mem_of_lookup_eq_some he)
    obtain ⟨frames, hframes, hmem⟩ := List.mem_flatMap.mp (cryptoFrames_subset hread)
    exact hslices frames hframes _ hmem
  have hcovered := covered_entries_iff hkept
  have hiff : LongestCovered M (packets.flatMap cryptoFrames) (assembleCrypto fragments) ↔ _ :=
    longestCovered_iff_of_subset (fun p hp => ((hcovered p).mp hp).covered)
      (longestCovered_assembleCrypto hpieces)
  simp only [hcovered] at hiff
  rw [← hiff]
  constructor
  · rintro ⟨fragments', hfold', hlongest⟩
    rw [hfold] at hfold'
    rwa [← Except.ok.inj hfold'] at hlongest
  · exact fun hlongest => ⟨fragments, hfold, hlongest⟩

/-- The bytes put together behind each packet are all that they could be exactly when each
position that the frames so far cover without a gap lies in a frame that is read, and in all
later ones with the same offset. -/
theorem reassembled_iff {M : Bytes} {packets : List (List Frame)} {plaintexts : List Bytes}
    (h : List.Forall₂ IsPlaintext packets plaintexts)
    (hslices : ∀ frames ∈ packets, ∀ e ∈ cryptoFrames frames, IsPiece M e) :
    (∀ i ≤ plaintexts.length, ∃ fragments,
      (plaintexts.take i).foldlM Router.foldCrypto Dict.empty = .ok fragments ∧
      LongestCovered M ((packets.take i).flatMap cryptoFrames) (assembleCrypto fragments)) ↔
    ∀ i ≤ plaintexts.length, ∀ p, (∀ q ≤ p, Covered ((packets.take i).flatMap cryptoFrames) q) →
      Survives (framesRead (packets.take i)) p := by
  have hstep : ∀ i, (∃ fragments, (plaintexts.take i).foldlM Router.foldCrypto Dict.empty = .ok fragments ∧
      LongestCovered M ((packets.take i).flatMap cryptoFrames) (assembleCrypto fragments)) ↔
      ∀ p, (∀ q ≤ p, Covered ((packets.take i).flatMap cryptoFrames) q) →
        Survives (framesRead (packets.take i)) p := by
    intro i
    exact longestCovered_iff (List.forall₂_take i h) fun frames hframes =>
      hslices frames (List.mem_of_mem_take hframes)
  simp only [hstep]

/-- A plaintext with one CRYPTO frame at the start of the ClientHello. -/
lemma isPlaintext_crypto {n : UInt8} {data : Bytes} (hn : n.toNat = data.length) (hlt : n.toNat < 64) :
    IsPlaintext [.crypto 0 data] ([6, 0, n] ++ data) := by
  refine ⟨[[6, 0, n] ++ data], .cons ?_ .nil, by simp⟩
  exact .crypto (isVarint_byte (n := 6) (by decide)) (isVarint_byte (n := 0) (by decide))
    (hn ▸ isVarint_byte hlt)

/-- One frame: all of it is there. -/
theorem reassembled_single : ∃ fragments,
    List.foldlM Router.foldCrypto Dict.empty [[6, 0, 3, 1, 2, 3]] = .ok fragments ∧
    LongestCovered [1, 2, 3] [(0, [1, 2, 3])] (assembleCrypto fragments) := by
  have hplaintext : IsPlaintext [.crypto 0 [1, 2, 3]] [6, 0, 3, 1, 2, 3] :=
    isPlaintext_crypto (n := 3) rfl (by decide)
  have hslices : ∀ frames ∈ [[Frame.crypto 0 [1, 2, 3]]], ∀ e ∈ cryptoFrames frames,
      IsPiece [1, 2, 3] e := by
    simp [cryptoFrames, IsPiece]
  refine (reassembled_iff (.cons hplaintext .nil) hslices).mpr (fun i hi p hp => ?_) 1 le_rfl
  obtain ⟨e, he, hholds⟩ := hp p le_rfl
  have hi : i ≤ 1 := hi
  interval_cases i
  · exact absurd he List.not_mem_nil
  · exact ⟨[], e, [], by rw [List.mem_singleton.mp he]; rfl, hholds, by simp⟩

/-- A short frame in the place of a longer one: bytes that were there are lost. -/
theorem reassembled_shrinks : ¬ ∀ (M : Bytes) (packets : List (List Frame)) (plaintexts : List Bytes),
    List.Forall₂ IsPlaintext packets plaintexts → plaintexts.length ≤ 8 →
    (∀ frames ∈ packets, ∀ e ∈ cryptoFrames frames, IsPiece M e) →
    ∀ i ≤ plaintexts.length, ∃ fragments,
      (plaintexts.take i).foldlM Router.foldCrypto Dict.empty = .ok fragments ∧
      LongestCovered M ((packets.take i).flatMap cryptoFrames) (assembleCrypto fragments) := by
  intro hclaim
  have hlong : IsPlaintext [.crypto 0 [1, 2, 3]] [6, 0, 3, 1, 2, 3] :=
    isPlaintext_crypto (n := 3) rfl (by decide)
  have hshort : IsPlaintext [.crypto 0 [1, 2]] [6, 0, 2, 1, 2] :=
    isPlaintext_crypto (n := 2) rfl (by decide)
  obtain ⟨fragments, hfold, hlongest⟩ := hclaim [1, 2, 3] [[.crypto 0 [1, 2, 3]], [.crypto 0 [1, 2]]]
    [[6, 0, 3, 1, 2, 3], [6, 0, 2, 1, 2]]
    (.cons hlong (.cons hshort .nil)) (by decide) (by simp [cryptoFrames, IsPiece]) 2 (by decide)
  have hassembled : ((List.foldlM Router.foldCrypto Dict.empty
      [[6, 0, 3, 1, 2, 3], [6, 0, 2, 1, 2]]).map assembleCrypto).toOption = some [1, 2] := by
    decide
  have hfold : List.foldlM Router.foldCrypto Dict.empty [[6, 0, 3, 1, 2, 3], [6, 0, 2, 1, 2]] =
      .ok fragments := hfold
  rw [hfold] at hassembled
  have hleft : assembleCrypto fragments = [1, 2] := Option.some.inj hassembled
  have hwhole : LongestCovered [1, 2, 3] [(0, [1, 2, 3]), (0, [1, 2])] ([1, 2, 3] : Bytes) :=
    ⟨3, le_rfl, rfl, by decide, by decide⟩
  have hlost := hwhole.unique hlongest
  rw [hleft] at hlost
  exact absurd hlost (by decide)

end Portwyrm.Quic

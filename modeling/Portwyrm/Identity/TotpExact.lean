import Portwyrm.Identity.Totp

/-!
# Which time-based codes are accepted

What `verify_totp` answers, against the codes of the counters around a moment.  The authentication
code is any function, so the conditions are read off from authentication codes that give a chosen
number to one message.
-/

namespace Portwyrm.Identity.Totp

open Base Binary64

/-! ## One offset -/

/-- The counter at an offset from a moment. -/
def counterAt (time offset : ℤ) : Result ℤ := do
  let moment ← toFloat time
  let shift ← toFloat (offset * 30)
  counter (add moment shift) 30

variable {hmacSha1 : List UInt8 → List UInt8 → Vector UInt8 20} {secret code : String}
  {time w offset : ℤ}

variable (hmacSha1 secret code time) in
/-- What `verify_totp` does at an offset. -/
def attempt (offset : ℤ) : Result Bool := do
  let counter ← counterAt time offset
  let key ← decodeBase32 secret
  let message ← packCounter counter
  compareDigest (truncated (hmacSha1 key message) 6) code

variable (hmacSha1 secret) in
/-- The code of a counter, which there is for a secret in base32 and a counter of 64 bits. -/
def codeOf (c : ℕ) : Option String :=
  if c < 2 ^ 64 then
    (decodeBase32 secret).toOption.map fun key => truncated (hmacSha1 key (Bytes.ofNat 8 c)) 6
  else none

lemma packCounter_eq_ok_iff {c : ℤ} {message : List UInt8} :
    packCounter c = .ok message ↔
      ∃ n : ℕ, n < 2 ^ 64 ∧ c = n ∧ Bytes.ofNat 8 n = message := by
  unfold packCounter
  split
  · rename_i h
    rw [pure_eq_ok_iff]
    constructor
    · intro hmessage
      exact ⟨c.toNat, by omega, by omega, hmessage⟩
    · rintro ⟨n, hn, rfl, hmessage⟩
      exact hmessage
  · rename_i h
    refine iff_of_false throw_ne_ok ?_
    rintro ⟨n, hn, rfl, -⟩
    exact h (by omega)

lemma codeOf_eq_some_iff {c : ℕ} {s : String} :
    codeOf hmacSha1 secret c = some s ↔ c < 2 ^ 64 ∧ ∃ key, decodeBase32 secret = .ok key ∧
      truncated (hmacSha1 key (Bytes.ofNat 8 c)) 6 = s := by
  by_cases h : c < 2 ^ 64
  · rw [codeOf, if_pos h, and_iff_right h]
    cases decodeBase32 secret <;> simp [Except.toOption]
  · rw [codeOf, if_neg h]
    exact iff_of_false (by rintro ⟨⟩) fun hc => h hc.1

/-- A code has six digits. -/
lemma exists_truncated_eq (digest : Vector UInt8 20) :
    ∃ n < 10 ^ 6, truncated digest 6 = Decimal.zfill 6 (toString n) :=
  ⟨_, Nat.mod_lt _ (by decide), rfl⟩

lemma compareDigest_eq_ok_iff {a b : String} {equal : Bool} (ha : Decimal.IsAscii a) :
    compareDigest a b = .ok equal ↔ Decimal.IsAscii b ∧ (a == b) = equal := by
  unfold compareDigest
  split
  · rename_i h
    rw [pure_eq_ok_iff]
    exact (and_iff_right h.2).symm
  · rename_i h
    exact iff_of_false throw_ne_ok fun hb => h ⟨ha, hb.1⟩

/-- An offset does not raise when it has a counter of 64 bits, the secret is in base32 and the code
is in ASCII. -/
lemma attempt_eq_ok_iff {accepted : Bool} :
    attempt hmacSha1 secret code time offset = .ok accepted ↔
      ∃ c : ℕ, c < 2 ^ 64 ∧ counterAt time offset = .ok (c : ℤ) ∧
        ∃ key, decodeBase32 secret = .ok key ∧ Decimal.IsAscii code ∧
          (truncated (hmacSha1 key (Bytes.ofNat 8 c)) 6 == code) = accepted := by
  have hascii : ∀ digest, Decimal.IsAscii (truncated digest 6) := by
    intro digest
    obtain ⟨n, hn, hcode⟩ := exists_truncated_eq digest
    exact hcode ▸ Decimal.isAscii_zfill_toString (by decide) hn
  simp only [attempt, bind_eq_ok_iff, packCounter_eq_ok_iff, compareDigest_eq_ok_iff (hascii _)]
  constructor
  · rintro ⟨counter, hcounter, key, hkey, message, ⟨c, hc, rfl, rfl⟩, hcode⟩
    exact ⟨c, hc, hcounter, key, hkey, hcode⟩
  · rintro ⟨c, hc, hcounter, key, hkey, hcode⟩
    exact ⟨c, hcounter, key, hkey, _, ⟨c, hc, rfl, rfl⟩, hcode⟩

/-! ## The window -/

/-- The code is refused before a moment is looked at. -/
def Refused (code : String) (w : ℤ) : Prop :=
  w < 0 ∨ Decimal.isDigit code = false ∨ code.length ≠ 6

lemma mem_offsets_iff : offset ∈ offsets w ↔ -w ≤ offset ∧ offset ≤ w := by
  rw [offsets, List.mem_map]
  constructor
  · rintro ⟨i, hi, rfl⟩
    have hlt := List.mem_range.mp hi
    omega
  · rintro ⟨hlow, hhigh⟩
    exact ⟨(offset + w).toNat, List.mem_range.mpr (by omega), by omega⟩

/-- Behind the checks of the code every offset of the window is tried, up to the first one that
accepts the code. -/
lemma verifyTotp_eq (h : ¬ Refused code w) :
    verifyTotp hmacSha1 secret code time w =
      (offsets w).anyM (attempt hmacSha1 secret code time) := by
  have hw : 0 ≤ w := not_lt.mp fun hneg => h (.inl hneg)
  unfold Refused at h
  unfold verifyTotp attempt counterAt
  rw [if_neg h]
  cases hmoment : toFloat time with
  | error e =>
    obtain ⟨first, rest, hrange⟩ := List.exists_cons_of_ne_nil
      (List.ne_nil_of_mem (mem_offsets_iff.mpr ⟨le_refl (-w), by omega⟩))
    rw [hrange]
    rfl
  | ok moment =>
    refine congrArg (fun f => List.anyM f (offsets w)) (funext fun offset => ?_)
    rw [ok_bind]
    simp [totpCode, raiseIf]

variable (hmacSha1) in
/-- Where no offset raises, a code is accepted when it is the code of the counter at an offset. -/
lemma exists_verifyTotp_eq (h : ¬ Refused code w) (hascii : Decimal.IsAscii code)
    {key : List UInt8} (hkey : decodeBase32 secret = .ok key)
    (hpacks : ∀ o ∈ offsets w, ∃ c : ℕ, c < 2 ^ 64 ∧ counterAt time o = .ok (c : ℤ)) :
    ∃ accepted, verifyTotp hmacSha1 secret code time w = .ok accepted ∧
      (accepted = true ↔ ∃ c : ℕ, (∃ o ∈ offsets w, counterAt time o = .ok (c : ℤ)) ∧
        codeOf hmacSha1 secret c = some code) := by
  have htotal : ∀ o ∈ offsets w, ∃ b, attempt hmacSha1 secret code time o = .ok b := by
    intro o ho
    obtain ⟨c, hc, hcounter⟩ := hpacks o ho
    exact ⟨_, attempt_eq_ok_iff.mpr ⟨c, hc, hcounter, key, hkey, hascii, rfl⟩⟩
  obtain ⟨accepted, hany, hiff⟩ := exists_anyM_eq_ok htotal
  refine ⟨accepted, (verifyTotp_eq h).trans hany, hiff.trans ?_⟩
  constructor
  · rintro ⟨o, ho, hattempt⟩
    obtain ⟨c, hc, hcounter, key, hkey, -, hcode⟩ := attempt_eq_ok_iff.mp hattempt
    exact ⟨c, ⟨o, ho, hcounter⟩, codeOf_eq_some_iff.mpr ⟨hc, key, hkey, beq_iff_eq.mp hcode⟩⟩
  · rintro ⟨c, ⟨o, ho, hcounter⟩, hcode⟩
    obtain ⟨hc, key, hkey, hcode⟩ := codeOf_eq_some_iff.mp hcode
    exact ⟨o, ho, attempt_eq_ok_iff.mpr ⟨c, hc, hcounter, key, hkey, hascii, beq_iff_eq.mpr hcode⟩⟩

/-! ## Chosen digests -/

/-- A digest with a given number. -/
def digestOf (n : ℕ) : Vector UInt8 20 :=
  ⟨(Bytes.ofNat 4 n ++ List.replicate 16 0).toArray, by simp⟩

lemma truncated_digestOf {n : ℕ} (h : n < 10 ^ 6) :
    truncated (digestOf n) 6 = Decimal.zfill 6 (toString n) := by
  have hlast : (digestOf n)[19] = 0 := by
    simp [digestOf]
  have hbytes : ((digestOf n).toList.drop 0).take 4 = Bytes.ofNat 4 n := by
    simp [digestOf]
  have hbinary : Bytes.toNat (Bytes.ofNat 4 n) &&& 0x7FFFFFFF = n := by
    rw [Bytes.toNat_ofNat (by omega)]
    exact (Nat.and_two_pow_sub_one_eq_mod n 31).trans (Nat.mod_eq_of_lt (by omega))
  have hoffset : (0 : UInt8).toNat &&& 0x0F = 0 := rfl
  simp only [truncated, hlast, hoffset, hbytes, hbinary, Nat.mod_eq_of_lt h]

/-- An authentication code with one number for the message of a counter, and another one for all
other messages. -/
def chosen (c n other : ℕ) (_key message : List UInt8) : Vector UInt8 20 :=
  if message = Bytes.ofNat 8 c then digestOf n else digestOf other

lemma codeOf_chosen_iff {c c' n other : ℕ} {key : List UInt8}
    (hkey : decodeBase32 secret = .ok key) (hn : n < 10 ^ 6) (hother : other < 10 ^ 6)
    (hcode : Decimal.zfill 6 (toString n) = code) (hne : Decimal.zfill 6 (toString other) ≠ code)
    (hc : c < 2 ^ 64) :
    codeOf (chosen c n other) secret c' = some code ↔ c' = c := by
  rw [codeOf_eq_some_iff]
  constructor
  · rintro ⟨hc', key, -, htruncated⟩
    by_contra hdiff
    have hmessage : Bytes.ofNat 8 c' ≠ Bytes.ofNat 8 c := fun h =>
      hdiff (Bytes.ofNat_injective hc' hc h)
    rw [chosen, if_neg hmessage, truncated_digestOf hother] at htruncated
    exact hne htruncated
  · rintro rfl
    exact ⟨hc, key, hkey, by rw [chosen, if_pos rfl, truncated_digestOf hn, hcode]⟩

/-! ## Exactness -/

/-- A counter of the window around a moment. -/
def InWindow (time w : ℤ) (c : ℕ) : Prop := time / 30 - w ≤ c ∧ c ≤ time / 30 + w

/-- Whatever the authentication code, `verify_totp` answers, and its answer is whether the code is
the code of a counter of the window. -/
def Exact (secret code : String) (time w : ℤ) : Prop :=
  ∀ hmacSha1, ∃ accepted, verifyTotp hmacSha1 secret code time w = .ok accepted ∧
    (accepted = true ↔ ∃ c : ℕ, InWindow time w c ∧ codeOf hmacSha1 secret c = some code)

/-- The counters that are computed with doubles are the ones of the window, and have 64 bits. -/
structure WindowExact (time w : ℤ) : Prop where
  packs : ∀ o ∈ offsets w, ∃ c : ℕ, c < 2 ^ 64 ∧ counterAt time o = .ok (c : ℤ)
  counters : ∀ c : ℕ, c < 2 ^ 64 →
    ((∃ o ∈ offsets w, counterAt time o = .ok (c : ℤ)) ↔ InWindow time w c)

/-- A code that is refused is the code of no counter of the window. -/
lemma exact_of_refused (h : Refused code w) : Exact secret code time w := by
  intro hmacSha1
  refine ⟨false, by rw [verifyTotp]; exact if_pos h, iff_of_false nofun ?_⟩
  rintro ⟨c, ⟨hlow, hhigh⟩, hcode⟩
  obtain ⟨-, key, -, htruncated⟩ := codeOf_eq_some_iff.mp hcode
  obtain ⟨n, hn, hdigits⟩ := exists_truncated_eq (hmacSha1 key (Bytes.ofNat 8 c))
  obtain rfl : Decimal.zfill 6 (toString n) = code := hdigits.symm.trans htruncated
  rcases h with hw | hdigit | hlength
  · omega
  · rw [Decimal.isDigit_zfill_toString (by decide) hn] at hdigit
    exact absurd hdigit (by decide)
  · exact hlength (Decimal.length_zfill_toString (by decide) hn)

lemma exact_of_windowExact (hascii : Decimal.IsAscii code) {key : List UInt8}
    (hkey : decodeBase32 secret = .ok key) (hwindow : WindowExact time w) :
    Exact secret code time w := by
  by_cases h : Refused code w
  · exact exact_of_refused h
  intro hmacSha1
  obtain ⟨accepted, hverify, hiff⟩ := exists_verifyTotp_eq hmacSha1 h hascii hkey hwindow.packs
  refine ⟨accepted, hverify, hiff.trans (exists_congr fun c => and_congr_left fun hcode => ?_)⟩
  exact hwindow.counters c (codeOf_eq_some_iff.mp hcode).1

/-- With an authentication code that gives another code to every counter, no offset raises. -/
lemma attempt_of_exact (h : ¬ Refused code w) (hexact : Exact secret code time w) :
    ∃ hmacSha1, ∀ o ∈ offsets w, attempt hmacSha1 secret code time o = .ok false := by
  obtain ⟨n, hn, hne⟩ := Decimal.exists_zfill_toString_ne (k := 6) (by decide) code
  refine ⟨fun _ _ => digestOf n, anyM_eq_false_iff.mp ?_⟩
  obtain ⟨accepted, hverify, hiff⟩ := hexact fun _ _ => digestOf n
  rw [← verifyTotp_eq h, hverify]
  cases accepted with
  | false => rfl
  | true =>
    obtain ⟨c, -, hcode⟩ := hiff.mp rfl
    obtain ⟨-, key, -, htruncated⟩ := codeOf_eq_some_iff.mp hcode
    exact absurd ((truncated_digestOf hn).symm.trans htruncated) hne

/-- An exact answer to a code that is not refused needs a code in ASCII and a secret in base32. -/
lemma decodes_of_exact (h : ¬ Refused code w) (hexact : Exact secret code time w) :
    Decimal.IsAscii code ∧ ∃ key, decodeBase32 secret = .ok key := by
  have hw : 0 ≤ w := not_lt.mp fun hneg => h (.inl hneg)
  obtain ⟨hmacSha1, hattempts⟩ := attempt_of_exact h hexact
  obtain ⟨-, -, -, key, hkey, hascii, -⟩ := attempt_eq_ok_iff.mp
    (hattempts (-w) (mem_offsets_iff.mpr ⟨le_refl (-w), by omega⟩))
  exact ⟨hascii, key, hkey⟩

lemma windowExact_of_exact (h : ¬ Refused code w) (hexact : Exact secret code time w) :
    WindowExact time w := by
  obtain ⟨hascii, key, hkey⟩ := decodes_of_exact h hexact
  have hpacks : ∀ o ∈ offsets w, ∃ c : ℕ, c < 2 ^ 64 ∧ counterAt time o = .ok (c : ℤ) := by
    obtain ⟨hmacSha1, hattempts⟩ := attempt_of_exact h hexact
    intro o ho
    obtain ⟨c, hc, hcounter, -⟩ := attempt_eq_ok_iff.mp (hattempts o ho)
    exact ⟨c, hc, hcounter⟩
  have hdigit : Decimal.isDigit code = true :=
    Bool.eq_true_of_not_eq_false fun hfalse => h (.inr (.inl hfalse))
  have hlength : code.length = 6 := not_not.mp fun hne => h (.inr (.inr hne))
  obtain ⟨n, hn, hcode⟩ := Decimal.exists_zfill_toString_eq (by decide) hlength hdigit hascii
  obtain ⟨other, hother, hne⟩ := Decimal.exists_zfill_toString_ne (k := 6) (by decide) code
  refine ⟨hpacks, fun c hc => ?_⟩
  -- only the counter `c` has the code
  have hchosen : ∀ c', codeOf (chosen c n other) secret c' = some code ↔ c' = c := fun c' =>
    codeOf_chosen_iff hkey hn hother hcode hne hc
  obtain ⟨accepted, hverify, hiff⟩ := hexact (chosen c n other)
  obtain ⟨accepted', hverify', hiff'⟩ :=
    exists_verifyTotp_eq (chosen c n other) h hascii hkey hpacks
  obtain rfl : accepted = accepted' := Except.ok.inj (hverify.symm.trans hverify')
  simp only [hchosen, exists_eq_right] at hiff hiff'
  exact hiff'.symm.trans hiff

/-! ## The window below `2 ^ 53` -/

lemma toFloat_of_abs_lt {n : ℤ} (h : |n| < 2 ^ 53) : toFloat n = .ok (n : ℚ) := by
  rw [toFloat, ofInt_of_abs_lt h, Option.elim_some]
  rfl

/-- Where doubles are exact, an offset moves the counter by itself. -/
lemma counterAt_of_abs_lt (htime : |time| < 2 ^ 53) (hshift : |offset * 30| < 2 ^ 53)
    (hsum : |time + offset * 30| < 2 ^ 53) :
    counterAt time offset = .ok (time / 30 + offset) := by
  have hperiod : toFloat 30 = .ok ((30 : ℕ) : ℚ) := toFloat_of_abs_lt (n := 30) (by decide)
  have hquot : trunc (floorDiv ((time + offset * 30 : ℤ) : ℚ) (30 : ℕ)) = time / 30 + offset := by
    rw [floorDiv_intCast (by decide) hsum, trunc_intCast]
    omega
  simp only [counterAt, counter, toFloat_of_abs_lt htime, toFloat_of_abs_lt hshift, ok_bind,
    add_intCast hsum, hperiod, hquot]
  rfl

/-- Where doubles are exact, the window is served when it does not reach back before the epoch. -/
theorem windowExact_iff (htime : 0 ≤ time) (hw : 0 ≤ w) (hlt : time + 30 * w < 2 ^ 53) :
    WindowExact time w ↔ w ≤ time / 30 := by
  have hcounter : ∀ o ∈ offsets w, counterAt time o = .ok (time / 30 + o) := by
    intro o ho
    obtain ⟨hlow, hhigh⟩ := mem_offsets_iff.mp ho
    exact counterAt_of_abs_lt (abs_lt.mpr ⟨by omega, by omega⟩) (abs_lt.mpr ⟨by omega, by omega⟩)
      (abs_lt.mpr ⟨by omega, by omega⟩)
  constructor
  · intro hwindow
    have hfirst : -w ∈ offsets w := mem_offsets_iff.mpr ⟨le_refl (-w), by omega⟩
    obtain ⟨c, -, hc⟩ := hwindow.packs (-w) hfirst
    have heq : time / 30 + -w = c := Except.ok.inj ((hcounter (-w) hfirst).symm.trans hc)
    omega
  · intro hepoch
    refine ⟨fun o ho => ?_, fun c hc => ?_⟩
    · obtain ⟨hlow, hhigh⟩ := mem_offsets_iff.mp ho
      refine ⟨(time / 30 + o).toNat, by omega, (hcounter o ho).trans ?_⟩
      rw [Int.toNat_of_nonneg (by omega)]
    · constructor
      · rintro ⟨o, ho, hc⟩
        obtain ⟨hlow, hhigh⟩ := mem_offsets_iff.mp ho
        have heq : time / 30 + o = c := Except.ok.inj ((hcounter o ho).symm.trans hc)
        exact ⟨by omega, by omega⟩
      · rintro ⟨hlow, hhigh⟩
        have ho : c - time / 30 ∈ offsets w := mem_offsets_iff.mpr ⟨by omega, by omega⟩
        refine ⟨c - time / 30, ho, (hcounter _ ho).trans ?_⟩
        rw [add_sub_cancel]

/-- The window is answered for: below `2 ^ 53` it does not reach back before the epoch, and from
there on rounding leaves it as it is. -/
def WindowServed (time w : ℤ) : Prop :=
  if time + 30 * w < 2 ^ 53 then w ≤ time / 30 else WindowExact time w

/-- The answers of `verify_totp` are exact for a code that is refused, and else for a code in
ASCII, a secret in base32 and a window that is answered for. -/
theorem verifyTotp_exact_iff (secret code : String) (time : ℕ) (w : ℤ) :
    Exact secret code time w ↔ Refused code w ∨
      Decimal.IsAscii code ∧ (∃ key, decodeBase32 secret = .ok key) ∧ WindowServed time w := by
  by_cases h : Refused code w
  · exact iff_of_true (exact_of_refused h) (.inl h)
  have hw : 0 ≤ w := not_lt.mp fun hneg => h (.inl hneg)
  have hserved : WindowServed time w ↔ WindowExact time w := by
    unfold WindowServed
    split
    · rename_i hlt
      exact (windowExact_iff (by omega) hw hlt).symm
    · rfl
  rw [or_iff_right h, hserved]
  constructor
  · intro hexact
    obtain ⟨hascii, hdecodes⟩ := decodes_of_exact h hexact
    exact ⟨hascii, hdecodes, windowExact_of_exact h hexact⟩
  · rintro ⟨hascii, ⟨key, hkey⟩, hwindow⟩
    exact exact_of_windowExact hascii hkey hwindow

/-- Six digits that are not those of ASCII raise. -/
theorem not_exact_fullwidth :
    ¬ ∀ (secret code : String) (time : ℕ) (w : ℤ), Exact secret code time w := by
  intro hall
  have hrefused : ¬ Refused "１２３４５６" 1 := by
    rintro (hw | hdigit | hlength)
    · exact absurd hw (by decide)
    · exact absurd hdigit (by decide)
    · exact hlength rfl
  have hascii := (decodes_of_exact hrefused (hall "GEZDGNBVGY3TQOJQ" "１２３４５６" 59 1)).1
  exact absurd hascii (by decide)

end Portwyrm.Identity.Totp

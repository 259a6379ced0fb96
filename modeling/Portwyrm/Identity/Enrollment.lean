import Portwyrm.Identity.Login

/-!
# Enrolling a second factor

The operations of `MFAEnrollmentStore` that change the enrollments and the recovery codes: `begin`,
`confirm`, `disable` and `regenerate_backup_codes`.  The last two call `verify`.  Each operation is
one transaction, and the cipher is configured.
-/

namespace Portwyrm.Identity

open Base

/-! ## Primitives -/

/-- The primitives that make what the tables keep, from a nonce or a salt: encrypting a secret, and
hashing a recovery code. -/
structure EnrollmentPrimitives extends MfaPrimitives where
  encrypt : String → String → String
  hashBackupCode : String → String → String

/-- The recovery codes that a call draws, each of them with the salt of its hash. -/
abbrev CodeDraws := Fin 8 → String × String

/-- What `begin` draws. -/
structure EnrollmentDraws where
  secret : String
  nonce : String
  codes : CodeDraws

section MFAEnrollmentStore

variable (P : EnrollmentPrimitives) (now : ℤ)

/-- `generate_backup_codes`: the codes with their hashes. -/
def generateBackupCodes (draws : CodeDraws) : List (String × String) :=
  (List.ofFn draws).map fun d => (d.1, P.hashBackupCode d.2 d.1)

/-- The rows of generated codes. -/
def recoveryRows (principalId : ℕ) (codes : List (String × String)) : List RecoveryCodeRow :=
  codes.map fun c => ⟨principalId, c.2, none⟩

/-- The rows of all other principals. -/
def withoutCodes (principalId : ℕ) (rows : List RecoveryCodeRow) : List RecoveryCodeRow :=
  rows.filter fun r => r.principalId ≠ principalId

/-- `_delete_enrollment`. -/
def deleteEnrollment (principalId : ℕ) (t : IdentityTables) : IdentityTables :=
  match t.enrollments.get? principalId with
  | none => t
  | some _ =>
    { t with
      enrollments := t.enrollments.pop principalId
      recoveryCodes := withoutCodes principalId t.recoveryCodes }

/-- `begin`: the secret and the recovery codes. -/
def mfaBegin (principalId : ℕ) (draws : EnrollmentDraws) (t : IdentityTables) :
    Result ((String × List String) × IdentityTables) :=
  let t := deleteEnrollment principalId t
  let codes := generateBackupCodes P draws.codes
  let row : EnrollmentRow := ⟨P.encrypt draws.nonce draws.secret, false⟩
  pure ((draws.secret, codes.map Prod.fst),
    { t with
      enrollments := t.enrollments.set principalId row
      recoveryCodes := t.recoveryCodes ++ recoveryRows principalId codes })

/-- `confirm`. -/
def mfaConfirm (principalId : ℕ) (code : String) (t : IdentityTables) :
    Result (Bool × IdentityTables) :=
  match t.enrollments.get? principalId with
  | none => pure (false, t)
  | some row =>
    if row.confirmed then pure (false, t)
    else match P.decrypt row.encryptedSecret with
      | none => throw (.runtimeError "MFA secret cannot be decrypted")
      | some secret =>
        if P.verifyTotp secret code now then
          pure (true,
            { t with enrollments := t.enrollments.set principalId { row with confirmed := true } })
        else pure (false, t)

/-- `disable`. -/
def mfaDisable (principalId : ℕ) (code : String) (t : IdentityTables) :
    Result (Bool × IdentityTables) := do
  let (verified, t) ← mfaVerify P.toMfaPrimitives now principalId code t
  if verified then pure (true, deleteEnrollment principalId t) else pure (false, t)

/-- `regenerate_backup_codes`: the new codes, or nothing. -/
def mfaRegenerateBackupCodes (principalId : ℕ) (code : String) (draws : CodeDraws)
    (t : IdentityTables) : Result (Option (List String) × IdentityTables) := do
  let (verified, t) ← mfaVerify P.toMfaPrimitives now principalId code t
  match t.enrollments.get? principalId with
  | none => pure (none, t)
  | some row =>
    if verified = false ∨ row.confirmed = false then pure (none, t)
    else
      let codes := generateBackupCodes P draws
      pure (some (codes.map Prod.fst),
        { t with
          recoveryCodes :=
            withoutCodes principalId t.recoveryCodes ++ recoveryRows principalId codes })

variable {P now} in
/-- How confirming ends: nothing happens, or the enrollment is written. -/
lemma mfaConfirm_cases {principalId : ℕ} {code : String} {t t' : IdentityTables}
    {confirmed : Bool} (h : mfaConfirm P now principalId code t = .ok (confirmed, t')) :
    (confirmed = false ∧ t' = t) ∨
    (confirmed = true ∧ TotpValid P.toMfaPrimitives now t principalId code ∧
      ∃ row, { t with enrollments := t.enrollments.set principalId row } = t') := by
  unfold mfaConfirm at h
  split at h
  · obtain ⟨rfl, rfl⟩ := Prod.mk.inj (pure_eq_ok_iff.mp h)
    exact .inl ⟨rfl, rfl⟩
  · rename_i row hrow
    split at h
    · obtain ⟨rfl, rfl⟩ := Prod.mk.inj (pure_eq_ok_iff.mp h)
      exact .inl ⟨rfl, rfl⟩
    · split at h
      · exact absurd h throw_ne_ok
      · rename_i secret hsecret
        split at h
        · rename_i htotp
          obtain ⟨rfl, rfl⟩ := Prod.mk.inj (pure_eq_ok_iff.mp h)
          exact .inr ⟨rfl, ⟨row, secret, hrow, hsecret, htotp⟩, _, rfl⟩
        · obtain ⟨rfl, rfl⟩ := Prod.mk.inj (pure_eq_ok_iff.mp h)
          exact .inl ⟨rfl, rfl⟩

variable {P now} in
/-- How disabling ends: the code is verified, and then the enrollment is deleted or kept. -/
lemma mfaDisable_cases {principalId : ℕ} {code : String} {t t' : IdentityTables} {disabled : Bool}
    (h : mfaDisable P now principalId code t = .ok (disabled, t')) :
    ∃ verified t₁, mfaVerify P.toMfaPrimitives now principalId code t = .ok (verified, t₁) ∧
      ((verified = true ∧ disabled = true ∧ deleteEnrollment principalId t₁ = t') ∨
        (disabled = false ∧ t₁ = t')) := by
  obtain ⟨⟨verified, t₁⟩, hverify, hrest⟩ := bind_eq_ok_iff.mp h
  refine ⟨verified, t₁, hverify, ?_⟩
  dsimp only at hrest
  split at hrest
  · rename_i hverified
    obtain ⟨rfl, rfl⟩ := Prod.mk.inj (pure_eq_ok_iff.mp hrest)
    exact .inl ⟨hverified, rfl, rfl⟩
  · obtain ⟨rfl, rfl⟩ := Prod.mk.inj (pure_eq_ok_iff.mp hrest)
    exact .inr ⟨rfl, rfl⟩

variable {P now} in
/-- How regenerating ends: the code is verified, and then the codes are kept or made anew. -/
lemma mfaRegenerateBackupCodes_cases {principalId : ℕ} {code : String} {draws : CodeDraws}
    {t t' : IdentityTables} {codes : Option (List String)}
    (h : mfaRegenerateBackupCodes P now principalId code draws t = .ok (codes, t')) :
    ∃ verified t₁, mfaVerify P.toMfaPrimitives now principalId code t = .ok (verified, t₁) ∧
      ((codes = none ∧ t₁ = t') ∨
        (verified = true ∧ principalId ∈ t₁.enrollments ∧
          codes = some ((generateBackupCodes P draws).map Prod.fst) ∧
          { t₁ with
            recoveryCodes := withoutCodes principalId t₁.recoveryCodes ++
              recoveryRows principalId (generateBackupCodes P draws) } = t')) := by
  obtain ⟨⟨verified, t₁⟩, hverify, hrest⟩ := bind_eq_ok_iff.mp h
  refine ⟨verified, t₁, hverify, ?_⟩
  dsimp only at hrest
  split at hrest
  · obtain ⟨rfl, rfl⟩ := Prod.mk.inj (pure_eq_ok_iff.mp hrest)
    exact .inl ⟨rfl, rfl⟩
  · rename_i row hrow
    split at hrest
    · obtain ⟨rfl, rfl⟩ := Prod.mk.inj (pure_eq_ok_iff.mp hrest)
      exact .inl ⟨rfl, rfl⟩
    · rename_i hgiven
      obtain ⟨rfl, rfl⟩ := Prod.mk.inj (pure_eq_ok_iff.mp hrest)
      have hverified : verified = true := Bool.eq_true_of_not_eq_false fun h => hgiven (.inl h)
      exact .inr ⟨hverified, Dict.mem_iff.mpr ⟨row, hrow⟩, rfl, rfl⟩

end MFAEnrollmentStore

/-! ## Calls -/

/-- A call of an operation. -/
inductive MfaCall
  | begin (principalId : ℕ) (draws : EnrollmentDraws)
  | confirm (principalId : ℕ) (code : String)
  | verify (principalId : ℕ) (code : String)
  | disable (principalId : ℕ) (code : String)
  | regenerateBackupCodes (principalId : ℕ) (code : String) (draws : CodeDraws)

/-- What a call returns. -/
inductive MfaAnswer
  | begun (secret : String) (codes : List String)
  | confirmed (value : Bool)
  | verified (value : Bool)
  | disabled (value : Bool)
  | backupCodes (codes : Option (List String))

/-- The principal of a call. -/
def MfaCall.principalId : MfaCall → ℕ
  | .begin p _ | .confirm p _ | .verify p _ | .disable p _ | .regenerateBackupCodes p _ _ => p

/-- The code that a call presents. -/
def MfaCall.code : MfaCall → Option String
  | .begin _ _ => none
  | .confirm _ c | .verify _ c | .disable _ c | .regenerateBackupCodes _ c _ => some c

/-- The transaction of a call. -/
def MfaCall.transaction (P : EnrollmentPrimitives) (now : ℤ) (call : MfaCall)
    (t : IdentityTables) : Result (MfaAnswer × IdentityTables) :=
  match call with
  | .begin p draws => (mfaBegin P p draws t).map fun r => (.begun r.1.1 r.1.2, r.2)
  | .confirm p code => (mfaConfirm P now p code t).map fun r => (.confirmed r.1, r.2)
  | .verify p code =>
    (mfaVerify P.toMfaPrimitives now p code t).map fun r => (.verified r.1, r.2)
  | .disable p code => (mfaDisable P now p code t).map fun r => (.disabled r.1, r.2)
  | .regenerateBackupCodes p code draws =>
    (mfaRegenerateBackupCodes P now p code draws t).map fun r => (.backupCodes r.1, r.2)

end Portwyrm.Identity

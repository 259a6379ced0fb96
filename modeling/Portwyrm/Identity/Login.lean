import Portwyrm.Identity.Security
import Portwyrm.Identity.TokenApi

/-!
# Login and the second factor

The endpoints `login` and `complete_mfa_challenge` of `portwyrm.api.compat`, over the
operations of `CredentialStore` and `MFAEnrollmentStore`.  Email addresses are compared by
their ASCII case mappings.
-/

namespace Portwyrm.Identity

open Base

/-! ## The second factor -/

/-- The primitives of the second factor that lie outside the tables: decrypting an enrollment
secret (`Fernet`, which may refuse it), checking a time-based code at a moment, and checking a
recovery code against its digest. -/
structure MfaPrimitives where
  decrypt : String → Option String
  verifyTotp : String → String → ℤ → Bool
  verifyBackupCode : String → String → Bool

/-- The scope of a session that waits for the second factor. -/
def mfaScope : String := "mfa"

section MFAEnrollmentStore

variable (M : MfaPrimitives) (now : ℤ)

/-- `MFAEnrollmentStore.enabled`. -/
def mfaEnabled (principalId : ℕ) (t : IdentityTables) : Bool :=
  match t.enrollments.get? principalId with
  | some row => row.confirmed
  | none => false

/-- The first unused recovery code of a principal that accepts `code` is marked used. -/
def consumeRecoveryCode (principalId : ℕ) (code : String) :
    List RecoveryCodeRow → Option (List RecoveryCodeRow)
  | [] => none
  | r :: rest =>
    if r.principalId = principalId ∧ r.usedAt = none ∧ M.verifyBackupCode r.codeDigest code then
      some ({ r with usedAt := some now } :: rest)
    else (consumeRecoveryCode principalId code rest).map fun rest => r :: rest

/-- `MFAEnrollmentStore.verify`. -/
def mfaVerify (principalId : ℕ) (code : String) (t : IdentityTables) :
    Result (Bool × IdentityTables) :=
  match t.enrollments.get? principalId with
  | none => pure (true, t)
  | some row =>
    if row.confirmed = false then pure (true, t)
    else match M.decrypt row.encryptedSecret with
      | none => throw (.runtimeError "MFA secret cannot be decrypted")
      | some secret =>
        if M.verifyTotp secret code now then pure (true, t)
        else match consumeRecoveryCode M now principalId code t.recoveryCodes with
          | some codes => pure (true, { t with recoveryCodes := codes })
          | none => pure (false, t)

/-- The code is a time-based one of the enrollment of a principal. -/
def TotpValid (t : IdentityTables) (principalId : ℕ) (code : String) : Prop :=
  ∃ row secret, t.enrollments.get? principalId = some row ∧
    M.decrypt row.encryptedSecret = some secret ∧ M.verifyTotp secret code now = true

variable {M now} in
/-- How verifying ends: the tables stay, or a recovery code has been used. -/
lemma mfaVerify_cases {principalId : ℕ} {code : String} {t t' : IdentityTables} {verified : Bool}
    (h : mfaVerify M now principalId code t = .ok (verified, t')) :
    (t' = t ∧ (verified = true → mfaEnabled principalId t = true →
      TotpValid M now t principalId code)) ∨
    (verified = true ∧ ∃ rows,
      consumeRecoveryCode M now principalId code t.recoveryCodes = some rows ∧
        { t with recoveryCodes := rows } = t') := by
  unfold mfaVerify at h
  split at h
  · rename_i hnone
    obtain ⟨rfl, rfl⟩ := Prod.mk.inj (pure_eq_ok_iff.mp h)
    exact .inl ⟨rfl, fun _ henabled => by simp [mfaEnabled, hnone] at henabled⟩
  · rename_i row hrow
    split at h
    · rename_i hpending
      obtain ⟨rfl, rfl⟩ := Prod.mk.inj (pure_eq_ok_iff.mp h)
      exact .inl ⟨rfl, fun _ henabled => by simp [mfaEnabled, hrow, hpending] at henabled⟩
    · split at h
      · exact absurd h throw_ne_ok
      · rename_i secret hsecret
        split at h
        · rename_i htotp
          obtain ⟨rfl, rfl⟩ := Prod.mk.inj (pure_eq_ok_iff.mp h)
          exact .inl ⟨rfl, fun _ _ => ⟨row, secret, hrow, hsecret, htotp⟩⟩
        · split at h
          · rename_i rows hrows
            obtain ⟨rfl, rfl⟩ := Prod.mk.inj (pure_eq_ok_iff.mp h)
            exact .inr ⟨rfl, rows, hrows, rfl⟩
          · obtain ⟨rfl, rfl⟩ := Prod.mk.inj (pure_eq_ok_iff.mp h)
            exact .inl ⟨rfl, (by rintro ⟨⟩)⟩

end MFAEnrollmentStore

/-! ## The first factor -/

/-- `CredentialStore.authenticate` behind `TableResources.authenticate`: the principal with a
given email and password. -/
def authenticate (H : SecretHashing) (identity secret : String) (t : IdentityTables) :
    Option SecurityPrincipal := do
  let email := Text.casefold (Text.strip identity)
  let (id, row) ← t.principals.entries.find? fun e => e.2.email = email
  let credential ← t.credentials.get? id
  if H.verifySecret credential.passwordHash secret = false ∨ row.active = false then none
  else
    some
      { userId := id
        identity := row.email
        isAdmin := row.isAdmin
        mustChangePassword := row.mustChangePassword
        permissions := (t.rbac.authorization id).permissions
        visibility := if row.isAdmin then .all else .user }

/-! ## Endpoints -/

/-- The payload of `login`.  A member is `none` when it is missing or not a text; `mfaCode`
tells the two apart. -/
structure LoginPayload where
  identity : Option String
  secret : Option String
  scope : String := "user"
  mfaCode : Option (Option String) := none

/-- The member `result` of a login response. -/
structure LoginResult where
  token : String
  expires : ℤ
  scope : Option String
deriving DecidableEq

section Endpoints

variable (H : SecretHashing) (M : MfaPrimitives) (now : ℤ) (e : Entropy)

/-- The challenge principal of `login`. -/
def challengePrincipal (p : SecurityPrincipal) : SecurityPrincipal where
  userId := p.userId
  identity := p.identity
  scopes := .single mfaScope

/-- The last lines of `login`: a full session for a principal. -/
def openSession (p : SecurityPrincipal) (scope : Option String) :
    Action IdentityTables LoginResult := do
  let (token, expires) ← issueSession H now e p none
  pure { token := token, expires := expires, scope := scope }

/-- `login`. -/
def login (payload : LoginPayload) : Action IdentityTables LoginResult :=
  match payload.identity, payload.secret with
  | some identity, some secret =>
    if Text.strip identity = "" then .raise (.http 400 "identity and secret required")
    else if payload.scope ≠ "user" then .raise (.http 400 "unsupported scope")
    else do
      let t ← Action.get
      match authenticate H (Text.lower (Text.strip identity)) secret t with
      | none => .raise (.http 401 "Invalid email or password.")
      | some p =>
        if mfaEnabled p.userId t then
          match payload.mfaCode with
          | none => do
            let (token, expires) ← issueSession H now e (challengePrincipal p) (some 300)
            pure { token := token, expires := expires, scope := some mfaScope }
          | some none => .raise (.http 401 "valid MFA code required")
          | some (some code) => do
            let verified ← .transaction (mfaVerify M now p.userId code)
            if verified then openSession H now e p none
            else Action.raise (.http 401 "valid MFA code required")
        else openSession H now e p none
  | _, _ => .raise (.http 400 "identity and secret required")

/-- `complete_mfa_challenge`, with the dependency that authenticates the challenge. -/
def completeMfaChallenge (token : Option String) (code : Option String) :
    Action IdentityTables LoginResult := do
  let challenge ← principalFromMfaBearer H now token
  match code with
  | none => .raise (.http 401 "invalid MFA code")
  | some code => do
    let verified ← .transaction (mfaVerify M now challenge.userId code)
    if verified then do
      let _ ← .transaction (revokeSession H (token.getD ""))
      let t ← Action.get
      match userPrincipal t challenge.userId with
      | none => .raise (.http 401 "user is unavailable")
      | some p => openSession H now e p (some "user")
    else Action.raise (.http 401 "invalid MFA code")

end Endpoints

/-! ## Sessions verify as they were opened -/

variable {H : SecretHashing} {M : MfaPrimitives} {now : ℤ} {e : Entropy}

/-- The principal has a row that is neither disabled nor deleted. -/
def Active (t : IdentityTables) (id : ℕ) : Prop :=
  ∃ row, t.principals.get? id = some row ∧ row.active = true

/-- The row that opening a session stores. -/
def openedRow (H : SecretHashing) (e : Entropy) (p : SecurityPrincipal) (token : String)
    (expires : ℤ) : SessionRow where
  tokenDigest := H.argon2Hash e.salt token
  principalSnapshot := snapshot p
  expiresAt := expires

lemma issueSession_spec {p : SecurityPrincipal} {ttl : Option ℤ} {t t' : IdentityTables}
    {token : String} {expires : ℤ}
    (h : issueSession H now e p ttl t = (.ok (token, expires), t')) :
    token = credentialText "pws" e.tokenId e.secret ∧
      t' = { t with sessions := t.sessions.set e.tokenId (openedRow H e p token expires) } := by
  rw [issueSession, Action.transaction_eq_ok_iff] at h
  unfold issueSessionRow at h
  obtain ⟨digest, hdigest, h⟩ := bind_eq_ok_iff.mp h
  obtain ⟨_, _, h⟩ := bind_eq_ok_iff.mp h
  simp only [pure_eq_ok_iff, Prod.mk.injEq] at h
  obtain ⟨⟨rfl, rfl⟩, rfl⟩ := h
  unfold SecretHashing.hashSecret at hdigest
  split at hdigest
  · exact absurd hdigest throw_ne_ok
  · obtain rfl := pure_eq_ok_iff.mp hdigest
    exact ⟨rfl, rfl⟩

lemma isSessionToken_session (tokenId secret : String) :
    isSessionToken (credentialText "pws" tokenId secret) = true := by
  have hlist : (credentialText "pws" tokenId secret).toList =
      "pws".toList ++ '_' :: tokenId.toList ++ '_' :: secret.toList := by
    simp [credentialText]
  rw [isSessionToken, hlist]
  rfl

lemma sessionTokenId_session {tokenId : String} (secret : String) (h : '_' ∉ tokenId.toList) :
    sessionTokenId (credentialText "pws" tokenId secret) = some tokenId := by
  have hsplit : Text.split '_' 2 (credentialText "pws" tokenId secret) = ["pws", tokenId, secret] :=
    Text.split_two secret (by decide) h
  rw [sessionTokenId, hsplit]
  rfl

/-- A session token is verified by the row under its id. -/
lemma verifyCredential_session {token : String} {t : IdentityTables} {row : SessionRow}
    (htoken : token = credentialText "pws" e.tokenId e.secret)
    (hrow : t.sessions.get? e.tokenId = some row) (hexp : now < row.expiresAt)
    (hverify : H.argon2Verify row.tokenDigest token = true) :
    verifyCredential H now token t =
      .ok ({ principalId := row.principalSnapshot.principalId
             scopes := row.principalSnapshot.scopes
             owner := row.principalSnapshot.owner }, t) := by
  have hlive : ¬ (row.expiresAt ≤ now ∨ H.verifySecret row.tokenDigest token = false) := by
    rintro (h | h)
    · omega
    · rw [SecretHashing.verifySecret, hverify] at h
      exact absurd h (by simp)
  subst htoken
  rw [verifyCredential, isSessionToken_session, if_pos rfl, verifySession,
    sessionTokenId_session _ e.tokenId_hex]
  simp only [hrow, if_neg hlive]
  rfl

/-- A session verifies as it was opened: whatever becomes of the tables, as long as its row is
kept, it has not expired and the principal is active, its token verifies to the principal with
the scopes it was opened with. -/
def VerifiesUntilExpiry (H : SecretHashing) (e : Entropy) (p : SecurityPrincipal) (token : String)
    (expires : ℤ) (t : IdentityTables) : Prop :=
  ∀ now t', now < expires → t'.sessions.get? e.tokenId = t.sessions.get? e.tokenId →
    Active t' p.userId →
    ∃ q t'', verify H now token t' = (.ok q, t'') ∧ q.userId = p.userId ∧ q.scopes = p.scopes

/-- The second factor completes: with a code that is accepted, the challenge token opens a
full session. -/
def CompletesLogin (H : SecretHashing) (M : MfaPrimitives) (p : SecurityPrincipal) (token : String)
    (expires : ℤ) (t : IdentityTables) : Prop :=
  ∀ now (e' : Entropy) code t', now < expires → e'.tokenId ∉ t.sessions →
    mfaVerify M now p.userId code t = .ok (true, t') →
    ∃ r t'', completeMfaChallenge H M now e' (some token) (some code) t = (.ok r, t'')

/-! ## The challenge scope -/

/-- A challenge session never verifies: its scope is not an accepted token scope. -/
lemma resolveCredential_mfa (v : Verification) (hv : v.scopes = [mfaScope]) (t : IdentityTables)
    (p : SecurityPrincipal) : resolveCredential v t ≠ .ok p := by
  intro h
  obtain ⟨_, P, _, hA⟩ := resolveCredential_spec h
  have hnorm := (effectiveTokenAuthority_spec hA).1
  have hset : v.scopeSet.elems = [mfaScope] := by
    rw [Verification.scopeSet, hv]
    decide
  rw [hset] at hnorm
  have hrejected : normalizeTokenScopes [mfaScope] =
      .error (.valueError "invalid token scopes") := by decide
  rw [hrejected] at hnorm
  exact absurd hnorm (by simp)

/-- Every verified credential has the full-account scope among its scopes. -/
lemma user_mem_scopes_of_verify {token : String} {t t' : IdentityTables} {p : SecurityPrincipal}
    (h : verify H now token t = (.ok p, t')) : fullAccountScope ∈ p.scopes := by
  obtain ⟨v, _, hp⟩ := verify_eq_ok_iff.mp h
  obtain ⟨_, P, _, hA⟩ := resolveCredential_spec hp
  have hnorm := (effectiveTokenAuthority_spec hA).1
  exact (normalizeTokenScopes_spec hnorm).1.1

/-- No request passes the dependency of the second factor. -/
theorem principalFromMfaBearer_ne_ok (H : SecretHashing) (now : ℤ) (token : Option String)
    (t t' : IdentityTables) (p : SecurityPrincipal) :
    principalFromMfaBearer H now token t ≠ (.ok p, t') := by
  intro h
  obtain ⟨tok, _, hverify, hmfa, _⟩ := securityDependency_spec h
  have huser := user_mem_scopes_of_verify hverify
  rw [hmfa rfl, FrozenSet.mem_single] at huser
  exact absurd huser (by decide)

/-- No second factor ever completes a login. -/
theorem completeMfaChallenge_ne_ok (H : SecretHashing) (M : MfaPrimitives) (now : ℤ) (e : Entropy)
    (token code : Option String) (t t' : IdentityTables) (r : LoginResult) :
    completeMfaChallenge H M now e token code t ≠ (.ok r, t') := by
  intro h
  obtain ⟨p, t₁, hp, _⟩ := Action.bind_eq_ok_iff.mp h
  exact principalFromMfaBearer_ne_ok H now token t t₁ p hp

/-! ## The full-account scope -/

lemma resolveCredential_user {v : Verification} {t : IdentityTables}
    (hv : v.scopes = [fullAccountScope]) (hactive : Active t v.principalId) :
    ∃ p, resolveCredential v t = .ok p ∧ p.userId = v.principalId ∧
      p.scopes = .single fullAccountScope := by
  obtain ⟨row, hrow, hact⟩ := hactive
  have hset : v.scopeSet = .single fullAccountScope := by
    rw [Verification.scopeSet, hv]
    decide
  have hresolve : ∃ q, resolve t v.principalId v.scopeSet v.owner = .ok q := by
    simp only [resolve, hrow, hact, Bool.true_eq_false, if_false]
    exact ⟨_, rfl⟩
  obtain ⟨q, hq⟩ := hresolve
  obtain ⟨A, hA⟩ := effectiveTokenAuthority_elems acceptedScopes_single q.permissions q.isAdmin
  have hAscopes : A.scopes = .single fullAccountScope := by
    have hnorm := (effectiveTokenAuthority_spec hA).1
    rw [normalizeTokenScopes_elems acceptedScopes_single] at hnorm
    exact (Except.ok.inj hnorm).symm
  refine ⟨{ q with isAdmin := A.isAdmin, permissions := A.permissions, scopes := A.scopes },
    ?_, (resolve_spec hq).1, hAscopes⟩
  rw [resolveCredential, hq, ok_bind, hset, hA]
  rfl

/-- The scope sets with which the login and second-factor endpoints open a session. -/
def loginScopeSets : List (FrozenSet String) := [.single fullAccountScope, .single mfaScope]

lemma authenticate_scopes {identity secret : String} {t : IdentityTables} {p : SecurityPrincipal}
    (h : authenticate H identity secret t = some p) : p.scopes = .single fullAccountScope := by
  unfold authenticate at h
  obtain ⟨⟨id, row⟩, _, h⟩ := Option.bind_eq_some_iff.mp h
  obtain ⟨credential, _, h⟩ := Option.bind_eq_some_iff.mp h
  split at h
  · exact absurd h (by simp)
  · obtain rfl := Option.some.inj h
    rfl

lemma openSession_spec {p : SecurityPrincipal} {scope : Option String} {t t' : IdentityTables}
    {r : LoginResult} (h : openSession H now e p scope t = (.ok r, t')) :
    issueSession H now e p none t = (.ok (r.token, r.expires), t') := by
  obtain ⟨⟨token, expires⟩, t₁, hissue, h⟩ := Action.bind_eq_ok_iff.mp h
  obtain ⟨rfl, rfl⟩ := Action.pure_eq_ok_iff.mp h
  exact hissue

/-- A successful login opens a session with one of the two scope sets. -/
theorem login_opens {payload : LoginPayload} {t t' : IdentityTables} {r : LoginResult}
    (h : login H M now e payload t = (.ok r, t')) :
    ∃ p ttl t₁, p.scopes ∈ loginScopeSets ∧
      issueSession H now e p ttl t₁ = (.ok (r.token, r.expires), t') := by
  cases hid : payload.identity with
  | none => simp [login, hid] at h
  | some identity =>
  cases hsecret : payload.secret with
  | none => simp [login, hid, hsecret] at h
  | some secret =>
    simp only [login, hid, hsecret] at h
    split at h
    · exact absurd h Action.raise_ne_ok
    · split at h
      · exact absurd h Action.raise_ne_ok
      · obtain ⟨_, _, hget, h⟩ := Action.bind_eq_ok_iff.mp h
        obtain ⟨rfl, rfl⟩ := Action.get_eq_ok_iff.mp hget
        cases hp : authenticate H (Text.lower (Text.strip identity)) secret t with
        | none => simp [hp] at h
        | some p =>
          simp only [hp] at h
          have huser : p.scopes ∈ loginScopeSets := by
            rw [authenticate_scopes hp]
            exact List.mem_pair.mpr (Or.inl rfl)
          split at h
          · cases hcode : payload.mfaCode with
            | none =>
              -- the challenge
              simp only [hcode] at h
              obtain ⟨⟨token, expires⟩, t₁, hissue, h⟩ := Action.bind_eq_ok_iff.mp h
              obtain ⟨rfl, rfl⟩ := Action.pure_eq_ok_iff.mp h
              exact ⟨_, _, _, List.mem_pair.mpr (Or.inr rfl), hissue⟩
            | some code? =>
              cases code? with
              | none => simp [hcode] at h
              | some code =>
                simp only [hcode] at h
                obtain ⟨verified, t₁, _, h⟩ := Action.bind_eq_ok_iff.mp h
                split at h
                · exact ⟨p, none, t₁, huser, openSession_spec h⟩
                · exact absurd h Action.raise_ne_ok
          · exact ⟨p, none, t, huser, openSession_spec h⟩

/-- A session of the login endpoints verifies until it expires, and completes the second factor
when it is a challenge, exactly when it was opened with the full-account scope. -/
theorem session_verifies_iff (H : SecretHashing) (M : MfaPrimitives)
    (hH : ∀ salt secret, H.argon2Verify (H.argon2Hash salt secret) secret = true)
    {t t' : IdentityTables} {now : ℤ} {e : Entropy} {p : SecurityPrincipal} {ttl : Option ℤ}
    {token : String} {expires : ℤ} (hactive : Active t p.userId) (hS : p.scopes ∈ loginScopeSets)
    (hopen : issueSession H now e p ttl t = (.ok (token, expires), t')) :
    (VerifiesUntilExpiry H e p token expires t' ∧
        (p.scopes = .single mfaScope → CompletesLogin H M p token expires t')) ↔
      p.scopes = .single fullAccountScope := by
  obtain ⟨htoken, ht'⟩ := issueSession_spec hopen
  have hrow : t'.sessions.get? e.tokenId = some (openedRow H e p token expires) := by
    simp [ht']
  have hactive' : Active t' p.userId := by
    rw [ht']
    exact hactive
  constructor
  · rintro ⟨hverifies, _⟩
    rcases List.mem_pair.mp hS with h | h
    · exact h
    · -- just before it expires the challenge session is still there, and does not verify
      exfalso
      obtain ⟨q, t'', hq, _⟩ := hverifies (expires - 1) t' (by omega) rfl hactive'
      obtain ⟨v, hv, hp⟩ := verify_eq_ok_iff.mp hq
      have hcred : verifyCredential H (expires - 1) token t' = _ :=
        verifyCredential_session htoken hrow (by show expires - 1 < expires; omega)
          (hH e.salt token)
      rw [hcred, Except.ok.injEq, Prod.mk.injEq] at hv
      refine resolveCredential_mfa v ?_ t'' q hp
      rw [← hv.1]
      simp only [openedRow, snapshot, h]
      decide
  · intro h
    refine ⟨fun now' t₂ hexp hsame hact => ?_, fun hmfa => ?_⟩
    · rw [hrow] at hsame
      have hcred := verifyCredential_session htoken hsame hexp (hH e.salt token)
      have hscopes : (openedRow H e p token expires).principalSnapshot.scopes =
          [fullAccountScope] := by
        simp only [openedRow, snapshot, h]
        decide
      obtain ⟨q, hq, hid, hqs⟩ := resolveCredential_user (t := t₂) (v :=
        { principalId := p.userId
          scopes := (openedRow H e p token expires).principalSnapshot.scopes
          owner := p.owner }) hscopes hact
      exact ⟨q, t₂, verify_eq_ok_iff.mpr ⟨_, hcred, hq⟩, hid, hqs.trans h.symm⟩
    · rw [h] at hmfa
      exact absurd hmfa (by decide)

/-! ## A principal with a confirmed second factor -/

/-- Second-factor primitives that keep secrets and codes as they are. -/
def plainMfa : MfaPrimitives where
  decrypt secret := some secret
  verifyTotp secret code _ := secret = code
  verifyBackupCode digest code := digest = code

/-- Tables with one active principal that has confirmed a second factor. -/
def enrolledTables : IdentityTables where
  principals := Dict.ofList [(7,
    { email := "operator@example.test"
      displayName := ""
      isAdmin := false
      mustChangePassword := false
      isDisabled := false
      isDeleted := false
      visibility := .user })]
  rbac := RbacTables.empty
  credentials := Dict.ofList [(7,
    { passwordHash := "$argon2correct horse", passwordVersion := 1 })]
  enrollments := Dict.ofList [(7, { encryptedSecret := "123456", confirmed := true })]
  pats := Dict.empty
  sessions := Dict.empty

/-- The random values of the challenge session. -/
def challengeEntropy : Entropy where
  rowId := 1
  tokenId := "cc"
  secret := "s"
  salt := ""
  tokenId_hex := cc_hex

/-- The principal that opens the challenge session. -/
def enrolledChallenge : SecurityPrincipal :=
  challengePrincipal { userId := 7, identity := "operator@example.test" }

lemma active_enrolled : Active enrolledTables 7 := ⟨_, rfl, rfl⟩

-- the right password gets the challenge token
example : (login plainHashing plainMfa 100 challengeEntropy
    { identity := some "operator@example.test", secret := some "correct horse" }
    enrolledTables).1 = .ok { token := "pws_cc_s", expires := 400, scope := some "mfa" } := by
  rfl

theorem session_verifies_iff_enrolled :
    (VerifiesUntilExpiry plainHashing challengeEntropy enrolledChallenge "pws_cc_s" 400
          (issueSession plainHashing 100 challengeEntropy enrolledChallenge (some 300)
            enrolledTables).2 ∧
        (enrolledChallenge.scopes = .single mfaScope →
          CompletesLogin plainHashing plainMfa enrolledChallenge "pws_cc_s" 400
            (issueSession plainHashing 100 challengeEntropy enrolledChallenge (some 300)
              enrolledTables).2)) ↔
      enrolledChallenge.scopes = .single fullAccountScope :=
  session_verifies_iff plainHashing plainMfa (by simp [plainHashing]) active_enrolled
    (by decide) (show issueSession plainHashing 100 challengeEntropy enrolledChallenge (some 300)
      enrolledTables = (.ok ("pws_cc_s", 400), _) from rfl)

/-- The challenge session does not verify, and the right code does not complete the login. -/
theorem challenge_session_fails :
    ¬ ∀ (t t' : IdentityTables) (now : ℤ) (e : Entropy) (p : SecurityPrincipal)
      (ttl : Option ℤ) (token : String) (expires : ℤ), Active t p.userId →
      p.scopes ∈ loginScopeSets → issueSession plainHashing now e p ttl t =
        (.ok (token, expires), t') →
      VerifiesUntilExpiry plainHashing e p token expires t' ∧
        (p.scopes = .single mfaScope →
          CompletesLogin plainHashing plainMfa p token expires t') := by
  intro h
  obtain ⟨_, hmfa⟩ := h enrolledTables _ 100 challengeEntropy enrolledChallenge (some 300)
    "pws_cc_s" 400 active_enrolled (by decide) rfl
  obtain ⟨r, t'', hr⟩ := hmfa rfl 101
    { challengeEntropy with tokenId := "dd", tokenId_hex := by decide } "123456" _ (by decide)
    (by decide) rfl
  exact completeMfaChallenge_ne_ok _ _ _ _ _ _ _ _ _ hr

end Portwyrm.Identity

import Portwyrm.Identity.Login
import Portwyrm.Identity.TokenLifecycle

/-!
# Credentials that are obtained with a token

The endpoints of `portwyrm.api.compat` that hand out credentials or take them back, in any order.
A personal access token may be exchanged for a session, which may be exchanged again, and may mint
further tokens; nothing links what was obtained to the token.  So revoking the token reaches what
was obtained with it only if all of that is spent already.
-/

namespace Portwyrm.Identity

open Base

/-! ## Endpoints -/

section Endpoints

variable (H : SecretHashing) (M : MfaPrimitives) (now : ℤ) (e : Entropy)

/-- `TableIdentity.refresh_session`. -/
def refreshSession (token : String) : Action IdentityTables (String × ℤ) := do
  let p ← verify H now token
  let _ ← Action.transaction (revokeSession H token)
  issueSession H now e p none

/-- `impersonate_user`, for an authenticated caller. -/
def impersonateUser (userId : ℕ) (actor : SecurityPrincipal) :
    Action IdentityTables (String × ℤ) :=
  if actor.isAdmin = false then .raise (.http 403 "administrator required")
  else do
    let t ← Action.get
    match t.principals.get? userId, userPrincipal t userId with
    | some row, some p =>
      if row.active = false then .raise (.http 404 "active user not found")
      else issueSession H now e p none
    | _, _ => .raise (.http 404 "active user not found")

/-- `TableIdentity.update_pat_expiry`. -/
def updatePatExpiry (tokenId : String) (expiresAt : ℤ) (actor : SecurityPrincipal) :
    Action IdentityTables ℤ := do
  let t ← Action.get
  match ← Action.lift (getPat tokenId actor .update t) with
  | none => .raise (.lookupError "token not found")
  | some existing =>
    .transaction (refreshPat now actor existing.principal.userId tokenId expiresAt)

/-- `update_personal_token_expiry`, on a payload whose `expires_at` is a number. -/
def updatePersonalTokenExpiry (tokenId : String) (expiresAt : ℤ) (actor : SecurityPrincipal) :
    Action IdentityTables ℤ := do
  let t ← Action.get
  let _ ← .lift (ownedToken tokenId actor .update t)
  updatePatExpiry now tokenId expiresAt actor

/-- `TableIdentity.revoke_pat`. -/
def revokePatOf (tokenId : String) (actor : SecurityPrincipal) :
    Action IdentityTables (Option ℤ) := do
  let t ← Action.get
  match ← Action.lift (getPat tokenId actor .delete t) with
  | none => .raise (.lookupError "token not found")
  | some existing => .transaction (revokePat now actor existing.principal.userId tokenId)

/-- `revoke_personal_token`. -/
def revokePersonalToken (tokenId : String) (actor : SecurityPrincipal) :
    Action IdentityTables (Option ℤ) := do
  let t ← Action.get
  let record ← .lift (ownedToken tokenId actor .delete t)
  if record.revokedAt ≠ none then Action.raise (.http 409 "token is revoked")
  else revokePatOf now tokenId actor

/-- The endpoints that an authenticated caller may use. -/
inductive Endpoint
  /-- `GET /api/tokens`. -/
  | refresh
  /-- `DELETE /api/tokens`, and the logout of the browser, which takes back the session of its
  cookie. -/
  | logout (session : String)
  /-- `POST /api/users/{user_id}/login`. -/
  | impersonate (userId : ℕ)
  /-- `POST /api/v2/tokens` and `POST /api/v2/users/{principal_id}/tokens`. -/
  | createToken (targetId : ℕ) (payload : CreateTokenPayload)
  /-- `PATCH /api/v2/tokens/{token_id}`. -/
  | updateExpiry (tokenId : String) (expiresAt : ℤ)
  /-- `POST /api/v2/tokens/{token_id}/rotate`. -/
  | rotate (tokenId : String)
  /-- `DELETE /api/v2/tokens/{token_id}`. -/
  | revoke (tokenId : String)

/-- An endpoint behind its dependency; the credential that it hands out, if it does. -/
def Endpoint.body (bearer : String) (actor : SecurityPrincipal) :
    Endpoint → Action IdentityTables (Option String)
  | .refresh => do
    let (token, _) ← refreshSession H now e bearer
    pure (some token)
  | .logout session => do
    let _ ← Action.transaction (revokeSession H session)
    pure none
  | .impersonate userId => do
    let (token, _) ← impersonateUser H now e userId actor
    pure (some token)
  | .createToken targetId payload => do
    let result ← createTokenFor H now e targetId payload actor
    pure (some result.token)
  | .updateExpiry tokenId expiresAt => do
    let _ ← updatePersonalTokenExpiry now tokenId expiresAt actor
    pure none
  | .rotate tokenId => do
    let result ← rotatePersonalToken H now e tokenId actor
    pure (some result.token)
  | .revoke tokenId => do
    let _ ← revokePersonalToken now tokenId actor
    pure none

/-- A request to the API. -/
inductive ApiOp
  | request (bearer : String) (endpoint : Endpoint)
  /-- `POST /api/tokens`. -/
  | login (payload : LoginPayload)
  /-- `POST /api/tokens/2fa`. -/
  | completeMfa (bearer : String) (code : Option String)
  /-- Users, their authorization, passwords and second factors are changed. -/
  | administer (principals : Dict ℕ PrincipalRow) (rbac : RbacTables)
      (credentials : Dict ℕ CredentialRow) (enrollments : Dict ℕ EnrollmentRow)
      (recoveryCodes : List RecoveryCodeRow)

/-- A request, its time, and the random values that it draws. -/
structure ApiCall where
  now : ℤ
  entropy : Entropy
  op : ApiOp

/-- A request, and the credential that it hands out. -/
def ApiCall.run (c : ApiCall) : Action IdentityTables (Option String) :=
  match c.op with
  | .request bearer endpoint => do
    let actor ← principalFromBearer H c.now (some bearer)
    endpoint.body H c.now c.entropy bearer actor
  | .login payload => do
    let result ← login H M c.now c.entropy payload
    pure (some result.token)
  | .completeMfa bearer code => do
    let result ← completeMfaChallenge H M c.now c.entropy (some bearer) code
    pure (some result.token)
  | .administer principals rbac credentials enrollments recoveryCodes => fun t =>
    (.ok none, { t with principals, rbac, credentials, enrollments, recoveryCodes })

end Endpoints

/-! ## Runs -/

/-- The requests so far and their outcomes, latest first. -/
abbrev ApiHistory := List (ApiCall × Result (Option String))

/-- The request presented the credential. -/
def ApiOp.bearer? : ApiOp → Option String
  | .request bearer _ | .completeMfa bearer _ => some bearer
  | .login _ | .administer .. => none

/-- The request replaces the token itself. -/
def ApiOp.Replaces (op : ApiOp) (token : String) : Prop :=
  ∃ bearer tokenId, op = .request bearer (.rotate tokenId) ∧ NamesToken token tokenId

/-- The request takes the token back, or rotates it away. -/
def ApiOp.Withdraws (op : ApiOp) (token : String) : Prop :=
  op.Replaces token ∨
    ∃ bearer tokenId, op = .request bearer (.revoke tokenId) ∧ NamesToken token tokenId

/-- A credential was obtained with a token: it was handed out for the token, or for a credential
that was obtained with it.  The replacement of the token itself does not count. -/
inductive Obtained (token : String) : ApiHistory → String → Prop
  | byToken {history : ApiHistory} {c : ApiCall} {credential : String}
      (hop : c.op.bearer? = some token) (hreplaces : ¬ c.op.Replaces token) :
      Obtained token ((c, .ok (some credential)) :: history) credential
  | byObtained {history : ApiHistory} {c : ApiCall} {bearer credential : String}
      (hop : c.op.bearer? = some bearer) (hbearer : Obtained token history bearer)
      (hreplaces : ¬ c.op.Replaces token) :
      Obtained token ((c, .ok (some credential)) :: history) credential
  | earlier {entry : ApiCall × Result (Option String)} {history : ApiHistory} {credential : String}
      (h : Obtained token history credential) : Obtained token (entry :: history) credential

/-- The token was taken back or rotated away. -/
def TokenWithdrawn (token : String) (history : ApiHistory) : Prop :=
  ∃ entry ∈ history, entry.1.op.Withdraws token ∧ ∃ r, entry.2 = .ok r

/-- The text of a session that a request may open. -/
def Entropy.session (e : Entropy) : String := credentialText "pws" e.tokenId e.secret

section Run

variable (H : SecretHashing) (M : MfaPrimitives)

/-- Requests that meet a condition on what was before them: the clock does not go back, and the
random values are fresh. -/
inductive ApiRun (Q : ApiHistory → IdentityTables → ApiCall → Prop) :
    ApiHistory → IdentityTables → Prop
  | start (t : IdentityTables) : ApiRun Q [] t
  | call {history : ApiHistory} {t : IdentityTables} (h : ApiRun Q history t) (c : ApiCall)
      (hclock : ∀ entry ∈ history, entry.1.now ≤ c.now)
      (hfresh : ∀ entry ∈ history, entry.2 ≠ .ok (some c.entropy.session))
      (hQ : Q history t c) :
      ApiRun Q ((c, (c.run H M t).1) :: history) (c.run H M t).2

/-- In every run of requests that meet the condition, nothing that was obtained with the token
verifies once the token is withdrawn. -/
def RevocationReaches (token : String) (Q : ApiHistory → IdentityTables → ApiCall → Prop) : Prop :=
  ∀ history t, ApiRun H M Q history t → TokenWithdrawn token history →
    ∀ now, (∀ entry ∈ history, entry.1.now ≤ now) → ∀ credential, Obtained token history credential →
      ∀ p t', verify H now credential t ≠ (.ok p, t')

end Run

variable {H : SecretHashing} {M : MfaPrimitives} {now : ℤ} {e : Entropy} {t t' : IdentityTables}

/-! ## What every request keeps -/

/-- What no request undoes: a revoked token stays revoked, and a session that is new has a fresh
text. -/
structure Evolves (H : SecretHashing) (fresh : String) (t t' : IdentityTables) : Prop where
  pats : ∀ id row, t.pats.get? id = some row → row.revokedAt ≠ none →
    ∃ row', t'.pats.get? id = some row' ∧ row'.revokedAt ≠ none
  sessions : ∀ id row', t'.sessions.get? id = some row' →
    t.sessions.get? id = some row' ∨ ∃ salt, row'.tokenDigest = H.argon2Hash salt fresh

instance (H : SecretHashing) (fresh : String) : Std.Refl (Evolves H fresh) where
  refl _ := ⟨fun _ row hrow hrevoked => ⟨row, hrow, hrevoked⟩, fun _ _ hrow => .inl hrow⟩

instance (H : SecretHashing) (fresh : String) : IsTrans IdentityTables (Evolves H fresh) where
  trans a b c hab hbc := by
    refine ⟨fun id row hrow hrevoked => ?_, fun id row' hrow' => ?_⟩
    · obtain ⟨row₁, hrow₁, hrevoked₁⟩ := hab.pats id row hrow hrevoked
      exact hbc.pats id row₁ hrow₁ hrevoked₁
    · exact (hbc.sessions id row' hrow').elim (hab.sessions id row') .inr

section Evolves

variable {fresh : String}

/-- An operation that keeps the sessions, and the revoked tokens, revoked. -/
lemma Evolves.of_patEffect {op : PATOp} {a : PATAnswer} (h : PATEffect H now t op a t') :
    Evolves H fresh t t' := by
  refine ⟨fun id row hrow hrevoked => ?_, fun id row' hrow' => .inl ?_⟩
  · obtain ⟨row', hrow', hkept⟩ := h.kept hrow
    exact ⟨row', hrow', hkept hrevoked⟩
  · cases h <;> exact hrow'

/-- A change to other tables, or the removal of a session. -/
lemma Evolves.of_sessions (hpats : t'.pats = t.pats)
    (hsessions : ∀ id row, t'.sessions.get? id = some row → t.sessions.get? id = some row) :
    Evolves H fresh t t' :=
  ⟨fun _ row hrow hrevoked => ⟨row, hpats ▸ hrow, hrevoked⟩,
    fun id row hrow => .inl (hsessions id row hrow)⟩

lemma preserves_verify (token : String) :
    Action.Preserves (Evolves H fresh) (verify H now token) := by
  refine .bind (.transaction fun t a t' h => ?_) fun v => .bind .get fun _ => .lift _
  unfold verifyCredential at h
  split at h
  · cases hv : verifySession H now token t with
    | error err => simp [hv, Except.map] at h
    | ok w =>
      simp only [hv, Except.map, Except.ok.injEq, Prod.mk.injEq] at h
      obtain ⟨-, rfl⟩ := h
      exact refl_of (Evolves H fresh) t
  · obtain ⟨tokenId, row, -, hrow, -, -, -, rfl⟩ := verifyPat_eq_ok h
    have heffect : PATEffect H now t (.verify token) (.verified a)
        { t with pats := t.pats.set tokenId (row.touch now) } :=
      .verified token tokenId a row (patRow_spec hrow).1
    exact .of_patEffect heffect

lemma preserves_securityDependency (mfaOnly allowPasswordChange : Bool) (bearer : String) :
    Action.Preserves (Evolves H fresh)
      (securityDependency H now mfaOnly allowPasswordChange (some bearer)) := by
  unfold securityDependency
  split
  · exact .raise _
  · exact .raise _
  · refine .bind (.mapError _ (preserves_verify _)) fun p => ?_
    split
    · exact .raise _
    · split
      · exact .raise _
      · split
        · exact .raise _
        · exact .pure _

lemma preserves_revokeSession (token : String) :
    Action.Preserves (Evolves H fresh) (.transaction (revokeSession H token)) := by
  refine .transaction fun t a t' h => ?_
  unfold revokeSession at h
  split at h
  · obtain ⟨-, rfl⟩ := Prod.mk.inj (pure_eq_ok_iff.mp h)
    exact refl_of _ t
  · split at h
    · obtain ⟨-, rfl⟩ := Prod.mk.inj (pure_eq_ok_iff.mp h)
      exact refl_of _ t
    · split at h
      · obtain ⟨-, rfl⟩ := Prod.mk.inj (pure_eq_ok_iff.mp h)
        exact refl_of _ t
      · obtain ⟨-, rfl⟩ := Prod.mk.inj (pure_eq_ok_iff.mp h)
        refine .of_sessions rfl fun id row hrow => ?_
        rw [Dict.get?_pop] at hrow
        split at hrow
        · simp at hrow
        · exact hrow

/-- Opening a session adds one row, whose digest is that of the fresh text. -/
lemma preserves_issueSession (p : SecurityPrincipal) (ttl : Option ℤ) :
    Action.Preserves (Evolves H e.session) (issueSession H now e p ttl) := by
  refine .transaction fun t a t' h => ?_
  have hissue : issueSession H now e p ttl t = (.ok a, t') := Action.transaction_eq_ok_iff.mpr h
  obtain ⟨token, expires⟩ := a
  obtain ⟨rfl, rfl⟩ := issueSession_spec hissue
  refine ⟨fun id row hrow hrevoked => ⟨row, hrow, hrevoked⟩, fun id row' hrow' => ?_⟩
  rw [Dict.get?_set] at hrow'
  split at hrow'
  · exact .inr ⟨e.salt, by rw [← Option.some.inj hrow']; rfl⟩
  · exact .inl hrow'

lemma preserves_mfaVerify (principalId : ℕ) (code : String) :
    Action.Preserves (Evolves H fresh) (.transaction (mfaVerify M now principalId code)) := by
  refine .transaction fun t a t' h => ?_
  rcases mfaVerify_cases h with ⟨rfl, -⟩ | ⟨-, rows, -, rfl⟩
  · exact refl_of _ t'
  · exact .of_sessions rfl fun _ _ hrow => hrow

/-- Every endpoint keeps what no request undoes. -/
lemma preserves_body (bearer : String) (actor : SecurityPrincipal) (endpoint : Endpoint) :
    Action.Preserves (Evolves H e.session) (endpoint.body H now e bearer actor) := by
  cases endpoint with
  | refresh =>
    exact .bind (.bind (preserves_verify _) fun p => .bind (preserves_revokeSession _) fun _ =>
      preserves_issueSession _ _) fun _ => .pure _
  | logout session => exact .bind (preserves_revokeSession _) fun _ => .pure _
  | impersonate userId =>
    refine .bind ?_ fun _ => .pure _
    unfold impersonateUser
    split
    · exact .raise _
    · refine .bind .get fun t => ?_
      split
      · split
        · exact .raise _
        · exact preserves_issueSession _ _
      · exact .raise _
  | createToken targetId payload =>
    refine .bind (.bind .get fun t => .bind (.lift _) fun owner => ?_) fun _ => .pure _
    split
    · refine .bind (.lift _) fun A => .bind (.lift _) fun expiresAt => .mapError _ ?_
      exact .transaction fun t a t' h => .of_patEffect (patEffect_of_issue h)
    · exact .raise _
  | updateExpiry tokenId expiresAt =>
    refine .bind (.bind .get fun t => .bind (.lift _) fun record => ?_) fun _ => .pure _
    refine .bind .get fun t => .bind (.lift _) fun existing => ?_
    split
    · exact .raise _
    · exact .transaction fun t a t' h => .of_patEffect (patEffect_of_refresh h)
  | rotate tokenId =>
    refine .bind (.bind .get fun t => .bind (.lift _) fun record => ?_) fun _ => .pure _
    split
    · exact .raise _
    · refine .mapError _ (.bind .get fun t => .bind (.lift _) fun existing => ?_)
      split
      · exact .raise _
      · exact .transaction fun t a t' h => .of_patEffect (patEffect_of_rotate h)
  | revoke tokenId =>
    refine .bind (.bind .get fun t => .bind (.lift _) fun record => ?_) fun _ => .pure _
    split
    · exact .raise _
    · refine .bind .get fun t => .bind (.lift _) fun existing => ?_
      split
      · exact .raise _
      · exact .transaction fun t a t' h => .of_patEffect (patEffect_of_revoke h)

lemma preserves_openSession (p : SecurityPrincipal) (scope : Option String) :
    Action.Preserves (Evolves H e.session) (openSession H now e p scope) :=
  .bind (preserves_issueSession _ _) fun _ => .pure _

lemma preserves_login (payload : LoginPayload) :
    Action.Preserves (Evolves H e.session) (login H M now e payload) := by
  unfold login
  split
  · split
    · exact .raise _
    · split
      · exact .raise _
      · refine .bind .get fun t => ?_
        split
        · exact .raise _
        · split
          · split
            · exact .bind (preserves_issueSession _ _) fun _ => .pure _
            · exact .raise _
            · refine .bind (preserves_mfaVerify _ _) fun verified => ?_
              split
              · exact preserves_openSession _ _
              · exact .raise _
          · exact preserves_openSession _ _
  · exact .raise _

lemma preserves_completeMfaChallenge (bearer : String) (code : Option String) :
    Action.Preserves (Evolves H e.session)
      (completeMfaChallenge H M now e (some bearer) code) := by
  refine .bind (preserves_securityDependency _ _ _) fun challenge => ?_
  split
  · exact .raise _
  · refine .bind (preserves_mfaVerify _ _) fun verified => ?_
    split
    · refine .bind (preserves_revokeSession _) fun _ => .bind .get fun t => ?_
      split
      · exact .raise _
      · exact preserves_openSession _ _
    · exact .raise _

/-- Every request keeps what no request undoes. -/
theorem evolves_run (c : ApiCall) (t : IdentityTables) :
    Evolves H c.entropy.session t (c.run H M t).2 := by
  obtain ⟨now, e, op⟩ := c
  cases op with
  | request bearer endpoint =>
    have hrun : Action.Preserves (Evolves H e.session)
        (ApiCall.run H M ⟨now, e, .request bearer endpoint⟩) :=
      .bind (preserves_securityDependency _ _ _) fun actor => preserves_body bearer actor endpoint
    exact hrun t
  | login payload =>
    have hrun : Action.Preserves (Evolves H e.session) (ApiCall.run H M ⟨now, e, .login payload⟩) :=
      .bind (preserves_login payload) fun _ => .pure _
    exact hrun t
  | completeMfa bearer code =>
    have hrun : Action.Preserves (Evolves H e.session)
        (ApiCall.run H M ⟨now, e, .completeMfa bearer code⟩) :=
      .bind (preserves_completeMfaChallenge bearer code) fun _ => .pure _
    exact hrun t
  | administer principals rbac credentials enrollments recoveryCodes =>
    exact .of_sessions rfl fun _ _ hrow => hrow

end Evolves

/-! ## Spent credentials -/

/-- The credential does not verify from a moment on: its token is revoked, or its session is gone
or expired. -/
def Spent (H : SecretHashing) (now : ℤ) (t : IdentityTables) (credential : String) : Prop :=
  if isSessionToken credential then
    ∀ id row, sessionTokenId credential = some id → t.sessions.get? id = some row →
      row.expiresAt ≤ now ∨ H.verifySecret row.tokenDigest credential = false
  else ∀ id, NamesToken credential id → ∃ row, t.pats.get? id = some row ∧ row.revokedAt ≠ none

variable {token credential : String} {now' : ℤ}

lemma Spent.mono (h : Spent H now t credential) (hnow : now ≤ now') :
    Spent H now' t credential := by
  unfold Spent at h ⊢
  split
  · rw [if_pos ‹_›] at h
    intro id row hid hrow
    exact (h id row hid hrow).imp_left fun hexpired => hexpired.trans hnow
  · rw [if_neg ‹_›] at h
    exact h

lemma Spent.not_verify (h : Spent H now t credential) (p : SecurityPrincipal) :
    verify H now credential t ≠ (.ok p, t') := by
  intro hverify
  obtain ⟨v, hv, -⟩ := verify_eq_ok_iff.mp hverify
  unfold verifyCredential at hv
  unfold Spent at h
  split at hv
  · rw [if_pos ‹_›] at h
    cases hsession : verifySession H now credential t with
    | error err => simp [hsession, Except.map] at hv
    | ok w =>
      unfold verifySession at hsession
      split at hsession
      · exact absurd hsession throw_ne_ok
      · rename_i id hid
        split at hsession
        · exact absurd hsession throw_ne_ok
        · rename_i row hrow
          rw [if_pos (h id row hid hrow)] at hsession
          exact absurd hsession throw_ne_ok
  · rw [if_neg ‹_›] at h
    obtain ⟨id, row, -, hpat, -⟩ := verifyPat_eq_ok hv
    obtain ⟨hnames, hrow, hlive, -⟩ := patRow_live hpat
    obtain ⟨row', hrow', hrevoked⟩ := h id hnames
    obtain rfl := Option.some.inj (hrow.symm.trans hrow')
    exact hrevoked hlive

/-- The digests of sessions do not collide. -/
def SessionsCollisionFree (H : SecretHashing) : Prop :=
  ∀ salt secret secret', H.argon2Verify (H.argon2Hash salt secret) secret' = true →
    secret = secret'

/-- A spent credential stays spent: a session that takes the place of another has another text. -/
lemma Spent.evolves {fresh : String} (hH : SessionsCollisionFree H)
    (h : Spent H now t credential) (hevolves : Evolves H fresh t t')
    (hfresh : isSessionToken credential = true → credential ≠ fresh) :
    Spent H now t' credential := by
  unfold Spent at h ⊢
  split
  · rename_i hsession
    rw [if_pos hsession] at h
    intro id row' hid hrow'
    rcases hevolves.sessions id row' hrow' with hrow | ⟨salt, hdigest⟩
    · exact h id row' hid hrow
    · refine .inr ?_
      rw [SecretHashing.verifySecret, hdigest, ← Bool.not_eq_true]
      exact fun hverify => hfresh hsession (hH salt fresh credential hverify).symm
  · rw [if_neg ‹_›] at h
    intro id hnames
    obtain ⟨row, hrow, hrevoked⟩ := h id hnames
    exact hevolves.pats id row hrow hrevoked

/-- A personal access token is no session. -/
lemma NamesToken.not_isSessionToken {tokenId : String} (h : NamesToken token tokenId) :
    isSessionToken token = false := by
  obtain ⟨secret, hsplit⟩ := h
  rw [← Bool.not_eq_true]
  intro hsession
  rw [isSessionToken, List.isPrefixOf_iff_prefix] at hsession
  obtain ⟨rest, hrest⟩ := hsession
  have hcut : Text.cutAt '_' token.toList = some ("pws".toList, rest) :=
    Text.cutAt_eq_some_iff.mpr ⟨by rw [← hrest]; rfl, by decide⟩
  rw [Text.split, Text.splitChars, hcut] at hsplit
  exact absurd (List.cons.inj hsplit).1 (by decide)

/-! ## Requests with a spent credential -/

/-- A request that presents a credential succeeds only if the credential verifies. -/
lemma verify_of_run {c : ApiCall} {bearer : String} {r : Option String}
    (hop : c.op.bearer? = some bearer) (h : c.run H M t = (.ok r, t')) :
    ∃ p t₁, verify H c.now bearer t = (.ok p, t₁) := by
  obtain ⟨now, e, op⟩ := c
  cases op with
  | request bearer' endpoint =>
    obtain rfl := Option.some.inj hop
    obtain ⟨p, t₁, hp, -⟩ := Action.bind_eq_ok_iff.mp h
    obtain ⟨tok, htok, hverify, -⟩ := securityDependency_spec hp
    obtain rfl := Option.some.inj htok
    exact ⟨p, t₁, hverify⟩
  | completeMfa bearer' code =>
    obtain rfl := Option.some.inj hop
    obtain ⟨result, t₂, hcomplete, -⟩ := Action.bind_eq_ok_iff.mp h
    obtain ⟨p, t₁, hp, -⟩ := Action.bind_eq_ok_iff.mp hcomplete
    obtain ⟨tok, htok, hverify, -⟩ := securityDependency_spec hp
    obtain rfl := Option.some.inj htok
    exact ⟨p, t₁, hverify⟩
  | login payload => simp [ApiOp.bearer?] at hop
  | administer => simp [ApiOp.bearer?] at hop

/-- A rotation that succeeds revokes the token. -/
lemma revoked_of_rotatePersonalToken {tokenId : String} {actor : SecurityPrincipal}
    {r : IssueResult} (h : rotatePersonalToken H now e tokenId actor t = (.ok r, t')) :
    ∃ row, t'.pats.get? tokenId = some row ∧ row.revokedAt ≠ none := by
  obtain ⟨_, _, hget, h⟩ := Action.bind_eq_ok_iff.mp h
  obtain ⟨rfl, rfl⟩ := Action.get_eq_ok_iff.mp hget
  obtain ⟨record, _, hrecord, h⟩ := Action.bind_eq_ok_iff.mp h
  obtain ⟨-, rfl⟩ := Action.lift_eq_ok_iff.mp hrecord
  split at h
  · exact absurd h Action.raise_ne_ok
  · rw [Action.mapError_eq_ok_iff] at h
    obtain ⟨_, _, hget, h⟩ := Action.bind_eq_ok_iff.mp h
    obtain ⟨rfl, rfl⟩ := Action.get_eq_ok_iff.mp hget
    obtain ⟨existing, _, hexisting, h⟩ := Action.bind_eq_ok_iff.mp h
    obtain ⟨-, rfl⟩ := Action.lift_eq_ok_iff.mp hexisting
    split at h
    · exact absurd h Action.raise_ne_ok
    · have heffect := patEffect_of_rotate (Action.transaction_eq_ok_iff.mp h)
      exact heffect.withdrawn (by exact rfl)

/-- A revocation that succeeds revokes the token. -/
lemma revoked_of_revokePersonalToken {tokenId : String} {actor : SecurityPrincipal}
    {r : Option ℤ} (h : revokePersonalToken now tokenId actor t = (.ok r, t')) :
    ∃ row, t'.pats.get? tokenId = some row ∧ row.revokedAt ≠ none := by
  obtain ⟨_, _, hget, h⟩ := Action.bind_eq_ok_iff.mp h
  obtain ⟨rfl, rfl⟩ := Action.get_eq_ok_iff.mp hget
  obtain ⟨record, _, hrecord, h⟩ := Action.bind_eq_ok_iff.mp h
  obtain ⟨-, rfl⟩ := Action.lift_eq_ok_iff.mp hrecord
  split at h
  · exact absurd h Action.raise_ne_ok
  · obtain ⟨_, _, hget, h⟩ := Action.bind_eq_ok_iff.mp h
    obtain ⟨rfl, rfl⟩ := Action.get_eq_ok_iff.mp hget
    obtain ⟨existing, _, hexisting, h⟩ := Action.bind_eq_ok_iff.mp h
    obtain ⟨hexisting, rfl⟩ := Action.lift_eq_ok_iff.mp hexisting
    split at h
    · exact absurd h Action.raise_ne_ok
    · have heffect := patEffect_of_revoke (H := plainHashing) (Action.transaction_eq_ok_iff.mp h)
      cases heffect with
      | unknown _ _ _ hrow => simp [getPat, hrow] at hexisting
      | revoked _ _ _ row revokedAt hrow => exact ⟨_, Dict.get?_set_self _ _ _, by simp⟩

/-- A request that withdraws a token, and succeeds, revokes it. -/
lemma spent_of_withdraws {c : ApiCall} {r : Option String} (hwithdraws : c.op.Withdraws token)
    (h : c.run H M t = (.ok r, t')) : Spent H now t' token := by
  obtain ⟨time, e, op⟩ := c
  rcases hwithdraws with ⟨bearer, tokenId, rfl, hnames⟩ | ⟨bearer, tokenId, rfl, hnames⟩
  · rw [Spent, if_neg (by simp [hnames.not_isSessionToken])]
    intro id hid
    obtain rfl := hid.unique hnames
    obtain ⟨p, t₁, -, h⟩ := Action.bind_eq_ok_iff.mp h
    obtain ⟨result, t₂, hbody, hpure⟩ := Action.bind_eq_ok_iff.mp h
    obtain ⟨-, rfl⟩ := Action.pure_eq_ok_iff.mp hpure
    exact revoked_of_rotatePersonalToken hbody
  · rw [Spent, if_neg (by simp [hnames.not_isSessionToken])]
    intro id hid
    obtain rfl := hid.unique hnames
    obtain ⟨p, t₁, -, h⟩ := Action.bind_eq_ok_iff.mp h
    obtain ⟨result, t₂, hbody, hpure⟩ := Action.bind_eq_ok_iff.mp h
    obtain ⟨-, rfl⟩ := Action.pure_eq_ok_iff.mp hpure
    exact revoked_of_revokePersonalToken hbody

/-! ## Revocation -/

lemma Obtained.handed_out {history : ApiHistory} (h : Obtained token history credential) :
    ∃ entry ∈ history, entry.2 = .ok (some credential) := by
  induction h with
  | byToken => exact ⟨_, List.mem_cons_self, rfl⟩
  | byObtained => exact ⟨_, List.mem_cons_self, rfl⟩
  | earlier h ih =>
    obtain ⟨entry, hentry, hresult⟩ := ih
    exact ⟨entry, List.mem_cons_of_mem _ hentry, hresult⟩

/-- What was obtained before a request is spent, if the request withdraws the token. -/
def SpentBeforehand (H : SecretHashing) (token : String) (history : ApiHistory)
    (t : IdentityTables) (c : ApiCall) : Prop :=
  c.op.Withdraws token → ∀ credential, Obtained token history credential →
    Spent H c.now t credential

/-- The run invariant: once the token is withdrawn, it is spent with all that was obtained. -/
lemma spent_of_run (hH : SessionsCollisionFree H) {history : ApiHistory}
    (hrun : ApiRun H M (SpentBeforehand H token) history t)
    (hwithdrawn : TokenWithdrawn token history) (hnow : ∀ entry ∈ history, entry.1.now ≤ now) :
    Spent H now t token ∧ ∀ credential, Obtained token history credential →
      Spent H now t credential := by
  induction hrun generalizing now with
  | start => obtain ⟨entry, hentry, -⟩ := hwithdrawn; simp at hentry
  | @call history t h c hclock hfresh hQ ih =>
    have hevolves := evolves_run (H := H) (M := M) c t
    have hnow' : c.now ≤ now := hnow _ List.mem_cons_self
    -- the token is spent behind the call, and what was obtained before is spent before it
    obtain ⟨htoken, hbefore, hbearer⟩ : Spent H c.now (c.run H M t).2 token ∧
        (∀ credential, Obtained token history credential → Spent H c.now t credential) ∧
        (c.op.Withdraws token ∨ Spent H c.now t token) := by
      by_cases hearlier : TokenWithdrawn token history
      · obtain ⟨hspent, hobtained⟩ := ih hearlier hclock
        obtain ⟨id, hnames⟩ : ∃ id, NamesToken token id := by
          obtain ⟨entry, -, hwithdraws, -⟩ := hearlier
          rcases hwithdraws with ⟨_, id, -, hnames⟩ | ⟨_, id, -, hnames⟩ <;> exact ⟨id, hnames⟩
        exact ⟨hspent.evolves hH hevolves (by simp [hnames.not_isSessionToken]), hobtained,
          .inr hspent⟩
      · obtain ⟨entry, hentry, hwithdraws, r, hr⟩ := hwithdrawn
        rcases List.mem_cons.mp hentry with rfl | hentry
        · exact ⟨spent_of_withdraws hwithdraws (Prod.ext hr rfl), hQ hwithdraws, .inl hwithdraws⟩
        · exact absurd ⟨entry, hentry, hwithdraws, r, hr⟩ hearlier
    refine ⟨htoken.mono hnow', fun credential hobtained => ?_⟩
    generalize hresult : (c.run H M t).1 = result at hobtained
    cases hobtained with
    | earlier hobtained =>
      refine ((hbefore credential hobtained).evolves hH hevolves fun _ heq => ?_).mono hnow'
      obtain ⟨entry, hentry, hhanded⟩ := hobtained.handed_out
      exact hfresh entry hentry (heq ▸ hhanded)
    | byObtained hop hobtained hreplaces =>
      -- the bearer is spent, so that the request fails
      obtain ⟨p, t₁, hverify⟩ := verify_of_run hop (Prod.ext hresult rfl)
      exact absurd hverify ((hbefore _ hobtained).not_verify p)
    | byToken hop hreplaces =>
      rcases hbearer with hwithdraws | hspent
      · -- the request takes the token back, and hands out nothing
        rcases hwithdraws with hreplaces' | ⟨bearer, id, hop', -⟩
        · exact absurd hreplaces' hreplaces
        · obtain ⟨time, e, op⟩ := c
          obtain rfl : op = .request bearer (.revoke id) := hop'
          have hrun' : ApiCall.run H M ⟨time, e, .request bearer (.revoke id)⟩ t =
              (.ok (some credential), _) := Prod.ext hresult rfl
          obtain ⟨p, t₁, -, hbody⟩ := Action.bind_eq_ok_iff.mp hrun'
          obtain ⟨x, t₂, -, hpure⟩ := Action.bind_eq_ok_iff.mp hbody
          exact absurd (Action.pure_eq_ok_iff.mp hpure).1 (by simp)
      · obtain ⟨p, t₁, hverify⟩ := verify_of_run hop (Prod.ext hresult rfl)
        exact absurd hverify (hspent.not_verify p)

/-- Revocation reaches what was obtained with a token, in every run whose requests withdraw the
token only when all of that is spent itself. -/
theorem revocationReaches_of_spentBeforehand (hH : SessionsCollisionFree H) (M : MfaPrimitives)
    (token : String) : RevocationReaches H M token (SpentBeforehand H token) := by
  intro history t hrun hwithdrawn now hnow credential hobtained p t'
  exact ((spent_of_run hH hrun hwithdrawn hnow).2 credential hobtained).not_verify p

lemma sessionsCollisionFree_plainHashing : SessionsCollisionFree plainHashing := by
  intro salt secret secret' h
  simpa [plainHashing] using h

/-- With digests that keep the texts, for one token. -/
theorem revocationReaches_plainHashing :
    RevocationReaches plainHashing plainMfa "pwyrm_aa_s"
      (SpentBeforehand plainHashing "pwyrm_aa_s") :=
  revocationReaches_of_spentBeforehand sessionsCollisionFree_plainHashing plainMfa "pwyrm_aa_s"

/-! ### A session that outlives its token -/

/-- The token is exchanged for a session. -/
def exchangeCall : ApiCall := ⟨100, mintedEntropy, .request "pwyrm_aa_s" .refresh⟩

/-- The token is revoked. -/
def revokeCall : ApiCall := ⟨200, replacingEntropy, .request "pwyrm_aa_s" (.revoke "aa")⟩

/-- The session still verifies when its token is revoked. -/
theorem exchanged_session_survives :
    ¬ RevocationReaches plainHashing plainMfa "pwyrm_aa_s" fun _ _ _ => True := by
  intro h
  have hexchanged : (exchangeCall.run plainHashing plainMfa restrictedTables).1 =
      .ok (some "pws_bb_t") := rfl
  have hrun : ApiRun plainHashing plainMfa (fun _ _ _ => True) _ _ :=
    .call (.call (.start restrictedTables) exchangeCall (by simp) (by simp) trivial) revokeCall
      (by simp [exchangeCall, revokeCall]) (by simp [hexchanged, Entropy.session]; decide) trivial
  have hobtained : Obtained "pwyrm_aa_s"
      [(exchangeCall, (exchangeCall.run plainHashing plainMfa restrictedTables).1)] "pws_bb_t" := by
    rw [hexchanged]
    refine .byToken rfl ?_
    rintro ⟨bearer, tokenId, hop, -⟩
    simp [exchangeCall] at hop
  refine h _ _ hrun ⟨_, List.mem_cons_self, .inr ⟨_, "aa", rfl, "s", by decide⟩, none, rfl⟩ 300
    (by simp [exchangeCall, revokeCall]) "pws_bb_t" (.earlier hobtained) _ _ rfl

end Portwyrm.Identity

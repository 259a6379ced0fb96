import Portwyrm.Identity.Tables

/-!
# Authentication

`TableIdentity` and `PrincipalSecurityDependency` of `portwyrm.api.security`: a credential is
verified against its table, its principal is resolved again from the durable tables, and the
authority of the two is intersected.
-/

namespace Portwyrm.Identity

open Base

/-! ## `TableIdentity` -/

/-- `TableIdentity.session_ttl_seconds`. -/
def sessionTtlSeconds : ℤ := 86400

/-- `_snapshot`. -/
def snapshot (p : SecurityPrincipal) : Snapshot where
  principalId := p.userId
  email := p.identity
  displayName := p.displayName
  isAdmin := p.isAdmin
  mustChangePassword := p.mustChangePassword
  permissions := p.permissions
  scopes := p.scopes.elems
  visibility := p.visibility
  owner := p.owner

section TableIdentity

variable (H : SecretHashing) (now : ℤ)

/-- `TableIdentity.issue_session`. -/
def issueSession (e : Entropy) (p : SecurityPrincipal) (ttlSeconds : Option ℤ) :
    Action IdentityTables (String × ℤ) :=
  let expiresAt := now + ttlSeconds.getD sessionTtlSeconds
  .transaction (issueSessionRow H now e (snapshot p) expiresAt)

/-- A token that `TableIdentity.verify` looks up among the sessions. -/
def isSessionToken (token : String) : Bool := "pws_".toList.isPrefixOf token.toList

/-- The first step of `TableIdentity.verify`: the row of the credential. -/
def verifyCredential (token : String) (t : IdentityTables) : Result (Verification × IdentityTables) :=
  if isSessionToken token then (verifySession H now token t).map fun v => (v, t)
  else verifyPat H now token t

/-- The scopes of a verified credential: `payload.get("scopes") or {"user"}`. -/
def Verification.scopeSet (v : Verification) : FrozenSet String :=
  if v.scopes = [] then .single fullAccountScope else .ofList v.scopes

/-- The last step of `TableIdentity.verify`: the principal as its durable rows and the scopes
of the credential give it. -/
def resolveCredential (v : Verification) (t : IdentityTables) : Result SecurityPrincipal := do
  let p ← resolve t v.principalId v.scopeSet v.owner
  let A ← effectiveTokenAuthority v.scopeSet.elems p.permissions p.isAdmin
  pure { p with isAdmin := A.isAdmin, permissions := A.permissions, scopes := A.scopes }

/-- `TableIdentity.verify`. -/
def verify (token : String) : Action IdentityTables SecurityPrincipal := do
  let v ← .transaction (verifyCredential H now token)
  let t ← Action.get
  .lift (resolveCredential v t)

/-! ## `PrincipalSecurityDependency` -/

/-- The translation of an exception of `verify` to a response. -/
def unauthorized : Exc → Exc
  | .http _ _ => .http 401 "invalid token"
  | .valueError text => .http 401 text
  | e => e

/-- `PrincipalSecurityDependency.__call__`, on the token of the request. -/
def securityDependency (mfaOnly allowPasswordChange : Bool) (token : Option String) :
    Action IdentityTables SecurityPrincipal :=
  match token with
  | none | some "" =>
    .raise (.http 401 (if mfaOnly then "MFA challenge token required" else "bearer token required"))
  | some token => do
    let p ← (verify H now token).mapError unauthorized
    if mfaOnly ∧ p.scopes ≠ .single "mfa" then
      Action.raise (.http 403 "MFA challenge token required")
    else if ¬ mfaOnly ∧ "user" ∉ p.scopes then Action.raise (.http 403 "MFA challenge pending")
    else if p.mustChangePassword ∧ ¬ allowPasswordChange then
      Action.raise (.http 403 "password change required")
    else pure p

/-- `TableSecurityDependencies.principal`. -/
def principalFromBearer (token : Option String) : Action IdentityTables SecurityPrincipal :=
  securityDependency H now false false token

/-- `TableSecurityDependencies.mfa_principal`. -/
def principalFromMfaBearer (token : Option String) : Action IdentityTables SecurityPrincipal :=
  securityDependency H now true false token

end TableIdentity

/-! ## What a verified credential may do -/

/-- The durable authority of a principal: its permissions and administrator flag. -/
structure Durable where
  permissions : Permissions
  isAdmin : Bool

/-- The durable authority that the tables hold for a principal. -/
def durable (t : IdentityTables) (principalId : ℕ) : Option Durable :=
  (t.principals.get? principalId).map fun row =>
    { permissions := (t.rbac.authorization principalId).permissions, isAdmin := row.isAdmin }

/-- The authority that a principal carries. -/
def SecurityPrincipal.authority (p : SecurityPrincipal) : TokenAuthority where
  permissions := p.permissions
  isAdmin := p.isAdmin
  scopes := p.scopes

variable {H : SecretHashing} {now : ℤ}

lemma resolve_spec {t : IdentityTables} {principalId : ℕ} {scopes : FrozenSet String}
    {owner : Option String} {p : SecurityPrincipal}
    (h : resolve t principalId scopes owner = .ok p) :
    p.userId = principalId ∧ durable t principalId = some ⟨p.permissions, p.isAdmin⟩ := by
  unfold resolve at h
  split at h
  · exact absurd h throw_ne_ok
  · rename_i row hrow
    split at h
    · exact absurd h throw_ne_ok
    · obtain rfl := pure_eq_ok_iff.mp h
      exact ⟨rfl, by simp [durable, hrow]⟩

/-- The principal that a credential resolves to carries the authority that its scopes leave of
the durable one. -/
lemma resolveCredential_spec {v : Verification} {t : IdentityTables} {p : SecurityPrincipal}
    (h : resolveCredential v t = .ok p) :
    p.userId = v.principalId ∧ ∃ P, durable t v.principalId = some P ∧
      effectiveTokenAuthority v.scopeSet.elems P.permissions P.isAdmin = .ok p.authority := by
  unfold resolveCredential at h
  obtain ⟨q, hq, h⟩ := bind_eq_ok_iff.mp h
  obtain ⟨A, hA, h⟩ := bind_eq_ok_iff.mp h
  obtain rfl := pure_eq_ok_iff.mp h
  obtain ⟨hid, hdurable⟩ := resolve_spec hq
  exact ⟨hid, _, hdurable, hA⟩

/-- `verify` is the lookup of the credential followed by its resolution. -/
lemma verify_eq_ok_iff {token : String} {t t' : IdentityTables} {p : SecurityPrincipal} :
    verify H now token t = (.ok p, t') ↔
      ∃ v, verifyCredential H now token t = .ok (v, t') ∧ resolveCredential v t' = .ok p := by
  rw [verify, Action.bind_eq_ok_iff]
  constructor
  · rintro ⟨v, t₁, hv, h⟩
    obtain ⟨t₂, t₃, hget, h⟩ := Action.bind_eq_ok_iff.mp h
    obtain ⟨rfl, rfl⟩ := Action.get_eq_ok_iff.mp hget
    obtain ⟨hp, rfl⟩ := Action.lift_eq_ok_iff.mp h
    exact ⟨v, Action.transaction_eq_ok_iff.mp hv, hp⟩
  · rintro ⟨v, hv, hp⟩
    refine ⟨v, t', Action.transaction_eq_ok_iff.mpr hv, ?_⟩
    exact Action.bind_eq_ok_iff.mpr ⟨t', t', by simp, by simp [hp]⟩

/-- A request that passes the dependency carries a verified credential, and the gates are
open for it. -/
lemma securityDependency_spec {mfaOnly allowPasswordChange : Bool} {token : Option String}
    {t t' : IdentityTables} {p : SecurityPrincipal}
    (h : securityDependency H now mfaOnly allowPasswordChange token t = (.ok p, t')) :
    ∃ tok, token = some tok ∧ verify H now tok t = (.ok p, t') ∧
      (mfaOnly = true → p.scopes = .single "mfa") ∧ (mfaOnly = false → "user" ∈ p.scopes) := by
  unfold securityDependency at h
  split at h
  · exact absurd h Action.raise_ne_ok
  · exact absurd h Action.raise_ne_ok
  · rename_i tok _
    obtain ⟨q, t₁, hq, h⟩ := Action.bind_eq_ok_iff.mp h
    rw [Action.mapError_eq_ok_iff] at hq
    split at h
    · exact absurd h Action.raise_ne_ok
    · rename_i hmfa
      split at h
      · exact absurd h Action.raise_ne_ok
      · rename_i huser
        split at h
        · exact absurd h Action.raise_ne_ok
        · obtain ⟨rfl, rfl⟩ := Action.pure_eq_ok_iff.mp h
          refine ⟨tok, rfl, hq, fun hm => ?_, fun hm => ?_⟩
          · by_contra hne
            exact hmfa ⟨hm, hne⟩
          · by_contra hne
            exact huser ⟨by simp [hm], hne⟩

end Portwyrm.Identity

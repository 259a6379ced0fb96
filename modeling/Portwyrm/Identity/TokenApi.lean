import Portwyrm.Identity.Security

/-!
# Minting and rotating personal access tokens

The endpoints `create_token_for` and `rotate_personal_token` of `portwyrm.api.compat`, with
the methods of `TableIdentity` that they call.
-/

namespace Portwyrm.Identity

open Base

/-! ## Payloads -/

/-- The member `scopes` of a payload. -/
inductive ScopesField
  | absent
  | list (scopes : List String)
  /-- A value that is not a list. -/
  | other

/-- The payload of `create_token_for`. -/
structure CreateTokenPayload where
  /-- `name`, when it is a text. -/
  name : Option String
  scopes : ScopesField
  /-- `int(expires_at)`, or the text of the exception it raises; `none` when it is null. -/
  expiresAt : Option (Except String ℤ)

/-- `payload.get("scopes", sorted(owner.scopes))`, when it is a list. -/
def CreateTokenPayload.requestedScopes (payload : CreateTokenPayload) (owner : SecurityPrincipal) :
    Option (List String) :=
  match payload.scopes with
  | .absent => some owner.scopes.elems
  | .list l => some l
  | .other => none

/-- The expiry passed on; a value that `int` refuses is reported like an error of the table
operation. -/
def CreateTokenPayload.expiry (payload : CreateTokenPayload) : Result (Option ℤ) :=
  match payload.expiresAt with
  | none => pure none
  | some (.ok x) => pure (some x)
  | some (.error text) => throw (.http 422 text)

/-- `except ValueError as exc: raise HTTPException(status, str(exc))`. -/
def valueErrorAs (status : ℕ) : Exc → Exc
  | .valueError text => .http status text
  | e => e

/-! ## Owners and records -/

/-- The principal that the user resource of the compatibility service describes. -/
def userPrincipal (t : IdentityTables) (id : ℕ) : Option SecurityPrincipal :=
  (t.principals.get? id).map fun row =>
    { userId := id
      identity := Text.lower row.email
      isAdmin := row.isAdmin
      mustChangePassword := row.mustChangePassword
      permissions := (t.rbac.authorization id).permissions
      visibility := row.visibility }

/-- `token_owner`. -/
def tokenOwner (targetId : ℕ) (actor : SecurityPrincipal) (a : PermissionAction)
    (t : IdentityTables) : Result SecurityPrincipal :=
  if targetId = actor.userId then pure actor
  else if mayManageForeignTokens actor a = false then
    throw (.http 403 "access-token permission required")
  else match userPrincipal t targetId with
    | none => throw (.http 404 "user not found")
    | some p => pure p

/-- `PATRecord`, as far as the endpoints read it. -/
structure PATRecord where
  tokenId : String
  principal : SecurityPrincipal
  revokedAt : Option ℤ

/-- `TableIdentity.get_pat`. -/
def getPat (tokenId : String) (actor : SecurityPrincipal) (a : PermissionAction)
    (t : IdentityTables) : Result (Option PATRecord) :=
  match t.pats.get? tokenId with
  | none => pure none
  | some row => do
    let p ← resolve t row.principalId (FrozenSet.ofList row.scopes) none
    if p.userId ≠ actor.userId ∧ mayManageForeignTokens actor a = false then pure none
    else pure (some { tokenId := tokenId, principal := p, revokedAt := row.revokedAt })

/-- `owned_token`. -/
def ownedToken (tokenId : String) (actor : SecurityPrincipal) (a : PermissionAction)
    (t : IdentityTables) : Result PATRecord := do
  match ← getPat tokenId actor a t with
  | none => throw (.http 404 "token not found")
  | some record => pure record

/-! ## Endpoints -/

section Endpoints

variable (H : SecretHashing) (now : ℤ) (e : Entropy)

/-- The scopes and permissions of the new token, as `create_token_for` computes them before it
stores anything. -/
def requestedAuthority (scopes : List String) (owner : SecurityPrincipal) : Result TokenAuthority := do
  let requested ← validateRequestedScopes scopes owner.permissions owner.isAdmin
  effectiveTokenAuthority requested.elems owner.permissions owner.isAdmin

/-- `create_token_for`. -/
def createTokenFor (targetId : ℕ) (payload : CreateTokenPayload) (actor : SecurityPrincipal) :
    Action IdentityTables IssueResult := do
  let t ← Action.get
  let owner ← .lift (tokenOwner targetId actor .create t)
  match payload.name, payload.requestedScopes owner with
  | some name, some scopes => do
    let A ← .lift ((requestedAuthority scopes owner).mapError (valueErrorAs 403))
    let expiresAt ← .lift payload.expiry
    (Action.transaction (issue H now e actor
      { principalId := owner.userId
        name := name
        scopes := A.scopes.elems
        expiresAt := expiresAt })).mapError (valueErrorAs 422)
  | _, _ => .raise (.http 422 "name and scopes are required")

/-- `TableIdentity.rotate_pat`. -/
def rotatePat (tokenId : String) (actor : SecurityPrincipal) : Action IdentityTables IssueResult := do
  let t ← Action.get
  match ← Action.lift (getPat tokenId actor .update t) with
  | none => .raise (.lookupError "token not found")
  | some existing => .transaction (rotate H now e actor existing.principal.userId tokenId)

/-- The translation of an exception of `rotate_pat` to a response. -/
def rotateError : Exc → Exc
  | .lookupError _ => .http 404 "token not found"
  | .valueError text => .http 409 text
  | e => e

/-- `rotate_personal_token`. -/
def rotatePersonalToken (tokenId : String) (actor : SecurityPrincipal) :
    Action IdentityTables IssueResult := do
  let t ← Action.get
  let record ← .lift (ownedToken tokenId actor .update t)
  if record.revokedAt ≠ none then Action.raise (.http 409 "token is revoked")
  else (rotatePat H now e tokenId actor).mapError rotateError

end Endpoints

/-! ## What a successful call stores -/

variable {H : SecretHashing} {now : ℤ} {e : Entropy}

/-- The row of a new token, and its text, are those of the request. -/
lemma newToken_spec {r : IssueRequest} {row : PATRow} {result : IssueResult}
    (h : newToken H now e r = .ok (row, result)) :
    result.token = credentialText "pwyrm" e.tokenId e.secret ∧
      row.principalId = r.principalId ∧
      ∃ n, normalizeTokenScopes r.scopes = .ok n ∧ row.scopes = n.elems := by
  unfold newToken at h
  obtain ⟨_, _, h⟩ := bind_eq_ok_iff.mp h
  obtain ⟨_, _, h⟩ := bind_eq_ok_iff.mp h
  obtain ⟨digest, _, h⟩ := bind_eq_ok_iff.mp h
  obtain ⟨n, hn, h⟩ := bind_eq_ok_iff.mp h
  simp only [pure_eq_ok_iff, Prod.mk.injEq] at h
  obtain ⟨rfl, rfl⟩ := h
  exact ⟨rfl, rfl, n, hn, rfl⟩

lemma addPat_spec {t t' : IdentityTables} {tokenId : String} {row : PATRow}
    (h : addPat t tokenId row = .ok t') :
    tokenId ∉ t.pats ∧ t' = { t with pats := t.pats.set tokenId row } := by
  unfold addPat at h
  split at h
  · exact absurd h throw_ne_ok
  · rename_i hno
    exact ⟨fun hm => hno (Or.inl hm), (pure_eq_ok_iff.mp h).symm⟩

/-- What a token operation leaves behind: the principals and their authorization as they were,
and under the id of the new token a row with the given owner and scopes. -/
structure Minted (e : Entropy) (principalId : ℕ) (n : FrozenSet String) (t : IdentityTables)
    (result : IssueResult) (t' : IdentityTables) : Prop where
  token : result.token = credentialText "pwyrm" e.tokenId e.secret
  principals : t'.principals = t.principals
  rbac : t'.rbac = t.rbac
  row : ∃ row, t'.pats.get? e.tokenId = some row ∧ row.principalId = principalId ∧
    row.scopes = n.elems

lemma issue_spec {actor : SecurityPrincipal} {r : IssueRequest} {t t' : IdentityTables}
    {result : IssueResult} (h : issue H now e actor r t = .ok (result, t')) :
    ∃ n, normalizeTokenScopes r.scopes = .ok n ∧ Minted e r.principalId n t result t' := by
  unfold issue at h
  obtain ⟨_, _, h⟩ := bind_eq_ok_iff.mp h
  obtain ⟨_, _, h⟩ := bind_eq_ok_iff.mp h
  obtain ⟨⟨row, res⟩, hnew, h⟩ := bind_eq_ok_iff.mp h
  obtain ⟨t₁, hadd, h⟩ := bind_eq_ok_iff.mp h
  obtain ⟨rfl, rfl⟩ := Prod.mk.injEq _ _ _ _ ▸ pure_eq_ok_iff.mp h
  obtain ⟨htok, hid, n, hn, hscopes⟩ := newToken_spec hnew
  obtain ⟨_, rfl⟩ := addPat_spec hadd
  exact ⟨n, hn, htok, rfl, rfl, row, by simp, hid, hscopes⟩

lemma rotate_spec {actor : SecurityPrincipal} {targetId : ℕ} {tokenId : String}
    {t t' : IdentityTables} {result : IssueResult}
    (h : rotate H now e actor targetId tokenId t = .ok (result, t')) :
    ∃ old n, t.pats.get? tokenId = some old ∧ normalizeTokenScopes old.scopes = .ok n ∧
      Minted e old.principalId n t result t' := by
  unfold rotate at h
  obtain ⟨_, _, h⟩ := bind_eq_ok_iff.mp h
  split at h
  · exact absurd h throw_ne_ok
  · rename_i old hold
    obtain ⟨_, _, h⟩ := bind_eq_ok_iff.mp h
    obtain ⟨_, _, h⟩ := bind_eq_ok_iff.mp h
    obtain ⟨⟨row, res⟩, hnew, h⟩ := bind_eq_ok_iff.mp h
    obtain ⟨t₁, hadd, h⟩ := bind_eq_ok_iff.mp h
    obtain ⟨rfl, rfl⟩ := Prod.mk.injEq _ _ _ _ ▸ pure_eq_ok_iff.mp h
    obtain ⟨htok, hid, n, hn, hscopes⟩ := newToken_spec hnew
    obtain ⟨hfresh, rfl⟩ := addPat_spec hadd
    -- the old row stays under its own id, which is not the new one
    have hne : e.tokenId ≠ tokenId := by
      rintro rfl
      exact hfresh (Dict.mem_iff.mpr ⟨old, hold⟩)
    refine ⟨old, n, hold, hn, htok, rfl, rfl, row, ?_, hid, hscopes⟩
    simp [Dict.get?_set, hne]

end Portwyrm.Identity

import Portwyrm.Identity.Rbac
import Portwyrm.Identity.TokenPolicy

/-!
# Identity tables

The tables of principals, personal access tokens and browser sessions, with the operations
of `portwyrm.tables.identities`, `portwyrm.tables.tokens` and `portwyrm.tables.sessions`.
Times are integers, as `int(time.time())` gives them.  Rows that are only ever selected by a
unique column are kept under the value of that column.
-/

namespace Portwyrm.Identity

open Base

/-! ## Secrets -/

/-- The hashing providers, which are not part of the repository.  The first argument of a
hash is its salt. -/
structure SecretHashing where
  argon2Hash : String → String → String
  argon2Verify : String → String → Bool
  bcryptHash : String → String → String
  bcryptVerify : String → String → Bool

namespace SecretHashing

variable (H : SecretHashing)

/-- `hash_secret`. -/
def hashSecret (salt secret : String) : Result String :=
  if secret = "" then throw (.valueError "secret must not be empty")
  else pure (H.argon2Hash salt secret)

/-- `verify_secret`. -/
def verifySecret (digest secret : String) : Bool := H.argon2Verify digest secret

/-- `_bcrypt_input`, before its digest. -/
def bcryptInput (secret : String) : Result String :=
  if secret = "" then throw (.valueError "API key must not be empty")
  else pure ("portwyrm-pat-v1:" ++ secret)

/-- `hash_api_key`. -/
def hashApiKey (salt secret : String) : Result String := do
  pure (H.bcryptHash salt (← bcryptInput secret))

/-- `_DUMMY_DIGEST`. -/
def dummyDigest : String := H.bcryptHash "" "portwyrm-invalid-api-key"

/-- `verify_api_key`. -/
def verifyApiKey (digest secret : String) : Result Bool :=
  if "$argon2".toList.isPrefixOf digest.toList then pure (H.verifySecret digest secret)
  else do
    let input ← bcryptInput secret
    pure (H.bcryptVerify (if digest = "" then H.dummyDigest else digest) input)

end SecretHashing

/-- Hashing that keeps secrets as they are, to run the model on concrete inputs. -/
def plainHashing : SecretHashing where
  argon2Hash _ secret := "$argon2" ++ secret
  argon2Verify digest secret := digest = "$argon2" ++ secret
  bcryptHash _ secret := secret
  bcryptVerify digest secret := digest = secret

/-- The random values of one new credential.  Token ids are hexadecimal, so they do not
contain the separator of the credential text. -/
structure Entropy where
  /-- `secrets.randbelow`. -/
  rowId : ℕ
  /-- `secrets.token_hex`. -/
  tokenId : String
  /-- `secrets.token_urlsafe`. -/
  secret : String
  /-- The salt of the digest. -/
  salt : String
  /-- A hexadecimal text has no underscore. -/
  tokenId_hex : '_' ∉ tokenId.toList

lemma cc_hex : '_' ∉ "cc".toList := by
  decide

/-! ## Rows -/

/-- `visibility`. -/
inductive Visibility
  | all
  | user
deriving DecidableEq, Repr

/-- A row of `principals`. -/
structure PrincipalRow where
  email : String
  displayName : String
  isAdmin : Bool
  mustChangePassword : Bool
  isDisabled : Bool
  isDeleted : Bool
  visibility : Visibility

/-- `principal is not disabled and not deleted`. -/
def PrincipalRow.active (r : PrincipalRow) : Bool := !r.isDisabled && !r.isDeleted

/-- A row of `personal_access_tokens`. -/
structure PATRow where
  id : ℕ
  principalId : ℕ
  name : String
  tokenDigest : String
  scopes : List String
  expiresAt : Option ℤ
  lastUsedAt : Option ℤ
  revokedAt : Option ℤ
  replacedById : Option ℕ

/-- The snapshot of a principal that a session keeps. -/
structure Snapshot where
  principalId : ℕ
  email : String
  displayName : String
  isAdmin : Bool
  mustChangePassword : Bool
  permissions : Permissions
  scopes : List String
  visibility : Visibility
  owner : Option String

/-- A row of `browser_sessions`. -/
structure SessionRow where
  tokenDigest : String
  principalSnapshot : Snapshot
  expiresAt : ℤ

/-- A row of `credentials`. -/
structure CredentialRow where
  passwordHash : String
  passwordVersion : ℕ

/-- A row of `mfa_enrollments`. -/
structure EnrollmentRow where
  encryptedSecret : String
  confirmed : Bool

/-- A row of `mfa_recovery_codes`. -/
structure RecoveryCodeRow where
  principalId : ℕ
  codeDigest : String
  usedAt : Option ℤ

/-- The identity tables. -/
structure IdentityTables where
  principals : Dict ℕ PrincipalRow
  rbac : RbacTables
  /-- `credentials`, by `principal_id`. -/
  credentials : Dict ℕ CredentialRow := Dict.empty
  /-- `mfa_enrollments`, by `principal_id`. -/
  enrollments : Dict ℕ EnrollmentRow := Dict.empty
  recoveryCodes : List RecoveryCodeRow := []
  /-- `personal_access_tokens`, by `token_prefix`. -/
  pats : Dict String PATRow
  /-- `browser_sessions`, by `token_id`. -/
  sessions : Dict String SessionRow

/-! ## Principals -/

/-- `SecurityPrincipal`. -/
structure SecurityPrincipal where
  userId : ℕ
  identity : String
  displayName : String := ""
  isAdmin : Bool := false
  mustChangePassword : Bool := false
  permissions : Permissions := Dict.empty
  visibility : Visibility := .user
  scopes : FrozenSet String := .single fullAccountScope
  owner : Option String := none

/-- `SecurityPrincipal.may`, for a given action. -/
def SecurityPrincipal.may (p : SecurityPrincipal) (section_ : String) (a : PermissionAction) : Bool :=
  p.isAdmin || permissionAllows (p.permissions.get? (Text.replaceChar '-' '_' section_)) a

/-- `may_manage_foreign_tokens`. -/
def mayManageForeignTokens (p : SecurityPrincipal) (a : PermissionAction) : Bool :=
  p.isAdmin || p.may "access_tokens" a

/-- `PrincipalStore.resolve`. -/
def resolve (t : IdentityTables) (principalId : ℕ) (scopes : FrozenSet String)
    (owner : Option String) : Result SecurityPrincipal :=
  match t.principals.get? principalId with
  | none => throw (.valueError "principal is unavailable")
  | some row =>
    if row.active = false then throw (.valueError "principal is unavailable")
    else pure
      { userId := principalId
        identity := row.email
        displayName := row.displayName
        isAdmin := row.isAdmin
        mustChangePassword := row.mustChangePassword
        permissions := (t.rbac.authorization principalId).permissions
        visibility := row.visibility
        scopes := if scopes.elems = [] then .single fullAccountScope else scopes
        owner := owner }

/-! ## Personal access tokens -/

/-- The payload of `PATStore.issue`. -/
structure IssueRequest where
  principalId : ℕ
  name : String
  scopes : List String
  expiresAt : Option ℤ

/-- The result of `PATStore.issue` that the API hands out: the plaintext token and the text
that identifies its row. -/
structure IssueResult where
  token : String
  tokenId : String
  name : String
  scopes : List String
  expiresAt : Option ℤ

/-- The text of a credential. -/
def credentialText (kind tokenId secret : String) : String := kind ++ "_" ++ tokenId ++ "_" ++ secret

/-- `PATStore._authorize_owner`. -/
def authorizeOwner (actor : SecurityPrincipal) (ownerId : ℕ) (a : PermissionAction) : Result Unit :=
  if actor.userId ≠ ownerId ∧ mayManageForeignTokens actor a = false then
    throw (.permissionError "access-token permission required")
  else pure ()

/-- The branch of `enforce_authorization` for `personal_access_tokens`. -/
def enforceTokenAuthorization (actor : SecurityPrincipal) (targetId : ℕ) (a : PermissionAction) :
    Result Unit :=
  if actor.isAdmin || actor.userId = targetId || mayManageForeignTokens actor a then pure ()
  else throw (.authorizationError "permission denied")

section PATStore

variable (H : SecretHashing) (now : ℤ) (e : Entropy)

/-- `PATStore._new_token`. -/
def newToken (r : IssueRequest) : Result (PATRow × IssueResult) := do
  let name := Text.strip r.name
  raiseIf (name = "") (.valueError "PAT name must not be empty")
  raiseIf (∃ x ∈ r.expiresAt, x ≤ now) (.valueError "PAT expiry must be in the future")
  let plaintext := credentialText "pwyrm" e.tokenId e.secret
  let digest ← H.hashApiKey e.salt plaintext
  let scopes ← normalizeTokenScopes r.scopes
  pure
    ({ id := e.rowId
       principalId := r.principalId
       name := name
       tokenDigest := digest
       scopes := scopes.elems
       expiresAt := r.expiresAt
       lastUsedAt := none
       revokedAt := none
       replacedById := none },
     { token := plaintext
       tokenId := e.tokenId
       name := name
       scopes := scopes.elems
       expiresAt := r.expiresAt })

/-- Insert a row, under the unique constraints of the table. -/
def addPat (t : IdentityTables) (tokenId : String) (row : PATRow) : Result IdentityTables :=
  if tokenId ∈ t.pats ∨ ∃ r ∈ t.pats.values, r.id = row.id then throw .integrityError
  else pure { t with pats := t.pats.set tokenId row }

/-- `PATStore.issue`. -/
def issue (actor : SecurityPrincipal) (r : IssueRequest) (t : IdentityTables) :
    Result (IssueResult × IdentityTables) := do
  enforceTokenAuthorization actor r.principalId .create
  authorizeOwner actor r.principalId .create
  let (row, result) ← newToken H now e r
  let t ← addPat t e.tokenId row
  pure (result, t)

/-- `PATStore.rotate`. -/
def rotate (actor : SecurityPrincipal) (targetId : ℕ) (tokenId : String) (t : IdentityTables) :
    Result (IssueResult × IdentityTables) := do
  enforceTokenAuthorization actor targetId .update
  match t.pats.get? tokenId with
  | none => throw (.valueError "token not found or revoked")
  | some row => do
    raiseIf (row.revokedAt ≠ none) (.valueError "token not found or revoked")
    authorizeOwner actor row.principalId .update
    let (replacement, result) ← newToken H now e
      { principalId := row.principalId
        name := row.name
        scopes := row.scopes
        expiresAt := row.expiresAt }
    let t ← addPat t e.tokenId replacement
    let revoked := { row with revokedAt := some now, replacedById := some replacement.id }
    pure (result, { t with pats := t.pats.set tokenId revoked })

/-- `PAT_LAST_USED_WRITE_INTERVAL_SECONDS`. -/
def patLastUsedWriteIntervalSeconds : ℤ := 300

/-- The row of a token after its use: `last_used_at` is written once per interval. -/
def PATRow.touch (row : PATRow) : PATRow :=
  let stale := match row.lastUsedAt with
    | none => true
    | some last => patLastUsedWriteIntervalSeconds ≤ now - last
  if stale then { row with lastUsedAt := some now } else row

@[simp] lemma PATRow.touch_principalId (row : PATRow) :
    (PATRow.touch now row).principalId = row.principalId := by
  simp only [PATRow.touch]
  split <;> split <;> rfl

@[simp] lemma PATRow.touch_scopes (row : PATRow) : (PATRow.touch now row).scopes = row.scopes := by
  simp only [PATRow.touch]
  split <;> split <;> rfl

/-- What `PATStore.verify` and `BrowserSessionStore.verify` report of a credential. -/
structure Verification where
  principalId : ℕ
  scopes : List String
  owner : Option String

/-- The row of a live token with a given text, as `PATStore.verify` finds it. -/
def patRow (token : String) (t : IdentityTables) : Result (String × PATRow) :=
  match Text.split '_' 2 token with
  | ["pwyrm", tokenId, _] => do
    let row? := t.pats.get? tokenId
    let isMatch ← H.verifyApiKey ((row?.map PATRow.tokenDigest).getD "") token
    match row? with
    | none => throw (.valueError "invalid token")
    | some row =>
      if isMatch = false ∨ row.revokedAt ≠ none ∨ (∃ x ∈ row.expiresAt, x ≤ now) then
        throw (.valueError "invalid token")
      else pure (tokenId, row)
  | _ => throw (.valueError "invalid token")

/-- `PATStore.verify`. -/
def verifyPat (token : String) (t : IdentityTables) : Result (Verification × IdentityTables) := do
  let (tokenId, row) ← patRow H now token t
  match t.principals.get? row.principalId with
  | none => throw (.valueError "invalid token")
  | some principal =>
    if principal.active = false then throw (.valueError "invalid token")
    else
      pure ({ principalId := row.principalId, scopes := row.scopes, owner := none },
        { t with pats := t.pats.set tokenId (row.touch now) })

end PATStore

/-! ## Sessions -/

section BrowserSessionStore

variable (H : SecretHashing) (now : ℤ)

/-- `BrowserSessionStore.issue`. -/
def issueSessionRow (e : Entropy) (snapshot : Snapshot) (expiresAt : ℤ) (t : IdentityTables) :
    Result ((String × ℤ) × IdentityTables) := do
  let plaintext := credentialText "pws" e.tokenId e.secret
  -- `payload.get("expires_at") or ...`: an expiry of zero is replaced
  let expiresAt := if expiresAt = 0 then now + 86400 else expiresAt
  let digest ← H.hashSecret e.salt plaintext
  raiseIf (e.tokenId ∈ t.sessions) .integrityError
  let row := { tokenDigest := digest, principalSnapshot := snapshot, expiresAt := expiresAt }
  pure ((plaintext, expiresAt), { t with sessions := t.sessions.set e.tokenId row })

/-- `BrowserSessionStore._token_id`. -/
def sessionTokenId (token : String) : Option String :=
  match Text.split '_' 2 token with
  | ["pws", tokenId, _] => some tokenId
  | _ => none

/-- `BrowserSessionStore.verify`. -/
def verifySession (token : String) (t : IdentityTables) : Result Verification :=
  match sessionTokenId token with
  | none => throw (.valueError "invalid token")
  | some tokenId =>
    match t.sessions.get? tokenId with
    | none => throw (.valueError "invalid token")
    | some row =>
      if row.expiresAt ≤ now ∨ H.verifySecret row.tokenDigest token = false then
        throw (.valueError "invalid token")
      else pure
        { principalId := row.principalSnapshot.principalId
          scopes := row.principalSnapshot.scopes
          owner := row.principalSnapshot.owner }

/-- `BrowserSessionStore.revoke`. -/
def revokeSession (token : String) (t : IdentityTables) : Result (Bool × IdentityTables) :=
  match sessionTokenId token with
  | none => pure (false, t)
  | some tokenId =>
    match t.sessions.get? tokenId with
    | none => pure (false, t)
    | some row =>
      if H.verifySecret row.tokenDigest token = false then pure (false, t)
      else pure (true, { t with sessions := t.sessions.pop tokenId })

end BrowserSessionStore

end Portwyrm.Identity

import Portwyrm.Identity.Login

/-!
# Passwords

The operations of `CredentialStore` that set a password, `PrincipalStore.register`, and the
endpoints of `portwyrm.api.compat` behind which a password is set: by its owner, by its owner who
has to, and by an administrator for somebody else.
-/

namespace Portwyrm.Identity

open Base

/-! ## Operations -/

/-- `min_length` of a password. -/
def passwordLength : ℕ := 8

/-- What `_replace_password` and `register` raise for a short password. -/
def shortPassword : Exc := .valueError "password must contain at least 8 characters"

/-- An assignment to `must_change_password`, where there is a principal. -/
def IdentityTables.requireChange (t : IdentityTables) (id : ℕ) (required : Bool) :
    IdentityTables :=
  match t.principals.get? id with
  | none => t
  | some row =>
    { t with principals := t.principals.set id { row with mustChangePassword := required } }

section CredentialStore

variable (H : SecretHashing)

/-- `CredentialStore._replace_password`. -/
def replacePassword (salt password : String) (credential : CredentialRow) :
    Result CredentialRow := do
  raiseIf (password.length < passwordLength) shortPassword
  let digest ← H.hashSecret salt password
  pure { passwordHash := digest, passwordVersion := credential.passwordVersion + 1 }

/-- `CredentialStore.change_password`, and the hook behind it. -/
def changePassword (salt : String) (id : ℕ) (oldPassword newPassword : String)
    (t : IdentityTables) : Result (Unit × IdentityTables) :=
  match t.credentials.get? id with
  | none => throw (.valueError "current password is invalid")
  | some credential => do
    raiseIf (H.verifySecret credential.passwordHash oldPassword = false)
      (.valueError "current password is invalid")
    raiseIf (newPassword = oldPassword)
      (.valueError "new password must differ from the current password")
    let credential ← replacePassword H salt newPassword credential
    let t := { t with credentials := t.credentials.set id credential }
    pure ((), t.requireChange id false)

/-- `CredentialStore.set_password`, and the hook behind it. -/
def setPassword (salt : String) (id : ℕ) (newPassword : String) (t : IdentityTables) :
    Result (Unit × IdentityTables) :=
  match t.credentials.get? id with
  | none => throw (.valueError "principal credential does not exist")
  | some credential => do
    let credential ← replacePassword H salt newPassword credential
    let t := { t with credentials := t.credentials.set id credential }
    pure ((), t.requireChange id true)

/-- The payload of `PrincipalStore.register`. -/
structure RegisterRequest where
  email : String
  password : String
  displayName : String := ""
  isAdmin : Bool := false
  mustChangePassword : Bool := false
  roles : List String := []
  permissions : Permissions := Dict.empty

/-- The row that a request registers. -/
def RegisterRequest.row (r : RegisterRequest) : PrincipalRow where
  email := Text.casefold (Text.strip r.email)
  displayName := r.displayName
  isAdmin := r.isAdmin
  mustChangePassword := r.mustChangePassword
  isDisabled := false
  isDeleted := false
  visibility := if r.isAdmin then .all else .user

/-- `PrincipalStore.register`; the database generates the id. -/
def registerPrincipal (salt : String) (generated : ℕ) (r : RegisterRequest) (t : IdentityTables) :
    Result (Unit × IdentityTables) := do
  raiseIf (r.row.email = "" ∨ '@' ∉ r.row.email.toList) (.valueError "a valid email is required")
  raiseIf (r.password.length < passwordLength) shortPassword
  raiseIf (∃ row ∈ t.principals.values, row.email = r.row.email)
    (.valueError "email is already registered")
  raiseIf (generated ∈ t.principals) .integrityError
  let digest ← H.hashSecret salt r.password
  pure ((),
    { t with
      principals := t.principals.set generated r.row
      credentials := t.credentials.set generated { passwordHash := digest, passwordVersion := 1 }
      rbac := t.rbac.replaceAuthorization generated r.isAdmin r.roles r.permissions })

end CredentialStore

/-! ## Endpoints -/

section Endpoints

variable (H : SecretHashing) (now : ℤ)

/-- `principal_for_password_change`. -/
def principalForPasswordChange (token : Option String) : Action IdentityTables SecurityPrincipal :=
  securityDependency H now false true token

/-- `change_bootstrap_password`; a member of the payload is `none` when it is no text. -/
def changeBootstrapPassword (salt : String) (current password session : Option String)
    (principal : SecurityPrincipal) : Action IdentityTables Unit :=
  if principal.mustChangePassword = false then
    .raise (.http 409 "password change is not required")
  else
    match current, password with
    | some current, some password => do
      .transaction (changePassword H salt principal.userId current password)
      match session.filter (· ≠ "") with
      | none => pure ()
      | some session => do
        let _ ← Action.transaction (revokeSession H session)
        pure ()
    | _, _ => .raise (.http 422 "current and new passwords are required")

/-- `set_user_password`. -/
def setUserPassword (salt : String) (userId : ℕ) (password current : Option String)
    (principal : SecurityPrincipal) : Action IdentityTables Unit :=
  match password with
  | none => .raise (.http 422 "password is required")
  | some password =>
    if principal.isAdmin ∧ principal.userId ≠ userId then
      .transaction (setPassword H salt userId password)
    else
      match current with
      | none => .raise (.http 403 "permission denied")
      | some current =>
        if principal.userId ≠ userId then .raise (.http 403 "permission denied")
        else .transaction (changePassword H salt userId current password)

end Endpoints

/-! ## What an operation does -/

section Effects

variable {H : SecretHashing} {salt : String} {id : ℕ} {t t' : IdentityTables}
  {credential credential' : CredentialRow} {password oldPassword : String}

@[simp] lemma credentials_requireChange (t : IdentityTables) (id : ℕ) (required : Bool) :
    (t.requireChange id required).credentials = t.credentials := by
  unfold IdentityTables.requireChange
  split <;> rfl

@[simp] lemma sessions_requireChange (t : IdentityTables) (id : ℕ) (required : Bool) :
    (t.requireChange id required).sessions = t.sessions := by
  unfold IdentityTables.requireChange
  split <;> rfl

lemma get?_principals_requireChange (t : IdentityTables) (id id' : ℕ) (required : Bool) :
    (t.requireChange id required).principals.get? id' =
      (t.principals.get? id').map fun row =>
        if id' = id then { row with mustChangePassword := required } else row := by
  unfold IdentityTables.requireChange
  by_cases hid : id' = id
  · subst hid
    rcases hrow : t.principals.get? id' with _ | row
    · simp [hrow]
    · simp
  · rcases t.principals.get? id with _ | row
    · simp [hid]
    · simp [Dict.get?_set_of_ne _ _ hid, hid]

lemma hashSecret_eq_ok_iff {digest : String} :
    H.hashSecret salt password = .ok digest ↔ password ≠ "" ∧ H.argon2Hash salt password = digest := by
  unfold SecretHashing.hashSecret
  split
  · simp_all
  · simp_all

lemma ne_empty_of_length (h : ¬ password.length < passwordLength) : password ≠ "" := by
  rintro rfl
  exact h (by decide)

lemma replacePassword_eq_ok_iff : replacePassword H salt password credential = .ok credential' ↔
    passwordLength ≤ password.length ∧
      ⟨H.argon2Hash salt password, credential.passwordVersion + 1⟩ = credential' := by
  simp only [replacePassword, bind_eq_ok_iff, raiseIf_eq_ok_iff, hashSecret_eq_ok_iff,
    pure_eq_ok_iff]
  constructor
  · rintro ⟨-, hlength, digest, ⟨-, rfl⟩, rfl⟩
    exact ⟨not_lt.mp hlength, rfl⟩
  · rintro ⟨hlength, rfl⟩
    exact ⟨(), not_lt.mpr hlength, _, ⟨ne_empty_of_length (not_lt.mpr hlength), rfl⟩, rfl⟩

lemma changePassword_eq_ok_iff : changePassword H salt id oldPassword password t = .ok ((), t') ↔
    ∃ credential, t.credentials.get? id = some credential ∧
      H.argon2Verify credential.passwordHash oldPassword = true ∧ password ≠ oldPassword ∧
      passwordLength ≤ password.length ∧
      IdentityTables.requireChange { t with
        credentials := t.credentials.set id
          ⟨H.argon2Hash salt password, credential.passwordVersion + 1⟩ } id false = t' := by
  unfold changePassword
  rcases hcredential : t.credentials.get? id with _ | credential
  · simp
  · simp only [bind_eq_ok_iff, raiseIf_eq_ok_iff, replacePassword_eq_ok_iff, pure_eq_ok_iff,
      Bool.not_eq_false, Prod.mk.injEq, true_and]
    constructor
    · rintro ⟨-, hverify, -, hne, _, ⟨hlength, rfl⟩, rfl⟩
      exact ⟨credential, rfl, hverify, hne, hlength, rfl⟩
    · rintro ⟨_, ⟨⟩, hverify, hne, hlength, rfl⟩
      exact ⟨(), hverify, (), hne, _, ⟨hlength, rfl⟩, rfl⟩

lemma setPassword_eq_ok_iff : setPassword H salt id password t = .ok ((), t') ↔
    ∃ credential, t.credentials.get? id = some credential ∧ passwordLength ≤ password.length ∧
      IdentityTables.requireChange { t with
        credentials := t.credentials.set id
          ⟨H.argon2Hash salt password, credential.passwordVersion + 1⟩ } id true = t' := by
  unfold setPassword
  rcases hcredential : t.credentials.get? id with _ | credential
  · simp
  · simp only [bind_eq_ok_iff, replacePassword_eq_ok_iff, pure_eq_ok_iff, Prod.mk.injEq, true_and]
    constructor
    · rintro ⟨_, ⟨hlength, rfl⟩, rfl⟩
      exact ⟨credential, rfl, hlength, rfl⟩
    · rintro ⟨_, ⟨⟩, hlength, rfl⟩
      exact ⟨_, ⟨hlength, rfl⟩, rfl⟩

lemma registerPrincipal_eq_ok {r : RegisterRequest}
    (h : registerPrincipal H salt id r t = .ok ((), t')) :
    id ∉ t.principals ∧ (∀ row ∈ t.principals.values, row.email ≠ r.row.email) ∧
      { t with
        principals := t.principals.set id r.row
        credentials := t.credentials.set id ⟨H.argon2Hash salt r.password, 1⟩
        rbac := t.rbac.replaceAuthorization id r.isAdmin r.roles r.permissions } = t' := by
  simp only [registerPrincipal, bind_eq_ok_iff, raiseIf_eq_ok_iff, hashSecret_eq_ok_iff,
    pure_eq_ok_iff, Prod.mk.injEq, true_and] at h
  obtain ⟨-, -, -, -, -, hemail, -, hnew, _, ⟨-, rfl⟩, rfl⟩ := h
  exact ⟨hnew, fun row hrow heq => hemail ⟨row, hrow, heq⟩, rfl⟩

end Effects

end Portwyrm.Identity

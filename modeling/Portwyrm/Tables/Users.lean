import Portwyrm.Identity.PermissionRoundTrip
import Portwyrm.Tables.Audit
import Portwyrm.Tables.Visibility

/-!
# Users

The operations of `TableResources` on users, over `PrincipalStore` of `portwyrm.tables.identities`.
A user is written along three routes: `register` for a new one, `update_identity` for an update,
and the builtin `replace` of the table for a replacement.
-/

namespace Portwyrm.Tables

open Base Portwyrm.Identity

/-! ## Documents -/

/-- A payload for a user, or a user as the API returns it. -/
abbrev Document := Dict String Json

/-- `str(payload.get(key) or default)`. -/
def textMember (d : Document) (key default : String) : String :=
  match d.get? key with
  | some v => if truthy v then strJson v else default
  | none => default

/-- `bool(payload.get(key))`. -/
def flagMember (d : Document) (key : String) : Bool := (d.get? key).any truthy

/-- `payload.get("name", payload.get("display_name", ""))`. -/
def nameMember (d : Document) : Json := ((d.get? "name").or (d.get? "display_name")).getD (.text "")

/-- The keys that `_values` drops. -/
def droppedKeys : List String := ["id", "created_at", "updated_at", "created_on", "modified_on"]

/-- The members that `_values` keeps next to the columns. -/
def compatMembers (d : Document) : Document := droppedKeys.foldl Dict.pop d

/-! ## Rows -/

/-- The columns that `_values` fills for a user. -/
structure UserValues where
  email : String
  displayName : String
  nickname : String
  isAdmin : Bool
  isDisabled : Bool
  isDeleted : Bool
  visibility : String
  /-- `metadata_json["compat"]`. -/
  compat : Document

/-- A row of `principals`. -/
structure UserRow extends UserValues where
  mustChangePassword : Bool

/-- The tables of users. -/
structure UserTables where
  principals : Table UserRow
  rbac : RbacTables
  /-- `credentials.password_hash`, by `principal_id`. -/
  passwordHashes : Dict ℕ String

/-- The tables before the first user. -/
def UserTables.empty : UserTables := ⟨Table.empty, RbacTables.empty, Dict.empty⟩

/-- `_values`. -/
def userValues (d : Document) : Result UserValues :=
  match d.get? "email" with
  | none => throw (.lookupError "'email'")
  | some email => pure
    { email := Text.casefold (strJson email)
      displayName := strJson (nameMember d)
      nickname := textMember d "nickname" ""
      isAdmin := flagMember d "is_admin"
      isDisabled := flagMember d "is_disabled"
      isDeleted := flagMember d "is_deleted"
      visibility := textMember d "visibility" "user"
      compat := compatMembers d }

/-! ## Authorization members -/

/-- A text, under the schemas of the operations. -/
def schemaText : Json → Result String
  | .text s => pure s
  | _ => throw (.valueError "Input should be a valid string")

/-- `roles: list[str]`, for `payload.get("roles") or []`. -/
def rolesMember (d : Document) : Result (List String) :=
  match (d.get? "roles").filter truthy with
  | none => pure []
  | some (.list items) => items.mapM schemaText
  | some _ => throw (.valueError "Input should be a valid list")

/-- The grant that `_permission_effects` reads off a value; other values have no effect. -/
def grantOf : Json → Option PermissionGrant
  | .object members => some (.actions (Dict.ofList (members.map fun e => (e.1, truthy e.2))))
  | v =>
    ([PermissionLevel.hidden, .view, .manage].find? fun level =>
      level.name = Text.casefold (Text.strip (strJson v))).map .level

/-- The grants of a mapping. -/
def permissionsOf (members : List (String × Json)) : Permissions :=
  Dict.ofList (members.filterMap fun e => (grantOf e.2).map fun grant => (e.1, grant))

/-- `permissions: dict[str, Any]`, for `payload.get("permissions") or {}`. -/
def permissionsMember (d : Document) : Result Permissions :=
  match (d.get? "permissions").filter truthy with
  | none => pure Dict.empty
  | some (.object members) => pure (permissionsOf members)
  | some _ => throw (.valueError "Input should be a valid dictionary")

/-! ## Reading -/

/-- A grant, as the API returns it. -/
def grantJson : PermissionGrant → Json
  | .level level => .text level.name
  | .actions m => .object (m.entries.map fun e => (e.1, .bool e.2))

/-- `_project`. -/
def projectUser (id : ℕ) (row : UserRow) : Document :=
  row.compat.update <| Dict.ofList
    [ ("id", .number id), ("email", .text row.email), ("name", .text row.displayName),
      ("nickname", .text row.nickname), ("is_admin", .bool row.isAdmin),
      ("must_change_password", .bool row.mustChangePassword),
      ("is_disabled", .bool row.isDisabled), ("is_deleted", .bool row.isDeleted),
      ("visibility", .text row.visibility) ]

/-- `_attach_authorization`. -/
def attachAuthorization (a : RbacTables.Authorization) (d : Document) : Document :=
  (d.set "roles" (.list (a.roles.map Json.text))).set "permissions"
    (.object (a.permissions.entries.map fun e => (e.1, grantJson e.2)))

/-- `get_resource("users", id)`. -/
def getUser (t : UserTables) (id : ℕ) : Option Document :=
  (t.principals.get? id).map fun row =>
    attachAuthorization (t.rbac.authorization id) (projectUser id row)

/-! ## Writing -/

/-- `uq_principals_email`, for the row of a user. -/
def emailTaken (t : UserTables) (id : ℕ) (email : String) : Prop :=
  ∃ e ∈ t.principals.rows.entries, e.1 ≠ id ∧ e.2.email = email

instance (t : UserTables) (id : ℕ) (email : String) : Decidable (emailTaken t id email) :=
  inferInstanceAs (Decidable (∃ e ∈ t.principals.rows.entries, _))

/-- `PrincipalStore.register`, with the digest of the password. -/
def register (digest : String → String) (d : Document) (t : UserTables) :
    Result (ℕ × UserTables) := do
  let email ← schemaText ((d.get? "email").getD .null)
  let password ← schemaText ((d.get? "password").getD .null)
  let name ← schemaText (nameMember d)
  let nickname ← schemaText ((d.get? "nickname").getD (.text ""))
  let roles ← rolesMember d
  let permissions ← permissionsMember d
  let email := Text.casefold (Text.strip email)
  raiseIf (email = "" ∨ '@' ∉ email.toList) (.valueError "a valid email is required")
  raiseIf (password.length < 8) (.valueError "password must contain at least 8 characters")
  raiseIf (∃ e ∈ t.principals.rows.entries, e.2.email = email)
    (.valueError "email is already registered")
  let isAdmin := flagMember d "is_admin"
  let id := t.principals.next
  let row : UserRow :=
    { email := email
      displayName := name
      nickname := nickname
      isAdmin := isAdmin
      isDisabled := false
      isDeleted := false
      visibility := if isAdmin then "all" else "user"
      compat := d.pop "password"
      mustChangePassword := flagMember d "must_change_password" }
  pure (id,
    { principals := t.principals.add row
      rbac := t.rbac.replaceAuthorization id isAdmin roles permissions
      passwordHashes := t.passwordHashes.set id (digest password) })

/-- `create_resource("users", payload)`. -/
def createUser (digest : String → String) (payload : Document) (t : UserTables) :
    Result (ℕ × UserTables) := do
  raiseIf (payload.get? "email" = none) (.lookupError "'email'")
  raiseIf (payload.get? "password" = none) (.lookupError "'password'")
  register digest payload t

/-- A user that is created gets the next id, a row, its roles and permissions, and the digest of a
password that is a text. -/
lemma createUser_spec {digest : String → String} {d : Document} {t t' : UserTables} {id : ℕ}
    (h : createUser digest d t = .ok (id, t')) :
    ∃ password row roles permissions, d.get? "password" ≠ none ∧
      schemaText ((d.get? "password").getD .null) = .ok password ∧
      t' =
        { principals := t.principals.add row
          rbac := t.rbac.replaceAuthorization id (flagMember d "is_admin") roles permissions
          passwordHashes := t.passwordHashes.set id (digest password) } := by
  simp only [createUser, register, bind_eq_ok_iff, raiseIf_eq_ok_iff, pure_eq_ok_iff] at h
  obtain ⟨-, -, -, hgiven, email, -, password, hpassword, name, -, nickname, -, roles, -,
    permissions, -, -, -, -, -, -, -, heq⟩ := h
  obtain ⟨rfl, rfl⟩ := Prod.mk.inj heq
  exact ⟨password, _, roles, permissions, hgiven, hpassword, rfl⟩

/-- `PrincipalStore.update_identity`. -/
def updateIdentity (id : ℕ) (v : UserValues) (roles : List String) (permissions : Permissions)
    (t : UserTables) : Result UserTables :=
  match h : t.principals.get? id with
  | none => throw (.valueError s!"principal does not exist: {id}")
  | some stored => do
    let email := Text.casefold (Text.strip v.email)
    raiseIf (emailTaken t id email) .integrityError
    let row : UserRow :=
      { v with email := email, mustChangePassword := stored.mustChangePassword }
    pure { t with
      principals := t.principals.setRow id row (Dict.mem_iff.mpr ⟨stored, h⟩)
      rbac := t.rbac.replaceAuthorization id v.isAdmin roles permissions }

/-- What `update_resource` does with the user it has read: the members of the payload come over
those of the user. -/
def writeUser (id : ℕ) (candidate : Document) (t : UserTables) : Result UserTables := do
  let v ← userValues candidate
  let roles ← rolesMember candidate
  let permissions ← permissionsMember candidate
  updateIdentity id v roles permissions t

/-- `update_resource("users", id, payload)`; nothing, when the user is not there. -/
def updateUser (id : ℕ) (payload : Document) (t : UserTables) : Result (Option UserTables) :=
  match getUser t id with
  | none => pure none
  | some current => some <$> writeUser id (current.update payload) t

/-- `replace_resource("users", id, payload)`; nothing, when the user is not there.  The builtin
operation leaves the roles and permissions of the user alone; what it does with the column that no
value names is `unnamed`. -/
def replaceUser (unnamed : Bool → Bool) (actor : Actor) (id : ℕ) (payload : Document)
    (t : UserTables) : Result (Option UserTables) :=
  match h : t.principals.get? id with
  | none => pure none
  | some stored => do
    let v ← userValues (payload.set "id" (.number id))
    raiseIf (∃ p ∈ actor, p.isAdmin = false)
      (.authorizationError "administrator permission is required")
    raiseIf (emailTaken t id v.email) .integrityError
    let row : UserRow := { v with mustChangePassword := unnamed stored.mustChangePassword }
    pure (some { t with
      principals := t.principals.setRow id row (Dict.mem_iff.mpr ⟨stored, h⟩) })

end Portwyrm.Tables

import Portwyrm.Base.FrozenSet
import Portwyrm.Base.Table
import Portwyrm.Base.Text
import Portwyrm.Identity.Permissions

/-!
# Roles and permission grants

The authorization tables (`portwyrm.tables.rbac`) and the two translations of
`portwyrm.tables.identities`: `_permission_effects`, from a permissions mapping to one
effect for each `section.action` key, and `_permission_projection` back.  A mapping is
stored by `_replace_authorization` and read by `_authorization`.
-/

namespace Portwyrm.Identity

open Base

/-! ## Effects -/

/-- The effect of a stored grant. -/
inductive Effect
  | allow
  | deny
deriving DecidableEq, Repr

/-- The key `section.action` of a permission. -/
def permissionKey (section_ action : String) : String := section_ ++ "." ++ action

/-- The effects of one section of a mapping. -/
def sectionEffects (sectionKey : String) (grant : PermissionGrant) : List (String × Effect) :=
  match grant with
  | .actions m => m.entries.map fun e =>
      (permissionKey sectionKey (Text.strip e.1), if e.2 then .allow else .deny)
  | .level .manage => [(permissionKey sectionKey "manage", .allow)]
  | .level .view => [(permissionKey sectionKey "view", .allow)]
  | .level .hidden => [(permissionKey sectionKey "view", .deny)]

/-- The assignments that `_permission_effects` makes, in order. -/
def effectWrites (value : Permissions) : List (String × Effect) :=
  value.entries.flatMap fun e =>
    let sectionKey := Text.strip e.1
    if sectionKey = "" then [] else sectionEffects sectionKey e.2

/-- `_permission_effects`. -/
def permissionEffects (value : Permissions) : Dict String Effect := Dict.ofList (effectWrites value)

/-- The step of `_permission_projection` on one grant. -/
def projectGrant (projected : Dict String (Dict String Bool)) (e : String × Effect) :
    Dict String (Dict String Bool) :=
  match Text.partition '.' e.1 with
  | some (section_, action) =>
    if action = "" then projected else projected.setIn section_ action (e.2 = .allow)
  | none => projected

/-- `_permission_projection`. -/
def permissionProjection (grants : Dict String Effect) : Dict String (Dict String Bool) :=
  grants.entries.foldl projectGrant Dict.empty

/-- The projection as the permissions of a principal. -/
def projectedPermissions (grants : Dict String Effect) : Permissions :=
  (permissionProjection grants).mapValues .actions

/-! ## The tables -/

/-- A row of `roles`. -/
structure RoleRow where
  name : String
  description : String
  isSystem : Bool
deriving DecidableEq

/-- A row of `permissions`. -/
structure PermissionRow where
  key : String
  section_ : String
  action : String
  description : String
deriving DecidableEq

/-- A row of `principal_permissions`. -/
structure PrincipalPermissionRow where
  principalId : ℕ
  permissionId : ℕ
  effect : Effect
deriving DecidableEq

/-- The authorization tables.  The foreign key of `principal_permissions` is part of the
type. -/
structure RbacTables where
  roles : Table RoleRow
  permissions : Table PermissionRow
  /-- `principal_roles`: pairs of a principal and a role. -/
  principalRoles : List (ℕ × ℕ)
  /-- `role_permissions`: pairs of a role and a permission. -/
  rolePermissions : List (ℕ × ℕ)
  principalPermissions : List PrincipalPermissionRow
  /-- Every grant refers to a permission. -/
  permission_fk : ∀ r ∈ principalPermissions, ∃ p, permissions.get? r.permissionId = some p

namespace RbacTables

/-- The tables of a new database. -/
def empty : RbacTables where
  roles := Table.empty
  permissions := Table.empty
  principalRoles := []
  rolePermissions := []
  principalPermissions := []
  permission_fk := by simp

/-- The two `delete` statements of `_replace_authorization`. -/
def clear (t : RbacTables) (principalId : ℕ) : RbacTables :=
  { t with
    principalRoles := t.principalRoles.filter fun r => r.1 ≠ principalId
    principalPermissions := t.principalPermissions.filter fun r => r.principalId ≠ principalId
    permission_fk := fun r hr => t.permission_fk r (List.mem_filter.mp hr).1 }

/-- `_role_names`. -/
def roleNames (value : List String) (isAdmin : Bool) : List String :=
  let names := (value.map fun item => Text.casefold (Text.strip item)).filter fun n => n ≠ ""
  (FrozenSet.ofList (if isAdmin then "admin" :: names else names)).elems

/-- Give a principal the role of a given name, creating the role when it is missing. -/
def addRole (principalId : ℕ) (t : RbacTables) (name : String) : RbacTables :=
  match t.roles.selectOne fun r => r.name = name with
  | some (id, _) => { t with principalRoles := t.principalRoles ++ [(principalId, id)] }
  | none =>
    { t with
      roles := t.roles.add
        { name := name
          description := if name = "admin" then "Portwyrm administrator" else ""
          isSystem := name = "admin" }
      principalRoles := t.principalRoles ++ [(principalId, t.roles.next)] }

/-- The permission row that `_replace_authorization` creates for a key. -/
def newPermission (key : String) : PermissionRow :=
  let parts := (Text.partition '.' key).getD (key, "")
  { key := key
    section_ := parts.1
    action := if parts.2 = "" then "manage" else parts.2
    description := "" }

/-- The permissions table with a row for `key`, and the id of that row. -/
def permissionFor (permissions : Table PermissionRow) (key : String) : Table PermissionRow × ℕ :=
  match permissions.selectOne fun r => r.key = key with
  | some (id, _) => (permissions, id)
  | none => (permissions.add (newPermission key), permissions.next)

lemma get?_permissionFor {permissions : Table PermissionRow} {key : String} {id : ℕ}
    {row : PermissionRow} (h : permissions.get? id = some row) :
    (permissionFor permissions key).1.get? id = some row := by
  unfold permissionFor
  split
  · exact h
  · exact Table.get?_add_of_eq_some h

/-- The row that a key is looked up or created as carries that key. -/
lemma permissionFor_key (permissions : Table PermissionRow) (key : String) :
    ∃ row, (permissionFor permissions key).1.get? (permissionFor permissions key).2 = some row ∧
      row.key = key := by
  unfold permissionFor
  split
  · rename_i id row h
    obtain ⟨h1, h2⟩ := Table.get?_of_selectOne h
    exact ⟨row, h1, by simpa using h2⟩
  · exact ⟨newPermission key, by simp [Table.get?_add], rfl⟩

/-- Give a principal one effect, creating the permission when it is missing. -/
def addEffect (principalId : ℕ) (t : RbacTables) (e : String × Effect) : RbacTables :=
  let p := permissionFor t.permissions e.1
  { t with
    permissions := p.1
    principalPermissions := t.principalPermissions ++
      [{ principalId := principalId, permissionId := p.2, effect := e.2 }]
    permission_fk := by
      intro r hr
      rcases List.mem_append.mp hr with hr | hr
      · obtain ⟨row, hrow⟩ := t.permission_fk r hr
        exact ⟨row, get?_permissionFor hrow⟩
      · rw [List.mem_singleton.mp hr]
        obtain ⟨row, hrow, _⟩ := permissionFor_key t.permissions e.1
        exact ⟨row, hrow⟩ }

/-- `_replace_authorization`. -/
def replaceAuthorization (t : RbacTables) (principalId : ℕ) (isAdmin : Bool)
    (roles : List String) (permissions : Permissions) : RbacTables :=
  let t := (roleNames roles isAdmin).foldl (addRole principalId) (t.clear principalId)
  (permissionEffects permissions).entries.foldl (addEffect principalId) t

/-- The direct grants of a principal, as the join in `_authorization` returns them. -/
def directGrants (t : RbacTables) (principalId : ℕ) : List (String × Effect) :=
  (t.principalPermissions.filter fun r => r.principalId = principalId).filterMap fun r =>
    (t.permissions.get? r.permissionId).map fun p => (p.key, r.effect)

/-- The roles of a principal: their ids and rows. -/
def principalRoleRows (t : RbacTables) (principalId : ℕ) : List (ℕ × RoleRow) :=
  (t.principalRoles.filter fun r => r.1 = principalId).filterMap fun r =>
    (t.roles.get? r.2).map fun row => (r.2, row)

/-- The permission keys inherited through roles. -/
def inheritedKeys (t : RbacTables) (roleIds : List ℕ) : List String :=
  (t.rolePermissions.filter fun r => r.1 ∈ roleIds).filterMap fun r =>
    (t.permissions.get? r.2).map fun p => p.key

/-- `grants.setdefault(key, "allow")`. -/
def setDefaultAllow (grants : Dict String Effect) (key : String) : Dict String Effect :=
  if key ∈ grants then grants else grants.set key .allow

/-- The result of `_authorization`: the names of the roles and the permissions. -/
structure Authorization where
  roles : List String
  permissions : Permissions

/-- `_authorization`. -/
def authorization (t : RbacTables) (principalId : ℕ) : Authorization :=
  let roles := t.principalRoleRows principalId
  let grants := Dict.ofList (t.directGrants principalId)
  let grants :=
    if roles = [] then grants
    else (t.inheritedKeys (roles.map Prod.fst)).foldl setDefaultAllow grants
  { roles := roles.map fun r => r.2.name
    permissions := projectedPermissions grants }

/-- The tables that the program can reach: it writes authorization rows only through
`_replace_authorization`. -/
inductive Reachable : RbacTables → Prop
  | empty : Reachable empty
  | replace {t : RbacTables} (principalId : ℕ) (isAdmin : Bool) (roles : List String)
      (permissions : Permissions) (h : Reachable t) :
      Reachable (t.replaceAuthorization principalId isAdmin roles permissions)

end RbacTables

end Portwyrm.Identity

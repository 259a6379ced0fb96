import Portwyrm.Tables.Users

/-!
# The authority that a written user has

An update of a user replaces its roles and permissions by those of the document.  A replacement
writes the columns of the user and leaves the roles and permissions that are stored, so the two
agree exactly when the document spells out what is stored already.
-/

namespace Portwyrm.Tables

open Base Portwyrm.Identity

/-! ## Authority -/

/-- Two tables give a user the same authority: the same roles, the same flag of an administrator,
and the same decisions. -/
structure SameAuthority (t u : UserTables) (id : ℕ) : Prop where
  roles : (t.rbac.authorization id).roles = (u.rbac.authorization id).roles
  isAdmin : (t.principals.get? id).map (fun row => row.isAdmin) =
    (u.principals.get? id).map (fun row => row.isAdmin)
  decisions : ∀ s a, Allows (t.rbac.authorization id).permissions s a ↔
    Allows (u.rbac.authorization id).permissions s a

/-- The members of a complete document. -/
def documentKeys : List String :=
  ["email", "name", "nickname", "is_admin", "is_disabled", "is_deleted", "visibility", "roles",
    "permissions"]

/-- A document that names every member that a user has. -/
def IsComplete (d : Document) : Prop := ∀ k ∈ documentKeys, k ∈ d

instance (d : Document) : Decidable (IsComplete d) :=
  inferInstanceAs (Decidable (∀ k ∈ documentKeys, k ∈ d))

/-- The roles and permissions that are stored for a user are those that a document spells out. -/
def SpellsOut (d : Document) (t : UserTables) (id : ℕ) : Prop :=
  ∃ roles permissions, rolesMember d = .ok roles ∧ permissionsMember d = .ok permissions ∧
    (t.rbac.authorization id).roles = RbacTables.roleNames roles (flagMember d "is_admin") ∧
    ∀ s a, Allows (t.rbac.authorization id).permissions s a ↔
      '.' ∉ s.toList ∧ (permissionEffects permissions).get? (permissionKey s a.name) = some .allow

/-! ## What the two routes write -/

section Routes

variable {t u : UserTables} {id : ℕ} {d : Document}

/-- A complete document hides what was stored. -/
lemma get?_update_of_complete (current : Document) (h : IsComplete d) {k : String}
    (hk : k ∈ documentKeys) : (current.update d).get? k = d.get? k := by
  obtain ⟨v, hv⟩ := Dict.mem_iff.mp (h k hk)
  rw [Dict.get?_update, hv, Option.some_or]

/-- What a user that is written has: the authority of the candidate. -/
lemma writeUser_spec (h : writeUser id d t = .ok u) :
    ∃ roles permissions, rolesMember d = .ok roles ∧ permissionsMember d = .ok permissions ∧
      u.rbac = t.rbac.replaceAuthorization id (flagMember d "is_admin") roles permissions ∧
      (u.principals.get? id).map (fun row => row.isAdmin) = some (flagMember d "is_admin") := by
  simp only [writeUser, bind_eq_ok_iff] at h
  obtain ⟨v, hv, roles, hroles, permissions, hpermissions, h⟩ := h
  have hflag : v.isAdmin = flagMember d "is_admin" := by
    unfold userValues at hv
    split at hv
    · exact absurd hv throw_ne_ok
    · obtain rfl := pure_eq_ok_iff.mp hv
      rfl
  unfold updateIdentity at h
  split at h
  · exact absurd h throw_ne_ok
  · simp only [bind_eq_ok_iff, pure_eq_ok_iff] at h
    obtain ⟨-, -, rfl⟩ := h
    refine ⟨roles, permissions, hroles, hpermissions, ?_, ?_⟩
    · rw [← hflag]
    · rw [Table.get?_setRow, if_pos rfl, Option.map_some]
      exact congrArg some hflag

/-- What a replacement writes: the columns of the user. -/
lemma replaceUser_spec {unnamed : Bool → Bool} {actor : Actor}
    (h : replaceUser unnamed actor id d t = .ok (some u)) :
    u.rbac = t.rbac ∧
      (u.principals.get? id).map (fun row => row.isAdmin) = some (flagMember d "is_admin") := by
  unfold replaceUser at h
  split at h
  · exact absurd (pure_eq_ok_iff.mp h) (by simp)
  · simp only [bind_eq_ok_iff, pure_eq_ok_iff, Option.some.injEq] at h
    obtain ⟨v, hv, -, -, -, -, rfl⟩ := h
    refine ⟨rfl, ?_⟩
    rw [Table.get?_setRow, if_pos rfl, Option.map_some]
    unfold userValues at hv
    split at hv
    · exact absurd hv throw_ne_ok
    · obtain rfl := pure_eq_ok_iff.mp hv
      simp [flagMember, Dict.get?_set]

/-- The members that decide the authority are read off a complete document. -/
lemma authorityMembers_update (current : Document) (h : IsComplete d) :
    rolesMember (current.update d) = rolesMember d ∧
      permissionsMember (current.update d) = permissionsMember d ∧
      flagMember (current.update d) "is_admin" = flagMember d "is_admin" := by
  refine ⟨?_, ?_, ?_⟩
  · rw [rolesMember, get?_update_of_complete current h (by decide), rolesMember]
  · rw [permissionsMember, get?_update_of_complete current h (by decide), permissionsMember]
  · rw [flagMember, get?_update_of_complete current h (by decide), flagMember]

end Routes

/-! ## Agreement -/

/-- An operator who may read the proxy hosts. -/
def operatorDocument : Document :=
  Dict.ofList
    [ ("email", .text "operator@example.test"), ("password", .text "a long password"),
      ("name", .text "Operator"), ("roles", .list [.text "operator"]),
      ("permissions", .object [("proxy_hosts", .object [("read", .bool true)])]) ]

/-- The complete document of the operator without its role and its permission. -/
def revokedDocument : Document :=
  Dict.ofList
    [ ("email", .text "operator@example.test"), ("name", .text "Operator"),
      ("nickname", .text ""), ("is_admin", .bool false), ("is_disabled", .bool false),
      ("is_deleted", .bool false), ("visibility", .text "user"), ("roles", .list []),
      ("permissions", .object []) ]

/-- The complete document of the operator with its role and its permission. -/
def unchangedDocument : Document :=
  (revokedDocument.set "roles" (.list [.text "operator"])).set "permissions"
    (.object [("proxy_hosts", .object [("read", .bool true)])])

/-- The tables with the operator. -/
def storedOperator : UserTables :=
  ((createUser id operatorDocument UserTables.empty).toOption.map Prod.snd).getD UserTables.empty

/-- What a write that starts from some tables leaves of them. -/
def leftBy {α : Type} (t : α) (written : Result (Option α)) : α := written.toOption.join.getD t

lemma eq_leftBy {α : Type} {t : α} {written : Result (Option α)}
    (h : written.toOption.join.isSome = true) : written = .ok (some (leftBy t written)) := by
  rcases written with e | _ | t'
  · exact absurd h (by simp [Except.toOption])
  · exact absurd h (by simp [Except.toOption])
  · rfl

/-- A user that is created gets its roles and permissions by `_replace_authorization`. -/
lemma reachable_createUser {digest : String → String} {d : Document} {t t' : UserTables} {id : ℕ}
    (ht : t.rbac.Reachable) (h : createUser digest d t = .ok (id, t')) : t'.rbac.Reachable := by
  obtain ⟨password, row, roles, permissions, -, -, rfl⟩ := createUser_spec h
  exact .replace _ _ _ _ ht

lemma reachable_storedOperator : storedOperator.rbac.Reachable := by
  unfold storedOperator
  cases h : createUser id operatorDocument UserTables.empty with
  | error e => exact .empty
  | ok created => exact reachable_createUser .empty h

end Portwyrm.Tables

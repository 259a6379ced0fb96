import Portwyrm.Base.Merging
import Portwyrm.Identity.RestoredAuthorization
import Portwyrm.Tables.UserAuthority

/-!
# What an update of a user leaves alone

A user that is written from a candidate keeps every member that the candidate has as the user shows
it, but for two: an administrator has the role of one, and permissions whose names are not stored as
they are come back under other names.
-/

namespace Portwyrm.Tables

open Base Portwyrm.Identity

/-! ## Members -/

/-- The members of documents, by their keys. -/
def documentMembers : Members Document where
  Key := String
  Value _ := Json
  get k d := d.get? k
  overlay d e := e.update d
  get_overlay k d e := Dict.get?_update e d k

/-- The columns that the API returns of a user. -/
def UserRow.column (id : ℕ) (row : UserRow) (k : String) : Option Json :=
  if k = "id" then some (.number id)
  else if k = "email" then some (.text row.email)
  else if k = "name" then some (.text row.displayName)
  else if k = "nickname" then some (.text row.nickname)
  else if k = "is_admin" then some (.bool row.isAdmin)
  else if k = "must_change_password" then some (.bool row.mustChangePassword)
  else if k = "is_disabled" then some (.bool row.isDisabled)
  else if k = "is_deleted" then some (.bool row.isDeleted)
  else if k = "visibility" then some (.text row.visibility)
  else none

/-- A user shows its columns, and next to them what came with its last write. -/
lemma get?_projectUser (id : ℕ) (row : UserRow) (k : String) :
    (projectUser id row).get? k = (row.column id k).or (row.compat.get? k) := by
  rw [projectUser, Dict.get?_update]
  congr 1
  have hkeys : ["id", "email", "name", "nickname", "is_admin", "must_change_password", "is_disabled",
      "is_deleted", "visibility"].Nodup := by decide
  refine (Dict.get?_ofList_of_nodup (by exact hkeys) k).trans ?_
  simp only [Dict.lookup_cons_eq_ite, List.lookup_nil, UserRow.column]

lemma get?_attachAuthorization (a : RbacTables.Authorization) (d : Document) (k : String) :
    (attachAuthorization a d).get? k =
      if k = "permissions" then some (.object (a.permissions.entries.map fun e => (e.1, grantJson e.2)))
      else if k = "roles" then some (.list (a.roles.map Json.text))
      else d.get? k := by
  rw [attachAuthorization, Dict.get?_set, Dict.get?_set]

/-! ## Reading an authorization back -/

lemma grantOf_grantJson (grant : PermissionGrant) : grantOf (grantJson grant) = some grant := by
  cases grant with
  | level l => cases l <;> decide
  | actions m =>
    have hread : grantOf (grantJson (.actions m)) = some (.actions (Dict.ofList
        ((m.entries.map fun e => (e.1, Json.bool e.2)).map fun e => (e.1, truthy e.2)))) := rfl
    rw [hread, List.map_map]
    refine congrArg (fun d => some (PermissionGrant.actions d)) ?_
    exact (congrArg Dict.ofList (List.map_id m.entries)).trans (Dict.ofList_entries m)

/-- The permissions that a document shows are those that it supplies. -/
lemma permissionsMember_of_shown {d : Document} {permissions : Permissions}
    (h : d.get? "permissions" =
      some (.object (permissions.entries.map fun e => (e.1, grantJson e.2)))) :
    permissionsMember d = .ok permissions := by
  have hmembers : permissionsOf (permissions.entries.map fun e => (e.1, grantJson e.2)) =
      permissions := by
    rw [permissionsOf, List.filterMap_map]
    refine Eq.trans ?_ (Dict.ofList_entries permissions)
    refine congrArg Dict.ofList (Eq.trans ?_ List.filterMap_some)
    refine List.filterMap_congr fun e _ => ?_
    simp only [Function.comp_apply, grantOf_grantJson, Option.map_some]
  rw [permissionsMember, h]
  cases hentries : permissions.entries with
  | nil =>
    rw [hentries] at hmembers
    rw [← hmembers]
    rfl
  | cons e rest =>
    rw [hentries] at hmembers
    exact congrArg Except.ok hmembers

/-- The roles that a document shows are those that it supplies. -/
lemma rolesMember_of_shown {d : Document} {roles : List String}
    (h : d.get? "roles" = some (.list (roles.map Json.text))) : rolesMember d = .ok roles := by
  rw [rolesMember, h]
  cases roles with
  | nil => rfl
  | cons role rest =>
    change ((role :: rest).map Json.text).mapM schemaText = _
    rw [mapM_eq_ok_iff, List.forall₂_map_left_iff, List.forall₂_same]
    exact fun _ _ => rfl

/-! ## Written users -/

/-- A user as an update leaves it. -/
structure UserSettled (t : UserTables) (id : ℕ) (row : UserRow) : Prop where
  email : Text.casefold row.email = row.email
  stripped : Text.casefold (Text.strip row.email) = row.email
  visibility : row.visibility ≠ ""
  dropped : ∀ k ∈ droppedKeys, row.compat.get? k = none
  roles : ∃ names flag, (t.rbac.authorization id).roles = RbacTables.roleNames names flag

/-- A write of a candidate does not change a member by way of others. -/
structure UserFree (candidate : Document) (t : UserTables) (id : ℕ) (k : String) : Prop where
  roles : k = "roles" → flagMember candidate "is_admin" = true →
    "admin" ∈ (t.rbac.authorization id).roles
  permissions : k = "permissions" → PlainNames (t.rbac.authorization id).permissions

section Frame

variable {t t' : UserTables} {id : ℕ} {candidate : Document} {row row' : UserRow}

/-- How a written user comes from its candidate. -/
structure UserStored (candidate : Document) (t : UserTables) (id : ℕ) (row row' : UserRow)
    (t' : UserTables) : Prop where
  get?_eq : t'.principals.get? id = some row'
  email : ∃ email, candidate.get? "email" = some email ∧
    row'.email = Text.casefold (Text.strip (Text.casefold (strJson email)))
  displayName : row'.displayName = strJson (nameMember candidate)
  nickname : row'.nickname = textMember candidate "nickname" ""
  isAdmin : row'.isAdmin = flagMember candidate "is_admin"
  isDisabled : row'.isDisabled = flagMember candidate "is_disabled"
  isDeleted : row'.isDeleted = flagMember candidate "is_deleted"
  visibility : row'.visibility = textMember candidate "visibility" "user"
  compat : row'.compat = compatMembers candidate
  mustChangePassword : row'.mustChangePassword = row.mustChangePassword
  rbac : ∃ roles permissions, rolesMember candidate = .ok roles ∧
    permissionsMember candidate = .ok permissions ∧
      t'.rbac = t.rbac.replaceAuthorization id (flagMember candidate "is_admin") roles permissions

lemma userValues_spec {v : UserValues} (h : userValues candidate = .ok v) :
    ∃ email, candidate.get? "email" = some email ∧ v.email = Text.casefold (strJson email) ∧
      v = { email := v.email
            displayName := strJson (nameMember candidate)
            nickname := textMember candidate "nickname" ""
            isAdmin := flagMember candidate "is_admin"
            isDisabled := flagMember candidate "is_disabled"
            isDeleted := flagMember candidate "is_deleted"
            visibility := textMember candidate "visibility" "user"
            compat := compatMembers candidate } := by
  unfold userValues at h
  split at h
  · exact absurd h throw_ne_ok
  · rename_i email hemail
    obtain rfl := pure_eq_ok_iff.mp h
    exact ⟨email, hemail, rfl, rfl⟩

lemma userStored_of_writeUser (hrow : t.principals.get? id = some row)
    (h : writeUser id candidate t = .ok t') : ∃ row', UserStored candidate t id row row' t' := by
  simp only [writeUser, bind_eq_ok_iff] at h
  obtain ⟨v, hv, roles, hroles, permissions, hpermissions, h⟩ := h
  obtain ⟨email, hemail, hfold, heq⟩ := userValues_spec hv
  unfold updateIdentity at h
  split at h
  · exact absurd h throw_ne_ok
  · rename_i stored hstored
    obtain rfl : stored = row := Option.some.inj (hstored.symm.trans hrow)
    simp only [bind_eq_ok_iff, pure_eq_ok_iff] at h
    obtain ⟨-, -, rfl⟩ := h
    refine ⟨{ v with
      email := Text.casefold (Text.strip v.email), mustChangePassword := stored.mustChangePassword },
      ?_⟩
    exact
      { get?_eq := by rw [Table.get?_setRow, if_pos rfl]
        email := ⟨email, hemail, by rw [← hfold]⟩
        displayName := by rw [heq]
        nickname := by rw [heq]
        isAdmin := by rw [heq]
        isDisabled := by rw [heq]
        isDeleted := by rw [heq]
        visibility := by rw [heq]
        compat := by rw [heq]
        mustChangePassword := rfl
        rbac := ⟨roles, permissions, hroles, hpermissions, by rw [heq]⟩ }

/-- A value that counts as given has a text. -/
lemma strJson_ne_empty {v : Json} (h : truthy v = true) : strJson v ≠ "" := by
  cases v with
  | null => exact absurd h (by decide)
  | bool b =>
    cases b with
    | false => exact absurd h (by decide)
    | true => decide
  | number n =>
    cases n with
    | ofNat m => exact Nat.repr_ne_empty
    | negSucc m =>
      intro hempty
      have := congrArg String.length hempty
      simp [strJson, reprJson, toString, Int.repr] at this
  | text s =>
    change s ≠ ""
    simpa [truthy] using h
  | list items =>
    intro hempty
    have := congrArg String.length hempty
    simp [strJson, reprJson] at this
  | object members =>
    intro hempty
    have := congrArg String.length hempty
    simp [strJson, reprJson] at this

lemma visibility_ne_empty (d : Document) : textMember d "visibility" "user" ≠ "" := by
  unfold textMember
  split
  · split
    · rename_i v _ htruthy
      exact strJson_ne_empty htruthy
    · decide
  · decide

lemma userSettled_of_userStored (h : UserStored candidate t id row row' t') :
    UserSettled t' id row' where
  email := by
    obtain ⟨email, -, hemail⟩ := h.email
    rw [hemail, Text.casefold_casefold]
  stripped := by
    obtain ⟨email, -, hemail⟩ := h.email
    rw [hemail]
    exact roleName_normal _
  visibility := h.visibility ▸ visibility_ne_empty candidate
  dropped k hk := by rw [h.compat, compatMembers, Dict.get?_foldl_pop, if_pos hk]
  roles := by
    obtain ⟨roles, permissions, -, -, hrbac⟩ := h.rbac
    rw [hrbac, RbacTables.roles_replaceAuthorization]
    exact ⟨_, _, rfl⟩

/-- The user that the API returns. -/
lemma getUser_of_get?_eq {t : UserTables} {row : UserRow} (h : t.principals.get? id = some row) :
    getUser t id = some (attachAuthorization (t.rbac.authorization id) (projectUser id row)) := by
  rw [getUser, h, Option.map_some]

/-- The members that are columns. -/
def userColumns : List String :=
  ["id", "email", "name", "nickname", "is_admin", "must_change_password", "is_disabled",
    "is_deleted", "visibility"]

/-- The columns of all rows have the same keys. -/
lemma column_eq_none_iff {row : UserRow} {k : String} :
    row.column id k = none ↔ k ∉ userColumns := by
  by_cases hk : k ∈ userColumns
  · refine iff_of_false ?_ (not_not.mpr hk)
    simp only [userColumns, List.mem_cons, List.not_mem_nil, or_false] at hk
    rcases hk with rfl | rfl | rfl | rfl | rfl | rfl | rfl | rfl | rfl <;> rintro ⟨⟩
  · refine iff_of_true ?_ hk
    simp only [userColumns, List.mem_cons, List.not_mem_nil, or_false, not_or] at hk
    simp only [UserRow.column, hk, if_false]

lemma flagMember_of_get? {d : Document} {k : String} {b : Bool} (h : d.get? k = some (.bool b)) :
    flagMember d k = b := by
  rw [flagMember, h]
  rfl

lemma textMember_of_get? {d : Document} {k s default : String} (h : d.get? k = some (.text s))
    (hs : s = "" → default = "") : textMember d k default = s := by
  rw [textMember, h]
  by_cases hempty : s = ""
  · rw [hempty, hs hempty]
    rfl
  · change (if truthy (.text s) = true then s else default) = s
    rw [if_pos (by simpa [truthy] using hempty)]

/-- A column that the candidate has as the user shows it is written as it is. -/
lemma column_kept (hr : UserSettled t id row) (h : UserStored candidate t id row row' t') {k : String}
    (hcolumn : row.column id k ≠ none) (hk : candidate.get? k = row.column id k) :
    row'.column id k = row.column id k := by
  have hkey : k ∈ userColumns := not_not.mp fun hnot => hcolumn (column_eq_none_iff.mpr hnot)
  simp only [userColumns, List.mem_cons, List.not_mem_nil, or_false] at hkey
  rcases hkey with rfl | rfl | rfl | rfl | rfl | rfl | rfl | rfl | rfl
  · rfl
  · -- the email is folded and stripped once more
    obtain ⟨email, hget, hemail⟩ := h.email
    change _ = some (Json.text row.email) at hk
    obtain rfl := Option.some.inj (hget.symm.trans hk)
    change some (Json.text row'.email) = some (Json.text row.email)
    rw [hemail, strJson, hr.email, hr.stripped]
  · change _ = some (Json.text row.displayName) at hk
    change some (Json.text row'.displayName) = some (Json.text row.displayName)
    rw [h.displayName, nameMember, hk]
    rfl
  · change some (Json.text row'.nickname) = some (Json.text row.nickname)
    rw [h.nickname, textMember_of_get? hk fun _ => rfl]
  · change some (Json.bool row'.isAdmin) = some (Json.bool row.isAdmin)
    rw [h.isAdmin, flagMember_of_get? hk]
  · change some (Json.bool row'.mustChangePassword) = some (Json.bool row.mustChangePassword)
    rw [h.mustChangePassword]
  · change some (Json.bool row'.isDisabled) = some (Json.bool row.isDisabled)
    rw [h.isDisabled, flagMember_of_get? hk]
  · change some (Json.bool row'.isDeleted) = some (Json.bool row.isDeleted)
    rw [h.isDeleted, flagMember_of_get? hk]
  · change some (Json.text row'.visibility) = some (Json.text row.visibility)
    rw [h.visibility, textMember_of_get? hk fun hempty => absurd hempty hr.visibility]

/-- A write of a candidate keeps the members that the candidate has as the user shows them. -/
theorem userFrame (ht : t.rbac.Reachable) (hr : UserSettled t id row)
    (h : UserStored candidate t id row row' t') {k : String} (hfree : UserFree candidate t id k)
    (hk : candidate.get? k =
      (attachAuthorization (t.rbac.authorization id) (projectUser id row)).get? k) :
    (attachAuthorization (t'.rbac.authorization id) (projectUser id row')).get? k =
      (attachAuthorization (t.rbac.authorization id) (projectUser id row)).get? k := by
  obtain ⟨roles, permissions, hroles, hpermissions, hrbac⟩ := h.rbac
  rw [get?_attachAuthorization] at hk ⊢
  rw [get?_attachAuthorization]
  by_cases hkp : k = "permissions"
  · subst hkp
    rw [if_pos rfl] at hk ⊢
    rw [if_pos rfl]
    rw [permissionsMember_of_shown hk] at hpermissions
    rw [hrbac, ← Except.ok.inj hpermissions, RbacTables.permissions_restored ht (hfree.permissions rfl)]
  · rw [if_neg hkp] at hk ⊢
    rw [if_neg hkp]
    by_cases hkr : k = "roles"
    · subst hkr
      rw [if_pos rfl] at hk ⊢
      rw [if_pos rfl]
      rw [rolesMember_of_shown hk] at hroles
      obtain ⟨names, flag, hnames⟩ := hr.roles
      rw [hrbac, RbacTables.roles_replaceAuthorization, ← Except.ok.inj hroles, hnames,
        roleNames_roleNames _ _ _ fun hflag => hnames ▸ hfree.roles rfl hflag]
    · rw [if_neg hkr] at hk ⊢
      rw [if_neg hkr]
      rw [get?_projectUser] at hk ⊢
      rw [get?_projectUser]
      by_cases hcolumn : row.column id k = none
      · have hcolumn' : row'.column id k = none :=
          column_eq_none_iff.mpr (column_eq_none_iff.mp hcolumn)
        rw [hcolumn, Option.none_or] at hk ⊢
        rw [hcolumn', Option.none_or, h.compat, compatMembers, Dict.get?_foldl_pop]
        split
        · rename_i hdropped
          exact (hr.dropped k hdropped).symm
        · exact hk
      · obtain ⟨value, hvalue⟩ := Option.ne_none_iff_exists'.mp hcolumn
        rw [hvalue, Option.some_or] at hk ⊢
        rw [column_kept hr h hcolumn (hk.trans hvalue.symm), hvalue, Option.some_or]

end Frame

/-! ## The store of a user -/

section Store

variable {t t' : UserTables} {id : ℕ}

/-- The updates of one user, which takes the candidate as it is and asks for no caller; there is no
flag to set. -/
def userStore (id : ℕ) : MergingStore UserTables Document Actor Exc where
  members := documentMembers
  read t := getUser t id
  shown t := getUser t id
  rereads := false
  write _ := writeUser id
  toggle _ _ _ := throw (.valueError "collection 'users' does not support enable/disable")
  toggled _ := Dict.empty
  Valid t := t.rbac.Reachable ∧ ∃ row, t.principals.get? id = some row
  Settled t := t.rbac.Reachable ∧ ∃ row, t.principals.get? id = some row ∧ UserSettled t id row
  Free k candidate t := UserFree candidate t id k

/-- The member of a user that the API returns. -/
lemma showsAt_userStore {row : UserRow} (h : t.principals.get? id = some row) (k : String) :
    (userStore id).showsAt t k =
      (attachAuthorization (t.rbac.authorization id) (projectUser id row)).get? k := by
  have hshown : (userStore id).showsAt t k = (getUser t id).bind fun d => d.get? k := rfl
  rw [hshown, getUser_of_get?_eq h, Option.bind_some]

theorem userStore_lawful : (userStore id).Lawful where
  write_settles := by
    rintro actor candidate t t' ⟨hreachable, row, hrow⟩ h
    obtain ⟨row', hstored⟩ := userStored_of_writeUser hrow h
    have hreachable' : t'.rbac.Reachable := by
      obtain ⟨roles, permissions, -, -, hrbac⟩ := hstored.rbac
      rw [hrbac]
      exact .replace id _ roles permissions hreachable
    exact ⟨⟨hreachable', row', hstored.get?_eq⟩, hreachable', row', hstored.get?_eq,
      userSettled_of_userStored hstored⟩
  toggle_settles := fun _ h => absurd h throw_ne_ok
  write_frame := by
    rintro actor candidate t t' ⟨hreachable, row, hrow, hsettled⟩ h k hk hfree
    obtain ⟨row', hstored⟩ := userStored_of_writeUser hrow h
    -- what an update reads is what the API returns
    have hframe := userFrame hreachable hsettled hstored hfree (hk.trans (showsAt_userStore hrow k))
    exact (showsAt_userStore hstored.get?_eq k).trans
      (hframe.trans (showsAt_userStore hrow k).symm)
  toggle_frame := fun h => absurd h throw_ne_ok

end Store

end Portwyrm.Tables

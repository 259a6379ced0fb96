import Portwyrm.Identity.Rbac

/-!
# Permissions through the authorization tables

A permissions mapping is stored as one effect for each `section.action` key and folded back
into action maps.  What comes back allows exactly what the mapping spells out as an action
entry: the keys that stand for the levels `manage` and `view` are read back as actions of
those names, which `permission_allows` never asks for.
-/

namespace Portwyrm.Identity

open Base

/-! ## Keys -/

lemma not_dot_mem_name (a : PermissionAction) : '.' ∉ a.name.toList := by
  cases a <;> decide

lemma name_ne_empty (a : PermissionAction) : a.name ≠ "" := by
  cases a <;> decide

lemma permissionKey_eq (s a : String) : permissionKey s a = s ++ String.singleton '.' ++ a := rfl

/-- Two keys are equal only part by part, once neither part of one of them has a dot. -/
lemma permissionKey_eq_iff {k y s a : String} (hs : '.' ∉ s.toList) (ha : '.' ∉ a.toList) :
    permissionKey k y = permissionKey s a ↔ k = s ∧ y = a := by
  constructor
  · intro h
    have hcut : Text.partition '.' (permissionKey k y) = some (s, a) := by
      rw [h, permissionKey_eq, Text.partition_join a hs]
    by_cases hk : '.' ∈ k.toList
    · -- a dot in `k` would be cut first, and leave the other dot in `a`
      exfalso
      cases hp : Text.partition '.' k with
      | none => exact Text.partition_eq_none_iff.mp hp hk
      | some p =>
        obtain ⟨k₁, k₂⟩ := p
        obtain ⟨hk₁, hk₁'⟩ := Text.partition_eq_some_iff.mp hp
        have hsplit : permissionKey k y =
            k₁ ++ String.singleton '.' ++ permissionKey k₂ y := by
          rw [permissionKey_eq, permissionKey_eq, hk₁]
          simp [String.append_assoc]
        rw [hsplit, Text.partition_join _ hk₁', Option.some.injEq, Prod.mk.injEq] at hcut
        apply ha
        rw [← hcut.2, permissionKey_eq]
        simp
    · rw [permissionKey_eq, Text.partition_join y hk, Option.some.injEq, Prod.mk.injEq] at hcut
      exact hcut
  · rintro ⟨rfl, rfl⟩
    rfl

/-! ## Reading the projection -/

lemma getIn_projectGrant (d : Dict String (Dict String Bool)) (e : String × Effect)
    {s a : String} (ha : a ≠ "") :
    (projectGrant d e).getIn s a =
      if '.' ∉ s.toList ∧ e.1 = permissionKey s a then some (decide (e.2 = .allow))
      else d.getIn s a := by
  unfold projectGrant
  split
  · rename_i s' a' hp
    obtain ⟨hkey, hs'⟩ := Text.partition_eq_some_iff.mp hp
    have hiff : ('.' ∉ s.toList ∧ e.1 = permissionKey s a) ↔ (s = s' ∧ a = a') := by
      constructor
      · rintro ⟨hs, he⟩
        rw [he, permissionKey_eq, Text.partition_join a hs] at hp
        simpa using hp
      · rintro ⟨rfl, rfl⟩
        exact ⟨hs', hkey⟩
    by_cases ha' : a' = ""
    · have : ¬ (s = s' ∧ a = a') := fun h => ha (h.2.trans ha')
      rw [if_pos ha', if_neg (hiff.not.mpr this)]
    · rw [if_neg ha', Dict.getIn_setIn]
      simp only [hiff]
  · rename_i hp
    rw [if_neg]
    rintro ⟨hs, he⟩
    rw [he, permissionKey_eq, Text.partition_join a hs] at hp
    exact absurd hp (by simp)

lemma getIn_foldl_projectGrant (l : List (String × Effect)) (hl : (l.map Prod.fst).Nodup)
    (d : Dict String (Dict String Bool)) {s a : String} (hs : '.' ∉ s.toList) (ha : a ≠ "") :
    (l.foldl projectGrant d).getIn s a =
      ((l.lookup (permissionKey s a)).map fun e => decide (e = .allow)).or (d.getIn s a) := by
  induction l generalizing d with
  | nil => simp
  | cons e rest ih =>
    obtain ⟨k, v⟩ := e
    simp only [List.map_cons, List.nodup_cons] at hl
    rw [List.foldl_cons, ih hl.2, getIn_projectGrant d _ ha, Dict.lookup_cons_eq_ite]
    by_cases hk : k = permissionKey s a
    · have hnone : rest.lookup (permissionKey s a) = none := by
        rw [Option.eq_none_iff_forall_ne_some]
        exact fun w hw => hl.1 (hk ▸ List.mem_map.mpr ⟨_, Dict.mem_of_lookup_eq_some hw, rfl⟩)
      simp [hk, hs, hnone]
    · have hk' : ¬ permissionKey s a = k := fun h => hk h.symm
      simp [hk, hk']

lemma getIn_projectGrant_of_dot (l : List (String × Effect))
    (d : Dict String (Dict String Bool)) {s a : String} (hs : '.' ∈ s.toList) (ha : a ≠ "") :
    (l.foldl projectGrant d).getIn s a = d.getIn s a := by
  induction l generalizing d with
  | nil => rfl
  | cons e rest ih => rw [List.foldl_cons, ih, getIn_projectGrant d e ha, if_neg (by simp [hs])]

/-- The projection allows an action when its key has the effect `allow`. -/
lemma allows_projectedPermissions_iff (grants : Dict String Effect) (s : String)
    (a : PermissionAction) :
    Allows (projectedPermissions grants) s a ↔
      '.' ∉ s.toList ∧ grants.get? (permissionKey s a.name) = some .allow := by
  rw [projectedPermissions, allows_mapValues_iff, permissionProjection]
  by_cases hs : '.' ∈ s.toList
  · rw [getIn_projectGrant_of_dot _ _ hs (name_ne_empty a)]
    simp [hs]
  · rw [getIn_foldl_projectGrant _ grants.nodup _ hs (name_ne_empty a)]
    simp only [Dict.getIn_empty, Option.or_none, hs, not_false_eq_true, true_and]
    rw [← Dict.get?]
    cases grants.get? (permissionKey s a.name) <;> simp

/-! ## Reading the tables -/

namespace RbacTables

variable {t : RbacTables}

lemma directGrants_addEffect (t : RbacTables) (principalId : ℕ) (e : String × Effect) :
    (addEffect principalId t e).directGrants principalId = t.directGrants principalId ++ [e] := by
  have hold : ∀ r ∈ t.principalPermissions,
      (permissionFor t.permissions e.1).1.get? r.permissionId =
        t.permissions.get? r.permissionId := by
    intro r hr
    obtain ⟨row, hrow⟩ := t.permission_fk r hr
    rw [hrow, get?_permissionFor hrow]
  obtain ⟨row, hrow, hkey⟩ := permissionFor_key t.permissions e.1
  simp only [directGrants, addEffect, List.filter_append, List.filterMap_append]
  congr 1
  · refine List.filterMap_congr fun r hr => ?_
    rw [hold r (List.mem_filter.mp hr).1]
  · simp [hrow, hkey]

lemma directGrants_foldl_addEffect (principalId : ℕ) (l : List (String × Effect))
    (t : RbacTables) :
    (l.foldl (addEffect principalId) t).directGrants principalId =
      t.directGrants principalId ++ l := by
  induction l generalizing t with
  | nil => simp
  | cons e rest ih => rw [List.foldl_cons, ih, directGrants_addEffect]; simp

lemma directGrants_addRole (principalId : ℕ) (t : RbacTables) (name : String) (q : ℕ) :
    (addRole principalId t name).directGrants q = t.directGrants q := by
  unfold addRole
  split <;> rfl

lemma directGrants_foldl_addRole (principalId : ℕ) (l : List String) (t : RbacTables) (q : ℕ) :
    (l.foldl (addRole principalId) t).directGrants q = t.directGrants q := by
  induction l generalizing t with
  | nil => rfl
  | cons name rest ih => rw [List.foldl_cons, ih, directGrants_addRole]

lemma directGrants_clear (t : RbacTables) (principalId : ℕ) :
    (t.clear principalId).directGrants principalId = [] := by
  have : ((t.clear principalId).principalPermissions.filter
      fun r => r.principalId = principalId) = [] := by
    simp [clear, List.filter_filter]
  rw [directGrants, this, List.filterMap_nil]

/-- After an authorization is replaced, the direct grants are the effects of the mapping. -/
lemma directGrants_replaceAuthorization (t : RbacTables) (principalId : ℕ) (isAdmin : Bool)
    (roles : List String) (m : Permissions) :
    (t.replaceAuthorization principalId isAdmin roles m).directGrants principalId =
      (permissionEffects m).entries := by
  rw [replaceAuthorization, directGrants_foldl_addEffect, directGrants_foldl_addRole,
    directGrants_clear, List.nil_append]

lemma rolePermissions_foldl_addRole (principalId : ℕ) (l : List String) (t : RbacTables) :
    (l.foldl (addRole principalId) t).rolePermissions = t.rolePermissions := by
  induction l generalizing t with
  | nil => rfl
  | cons name rest ih =>
    rw [List.foldl_cons, ih]
    unfold addRole
    split <;> rfl

lemma rolePermissions_foldl_addEffect (principalId : ℕ) (l : List (String × Effect))
    (t : RbacTables) :
    (l.foldl (addEffect principalId) t).rolePermissions = t.rolePermissions := by
  induction l generalizing t with
  | nil => rfl
  | cons e rest ih =>
    rw [List.foldl_cons, ih]
    rfl

lemma rolePermissions_replaceAuthorization (t : RbacTables) (principalId : ℕ) (isAdmin : Bool)
    (roles : List String) (m : Permissions) :
    (t.replaceAuthorization principalId isAdmin roles m).rolePermissions = t.rolePermissions := by
  rw [replaceAuthorization, rolePermissions_foldl_addEffect, rolePermissions_foldl_addRole]
  rfl

/-- No run of the program grants a permission to a role. -/
theorem Reachable.rolePermissions_eq_nil (h : Reachable t) : t.rolePermissions = [] := by
  induction h with
  | empty => rfl
  | replace principalId isAdmin roles permissions _ ih =>
    rw [rolePermissions_replaceAuthorization, ih]

/-- Without grants to roles, the permissions of a principal are the projection of its direct
grants. -/
lemma authorization_permissions (h : t.rolePermissions = []) (principalId : ℕ) :
    (t.authorization principalId).permissions =
      projectedPermissions (Dict.ofList (t.directGrants principalId)) := by
  simp [authorization, inheritedKeys, h]

/-! ### Roles -/

/-- The roles of a principal are rows of the table. -/
def RolesLinked (t : RbacTables) (principalId : ℕ) : Prop :=
  ∀ r ∈ t.principalRoles, r.1 = principalId → ∃ row, t.roles.get? r.2 = some row

lemma rolesLinked_clear (t : RbacTables) (principalId : ℕ) :
    (t.clear principalId).RolesLinked principalId := by
  intro r hr hid
  obtain ⟨-, hne⟩ := List.mem_filter.mp hr
  exact absurd hid (by simpa using hne)

lemma principalRoleRows_clear (t : RbacTables) (principalId : ℕ) :
    (t.clear principalId).principalRoleRows principalId = [] := by
  have : ((t.clear principalId).principalRoles.filter fun r => r.1 = principalId) = [] := by
    simp [clear, List.filter_filter]
  rw [principalRoleRows, this, List.filterMap_nil]

/-- A role that is added comes behind those a principal has. -/
lemma principalRoleRows_addRole {principalId : ℕ} (h : t.RolesLinked principalId) (name : String) :
    (addRole principalId t name).RolesLinked principalId ∧
      ((addRole principalId t name).principalRoleRows principalId).map (fun r => r.2.name) =
        (t.principalRoleRows principalId).map (fun r => r.2.name) ++ [name] := by
  unfold addRole
  split
  · rename_i id row hfound
    obtain ⟨hrow, hname⟩ := Table.get?_of_selectOne hfound
    constructor
    · intro r hr hid
      rcases List.mem_append.mp hr with hr | hr
      · exact h r hr hid
      · obtain rfl := List.mem_singleton.mp hr
        exact ⟨row, hrow⟩
    · have hname : row.name = name := by simpa using hname
      simp [principalRoleRows, List.filter_append, hrow, hname]
  · -- the new row takes an id that no link uses
    constructor
    · intro r hr hid
      rcases List.mem_append.mp hr with hr | hr
      · obtain ⟨row, hrow⟩ := h r hr hid
        exact ⟨row, Table.get?_add_of_eq_some hrow⟩
      · obtain rfl := List.mem_singleton.mp hr
        exact ⟨_, by rw [Table.get?_add, if_pos rfl]⟩
    · simp only [principalRoleRows, List.filter_append, List.filterMap_append, List.map_append]
      congr 1
      · congr 1
        refine List.filterMap_congr fun r hr => ?_
        obtain ⟨hr, hid⟩ := List.mem_filter.mp hr
        obtain ⟨row, hrow⟩ := h r hr (by simpa using hid)
        rw [hrow, Table.get?_add_of_eq_some hrow]
      · simp [Table.get?_add]

lemma roles_foldl_addRole {principalId : ℕ} (l : List String) (h : t.RolesLinked principalId) :
    ((l.foldl (addRole principalId) t).principalRoleRows principalId).map (fun r => r.2.name) =
      (t.principalRoleRows principalId).map (fun r => r.2.name) ++ l := by
  induction l generalizing t with
  | nil => simp
  | cons name rest ih =>
    obtain ⟨hlinked, hnames⟩ := principalRoleRows_addRole h name
    rw [List.foldl_cons, ih hlinked, hnames, List.append_assoc, List.singleton_append]

lemma principalRoleRows_foldl_addEffect (principalId : ℕ) (l : List (String × Effect))
    (t : RbacTables) (q : ℕ) :
    (l.foldl (addEffect principalId) t).principalRoleRows q = t.principalRoleRows q := by
  induction l generalizing t with
  | nil => rfl
  | cons e rest ih =>
    rw [List.foldl_cons, ih]
    rfl

/-- After an authorization is replaced, the roles of the principal are the given ones. -/
theorem roles_replaceAuthorization (t : RbacTables) (principalId : ℕ) (isAdmin : Bool)
    (roles : List String) (m : Permissions) :
    ((t.replaceAuthorization principalId isAdmin roles m).authorization principalId).roles =
      roleNames roles isAdmin := by
  have hnames := roles_foldl_addRole (roleNames roles isAdmin) (rolesLinked_clear t principalId)
  rw [principalRoleRows_clear, List.map_nil, List.nil_append] at hnames
  rw [authorization, replaceAuthorization, principalRoleRows_foldl_addEffect]
  exact hnames

/-! ### Permissions -/

/-- The decision of `permission_allows` on what is read back. -/
theorem allows_replaceAuthorization_iff (h : Reachable t) (principalId : ℕ) (isAdmin : Bool)
    (roles : List String) (m : Permissions) (s : String) (a : PermissionAction) :
    Allows ((t.replaceAuthorization principalId isAdmin roles m).authorization
        principalId).permissions s a ↔
      '.' ∉ s.toList ∧ (permissionEffects m).get? (permissionKey s a.name) = some .allow := by
  rw [authorization_permissions, directGrants_replaceAuthorization,
    allows_projectedPermissions_iff, Dict.get?_ofList_of_nodup (permissionEffects m).nodup]
  · rfl
  · rw [rolePermissions_replaceAuthorization, h.rolePermissions_eq_nil]

end RbacTables

/-! ## What a mapping spells out -/

/-- The action entries of one section, under their plain names. -/
def sectionEntries (e : String × PermissionGrant) : List ((String × String) × Bool) :=
  match e.2 with
  | .actions m => m.entries.map fun x => ((Text.strip e.1, Text.strip x.1), x.2)
  | .level _ => []

/-- The last action entry that a mapping makes for a section and an action. -/
def explicit (m : Permissions) (s a : String) : Option Bool :=
  (m.entries.flatMap sectionEntries).reverse.lookup (s, a)

/-- The effect of an action entry. -/
def effectOf (b : Bool) : Effect := if b then .allow else .deny

lemma effectOf_eq_allow_iff {b : Bool} : effectOf b = .allow ↔ b = true := by
  cases b <;> simp [effectOf]

lemma permissionKey_name_ne {k l s : String} {a : PermissionAction} (hs : '.' ∉ s.toList)
    (hl : l ≠ a.name) : permissionKey s a.name ≠ permissionKey k l := by
  intro h
  exact hl ((permissionKey_eq_iff hs (not_dot_mem_name a)).mp h.symm).2

lemma level_name_ne (a : PermissionAction) : "manage" ≠ a.name ∧ "view" ≠ a.name := by
  cases a <;> decide

/-- The writes of one section, looked up at a key, are its action entries. -/
lemma lookup_sectionWrites (e : String × PermissionGrant) {s : String} (a : PermissionAction)
    (hs : '.' ∉ s.toList) (hs' : s ≠ "") :
    ((if Text.strip e.1 = "" then [] else sectionEffects (Text.strip e.1) e.2).reverse).lookup
        (permissionKey s a.name) =
      ((sectionEntries e).reverse.lookup (s, a.name)).map effectOf := by
  obtain ⟨k, g⟩ := e
  simp only
  cases g with
  | level l =>
    have hne := level_name_ne a
    split
    · rfl
    · cases l <;>
        simp [sectionEffects, sectionEntries, Dict.lookup_cons_eq_ite,
          permissionKey_name_ne hs hne.1, permissionKey_name_ne hs hne.2]
  | actions m =>
    by_cases hk : Text.strip k = ""
    · have hnone : ∀ l : List (String × Bool),
          (l.map fun x => ((Text.strip k, Text.strip x.1), x.2)).lookup (s, a.name) = none := by
        intro l
        induction l with
        | nil => rfl
        | cons x rest ih =>
          rw [List.map_cons, Dict.lookup_cons_eq_ite, if_neg (by simp [hk, hs']), ih]
      rw [if_pos hk, sectionEntries, ← List.map_reverse, hnone]
      rfl
    · rw [if_neg hk, sectionEffects, sectionEntries, ← List.map_reverse, ← List.map_reverse]
      induction m.entries.reverse with
      | nil => rfl
      | cons x rest ih =>
        rw [List.map_cons, List.map_cons, Dict.lookup_cons_eq_ite, Dict.lookup_cons_eq_ite, ih]
        have hiff : permissionKey s a.name = permissionKey (Text.strip k) (Text.strip x.1) ↔
            (s, a.name) = (Text.strip k, Text.strip x.1) := by
          rw [eq_comm, permissionKey_eq_iff hs (not_dot_mem_name a), Prod.mk.injEq]
          exact ⟨fun h => ⟨h.1.symm, h.2.symm⟩, fun h => ⟨h.1.symm, h.2.symm⟩⟩
        simp only [hiff]
        split <;> rfl

/-- The stored effect of an action is that of its last action entry. -/
lemma get?_permissionEffects (m : Permissions) {s : String} (a : PermissionAction)
    (hs : '.' ∉ s.toList) (hs' : s ≠ "") :
    (permissionEffects m).get? (permissionKey s a.name) = (explicit m s a.name).map effectOf := by
  rw [permissionEffects, Dict.get?_ofList, effectWrites, explicit]
  induction m.entries using List.reverseRecOn with
  | nil => rfl
  | append_singleton l e ih =>
    rw [List.flatMap_append, List.flatMap_append, List.reverse_append, List.reverse_append,
      Dict.lookup_append, Dict.lookup_append, ih]
    have hw := lookup_sectionWrites e a hs hs'
    simp only [List.flatMap_singleton]
    rw [hw]
    cases (sectionEntries e).reverse.lookup (s, a.name) <;> simp

/-- No effect is stored for the empty section. -/
lemma get?_permissionEffects_empty (m : Permissions) (a : PermissionAction) :
    (permissionEffects m).get? (permissionKey "" a.name) = none := by
  rw [Dict.get?_eq_none_iff, permissionEffects, Dict.mem_ofList_iff]
  intro h
  obtain ⟨⟨key, v⟩, hw, hkey⟩ := List.mem_map.mp h
  obtain ⟨⟨k, g⟩, _, hmem⟩ := List.mem_flatMap.mp hw
  simp only at hkey hmem
  subst hkey
  by_cases hk : Text.strip k = ""
  · simp [hk] at hmem
  · rw [if_neg hk] at hmem
    have hform : ∃ y, permissionKey "" a.name = permissionKey (Text.strip k) y := by
      cases g with
      | level l =>
        cases l <;> simp only [sectionEffects, List.mem_singleton, Prod.mk.injEq] at hmem <;>
          exact ⟨_, hmem.1⟩
      | actions m =>
        obtain ⟨x, _, hx⟩ := List.mem_map.mp hmem
        exact ⟨_, (Prod.mk.injEq _ _ _ _ ▸ hx).1.symm⟩
    obtain ⟨y, hy⟩ := hform
    exact hk ((permissionKey_eq_iff (by simp) (not_dot_mem_name a)).mp hy.symm).1

/-! ## The round trip -/

/-- A mapping round-trips: whatever the reachable tables, the principal and its roles, what
is read back after storing the mapping is decided as the mapping is. -/
def RoundTrips (m : Permissions) : Prop :=
  ∀ (t : RbacTables) (principalId : ℕ) (isAdmin : Bool) (roles : List String), t.Reachable →
    ∀ (s : String) (a : PermissionAction),
      permissionAllows (((t.replaceAuthorization principalId isAdmin roles m).authorization
        principalId).permissions.get? s) a = permissionAllows (m.get? s) a

/-- Every grant of a mapping is spelled out: a section allows an action exactly when it has
a plain name and the last action entry for the two is true. -/
def SpelledOut (m : Permissions) : Prop :=
  ∀ (s : String) (a : PermissionAction),
    permissionAllows (m.get? s) a = true ↔
      s ≠ "" ∧ '.' ∉ s.toList ∧ explicit m s a.name = some true

/-- A mapping whose section and action names are stored as they are. -/
def PlainNames (m : Permissions) : Prop :=
  ∀ s g, m.get? s = some g → s ≠ "" ∧ '.' ∉ s.toList ∧ Text.Stripped s ∧
    ∀ acts, g = .actions acts → ∀ a ∈ acts, Text.Stripped a

/-- A read-back decision, in terms of the action entries of the mapping. -/
lemma allows_readBack_iff {t : RbacTables} (h : t.Reachable) (principalId : ℕ) (isAdmin : Bool)
    (roles : List String) (m : Permissions) (s : String) (a : PermissionAction) :
    Allows ((t.replaceAuthorization principalId isAdmin roles m).authorization
        principalId).permissions s a ↔
      s ≠ "" ∧ '.' ∉ s.toList ∧ explicit m s a.name = some true := by
  rw [RbacTables.allows_replaceAuthorization_iff h]
  by_cases hs' : s = ""
  · subst hs'
    simp [get?_permissionEffects_empty]
  · by_cases hs : '.' ∈ s.toList
    · simp [hs]
    · rw [get?_permissionEffects m a hs hs']
      simp [hs, hs', effectOf_eq_allow_iff]

/-! ## Plain names -/

lemma lookup_sectionEntries_of_plain {e : String × PermissionGrant} (hk : Text.Stripped e.1)
    (hacts : ∀ acts, e.2 = .actions acts → ∀ a ∈ acts, Text.Stripped a) (s b : String) :
    (sectionEntries e).reverse.lookup (s, b) =
      if s = e.1 then (match e.2 with | .actions acts => acts.get? b | .level _ => none)
      else none := by
  obtain ⟨k, g⟩ := e
  cases g with
  | level l => simp [sectionEntries]
  | actions acts =>
    have hlook : ∀ l : List (String × Bool), (∀ x ∈ l, Text.Stripped x.1) →
        (l.map fun x => ((Text.strip k, Text.strip x.1), x.2)).lookup (s, b) =
          if s = k then l.lookup b else none := by
      intro l hl
      induction l with
      | nil => simp
      | cons x rest ih =>
        rw [List.map_cons, Dict.lookup_cons_eq_ite, ih fun y hy => hl y (by simp [hy]),
          Dict.lookup_cons_eq_ite, Text.strip_of_stripped hk,
          Text.strip_of_stripped (hl x (by simp))]
        by_cases hs : s = k <;> simp [hs]
    rw [sectionEntries, ← List.map_reverse, hlook, Dict.lookup_reverse_of_nodup acts.nodup]
    · rfl
    · intro x hx
      exact hacts acts rfl x.1 (List.mem_map_of_mem (List.mem_reverse.mp hx))

/-- Under plain names, the last action entry is the entry of the section itself. -/
lemma explicit_of_plain {m : Permissions} (hm : PlainNames m) (s b : String) :
    explicit m s b =
      (m.get? s).bind fun g => match g with | .actions acts => acts.get? b | .level _ => none := by
  have hplain : ∀ e ∈ m.entries, Text.Stripped e.1 ∧
      ∀ acts, e.2 = .actions acts → ∀ a ∈ acts, Text.Stripped a := by
    intro e he
    obtain ⟨_, _, h1, h2⟩ := hm e.1 e.2 (Dict.mem_entries_iff.mp he)
    exact ⟨h1, h2⟩
  have hnodup := m.nodup
  rw [explicit, Dict.get?]
  generalize m.entries = l at hplain hnodup
  induction l with
  | nil => rfl
  | cons e rest ih =>
    obtain ⟨k, g⟩ := e
    rw [List.map_cons, List.nodup_cons] at hnodup
    obtain ⟨h1, h2⟩ := hplain (k, g) (by simp)
    rw [List.flatMap_cons, List.reverse_append, Dict.lookup_append,
      ih (fun e he => hplain e (by simp [he])) hnodup.2,
      lookup_sectionEntries_of_plain h1 h2, Dict.lookup_cons_eq_ite]
    by_cases hs : s = k
    · have hnone : rest.lookup s = none := by
        rw [Option.eq_none_iff_forall_ne_some]
        exact fun w hw =>
          hnodup.1 (hs ▸ List.mem_map.mpr ⟨_, Dict.mem_of_lookup_eq_some hw, rfl⟩)
      simp [hs ▸ hnone, hs]
    · simp [hs]

/-- A mapping with plain names is spelled out when no section is at a level that grants. -/
theorem spelledOut_iff_of_plain {m : Permissions} (hm : PlainNames m) :
    SpelledOut m ↔
      ∀ s, m.get? s ≠ some (.level .manage) ∧ m.get? s ≠ some (.level .view) := by
  constructor
  · intro h s
    refine ⟨fun hs => ?_, fun hs => ?_⟩
    · have := (h s .create).mp (by simp [hs, permissionAllows])
      rw [explicit_of_plain hm, hs] at this
      exact absurd this.2.2 (by simp)
    · have := (h s .read).mp (by simp [hs, permissionAllows])
      rw [explicit_of_plain hm, hs] at this
      exact absurd this.2.2 (by simp)
  · intro h s a
    obtain ⟨hmanage, hview⟩ := h s
    rw [explicit_of_plain hm]
    cases hg : m.get? s with
    | none => simp [permissionAllows]
    | some g =>
      obtain ⟨hne, hdot, _⟩ := hm s g hg
      cases g with
      | actions acts => simp [permissionAllows, hne, hdot]
      | level l =>
        cases l with
        | hidden => simp [permissionAllows]
        | view => exact absurd hg hview
        | manage => exact absurd hg hmanage

/-- A permissions mapping round-trips exactly when every grant of it is spelled out as an
action entry; under plain names, exactly when no section is at level `manage` or `view`. -/
theorem permissions_roundTrip_iff (m : Permissions) :
    (RoundTrips m ↔ SpelledOut m) ∧
      (PlainNames m → (RoundTrips m ↔
        ∀ s, m.get? s ≠ some (.level .manage) ∧ m.get? s ≠ some (.level .view))) := by
  have hall : RoundTrips m ↔ SpelledOut m := by
    constructor
    · intro h s a
      rw [← h RbacTables.empty 0 false [] .empty s a]
      exact allows_readBack_iff .empty 0 false [] m s a
    · intro h t principalId isAdmin roles ht s a
      rw [Bool.eq_iff_iff, h s a]
      exact allows_readBack_iff ht principalId isAdmin roles m s a
  exact ⟨hall, fun hm => hall.trans (spelledOut_iff_of_plain hm)⟩

/-- The certificates section at level `view` loses its read access on the way. -/
theorem permissions_view_not_roundTrip :
    ¬ RoundTrips (Dict.ofList [("certificates", .level .view)]) := by
  intro h
  exact absurd (h RbacTables.empty 1 false [] .empty "certificates" .read) (by decide)

end Portwyrm.Identity

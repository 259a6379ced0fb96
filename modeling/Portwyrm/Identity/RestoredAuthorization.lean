import Portwyrm.Identity.PermissionRoundTrip

/-!
# An authorization that is stored again

What is read of the roles and permissions of a principal, and stored again as it is.  The roles
come back, with `admin` among them for an administrator; the permissions come back when the names
of their sections and actions are stored as they are.
-/

namespace Portwyrm.Identity

open Base

/-! ## Permissions -/

/-- The mappings that a projection leaves: a section has no dot in its name and some actions, and an
action has a name. -/
def Projected (d : Dict String (Dict String Bool)) : Prop :=
  ∀ s m, d.get? s = some m → '.' ∉ s.toList ∧ m.entries ≠ [] ∧ "" ∉ m

lemma entries_set_ne_nil {κ α : Type} [DecidableEq κ] (d : Dict κ α) (k : κ) (v : α) :
    (d.set k v).entries ≠ [] := by
  intro h
  have hmem : k ∈ d.set k v := Dict.mem_set.mpr (.inl rfl)
  rw [Dict.mem_iff] at hmem
  obtain ⟨w, hw⟩ := hmem
  rw [← Dict.mem_entries_iff, h] at hw
  exact absurd hw (by simp)

lemma projected_projectGrant {d : Dict String (Dict String Bool)} (hd : Projected d)
    (e : String × Effect) : Projected (projectGrant d e) := by
  unfold projectGrant
  split
  · rename_i s a hcut
    split
    · exact hd
    · rename_i ha
      intro s' m hm
      rw [Dict.setIn, Dict.get?_set] at hm
      split at hm
      · rename_i hs
        obtain rfl := Option.some.inj hm
        refine ⟨hs ▸ (Text.partition_eq_some_iff.mp hcut).2, entries_set_ne_nil _ _ _, ?_⟩
        rw [Dict.mem_set, not_or]
        refine ⟨Ne.symm ha, ?_⟩
        cases hold : d.get? s with
        | none => exact Dict.not_mem_empty ""
        | some m' => exact (hd s m' hold).2.2
      · exact hd s' m hm
  · exact hd

lemma projected_permissionProjection (grants : Dict String Effect) :
    Projected (permissionProjection grants) := by
  have hfold : ∀ (l : List (String × Effect)) (d : Dict String (Dict String Bool)),
      Projected d → Projected (l.foldl projectGrant d) := by
    intro l
    induction l with
    | nil => exact fun d hd => hd
    | cons e rest ih => exact fun d hd => ih _ (projected_projectGrant hd e)
  exact hfold grants.entries Dict.empty fun s m hm => by simp at hm

/-- The effects of one section. -/
def actionEffects (s : String) (m : List (String × Bool)) : List (String × Effect) :=
  m.map fun x => (permissionKey s x.1, effectOf x.2)

/-- Sections without a dot in their names have different keys. -/
lemma permissionKey_inj {k y s a : String} (hk : '.' ∉ k.toList) (hs : '.' ∉ s.toList)
    (h : permissionKey k y = permissionKey s a) : k = s ∧ y = a := by
  have hcut := congrArg (Text.partition '.') h
  rw [permissionKey_eq, permissionKey_eq, Text.partition_join y hk, Text.partition_join a hs,
    Option.some.injEq, Prod.mk.injEq] at hcut
  exact hcut

/-- The effects of a section are projected to the section. -/
lemma foldl_actionEffects {s : String} (hs : '.' ∉ s.toList) {m : List (String × Bool)}
    (hm : ∀ x ∈ m, x.1 ≠ "") (hne : m ≠ []) {d : Dict String (Dict String Bool)} (hd : s ∉ d) :
    (actionEffects s m).foldl projectGrant d = d.set s (Dict.ofList m) := by
  have hgrant : ∀ (d : Dict String (Dict String Bool)) (x : String × Bool), x.1 ≠ "" →
      projectGrant d (permissionKey s x.1, effectOf x.2) = d.setIn s x.1 x.2 := by
    intro d x hx
    have hflag : decide (effectOf x.2 = .allow) = x.2 := by
      cases x.2 <;> rfl
    rw [projectGrant, permissionKey_eq, Text.partition_join x.1 hs]
    dsimp only
    rw [if_neg hx, hflag]
  induction m using List.reverseRecOn with
  | nil => exact absurd rfl hne
  | append_singleton l x ih =>
    have hx := hm x (by simp)
    rw [actionEffects, List.map_append, List.foldl_append, List.map_singleton, List.foldl_cons,
      List.foldl_nil, hgrant _ x hx]
    by_cases hl : l = []
    · subst hl
      rw [List.map_nil, List.foldl_nil, Dict.setIn, Dict.get?_eq_none_iff.mpr hd]
      rfl
    · have hrest := ih (fun y hy => hm y (by simp [hy])) hl
      rw [actionEffects] at hrest
      rw [hrest, Dict.setIn, Dict.get?_set_self, Option.getD_some, Dict.set_set, Dict.ofList,
        Dict.ofList, List.foldl_append]
      rfl

/-- The writes of a projection with plain names. -/
lemma effectWrites_of_plain {d : Dict String (Dict String Bool)}
    (hplain : PlainNames (d.mapValues .actions)) :
    effectWrites (d.mapValues .actions) = d.entries.flatMap fun e => actionEffects e.1 e.2.entries := by
  rw [effectWrites, Dict.mapValues, List.flatMap_map]
  refine List.flatMap_congr fun e he => ?_
  obtain ⟨hne, -, hstripped, hactions⟩ := hplain e.1 (.actions e.2) (by
    rw [Dict.get?_mapValues, Dict.mem_entries_iff.mp he]
    rfl)
  dsimp only
  rw [Text.strip_of_stripped hstripped, if_neg hne]
  refine List.map_congr_left fun x hx => ?_
  rw [Text.strip_of_stripped (hactions e.2 rfl x.1 (List.mem_map.mpr ⟨x, hx, rfl⟩))]
  rfl

/-- A projection with plain names is stored and read back as it is. -/
theorem permissionProjection_permissionEffects {d : Dict String (Dict String Bool)}
    (hd : Projected d) (hplain : PlainNames (d.mapValues .actions)) :
    permissionProjection (permissionEffects (d.mapValues .actions)) = d := by
  have hsection : ∀ e ∈ d.entries, '.' ∉ e.1.toList ∧ e.2.entries ≠ [] ∧ "" ∉ e.2 :=
    fun e he => hd e.1 e.2 (Dict.mem_entries_iff.mp he)
  have hkeys : ((d.entries.flatMap fun e => actionEffects e.1 e.2.entries).map Prod.fst).Nodup := by
    rw [List.map_flatMap, List.nodup_flatMap]
    constructor
    · intro e he
      rw [actionEffects, List.map_map]
      have hnodup := e.2.nodup
      rw [List.Nodup, List.pairwise_map] at hnodup ⊢
      exact hnodup.imp fun hne heq =>
        hne (permissionKey_inj (hsection e he).1 (hsection e he).1 heq).2
    · have hnodup := d.nodup
      rw [List.Nodup, List.pairwise_map] at hnodup
      refine hnodup.imp_of_mem fun {e e'} he he' hne key hkey hkey' => hne ?_
      simp only [actionEffects, List.map_map, List.mem_map] at hkey hkey'
      obtain ⟨x, -, rfl⟩ := hkey
      obtain ⟨x', -, heq⟩ := hkey'
      exact (permissionKey_inj (hsection e' he').1 (hsection e he).1 heq).1.symm
  have hfold : ∀ (l : List (String × Dict String Bool)) (d' : Dict String (Dict String Bool)),
      (∀ e ∈ l, '.' ∉ e.1.toList ∧ e.2.entries ≠ [] ∧ "" ∉ e.2) → (l.map Prod.fst).Nodup →
      (∀ e ∈ l, e.1 ∉ d') →
      (l.flatMap fun e => actionEffects e.1 e.2.entries).foldl projectGrant d' =
        l.foldl (fun d e => d.set e.1 e.2) d' := by
    intro l
    induction l with
    | nil => exact fun _ _ _ _ => rfl
    | cons e rest ih =>
      intro d' hl hnodup hnew
      obtain ⟨hnot, hrest⟩ := List.nodup_cons.mp hnodup
      obtain ⟨hdot, hne, hnames⟩ := hl e List.mem_cons_self
      have hactions : ∀ x ∈ e.2.entries, x.1 ≠ "" := fun x hx hempty =>
        hnames (List.mem_map.mpr ⟨x, hx, hempty⟩)
      rw [List.flatMap_cons, List.foldl_append,
        foldl_actionEffects hdot hactions hne (hnew e List.mem_cons_self), Dict.ofList_entries,
        List.foldl_cons]
      refine ih _ (fun e' he' => hl e' (List.mem_cons_of_mem _ he')) hrest fun e' he' hmem => ?_
      rcases Dict.mem_set.mp hmem with heq | hmem
      · exact hnot (heq ▸ List.mem_map.mpr ⟨e', he', rfl⟩)
      · exact hnew e' (List.mem_cons_of_mem _ he') hmem
  rw [permissionEffects, effectWrites_of_plain hplain, Dict.ofList_of_nodup hkeys,
    permissionProjection]
  refine (hfold d.entries Dict.empty hsection d.nodup fun e _ => Dict.not_mem_empty e.1).trans ?_
  exact Dict.ofList_entries d

/-! ## Roles -/

/-- The name of a role, as it is stored. -/
lemma roleName_normal (item : String) :
    Text.casefold (Text.strip (Text.casefold (Text.strip item))) = Text.casefold (Text.strip item) :=
  Text.stripExpand_idem Text.foldChar_ne_nil (fun _ _ => Text.foldChar_of_mem)
    (fun _ _ => Text.isSpace_of_mem_foldChar) item

lemma mem_roleNames {name : String} {roles : List String} {flag : Bool} :
    name ∈ RbacTables.roleNames roles flag ↔ flag = true ∧ name = "admin" ∨
      name ≠ "" ∧ ∃ item ∈ roles, Text.casefold (Text.strip item) = name := by
  rw [RbacTables.roleNames, ← FrozenSet.mem_def, FrozenSet.mem_ofList]
  cases flag <;> simp [and_comm]

/-- The roles that are read, stored again with or without the flag of an administrator. -/
theorem roleNames_roleNames (roles : List String) (flag flag' : Bool)
    (h : flag' = true → "admin" ∈ RbacTables.roleNames roles flag) :
    RbacTables.roleNames (RbacTables.roleNames roles flag) flag' =
      RbacTables.roleNames roles flag := by
  have hnormal : ∀ item ∈ RbacTables.roleNames roles flag,
      Text.casefold (Text.strip item) = item ∧ item ≠ "" := by
    intro item hitem
    rcases mem_roleNames.mp hitem with ⟨-, rfl⟩ | ⟨hne, raw, -, rfl⟩
    · exact ⟨by decide, by decide⟩
    · exact ⟨roleName_normal raw, hne⟩
  obtain ⟨S, hS⟩ : ∃ S : FrozenSet String, RbacTables.roleNames roles flag = S.elems := ⟨_, rfl⟩
  obtain ⟨S', hS'⟩ : ∃ S' : FrozenSet String,
      RbacTables.roleNames (RbacTables.roleNames roles flag) flag' = S'.elems := ⟨_, rfl⟩
  suffices heq : S' = S by rw [hS', hS, heq]
  refine FrozenSet.ext fun name => ?_
  rw [FrozenSet.mem_def, FrozenSet.mem_def, ← hS', ← hS]
  constructor
  · intro hname
    rcases mem_roleNames.mp hname with ⟨hflag, rfl⟩ | ⟨-, item, hitem, rfl⟩
    · exact h hflag
    · rw [(hnormal item hitem).1]
      exact hitem
  · intro hname
    exact mem_roleNames.mpr (.inr ⟨(hnormal name hname).2, name, hname, (hnormal name hname).1⟩)

namespace RbacTables

variable {t : RbacTables}

/-- The permissions of a principal, stored again under plain names. -/
theorem permissions_restored (h : Reachable t) {id : ℕ}
    (hplain : PlainNames (t.authorization id).permissions) (isAdmin : Bool) (roles : List String) :
    ((t.replaceAuthorization id isAdmin roles (t.authorization id).permissions).authorization
      id).permissions = (t.authorization id).permissions := by
  have hread := authorization_permissions h.rolePermissions_eq_nil id
  have hnil := (rolePermissions_replaceAuthorization t id isAdmin roles
    (t.authorization id).permissions).trans h.rolePermissions_eq_nil
  rw [authorization_permissions hnil, directGrants_replaceAuthorization, Dict.ofList_entries, hread]
  rw [hread] at hplain
  rw [projectedPermissions, projectedPermissions,
    permissionProjection_permissionEffects (projected_permissionProjection _) hplain]

end RbacTables

end Portwyrm.Identity

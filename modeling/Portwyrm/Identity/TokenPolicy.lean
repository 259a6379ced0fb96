import Portwyrm.Base.FrozenSet
import Portwyrm.Base.Text
import Portwyrm.Errors
import Portwyrm.Identity.Permissions

/-!
# Token scopes

`portwyrm.identity.token_policy`: normalising the scopes of a personal access token,
validating the scopes a caller asks for, and intersecting the durable authority of a
principal with the scopes of a token.  A scope is given by its text; the members of a list
of scopes that are not texts stand for their `str` values.
-/

namespace Portwyrm.Identity

open Base

/-! ## Definitions -/

/-- `TOKEN_SCOPE_SECTIONS`. -/
def tokenScopeSections : List String :=
  ["proxy_hosts", "redirection_hosts", "dead_hosts", "streams", "access_lists", "certificates"]

/-- `FULL_ACCOUNT_SCOPE`. -/
def fullAccountScope : String := "user"

/-- The result of a scope match, `ScopeMatchResult`. -/
structure ScopeMatchResult where
  allowed : Bool
  granted : List String
  required : List String
  missing : List String

/-- `PortwyrmScopeMatcher.match`. -/
def scopeMatch (granted required : List String) (mode : String) : Result ScopeMatchResult :=
  let granted := Dict.fromKeys granted
  let required := Dict.fromKeys required
  if mode ≠ "all" ∧ mode ≠ "any" then throw (.valueError "unsupported scope matching mode")
  else
    let missing := required.filter fun scope => scope ∉ granted
    let allowed := if mode = "all" then missing.isEmpty else required.any fun scope => scope ∈ granted
    pure
      { allowed := if required = [] then true else allowed
        granted := granted
        required := required
        missing := missing }

/-- The text under which a scope is compared. -/
def normalizeScope (scope : String) : String :=
  Text.replaceChar '-' '_' (Text.casefold (Text.strip scope))

/-- `parse_scope`. -/
def parseScope (scope : String) : Result (String × PermissionAction) :=
  match Text.partition ':' (normalizeScope scope) with
  | none => throw (.valueError "invalid token scopes")
  | some (section_, action) =>
    match PermissionAction.ofName? action with
    | none => throw (.valueError "invalid token scopes")
    | some a =>
      if section_ ∉ tokenScopeSections then throw (.valueError "invalid token scopes")
      else pure (section_, a)

/-- The loop of `normalize_token_scopes` that parses every scope. -/
def checkScopes : List String → Result Unit
  | [] => pure ()
  | scope :: rest => do
    let _ ← parseScope scope
    checkScopes rest

/-- `normalize_token_scopes`. -/
def normalizeTokenScopes (scopes : List String) : Result (FrozenSet String) :=
  let normalized := FrozenSet.ofList (scopes.map normalizeScope)
  if normalized.elems = [] ∨ "" ∈ normalized then
    throw (.valueError "select at least one access scope")
  else if normalized = .single fullAccountScope then pure normalized
  else
    let resourceScopes := normalized.erase fullAccountScope
    if resourceScopes.elems = [] then throw (.valueError "select at least one access scope")
    else do
      checkScopes resourceScopes.elems
      pure (resourceScopes.insert fullAccountScope)

/-- The scopes that the permissions of the account grant, of those required. -/
def grantedScopes (permissions : Permissions) (isAdmin : Bool) : List String → Result (List String)
  | [] => pure []
  | scope :: rest => do
    let (section_, action) ← parseScope scope
    let granted ← grantedScopes permissions isAdmin rest
    pure (if isAdmin || permissionAllows (permissions.get? section_) action
      then scope :: granted else granted)

/-- `validate_requested_scopes`. -/
def validateRequestedScopes (scopes : List String) (permissions : Permissions) (isAdmin : Bool) :
    Result (FrozenSet String) := do
  let normalized ← normalizeTokenScopes scopes
  if normalized = .single fullAccountScope then pure normalized
  else
    let required := (normalized.erase fullAccountScope).elems
    let granted ← grantedScopes permissions isAdmin required
    let m ← scopeMatch granted required "all"
    if m.allowed then pure normalized
    else throw (.valueError ("scope exceeds account permission: " ++ m.missing.headD ""))

/-- The loop of `effective_token_authority`. -/
def effectivePermissions (permissions : Permissions) (isAdmin : Bool) :
    List String → Dict String (Dict String Bool) → Result (Dict String (Dict String Bool))
  | [], effective => pure effective
  | scope :: rest, effective => do
    let (section_, action) ← parseScope scope
    let principalGranted := isAdmin || permissionAllows (permissions.get? section_) action
    let m ← scopeMatch (if principalGranted then [scope] else []) [scope] "all"
    effectivePermissions permissions isAdmin rest
      (if m.allowed then effective.setIn section_ action.name true else effective)

/-- What a credential may do: the result of `effective_token_authority`. -/
structure TokenAuthority where
  permissions : Permissions
  isAdmin : Bool
  scopes : FrozenSet String

/-- `effective_token_authority`. -/
def effectiveTokenAuthority (scopes : List String) (permissions : Permissions) (isAdmin : Bool) :
    Result TokenAuthority := do
  let normalized ← normalizeTokenScopes scopes
  if normalized = .single fullAccountScope then
    pure { permissions := permissions, isAdmin := isAdmin, scopes := normalized }
  else do
    let effective ← effectivePermissions permissions isAdmin
      (normalized.erase fullAccountScope).elems .empty
    pure { permissions := effective.mapValues .actions, isAdmin := false, scopes := normalized }

/-! ## Parsing -/

/-- The text of the scope for an action on a section. -/
def scopeText (section_ : String) (a : PermissionAction) : String := section_ ++ ":" ++ a.name

lemma parseScope_eq_ok_iff {scope s : String} {a : PermissionAction} :
    parseScope scope = .ok (s, a) ↔
      s ∈ tokenScopeSections ∧ normalizeScope scope = scopeText s a := by
  have hcolon : ∀ s ∈ tokenScopeSections, ':' ∉ s.toList := by decide
  unfold parseScope
  constructor
  · intro h
    split at h
    · exact absurd h throw_ne_ok
    · rename_i s' x hp
      split at h
      · exact absurd h throw_ne_ok
      · rename_i a' ha'
        split at h
        · exact absurd h throw_ne_ok
        · rename_i hs'
          obtain ⟨rfl, rfl⟩ := Prod.mk.injEq _ _ _ _ ▸ pure_eq_ok_iff.mp h
          rw [PermissionAction.ofName?_eq_some_iff] at ha'
          refine ⟨not_not.mp hs', ?_⟩
          rw [(Text.partition_eq_some_iff.mp hp).1, ← ha']
          rfl
  · rintro ⟨hs, hn⟩
    have hp : Text.partition ':' (normalizeScope scope) = some (s, a.name) := by
      rw [hn]
      exact Text.partition_join a.name (hcolon s hs)
    rw [hp]
    simp only [PermissionAction.ofName?_eq_some_iff.mpr rfl]
    simp [hs]

/-- The expansion of one character under `normalizeScope`. -/
def scopeChar (c : Char) : List Char := (Text.foldChar c).map fun d => if d = '-' then '_' else d

lemma normalizeScope_eq (scope : String) :
    normalizeScope scope = Text.stripExpand scopeChar scope := by
  simp only [normalizeScope, Text.replaceChar, Text.casefold, Text.stripExpand,
    String.toList_ofList, List.map_flatMap]
  rfl

/-- A character that `normalizeScope` keeps wherever it stands. -/
def PlainChar (c : Char) : Prop := scopeChar c = [c] ∧ Text.isSpace c = false

instance (c : Char) : Decidable (PlainChar c) := inferInstanceAs (Decidable (_ ∧ _))

lemma normalizeScope_of_plain {t : String} (h : ∀ c ∈ t.toList, PlainChar c) :
    normalizeScope t = t := by
  have hstrip : Text.strip t = t := by
    refine Text.strip_of_stripped ⟨fun c hc => ?_, fun c hc => ?_⟩
    · exact (h c (List.mem_of_mem_head? hc)).2
    · exact (h c (List.mem_of_getLast? hc)).2
  have hflat : t.toList.flatMap scopeChar = t.toList := by
    generalize t.toList = l at h
    induction l with
    | nil => rfl
    | cons c rest ih =>
      rw [List.flatMap_cons, (h c (by simp)).1, ih fun d hd => h d (by simp [hd])]
      rfl
  rw [normalizeScope_eq, Text.stripExpand, hstrip, hflat, String.ofList_toList]

/-- The text of a scope is already normal. -/
lemma normalizeScope_scopeText {s : String} (hs : s ∈ tokenScopeSections)
    (a : PermissionAction) : normalizeScope (scopeText s a) = scopeText s a := by
  have hsections : (tokenScopeSections.all fun s => s.toList.all fun c => PlainChar c) = true := by
    decide
  have hactions : (permissionActions.all fun a => a.name.toList.all fun c => PlainChar c) =
      true := by
    decide
  have hcolon : PlainChar ':' := by decide
  simp only [List.all_eq_true, decide_eq_true_eq] at hsections hactions
  apply normalizeScope_of_plain
  intro c hc
  simp only [scopeText, String.toList_append, List.mem_append] at hc
  rcases hc with (hc | hc) | hc
  · exact hsections s hs c hc
  · obtain rfl : c = ':' := by simpa using hc
    exact hcolon
  · exact hactions a (mem_permissionActions a) c hc

lemma parseScope_scopeText {s : String} (hs : s ∈ tokenScopeSections) (a : PermissionAction) :
    parseScope (scopeText s a) = .ok (s, a) :=
  parseScope_eq_ok_iff.mpr ⟨hs, normalizeScope_scopeText hs a⟩

lemma scopeText_ne_full {s : String} (hs : s ∈ tokenScopeSections) (a : PermissionAction) :
    scopeText s a ≠ fullAccountScope ∧ scopeText s a ≠ "" := by
  have hall : ∀ s ∈ tokenScopeSections, ∀ a ∈ permissionActions,
      scopeText s a ≠ fullAccountScope ∧ scopeText s a ≠ "" := by decide
  exact hall s hs a (mem_permissionActions a)

/-- Different sections or actions have different scopes. -/
lemma scopeText_inj {s s' : String} {a a' : PermissionAction} (hs : s ∈ tokenScopeSections)
    (hs' : s' ∈ tokenScopeSections) (h : scopeText s a = scopeText s' a') : s = s' ∧ a = a' := by
  have h1 := parseScope_scopeText hs a
  rw [h, parseScope_scopeText hs' a', Except.ok.injEq, Prod.mk.injEq] at h1
  exact ⟨h1.1.symm, h1.2.symm⟩

lemma normalizeScope_idem (scope : String) :
    normalizeScope (normalizeScope scope) = normalizeScope scope := by
  simp only [normalizeScope_eq]
  refine Text.stripExpand_idem ?_ ?_ ?_ scope
  · intro c h
    exact Text.foldChar_ne_nil c (List.map_eq_nil_iff.mp h)
  · intro c d hd
    obtain ⟨e, he, rfl⟩ := List.mem_map.mp hd
    by_cases hdash : e = '-'
    · rw [if_pos hdash]
      decide
    · rw [if_neg hdash, scopeChar, Text.foldChar_of_mem he]
      simp [hdash]
  · intro c d hd hc
    obtain ⟨e, he, rfl⟩ := List.mem_map.mp hd
    split
    · decide
    · exact Text.isSpace_of_mem_foldChar he hc

/-! ## Accepted scope sets -/

/-- A scope set that `normalize_token_scopes` returns: the full-account scope, and scopes for
actions on token sections. -/
def AcceptedScopes (n : FrozenSet String) : Prop :=
  fullAccountScope ∈ n ∧ ∀ x ∈ n, x ≠ fullAccountScope →
    ∃ s ∈ tokenScopeSections, ∃ a, x = scopeText s a

lemma acceptedScopes_single : AcceptedScopes (.single fullAccountScope) :=
  ⟨by simp, fun x hx hne => absurd (FrozenSet.mem_single.mp hx) hne⟩

lemma checkScopes_eq_ok_iff {l : List String} :
    checkScopes l = .ok () ↔ ∀ x ∈ l, ∃ s a, parseScope x = .ok (s, a) := by
  induction l with
  | nil => simp [checkScopes, pure, Except.pure]
  | cons x rest ih =>
    rw [checkScopes, bind_eq_ok_iff, List.forall_mem_cons, ← ih]
    constructor
    · rintro ⟨⟨s, a⟩, h1, h2⟩
      exact ⟨⟨s, a, h1⟩, h2⟩
    · rintro ⟨⟨s, a, h1⟩, h2⟩
      exact ⟨(s, a), h1, h2⟩

lemma eq_single_of_forall {n : FrozenSet String} (hne : n.elems ≠ [])
    (h : ∀ x ∈ n, x = fullAccountScope) : n = .single fullAccountScope := by
  ext x
  rw [FrozenSet.mem_single]
  refine ⟨h x, ?_⟩
  rintro rfl
  obtain ⟨y, hy⟩ := List.exists_mem_of_ne_nil _ hne
  exact h y hy ▸ hy

/-- What `normalize_token_scopes` returns. -/
lemma normalizeTokenScopes_spec {l : List String} {n : FrozenSet String}
    (h : normalizeTokenScopes l = .ok n) :
    AcceptedScopes n ∧ ∀ x, x ∈ n ↔ x = fullAccountScope ∨ x ∈ l.map normalizeScope := by
  unfold normalizeTokenScopes at h
  simp only at h
  split at h
  · exact absurd h throw_ne_ok
  · split at h
    · rename_i hfull
      obtain rfl := pure_eq_ok_iff.mp h
      refine ⟨hfull ▸ acceptedScopes_single, fun x => ?_⟩
      have hiff : x ∈ l.map normalizeScope ↔ x = fullAccountScope := by
        rw [← FrozenSet.mem_ofList, hfull, FrozenSet.mem_single]
      rw [FrozenSet.mem_ofList, hiff, or_self]
    · split at h
      · exact absurd h throw_ne_ok
      · obtain ⟨u, hcheck, h⟩ := bind_eq_ok_iff.mp h
        obtain rfl := pure_eq_ok_iff.mp h
        refine ⟨⟨by simp, fun x hx hne => ?_⟩, fun x => ?_⟩
        · have hres := (FrozenSet.mem_insert.mp hx).resolve_left hne
          obtain ⟨s, a, hp⟩ := checkScopes_eq_ok_iff.mp hcheck x hres
          obtain ⟨hs, hn⟩ := parseScope_eq_ok_iff.mp hp
          obtain ⟨y, _, rfl⟩ := List.mem_map.mp
            (FrozenSet.mem_ofList.mp (FrozenSet.mem_erase.mp hres).1)
          exact ⟨s, hs, a, by rw [← hn, normalizeScope_idem]⟩
        · rw [FrozenSet.mem_insert, FrozenSet.mem_erase, FrozenSet.mem_ofList]
          tauto

lemma normalizeScope_of_mem {n : FrozenSet String} (hn : AcceptedScopes n) {x : String}
    (hx : x ∈ n) : normalizeScope x = x := by
  by_cases h : x = fullAccountScope
  · subst h
    decide
  · obtain ⟨s, hs, a, rfl⟩ := hn.2 x hx h
    exact normalizeScope_scopeText hs a

/-- An accepted scope set is normal. -/
lemma normalizeTokenScopes_elems {n : FrozenSet String} (hn : AcceptedScopes n) :
    normalizeTokenScopes n.elems = .ok n := by
  have hmap : n.elems.map normalizeScope = n.elems :=
    (List.map_congr_left fun x hx => normalizeScope_of_mem hn hx).trans (List.map_id _)
  have hempty : ¬ (n.elems = [] ∨ "" ∈ n) := by
    rintro (h | h)
    · exact absurd (FrozenSet.elems_eq_nil_iff.mp h _ hn.1) (by simp)
    · obtain ⟨s, hs, a, ha⟩ := hn.2 "" h (by decide)
      exact (scopeText_ne_full hs a).2 ha.symm
  unfold normalizeTokenScopes
  simp only [hmap, FrozenSet.ofList_elems, if_neg hempty]
  split
  · rfl
  · rename_i hfull
    have hres : (n.erase fullAccountScope).elems ≠ [] := by
      intro h
      refine hfull (eq_single_of_forall (fun h' => hempty (Or.inl h')) fun x hx => ?_)
      by_contra hne
      exact FrozenSet.elems_eq_nil_iff.mp h x (FrozenSet.mem_erase.mpr ⟨hx, hne⟩)
    have hcheck : checkScopes (n.erase fullAccountScope).elems = .ok () := by
      rw [checkScopes_eq_ok_iff]
      intro x hx
      obtain ⟨hxn, hne⟩ := FrozenSet.mem_erase.mp hx
      obtain ⟨s, hs, a, rfl⟩ := hn.2 x hxn hne
      exact ⟨s, a, parseScope_scopeText hs a⟩
    have hins : (n.erase fullAccountScope).insert fullAccountScope = n := by
      ext x
      rw [FrozenSet.mem_insert, FrozenSet.mem_erase]
      refine ⟨?_, fun hx => ?_⟩
      · rintro (rfl | h)
        · exact hn.1
        · exact h.1
      · by_cases h : x = fullAccountScope
        · exact Or.inl h
        · exact Or.inr ⟨hx, h⟩
    rw [if_neg hres, hcheck, ok_bind, hins]
    rfl

/-! ## Authority -/

/-- A scope set covers an action on a section. -/
def InScope (n : FrozenSet String) (s : String) (a : PermissionAction) : Prop :=
  n = .single fullAccountScope ∨ (s ∈ tokenScopeSections ∧ scopeText s a ∈ n)

/-- The authority to act on a section: as an administrator, or by a permission. -/
def MayAct (p : Permissions) (isAdmin : Bool) (s : String) (a : PermissionAction) : Prop :=
  isAdmin = true ∨ Allows p s a

instance (p : Permissions) (isAdmin : Bool) (s : String) (a : PermissionAction) :
    Decidable (MayAct p isAdmin s a) :=
  inferInstanceAs (Decidable (_ ∨ _))

/-- The authority of a credential to act on a section. -/
def TokenAuthority.May (A : TokenAuthority) (s : String) (a : PermissionAction) : Prop :=
  MayAct A.permissions A.isAdmin s a

instance (A : TokenAuthority) (s : String) (a : PermissionAction) : Decidable (A.May s a) :=
  inferInstanceAs (Decidable (MayAct _ _ _ _))

/-- One authority is contained in another: decision by decision, and in the administrator
flag. -/
def TokenAuthority.Within (A B : TokenAuthority) : Prop :=
  (A.isAdmin = true → B.isAdmin = true) ∧ ∀ s a, A.May s a → B.May s a

lemma TokenAuthority.Within.refl (A : TokenAuthority) : A.Within A := ⟨id, fun _ _ => id⟩

lemma TokenAuthority.Within.trans {A B C : TokenAuthority} (h : A.Within B) (h' : B.Within C) :
    A.Within C :=
  ⟨fun hA => h'.1 (h.1 hA), fun s a hA => h'.2 s a (h.2 s a hA)⟩

lemma scopeMatch_one (granted : Bool) (scope : String) :
    ∃ m, scopeMatch (if granted then [scope] else []) [scope] "all" = .ok m ∧
      m.allowed = granted := by
  have hkeys : Dict.fromKeys [scope] = [scope] := rfl
  have hnil : Dict.fromKeys ([] : List String) = [] := rfl
  cases granted <;> simp [scopeMatch, hkeys, hnil]

/-- A match of all required scopes is granted only when each of them is. -/
lemma scopeMatch_all {granted required : List String} {m : ScopeMatchResult}
    (h : scopeMatch granted required "all" = .ok m) (hm : m.allowed = true) :
    ∀ x ∈ required, x ∈ granted := by
  simp only [scopeMatch, ne_eq, not_true_eq_false, false_and, if_false, if_true,
    pure_eq_ok_iff] at h
  subst h
  intro x hx
  simp only at hm
  split at hm
  · rename_i hnil
    have := Dict.mem_fromKeys.mpr hx
    rw [hnil] at this
    exact absurd this (by simp)
  · rw [List.isEmpty_iff, List.filter_eq_nil_iff] at hm
    have := hm x (Dict.mem_fromKeys.mpr hx)
    simpa using this

/-- The permissions left by the loop of `effective_token_authority`. -/
lemma effectivePermissions_spec {p : Permissions} {isAdmin : Bool} {l : List String}
    (hl : ∀ x ∈ l, ∃ s ∈ tokenScopeSections, ∃ a, x = scopeText s a)
    {d d' : Dict String (Dict String Bool)} (h : effectivePermissions p isAdmin l d = .ok d')
    (s : String) (a : PermissionAction) :
    d'.getIn s a.name = some true ↔ d.getIn s a.name = some true ∨
      (s ∈ tokenScopeSections ∧ scopeText s a ∈ l ∧ MayAct p isAdmin s a) := by
  induction l generalizing d with
  | nil =>
    obtain rfl := pure_eq_ok_iff.mp h
    simp
  | cons x rest ih =>
    obtain ⟨s', hs', a', rfl⟩ := hl x (by simp)
    obtain ⟨m, hm, hallowed⟩ := scopeMatch_one
      (isAdmin || permissionAllows (p.get? s') a') (scopeText s' a')
    rw [effectivePermissions, parseScope_scopeText hs', ok_bind] at h
    simp only [hm, ok_bind] at h
    rw [ih (fun y hy => hl y (by simp [hy])) h]
    have hgrant : m.allowed = true ↔ MayAct p isAdmin s' a' := by
      rw [hallowed, Bool.or_eq_true]
      rfl
    have hstep : (if m.allowed = true then d.setIn s' a'.name true else d).getIn s a.name =
        some true ↔ d.getIn s a.name = some true ∨
          (s = s' ∧ a = a' ∧ MayAct p isAdmin s' a') := by
      rw [← hgrant]
      by_cases hma : m.allowed = true
      · rw [if_pos hma, Dict.getIn_setIn]
        by_cases hsa : s = s' ∧ a.name = a'.name
        · have ha := PermissionAction.name_injective hsa.2
          simp [hsa.1, ha, hma]
        · have hsa' : ¬ (s = s' ∧ a = a') := fun h => hsa ⟨h.1, h.2 ▸ rfl⟩
          rw [if_neg hsa]
          tauto
      · simp [hma]
    rw [hstep, List.mem_cons]
    constructor
    · rintro ((h | ⟨rfl, rfl, h⟩) | ⟨h1, h2, h3⟩)
      · exact Or.inl h
      · exact Or.inr ⟨hs', Or.inl rfl, h⟩
      · exact Or.inr ⟨h1, Or.inr h2, h3⟩
    · rintro (h | ⟨h1, h2 | h2, h3⟩)
      · exact Or.inl (Or.inl h)
      · obtain ⟨rfl, rfl⟩ := scopeText_inj h1 hs' h2
        exact Or.inl (Or.inr ⟨rfl, rfl, h3⟩)
      · exact Or.inr ⟨h1, h2, h3⟩

lemma mem_resource_scopes {n : FrozenSet String} (hn : AcceptedScopes n) :
    ∀ x ∈ (n.erase fullAccountScope).elems,
      ∃ s ∈ tokenScopeSections, ∃ a, x = scopeText s a := by
  intro x hx
  obtain ⟨h1, h2⟩ := FrozenSet.mem_erase.mp hx
  exact hn.2 x h1 h2

/-- The authority of a credential: its scopes cut the durable authority of the principal
down, and only the full-account scope keeps the administrator flag. -/
theorem effectiveTokenAuthority_spec {l : List String} {p : Permissions} {isAdmin : Bool}
    {A : TokenAuthority} (h : effectiveTokenAuthority l p isAdmin = .ok A) :
    normalizeTokenScopes l = .ok A.scopes ∧
      (A.isAdmin = true ↔ A.scopes = .single fullAccountScope ∧ isAdmin = true) ∧
      ∀ s a, A.May s a ↔ InScope A.scopes s a ∧ MayAct p isAdmin s a := by
  unfold effectiveTokenAuthority at h
  obtain ⟨n, hn, h⟩ := bind_eq_ok_iff.mp h
  split at h
  · rename_i hfull
    obtain rfl := pure_eq_ok_iff.mp h
    exact ⟨hn, by simp [hfull], fun s a => by simp [TokenAuthority.May, InScope, hfull]⟩
  · rename_i hfull
    obtain ⟨d, hd, h⟩ := bind_eq_ok_iff.mp h
    obtain rfl := pure_eq_ok_iff.mp h
    refine ⟨hn, by simp [hfull], fun s a => ?_⟩
    have hacc := (normalizeTokenScopes_spec hn).1
    have hspec := effectivePermissions_spec (mem_resource_scopes hacc) hd s a
    rw [Dict.getIn_empty] at hspec
    simp only [TokenAuthority.May, MayAct, Bool.false_eq_true, false_or, allows_mapValues_iff]
    rw [hspec]
    have hmem : s ∈ tokenScopeSections →
        (scopeText s a ∈ (n.erase fullAccountScope).elems ↔ scopeText s a ∈ n) := by
      intro hs
      rw [← FrozenSet.mem_def, FrozenSet.mem_erase]
      exact and_iff_left (scopeText_ne_full hs a).1
    simp only [InScope, hfull, false_or, reduceCtorEq, MayAct]
    constructor
    · rintro ⟨h1, h2, h3⟩
      exact ⟨⟨h1, (hmem h1).mp h2⟩, h3⟩
    · rintro ⟨⟨h1, h2⟩, h3⟩
      exact ⟨h1, (hmem h1).mpr h2, h3⟩

/-- `effective_token_authority` accepts every accepted scope set. -/
lemma effectiveTokenAuthority_elems {n : FrozenSet String} (hn : AcceptedScopes n)
    (p : Permissions) (isAdmin : Bool) :
    ∃ A, effectiveTokenAuthority n.elems p isAdmin = .ok A := by
  unfold effectiveTokenAuthority
  rw [normalizeTokenScopes_elems hn, ok_bind]
  split
  · exact ⟨_, rfl⟩
  · suffices h : ∀ l, (∀ x ∈ l, ∃ s ∈ tokenScopeSections, ∃ a, x = scopeText s a) →
        ∀ d, ∃ d', effectivePermissions p isAdmin l d = .ok d' by
      obtain ⟨d, hd⟩ := h _ (mem_resource_scopes hn) .empty
      exact ⟨_, by rw [hd]; rfl⟩
    intro l hl
    induction l with
    | nil => exact fun d => ⟨d, rfl⟩
    | cons x rest ih =>
      intro d
      obtain ⟨s, hs, a, rfl⟩ := hl x (by simp)
      obtain ⟨m, hm, _⟩ := scopeMatch_one (isAdmin || permissionAllows (p.get? s) a) (scopeText s a)
      rw [effectivePermissions, parseScope_scopeText hs, ok_bind]
      simp only [hm, ok_bind]
      exact ih (fun y hy => hl y (by simp [hy])) _

/-! ## Requested scopes -/

lemma mem_grantedScopes {p : Permissions} {isAdmin : Bool} {l g : List String}
    (h : grantedScopes p isAdmin l = .ok g) {s : String} (hs : s ∈ tokenScopeSections)
    {a : PermissionAction} (hg : scopeText s a ∈ g) : MayAct p isAdmin s a := by
  induction l generalizing g with
  | nil =>
    obtain rfl := pure_eq_ok_iff.mp h
    simp at hg
  | cons x rest ih =>
    rw [grantedScopes] at h
    obtain ⟨⟨s', a'⟩, hp, h⟩ := bind_eq_ok_iff.mp h
    obtain ⟨g', hg', h⟩ := bind_eq_ok_iff.mp h
    obtain rfl := pure_eq_ok_iff.mp h
    split at hg
    · rename_i hgrant
      rcases List.mem_cons.mp hg with hx | hg
      · obtain ⟨hs', hn⟩ := parseScope_eq_ok_iff.mp hp
        rw [← hx, normalizeScope_scopeText hs] at hn
        obtain ⟨rfl, rfl⟩ := scopeText_inj hs hs' hn
        exact (Bool.or_eq_true _ _).mp hgrant
      · exact ih hg' hg
    · exact ih hg' hg

/-- Requested scopes that pass are normal, and each resource scope among them is one that the
account may use. -/
theorem validateRequestedScopes_spec {l : List String} {p : Permissions} {isAdmin : Bool}
    {n : FrozenSet String} (h : validateRequestedScopes l p isAdmin = .ok n) :
    normalizeTokenScopes l = .ok n ∧ (n ≠ .single fullAccountScope →
      ∀ s ∈ tokenScopeSections, ∀ a, scopeText s a ∈ n → MayAct p isAdmin s a) := by
  unfold validateRequestedScopes at h
  obtain ⟨n', hn, h⟩ := bind_eq_ok_iff.mp h
  split at h
  · rename_i hfull
    obtain rfl := pure_eq_ok_iff.mp h
    exact ⟨hn, fun hne => absurd hfull hne⟩
  · obtain ⟨g, hg, h⟩ := bind_eq_ok_iff.mp h
    obtain ⟨m, hm, h⟩ := bind_eq_ok_iff.mp h
    split at h
    · rename_i hallowed
      obtain rfl := pure_eq_ok_iff.mp h
      refine ⟨hn, fun _ s hs a hmem => mem_grantedScopes hg hs ?_⟩
      exact scopeMatch_all hm hallowed _
        (FrozenSet.mem_erase.mpr ⟨hmem, (scopeText_ne_full hs a).1⟩)
    · exact absurd h throw_ne_ok

end Portwyrm.Identity

import Portwyrm.Identity.TokenPolicy

/-!
# The authority that scopes leave

`effective_token_authority` cuts the authority of a principal down to the scopes of a token.  The
scopes are given by texts that may be spelled in several ways; what a token may do depends on the
set of scopes that the texts are normalised to, and is what the principal may do within that set.
-/

namespace Portwyrm.Base.Text

/-! ## Spelling and white space -/

/-- White space is folded to itself. -/
lemma foldChar_of_isSpace {c : Char} (h : isSpace c = true) : foldChar c = [c] := by
  have hlower : c.isUpper = false := by
    by_contra hupper
    obtain ⟨n, hn, rfl⟩ := exists_of_isUpper (by simpa using hupper)
    have hall : ∀ n ∈ List.range' 65 26, isSpace (Char.ofNat n) = false := by decide
    rw [hall n hn] at h
    exact absurd h (by simp)
  have hlookup : asciiFoldings.lookup c.toNat = none := by
    rw [List.lookup_eq_none_iff]
    intro e he
    rw [bne_iff_ne]
    intro heq
    have hall : ∀ e ∈ asciiFoldings, isSpace (Char.ofNat e.1) = false := by decide
    rw [← Char.ofNat_toNat c, heq, hall e he] at h
    exact absurd h (by simp)
  rw [foldChar, hlookup, Option.getD_none, toLower_of_not_isUpper (by simp [hlower])]

/-- Characters that fold alike are white space alike. -/
lemma isSpace_eq_of_foldChar {c d : Char} (h : foldChar c = foldChar d) : isSpace c = isSpace d := by
  have hone : ∀ {c d : Char}, foldChar c = foldChar d → isSpace c = true → isSpace d = true := by
    intro c d h hc
    by_contra hd
    have hmem : c ∈ foldChar d := by
      rw [← h, foldChar_of_isSpace hc]
      exact List.mem_singleton_self c
    rw [isSpace_of_mem_foldChar hmem (by simpa using hd)] at hc
    exact absurd hc (by simp)
  by_cases hc : isSpace c = true
  · rw [hc, hone h hc]
  · by_cases hd : isSpace d = true
    · exact absurd (hone h.symm hd) hc
    · rw [Bool.not_eq_true] at hc hd
      rw [hc, hd]

/-- White space around a text is stripped. -/
lemma strip_blanks {a b s : List Char} (ha : ∀ c ∈ a, isSpace c = true)
    (hb : ∀ c ∈ b, isSpace c = true) :
    strip (String.ofList (a ++ s ++ b)) = strip (String.ofList s) := by
  have hright : ∀ l : List Char, (l ++ b).rdropWhile isSpace = l.rdropWhile isSpace := by
    intro l
    have hb' : ∀ c ∈ b.reverse, isSpace c = true := fun c hc => hb c (List.mem_reverse.mp hc)
    rw [List.rdropWhile, List.reverse_append, List.dropWhile_append_of_pos hb', ← List.rdropWhile]
  rw [strip, strip, String.toList_ofList, String.toList_ofList, List.append_assoc,
    List.dropWhile_append_of_pos ha, List.dropWhile_append]
  split
  · rename_i hempty
    rw [List.isEmpty_iff] at hempty
    rw [hempty, List.dropWhile_eq_nil_iff.mpr hb]
  · rw [hright]

/-- Replacing characters one by one commutes with stripping where white space stays white space and
nothing else becomes it. -/
lemma strip_forall₂ {R : Char → Char → Prop} (hR : ∀ c d, R c d → isSpace c = isSpace d)
    {s t : List Char} (h : List.Forall₂ R s t) :
    List.Forall₂ R (strip (String.ofList s)).toList (strip (String.ofList t)).toList := by
  have hdrop : ∀ {s t : List Char}, List.Forall₂ R s t →
      List.Forall₂ R (s.dropWhile isSpace) (t.dropWhile isSpace) := by
    intro s t h
    induction h with
    | nil => exact .nil
    | @cons c d s t hcd h ih =>
      rw [List.dropWhile_cons, List.dropWhile_cons, ← hR c d hcd]
      split
      · exact ih
      · exact .cons hcd h
  simp only [strip, String.toList_ofList, List.rdropWhile]
  exact List.rel_reverse (hdrop (List.rel_reverse (hdrop h)))

end Portwyrm.Base.Text

namespace Portwyrm.Identity

open Base

/-! ## Spellings -/

/-- Two spellings of one scope: they differ in the white space around them, in the case of their
letters, and in hyphens for underscores. -/
inductive Respelled : String → String → Prop
  | blanks {a b s : List Char} (ha : ∀ c ∈ a, Text.isSpace c = true)
      (hb : ∀ c ∈ b, Text.isSpace c = true) :
      Respelled (String.ofList (a ++ s ++ b)) (String.ofList s)
  | letters {s t : List Char} (h : List.Forall₂ (fun c d => Text.foldChar c = Text.foldChar d) s t) :
      Respelled (String.ofList s) (String.ofList t)
  | hyphens {s t : List Char}
      (h : List.Forall₂ (fun c d => c = d ∨ (c = '-' ∧ d = '_')) s t) :
      Respelled (String.ofList s) (String.ofList t)
  | symm {s t} (h : Respelled s t) : Respelled t s
  | trans {s t u} (h : Respelled s t) (h' : Respelled t u) : Respelled s u

/-- A scope is normalised to the same text in every spelling. -/
lemma Respelled.normalizeScope_eq {s t : String} (h : Respelled s t) :
    normalizeScope s = normalizeScope t := by
  have hexpand : ∀ {s t : List Char}, List.Forall₂ (fun c d => scopeChar c = scopeChar d) s t →
      s.flatMap scopeChar = t.flatMap scopeChar := by
    intro s t h
    induction h with
    | nil => rfl
    | cons hcd _ ih => rw [List.flatMap_cons, List.flatMap_cons, hcd, ih]
  induction h with
  | blanks ha hb => simp only [Identity.normalizeScope_eq, Text.stripExpand, Text.strip_blanks ha hb]
  | letters h =>
    have hstrip := Text.strip_forall₂ (fun c d => Text.isSpace_eq_of_foldChar) h
    simp only [Identity.normalizeScope_eq, Text.stripExpand]
    refine congrArg String.ofList (hexpand (hstrip.imp fun c d hcd => ?_))
    rw [scopeChar, scopeChar, hcd]
  | hyphens h =>
    have hspace : ∀ c d : Char, c = d ∨ (c = '-' ∧ d = '_') → Text.isSpace c = Text.isSpace d := by
      rintro c d (rfl | ⟨rfl, rfl⟩)
      · rfl
      · decide
    have hstrip := Text.strip_forall₂ hspace h
    simp only [Identity.normalizeScope_eq, Text.stripExpand]
    refine congrArg String.ofList (hexpand (hstrip.imp fun c d hcd => ?_))
    rcases hcd with rfl | ⟨rfl, rfl⟩
    · rfl
    · decide
  | symm _ ih => exact ih.symm
  | trans _ _ ih ih' => exact ih.trans ih'

/-- Two collections that name the same scopes, in any order, any number of times and any
spelling. -/
structure SpelledAlike (l l' : List String) : Prop where
  left : ∀ x ∈ l, ∃ y ∈ l', x = y ∨ Respelled x y
  right : ∀ y ∈ l', ∃ x ∈ l, x = y ∨ Respelled x y

/-- Collections that name the same scopes are normalised alike, and refused alike. -/
lemma SpelledAlike.normalize_eq {l l' : List String} (h : SpelledAlike l l') :
    normalizeTokenScopes l = normalizeTokenScopes l' := by
  have hnorm : ∀ {x y : String}, x = y ∨ Respelled x y → normalizeScope x = normalizeScope y := by
    rintro x y (rfl | hxy)
    · rfl
    · exact hxy.normalizeScope_eq
  have hset : FrozenSet.ofList (l.map normalizeScope) = FrozenSet.ofList (l'.map normalizeScope) := by
    ext z
    simp only [FrozenSet.mem_ofList, List.mem_map]
    constructor
    · rintro ⟨x, hx, rfl⟩
      obtain ⟨y, hy, hxy⟩ := h.left x hx
      exact ⟨y, hy, (hnorm hxy).symm⟩
    · rintro ⟨y, hy, rfl⟩
      obtain ⟨x, hx, hxy⟩ := h.right y hy
      exact ⟨x, hx, hnorm hxy⟩
  simp only [normalizeTokenScopes, hset]

/-! ## Scopes of actions -/

/-- The text of a scope names its section and its action. -/
lemma scopeText_injective {s s' : String} {a a' : PermissionAction}
    (h : scopeText s a = scopeText s' a') : s = s' ∧ a = a' := by
  have hname : ∀ a : PermissionAction, ':' ∉ a.name.toList := by
    intro a
    cases a <;> decide
  have hcut : ∀ (s : String) (a : PermissionAction), Text.cutAt ':' (scopeText s a).toList.reverse =
      some (a.name.toList.reverse, s.toList.reverse) := by
    intro s a
    rw [Text.cutAt_eq_some_iff]
    refine ⟨?_, by simpa using hname a⟩
    have hlist : (scopeText s a).toList = s.toList ++ ':' :: a.name.toList := by
      rw [scopeText, String.toList_append, String.toList_append, List.append_assoc]
      rfl
    simp [hlist]
  have heq := hcut s a
  rw [h, hcut s' a', Option.some.injEq, Prod.mk.injEq] at heq
  exact ⟨String.toList_inj.mp (List.reverse_inj.mp heq.2).symm,
    PermissionAction.name_injective (String.toList_inj.mp (List.reverse_inj.mp heq.1).symm)⟩

/-- The scopes of an accepted set are for token sections. -/
lemma inScope_iff {n : FrozenSet String} (hn : AcceptedScopes n) {s : String}
    {a : PermissionAction} :
    InScope n s a ↔ n = .single fullAccountScope ∨ scopeText s a ∈ n := by
  refine or_congr_right ⟨And.right, fun hmem => ⟨?_, hmem⟩⟩
  by_cases hfull : scopeText s a = fullAccountScope
  · -- the full-account scope has no colon
    have hcolon : ':' ∈ (scopeText s a).toList := by simp [scopeText]
    rw [hfull] at hcolon
    exact absurd hcolon (by decide)
  · obtain ⟨s', hs', a', htext⟩ := hn.2 _ hmem hfull
    rw [(scopeText_injective htext).1]
    exact hs'

/-! ## Requested scopes -/

section Requested

variable {l : List String} {p : Permissions} {isAdmin : Bool}

/-- Scopes that the account may use are all granted. -/
lemma grantedScopes_eq_self
    (h : ∀ x ∈ l, ∃ s a, parseScope x = .ok (s, a) ∧ MayAct p isAdmin s a) :
    grantedScopes p isAdmin l = .ok l := by
  induction l with
  | nil => rfl
  | cons x rest ih =>
    obtain ⟨s, a, hparse, hmay⟩ := h x List.mem_cons_self
    have hgrant : (isAdmin || permissionAllows (p.get? s) a) = true := by
      rw [Bool.or_eq_true]
      exact hmay
    rw [grantedScopes, hparse, ok_bind]
    dsimp only
    rw [ih fun y hy => h y (List.mem_cons_of_mem _ hy), ok_bind, if_pos hgrant]
    rfl

/-- Scopes that are all granted match. -/
lemma scopeMatch_self (l : List String) :
    ∃ m, scopeMatch l l "all" = .ok m ∧ m.allowed = true := by
  have hmissing : (Dict.fromKeys l).filter (fun scope => scope ∉ Dict.fromKeys l) = [] := by
    rw [List.filter_eq_nil_iff]
    intro x hx
    simpa using hx
  refine ⟨_, rfl, ?_⟩
  simp only [if_true, hmissing, List.isEmpty_nil]
  split <;> rfl

/-- `validate_requested_scopes` accepts resource scopes exactly when the account may use each. -/
lemma validateRequestedScopes_iff {n : FrozenSet String} (h : normalizeTokenScopes l = .ok n)
    (hn : n ≠ .single fullAccountScope) : (∃ m, validateRequestedScopes l p isAdmin = .ok m) ↔
      ∀ s a, scopeText s a ∈ n → MayAct p isAdmin s a := by
  have hacc := (normalizeTokenScopes_spec h).1
  constructor
  · rintro ⟨m, hm⟩ s a hmem
    obtain ⟨hnorm, hgranted⟩ := validateRequestedScopes_spec hm
    obtain rfl : n = m := Except.ok.inj (h.symm.trans hnorm)
    have hsection := ((inScope_iff hacc).mpr (.inr hmem)).resolve_left hn
    exact hgranted hn s hsection.1 a hmem
  · intro hmay
    have hgranted : grantedScopes p isAdmin (n.erase fullAccountScope).elems =
        .ok (n.erase fullAccountScope).elems := by
      refine grantedScopes_eq_self fun x hx => ?_
      obtain ⟨s, hs, a, rfl⟩ := mem_resource_scopes hacc x hx
      exact ⟨s, a, parseScope_scopeText hs a, hmay s a (FrozenSet.mem_erase.mp hx).1⟩
    obtain ⟨m, hm, hallowed⟩ := scopeMatch_self (n.erase fullAccountScope).elems
    refine ⟨n, ?_⟩
    rw [validateRequestedScopes, h, ok_bind, if_neg hn]
    dsimp only
    rw [hgranted, ok_bind, hm, ok_bind, if_pos hallowed]
    rfl

end Requested

/-! ## The authority of a token -/

section Authority

variable {l : List String} {n : FrozenSet String} {p : Permissions} {isAdmin : Bool}
  {A : TokenAuthority}

/-- A set of scopes is what its texts are normalised to, however they are listed and spelled. -/
structure StableScopes (l : List String) (n : FrozenSet String) : Prop where
  idem : normalizeTokenScopes n.elems = .ok n
  spelling : ∀ l', SpelledAlike l l' → normalizeTokenScopes l' = .ok n

/-- What `effective_token_authority` returns for scopes that are normalised to `n`. -/
structure ExactAuthority (l : List String) (n : FrozenSet String) (p : Permissions)
    (isAdmin : Bool) (A : TokenAuthority) : Prop where
  scopes : A.scopes = n
  may_iff : ∀ s a, A.May s a ↔
    MayAct p isAdmin s a ∧ (n = .single fullAccountScope ∨ scopeText s a ∈ n)
  admin : A.isAdmin = true → n = .single fullAccountScope
  monotone : n ≠ .single fullAccountScope → ∀ l' p' isAdmin' A',
    effectiveTokenAuthority l' p' isAdmin' = .ok A' → (∀ x ∈ n, x ∈ A'.scopes) →
      (∀ s a, MayAct p isAdmin s a → MayAct p' isAdmin' s a) → A.Within A'
  requested : n ≠ .single fullAccountScope →
    ((∃ m, validateRequestedScopes l p isAdmin = .ok m) ↔ ∀ s a, scopeText s a ∈ n → A.May s a)

lemma stableScopes (h : normalizeTokenScopes l = .ok n) : StableScopes l n where
  idem := normalizeTokenScopes_elems (normalizeTokenScopes_spec h).1
  spelling _ halike := halike.normalize_eq ▸ h

/-- An authority allows what the principal may do within the scopes. -/
lemma may_iff_of_effective (h : effectiveTokenAuthority l p isAdmin = .ok A) (s : String)
    (a : PermissionAction) : A.May s a ↔
      MayAct p isAdmin s a ∧ (A.scopes = .single fullAccountScope ∨ scopeText s a ∈ A.scopes) := by
  obtain ⟨hnorm, -, hmay⟩ := effectiveTokenAuthority_spec h
  rw [hmay, inScope_iff (normalizeTokenScopes_spec hnorm).1, and_comm]

lemma exactAuthority (h : effectiveTokenAuthority l p isAdmin = .ok A) :
    ExactAuthority l A.scopes p isAdmin A where
  scopes := rfl
  may_iff := may_iff_of_effective h
  admin hA := (((effectiveTokenAuthority_spec h).2.1).mp hA).1
  monotone := by
    intro hn l' p' isAdmin' A' h' hsub hmore
    refine ⟨fun hA => absurd (((effectiveTokenAuthority_spec h).2.1).mp hA).1 hn, fun s a hA => ?_⟩
    obtain ⟨hmay, hscope⟩ := (may_iff_of_effective h s a).mp hA
    exact (may_iff_of_effective h' s a).mpr
      ⟨hmore s a hmay, .inr (hsub _ (hscope.resolve_left hn))⟩
  requested := by
    intro hn
    rw [validateRequestedScopes_iff (effectiveTokenAuthority_spec h).1 hn]
    refine forall₂_congr fun s a => forall_congr' fun hmem => ?_
    rw [may_iff_of_effective h, and_iff_left (.inr hmem)]

/-- Only the normalised scopes count. -/
lemma effectiveTokenAuthority_of_normalize (h : normalizeTokenScopes l = .ok n) (p : Permissions)
    (isAdmin : Bool) : effectiveTokenAuthority l p isAdmin =
      effectiveTokenAuthority n.elems p isAdmin := by
  rw [effectiveTokenAuthority, effectiveTokenAuthority, h, (stableScopes h).idem]

/-- **The authority of a token is exact**: scopes that are accepted leave an authority, which is
that of the principal within the scopes and for an administrator only under the full-account scope;
it depends on the set that the scopes are normalised to, and grows with it and with the authority of
the principal; and resource scopes can be requested exactly when all of them would be granted. -/
theorem tokenAuthority_exact (h : normalizeTokenScopes l = .ok n) :
    StableScopes l n ∧ ∀ p isAdmin, ∃ A, effectiveTokenAuthority l p isAdmin = .ok A ∧
      ExactAuthority l n p isAdmin A := by
  refine ⟨stableScopes h, fun p isAdmin => ?_⟩
  obtain ⟨A, hA⟩ := effectiveTokenAuthority_elems (normalizeTokenScopes_spec h).1 p isAdmin
  rw [← effectiveTokenAuthority_of_normalize h] at hA
  have hscopes : A.scopes = n :=
    Except.ok.inj ((effectiveTokenAuthority_spec hA).1.symm.trans h)
  exact ⟨A, hA, hscopes ▸ exactAuthority hA⟩

/-- A token that may read proxy hosts, spelled with blanks, capitals and a hyphen. -/
theorem tokenAuthority_exact_reader :
    StableScopes [" Proxy-Hosts:READ "] (FrozenSet.ofList ["proxy_hosts:read", "user"]) ∧
      ∀ p isAdmin, ∃ A, effectiveTokenAuthority [" Proxy-Hosts:READ "] p isAdmin = .ok A ∧
        ExactAuthority [" Proxy-Hosts:READ "] (FrozenSet.ofList ["proxy_hosts:read", "user"])
          p isAdmin A :=
  tokenAuthority_exact (by rfl)

end Authority

end Portwyrm.Identity

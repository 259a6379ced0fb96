import Portwyrm.Identity.TokenApi

/-!
# The authority of minted tokens

Chains of token calls, each made with the token that the call before it returned.  A call
passes authority on only as far as the scopes of the new token stay within those of the
caller: `create_token_for` checks this for every resource scope, but lets the full-account
scope through, and `rotate_personal_token` checks no scope at all.
-/

namespace Portwyrm.Identity

open Base

variable {H : SecretHashing} {now : ℤ} {e : Entropy}

/-! ## Verifying a minted token -/

/-- The tables agree on principals, their authorization, and the owner and scopes of tokens. -/
structure SameGrants (t t' : IdentityTables) : Prop where
  principals : t'.principals = t.principals
  rbac : t'.rbac = t.rbac
  pats : ∀ id, (t'.pats.get? id).map (fun r => (r.principalId, r.scopes)) =
    (t.pats.get? id).map fun r => (r.principalId, r.scopes)

lemma SameGrants.durable {t t' : IdentityTables} (h : SameGrants t t') (id : ℕ) :
    Identity.durable t' id = Identity.durable t id := by
  simp only [Identity.durable, h.principals, h.rbac]

lemma patRow_spec {token tokenId : String} {row : PATRow} {t : IdentityTables}
    (h : patRow H now token t = .ok (tokenId, row)) :
    t.pats.get? tokenId = some row ∧ ∃ secret, Text.split '_' 2 token = ["pwyrm", tokenId, secret] := by
  unfold patRow at h
  split at h
  · rename_i id secret hsplit
    obtain ⟨m, _, h⟩ := bind_eq_ok_iff.mp h
    cases hrow : t.pats.get? id with
    | none => simp [hrow] at h
    | some row' =>
      simp only [hrow] at h
      split at h
      · exact absurd h throw_ne_ok
      · simp only [pure_eq_ok_iff, Prod.mk.injEq] at h
        obtain ⟨rfl, rfl⟩ := h
        exact ⟨hrow, secret, hsplit⟩
  · exact absurd h throw_ne_ok

lemma verifyPat_spec {token : String} {t t' : IdentityTables} {v : Verification}
    (h : verifyPat H now token t = .ok (v, t')) :
    SameGrants t t' ∧ ∃ tokenId row secret,
      Text.split '_' 2 token = ["pwyrm", tokenId, secret] ∧ t.pats.get? tokenId = some row ∧
      v.principalId = row.principalId ∧ v.scopes = row.scopes := by
  unfold verifyPat at h
  obtain ⟨⟨tokenId, row⟩, hrow, h⟩ := bind_eq_ok_iff.mp h
  obtain ⟨hget, secret, hsplit⟩ := patRow_spec hrow
  dsimp only at h
  split at h
  · exact absurd h throw_ne_ok
  · split at h
    · exact absurd h throw_ne_ok
    · simp only [pure_eq_ok_iff, Prod.mk.injEq] at h
      obtain ⟨rfl, rfl⟩ := h
      refine ⟨⟨rfl, rfl, fun id => ?_⟩, tokenId, row, secret, hsplit, hget, rfl, rfl⟩
      -- only `last_used_at` of the row changes
      simp only [Dict.get?_set]
      split
      · rename_i hid
        subst hid
        simp [hget]
      · rfl

lemma verifyCredential_sameGrants {token : String} {t t' : IdentityTables} {v : Verification}
    (h : verifyCredential H now token t = .ok (v, t')) : SameGrants t t' := by
  unfold verifyCredential at h
  split at h
  · cases hv : verifySession H now token t with
    | error err => simp [hv, Except.map] at h
    | ok w =>
      simp only [hv, Except.map, Except.ok.injEq, Prod.mk.injEq] at h
      obtain ⟨_, rfl⟩ := h
      exact ⟨rfl, rfl, fun _ => rfl⟩
  · exact (verifyPat_spec h).1

lemma split_credentialText {kind tokenId : String} (secret : String)
    (hkind : '_' ∉ kind.toList) (hid : '_' ∉ tokenId.toList) :
    Text.split '_' 2 (credentialText kind tokenId secret) = [kind, tokenId, secret] :=
  Text.split_two secret hkind hid

lemma not_isSessionToken_pat (tokenId secret : String) :
    isSessionToken (credentialText "pwyrm" tokenId secret) = false := by
  have hlist : (credentialText "pwyrm" tokenId secret).toList =
      "pwyrm".toList ++ '_' :: tokenId.toList ++ '_' :: secret.toList := by
    simp [credentialText]
  rw [isSessionToken, hlist]
  rfl

lemma scopeSet_elems {n : FrozenSet String} (hn : AcceptedScopes n) {v : Verification}
    (hv : v.scopes = n.elems) : v.scopeSet = n := by
  have hne : n.elems ≠ [] := fun h => FrozenSet.elems_eq_nil_iff.mp h _ hn.1
  rw [Verification.scopeSet, hv, if_neg hne, FrozenSet.ofList_elems]

/-- The authority that a scope set leaves of the durable one. -/
structure HasAuthority (P : Durable) (n : FrozenSet String) (A : TokenAuthority) : Prop where
  scopes : A.scopes = n
  admin_iff : A.isAdmin = true ↔ n = .single fullAccountScope ∧ P.isAdmin = true
  may_iff : ∀ s a, A.May s a ↔ InScope n s a ∧ MayAct P.permissions P.isAdmin s a

lemma hasAuthority_of_effective {P : Durable} {l : List String} {A : TokenAuthority}
    (h : effectiveTokenAuthority l P.permissions P.isAdmin = .ok A) :
    HasAuthority P A.scopes A := by
  obtain ⟨_, h1, h2⟩ := effectiveTokenAuthority_spec h
  exact ⟨rfl, h1, h2⟩

/-- Any verified credential has the authority that its scopes leave. -/
lemma verify_hasAuthority {token : String} {t t' : IdentityTables} {p : SecurityPrincipal}
    (h : verify H now token t = (.ok p, t')) :
    SameGrants t t' ∧ ∃ P, durable t p.userId = some P ∧ HasAuthority P p.scopes p.authority := by
  obtain ⟨v, hv, hp⟩ := verify_eq_ok_iff.mp h
  have hsame := verifyCredential_sameGrants hv
  obtain ⟨hid, P, hP, hA⟩ := resolveCredential_spec hp
  refine ⟨hsame, P, ?_, hasAuthority_of_effective hA⟩
  rw [hid, ← hsame.durable, hP]

/-- A minted token verifies, if it does, to its owner and with its own scopes. -/
lemma verify_minted {principalId : ℕ} {n : FrozenSet String} {t t' t'' : IdentityTables}
    {r : IssueResult} (hm : Minted e principalId n t r t') (hn : AcceptedScopes n)
    {q : SecurityPrincipal} (h : verify H now r.token t' = (.ok q, t'')) :
    q.userId = principalId ∧ q.scopes = n := by
  obtain ⟨v, hv, hq⟩ := verify_eq_ok_iff.mp h
  obtain ⟨hid, P, _, hA⟩ := resolveCredential_spec hq
  rw [hm.token, verifyCredential, not_isSessionToken_pat] at hv
  obtain ⟨_, tokenId, row, secret, hsplit, hrow, hvid, hvscopes⟩ := verifyPat_spec hv
  rw [split_credentialText _ (by decide) e.tokenId_hex] at hsplit
  obtain rfl : e.tokenId = tokenId := by simpa using (List.cons.inj (List.cons.inj hsplit).2).1
  obtain ⟨row', hrow', hpid, hscopes⟩ := hm.row
  obtain rfl : row' = row := by
    rw [hrow'] at hrow
    exact Option.some.inj hrow
  refine ⟨by rw [hid, hvid, hpid], ?_⟩
  have hset : v.scopeSet = n := scopeSet_elems hn (hvscopes.trans hscopes)
  have hnorm := (effectiveTokenAuthority_spec hA).1
  rw [hset, normalizeTokenScopes_elems hn] at hnorm
  exact (Except.ok.inj hnorm).symm

/-! ## Containment of scopes -/

/-- The scopes `T` stay within the scopes `S`, as far as the durable authority grants
anything. -/
def Durable.Covers (P : Durable) (S T : FrozenSet String) : Prop :=
  (T = .single fullAccountScope → P.isAdmin = true → S = .single fullAccountScope) ∧
    ∀ s a, InScope T s a → MayAct P.permissions P.isAdmin s a → InScope S s a

/-- One authority left of the durable authority contains another exactly when its scopes cover
the other's. -/
lemma within_iff_covers {P : Durable} {S T : FrozenSet String} {A B : TokenAuthority}
    (hA : HasAuthority P T A) (hB : HasAuthority P S B) : A.Within B ↔ P.Covers S T := by
  simp only [TokenAuthority.Within, Durable.Covers, hA.admin_iff, hB.admin_iff, hA.may_iff,
    hB.may_iff]
  constructor
  · rintro ⟨h1, h2⟩
    exact ⟨fun hT hP => (h1 ⟨hT, hP⟩).1, fun s a hT hm => (h2 s a ⟨hT, hm⟩).1⟩
  · rintro ⟨h1, h2⟩
    exact ⟨fun h => ⟨h1 h.1 h.2, h.2⟩, fun s a h => ⟨h2 s a h.1 h.2, h.2⟩⟩

/-! ## The calls -/

/-- A call to one of the token endpoints. -/
inductive TokenCall
  | create (payload : CreateTokenPayload)
  | rotate (tokenId : String)

/-- The endpoint of a call, for a caller that acts on its own tokens. -/
def TokenCall.run (H : SecretHashing) (now : ℤ) (e : Entropy) (actor : SecurityPrincipal) :
    TokenCall → Action IdentityTables IssueResult
  | .create payload => createTokenFor H now e actor.userId payload actor
  | .rotate tokenId => rotatePersonalToken H now e tokenId actor

/-- A call concerns tokens of the caller itself. -/
def TokenCall.Own (t : IdentityTables) (actor : SecurityPrincipal) : TokenCall → Prop
  | .create _ => True
  | .rotate tokenId => ∀ row, t.pats.get? tokenId = some row → row.principalId = actor.userId

/-- The API admits a call: the token authenticates the caller `p`, and the endpoint returns the
new token `r`. -/
def Admitted (H : SecretHashing) (t : IdentityTables) (token : String) (c : TokenCall)
    (p : SecurityPrincipal) (r : IssueResult) (t' : IdentityTables) : Prop :=
  ∃ now e t₁, principalFromBearer H now (some token) t = (.ok p, t₁) ∧ c.Own t₁ p ∧
    c.run H now e p t₁ = (.ok r, t')

lemma createTokenFor_spec {payload : CreateTokenPayload} {p : SecurityPrincipal}
    {r : IssueResult} {t t' : IdentityTables}
    (h : createTokenFor H now e p.userId payload p t = (.ok r, t')) :
    ∃ l n, payload.requestedScopes p = some l ∧
      validateRequestedScopes l p.permissions p.isAdmin = .ok n ∧ Minted e p.userId n t r t' := by
  unfold createTokenFor at h
  obtain ⟨t₁, _, hget, h⟩ := Action.bind_eq_ok_iff.mp h
  obtain ⟨rfl, rfl⟩ := Action.get_eq_ok_iff.mp hget
  obtain ⟨owner, _, hlift, h⟩ := Action.bind_eq_ok_iff.mp h
  obtain ⟨howner, rfl⟩ := Action.lift_eq_ok_iff.mp hlift
  rw [tokenOwner, if_pos rfl] at howner
  obtain rfl := pure_eq_ok_iff.mp howner
  cases hname : payload.name with
  | none => simp [hname] at h
  | some name =>
  cases hl : payload.requestedScopes p with
  | none => simp [hname, hl] at h
  | some l =>
    simp only [hname, hl] at h
    obtain ⟨A, _, hlift, h⟩ := Action.bind_eq_ok_iff.mp h
    obtain ⟨hA, rfl⟩ := Action.lift_eq_ok_iff.mp hlift
    rw [mapError_eq_ok_iff] at hA
    obtain ⟨expiresAt, _, hexp, h⟩ := Action.bind_eq_ok_iff.mp h
    obtain ⟨_, rfl⟩ := Action.lift_eq_ok_iff.mp hexp
    rw [Action.mapError_eq_ok_iff, Action.transaction_eq_ok_iff] at h
    obtain ⟨n, hn, hm⟩ := issue_spec h
    obtain ⟨requested, hval, heff⟩ := bind_eq_ok_iff.mp hA
    have hacc := (normalizeTokenScopes_spec (validateRequestedScopes_spec hval).1).1
    have hscopes := (effectiveTokenAuthority_spec heff).1
    rw [normalizeTokenScopes_elems hacc, Except.ok.injEq] at hscopes
    simp only [← hscopes, normalizeTokenScopes_elems hacc, Except.ok.injEq] at hn
    exact ⟨l, requested, rfl, hval, hn ▸ hm⟩

lemma rotatePersonalToken_spec {tokenId : String} {p : SecurityPrincipal} {r : IssueResult}
    {t t' : IdentityTables} (h : rotatePersonalToken H now e tokenId p t = (.ok r, t')) :
    ∃ old n, t.pats.get? tokenId = some old ∧ normalizeTokenScopes old.scopes = .ok n ∧
      Minted e old.principalId n t r t' := by
  unfold rotatePersonalToken at h
  obtain ⟨_, _, hget, h⟩ := Action.bind_eq_ok_iff.mp h
  obtain ⟨rfl, rfl⟩ := Action.get_eq_ok_iff.mp hget
  obtain ⟨record, _, hrec, h⟩ := Action.bind_eq_ok_iff.mp h
  obtain ⟨_, rfl⟩ := Action.lift_eq_ok_iff.mp hrec
  split at h
  · exact absurd h Action.raise_ne_ok
  · rw [Action.mapError_eq_ok_iff] at h
    unfold rotatePat at h
    obtain ⟨_, _, hget, h⟩ := Action.bind_eq_ok_iff.mp h
    obtain ⟨rfl, rfl⟩ := Action.get_eq_ok_iff.mp hget
    obtain ⟨existing, _, hpat, h⟩ := Action.bind_eq_ok_iff.mp h
    obtain ⟨_, rfl⟩ := Action.lift_eq_ok_iff.mp hpat
    split at h
    · exact absurd h Action.raise_ne_ok
    · exact rotate_spec (Action.transaction_eq_ok_iff.mp h)

/-! ## What a call passes on -/

/-- The scopes that a call asks the new token to have stay within those of the caller.  A
`create` call has to meet this only when it asks for the full-account scope. -/
def Contained (t : IdentityTables) (p : SecurityPrincipal) (c : TokenCall) : Prop :=
  ∀ P, durable t p.userId = some P →
    match c with
    | .create payload => ∀ l, payload.requestedScopes p = some l →
        normalizeTokenScopes l = .ok (.single fullAccountScope) →
        P.Covers p.scopes (.single fullAccountScope)
    | .rotate tokenId => ∀ row n, t.pats.get? tokenId = some row →
        normalizeTokenScopes row.scopes = .ok n → P.Covers p.scopes n

/-- Resource scopes that were granted to a caller are covered by its own. -/
lemma covers_of_validated {P : Durable} {p : SecurityPrincipal} {l : List String}
    {n : FrozenSet String} (hp : HasAuthority P p.scopes p.authority)
    (h : validateRequestedScopes l p.permissions p.isAdmin = .ok n)
    (hn : n ≠ .single fullAccountScope) : P.Covers p.scopes n := by
  refine ⟨fun hfull => absurd hfull hn, fun s a hs _ => ?_⟩
  obtain ⟨hsection, hmem⟩ := hs.resolve_left hn
  have hmay : p.authority.May s a := (validateRequestedScopes_spec h).2 hn s hsection a hmem
  exact ((hp.may_iff s a).mp hmay).1

/-- An admitted call mints a token whose scopes the caller's cover exactly when the call is
contained. -/
lemma admitted_spec {t t' : IdentityTables} {token : String} {c : TokenCall}
    {p : SecurityPrincipal} {r : IssueResult} (h : Admitted H t token c p r t') :
    ∃ e P n t₁, durable t' p.userId = some P ∧ HasAuthority P p.scopes p.authority ∧
      AcceptedScopes n ∧ Minted e p.userId n t₁ r t' ∧
      (Contained t p c ↔ P.Covers p.scopes n) := by
  obtain ⟨now, e, t₁, hauth, hown, hrun⟩ := h
  obtain ⟨tok, htok, hverify, _, _⟩ := securityDependency_spec hauth
  obtain rfl := Option.some.inj htok
  obtain ⟨hsame, P, hP, hA⟩ := verify_hasAuthority hverify
  have hdurable : ∀ {n : FrozenSet String}, Minted e p.userId n t₁ r t' →
      durable t' p.userId = some P := by
    intro n hm
    rw [← hP, ← hsame.durable]
    simp only [durable, hm.principals, hm.rbac]
  cases c with
  | create payload =>
    obtain ⟨l, n, hl, hval, hm⟩ := createTokenFor_spec hrun
    obtain ⟨hnorm, _⟩ := validateRequestedScopes_spec hval
    refine ⟨e, P, n, t₁, hdurable hm, hA, (normalizeTokenScopes_spec hnorm).1, hm, ?_⟩
    constructor
    · intro hc
      by_cases hn : n = .single fullAccountScope
      · subst hn
        exact hc P hP l hl hnorm
      · exact covers_of_validated hA hval hn
    · intro hc P' hP' l' hl' hfull
      obtain rfl := Option.some.inj (hP.symm.trans hP')
      obtain rfl := Option.some.inj (hl.symm.trans hl')
      rw [hnorm, Except.ok.injEq] at hfull
      exact hfull ▸ hc
  | rotate tokenId =>
    obtain ⟨old, n, hold, hnorm, hm⟩ := rotatePersonalToken_spec hrun
    have hid : old.principalId = p.userId := hown old hold
    rw [hid] at hm
    refine ⟨e, P, n, t₁, hdurable hm, hA, (normalizeTokenScopes_spec hnorm).1, hm, ?_⟩
    have hrows := hsame.pats tokenId
    rw [hold, Option.map_some] at hrows
    constructor
    · intro hc
      cases hrow : t.pats.get? tokenId with
      | none => simp [hrow] at hrows
      | some row =>
        simp only [hrow, Option.map_some, Option.some.injEq, Prod.mk.injEq] at hrows
        exact hc P hP row n hrow (hrows.2 ▸ hnorm)
    · intro hc P' hP' row n' hrow hnorm'
      obtain rfl := Option.some.inj (hP.symm.trans hP')
      simp only [hrow, Option.map_some, Option.some.injEq, Prod.mk.injEq] at hrows
      rw [← hrows.2, hnorm, Except.ok.injEq] at hnorm'
      exact hnorm' ▸ hc

/-- The authority of the token that one admitted call mints is contained in that of the caller
exactly when the call is contained. -/
theorem admitted_within_iff {t t' t'' : IdentityTables} {token : String} {c : TokenCall}
    {p q : SecurityPrincipal} {r : IssueResult} (h : Admitted H t token c p r t')
    (hq : verify H now r.token t' = (.ok q, t'')) :
    q.authority.Within p.authority ↔ Contained t p c := by
  obtain ⟨e, P, n, t₁, hP, hA, hn, hm, hiff⟩ := admitted_spec h
  obtain ⟨hid, hscopes⟩ := verify_minted hm hn hq
  obtain ⟨_, P', hP', hA'⟩ := verify_hasAuthority hq
  rw [hid, hP] at hP'
  obtain rfl := Option.some.inj hP'
  rw [hiff, within_iff_covers hA' hA, hscopes]

/-! ## Chains of calls -/

/-- A chain of admitted calls that satisfy `Q`: the first is made with `token`, each later one
with the token that the call before it returned.  `p` is the caller of the first call and `r`
the token that the last one returned. -/
inductive TokenChain (H : SecretHashing) (Q : IdentityTables → SecurityPrincipal → TokenCall → Prop) :
    IdentityTables → String → SecurityPrincipal → IssueResult → IdentityTables → Prop
  | first {t token c p r t'} (h : Admitted H t token c p r t') (hQ : Q t p c) :
      TokenChain H Q t token p r t'
  | next {t token p r t' c p' r' t''} (hc : TokenChain H Q t token p r t')
      (h : Admitted H t' r.token c p' r' t'') (hQ : Q t' p' c) :
      TokenChain H Q t token p r' t''

/-- Along every chain of calls that satisfy `Q`, the authority that `verify` gives the newest
token is contained in the authority of the credential that made the first call. -/
def AuthorityNeverGrows (H : SecretHashing)
    (Q : IdentityTables → SecurityPrincipal → TokenCall → Prop) : Prop :=
  ∀ t token p r t', TokenChain H Q t token p r t' →
    ∀ now q t'', verify H now r.token t' = (.ok q, t'') → q.authority.Within p.authority

/-- Token authority never grows along a chain of contained calls. -/
theorem authorityNeverGrows_of_contained (H : SecretHashing) : AuthorityNeverGrows H Contained := by
  intro t token p r t' hchain
  induction hchain with
  | first h hc =>
    intro now q t'' hq
    exact (admitted_within_iff h hq).mpr hc
  | next _ h hc ih =>
    intro now q t'' hq
    -- the caller of the last call is what `verify` gives the token before it
    obtain ⟨now', e, t₁, hauth, _, _⟩ := id h
    obtain ⟨tok, htok, hverify, _, _⟩ := securityDependency_spec hauth
    obtain rfl := Option.some.inj htok
    exact ((admitted_within_iff h hq).mpr hc).trans (ih now' _ t₁ hverify)

/-! ## Where authority grows -/

/-- Tables with one principal, who may read and update proxy hosts, and one token of it that
is restricted to reading them. -/
def restrictedTables : IdentityTables where
  principals := Dict.ofList [(7,
    { email := "operator@example.test"
      displayName := ""
      isAdmin := false
      mustChangePassword := false
      isDisabled := false
      isDeleted := false
      visibility := .user })]
  rbac := RbacTables.empty.replaceAuthorization 7 false []
    (Dict.ofList [("proxy_hosts", .actions (Dict.ofList [("read", true), ("update", true)]))])
  pats := Dict.ofList [("aa",
    { id := 1
      principalId := 7
      name := "ci"
      tokenDigest := "portwyrm-pat-v1:pwyrm_aa_s"
      scopes := ["proxy_hosts:read", "user"]
      expiresAt := none
      lastUsedAt := none
      revokedAt := none
      replacedById := none })]
  sessions := Dict.empty

/-- The random values of the token that is minted. -/
def mintedEntropy : Entropy where
  rowId := 2
  tokenId := "bb"
  secret := "t"
  salt := ""
  tokenId_hex := by decide

/-- The restricted token mints a full-account token, which may update proxy hosts. -/
theorem authority_grows :
    ¬ AuthorityNeverGrows plainHashing fun _ _ _ => True := by
  intro h
  have hw := h restrictedTables "pwyrm_aa_s" _ _ _
    (.first (c := .create { name := some "ci", scopes := .list ["user"], expiresAt := none })
      ⟨100, mintedEntropy, _, rfl, trivial, rfl⟩ trivial) 101 _ _ rfl
  exact absurd (hw.2 "proxy_hosts" .update (by decide)) (by decide)

end Portwyrm.Identity

import Portwyrm.Runtime.ControllerRender

/-!
# When a render succeeds

`NginxRenderer.render` raises for one reason: the access lists that a proxy host selects disagree
on the password of a user.
-/

namespace Portwyrm.Runtime
open Base

/-- The name and the hash of a credential. -/
def AccessCredential.pair (c : AccessCredential) : String × String := (c.username, c.passwordHash)

lemma mergeCredentials_ok_iff {collected : Dict String AccessCredential}
    {credentials : List AccessCredential} :
    (∃ merged, mergeCredentials collected credentials = .ok merged) ↔
      Dict.Functional (credentials.map AccessCredential.pair) ∧
        ∀ c ∈ credentials, ∀ e ∈ collected.get? c.username, e.passwordHash = c.passwordHash := by
  induction credentials generalizing collected with
  | nil => simp [mergeCredentials, Dict.Functional]
  | cons c rest ih =>
    have hstep : (∃ merged, mergeCredentials collected (c :: rest) = .ok merged) ↔
        (∀ e ∈ collected.get? c.username, e.passwordHash = c.passwordHash) ∧
          ∃ merged, mergeCredentials (collected.set c.username c) rest = .ok merged := by
      simp only [mergeCredentials, bind_eq_ok_iff, raiseIf_eq_ok_iff, exists_const,
        exists_and_left, not_exists, not_and, not_not]
    rw [hstep, ih, List.map_cons, Dict.functional_cons_iff, List.forall_mem_cons,
      List.forall_mem_map]
    constructor
    · rintro ⟨hhead, hrest, hset⟩
      have hsame : ∀ c' ∈ rest, c'.username = c.username → c'.passwordHash = c.passwordHash := by
        intro c' hc' hname
        exact (hset c' hc' c (by rw [hname, Dict.get?_set_self]; rfl)).symm
      refine ⟨⟨hsame, hrest⟩, hhead, fun c' hc' e he => ?_⟩
      by_cases hname : c'.username = c.username
      · rw [hsame c' hc' hname]
        exact hhead e (hname ▸ he)
      · exact hset c' hc' e (by rwa [Dict.get?_set_of_ne _ _ hname])
    · rintro ⟨⟨hsame, hrest⟩, hhead, hall⟩
      refine ⟨hhead, hrest, fun c' hc' e he => ?_⟩
      by_cases hname : c'.username = c.username
      · rw [hname, Dict.get?_set_self] at he
        obtain rfl := Option.some.inj he
        exact (hsame c' hc' hname).symm
      · rw [Dict.get?_set_of_ne _ _ hname] at he
        exact hall c' hc' e he

lemma mergeCredentials_empty_ok_iff {credentials : List AccessCredential} :
    (∃ merged, mergeCredentials Dict.empty credentials = .ok merged) ↔
      Dict.Functional (credentials.map AccessCredential.pair) := by
  rw [mergeCredentials_ok_iff, and_iff_left_iff_imp]
  exact fun _ c _ e he => absurd he (by simp)

lemma AccessList.validate_ok_iff {id : ℕ} {name : String} {credentials : List AccessCredential}
    {clients : List AccessClient} {satisfyAny passAuth : Bool} :
    (∃ l, AccessList.validate id name credentials clients satisfyAny passAuth = .ok l) ↔
      0 < id ∧ Text.strip name ≠ "" := by
  constructor
  · rintro ⟨l, h⟩
    unfold AccessList.validate at h
    split at h
    · split at h
      · exact ⟨‹_›, ‹_›⟩
      · exact absurd h throw_ne_ok
    · exact absurd h throw_ne_ok
  · rintro ⟨hid, hname⟩
    rw [AccessList.validate, dif_pos hid, dif_pos hname]
    exact ⟨_, rfl⟩

/-- A name that is joined to others is not blank. -/
lemma strip_intercalate {name : String} {names : List String} (h : Text.strip name ≠ "") :
    Text.strip (" + ".intercalate (name :: names)) ≠ "" := by
  rw [Ne, Text.strip_eq_empty_iff] at h ⊢
  intro hblank
  refine h fun c hc => hblank c ?_
  rw [String.toList_intercalate, List.map_cons]
  cases names with
  | nil => simpa using hc
  | cons next names =>
    rw [List.map_cons, List.intercalate_cons_cons, List.append_assoc]
    exact List.mem_append_left _ hc

/-- Selected access lists are merged exactly when a name has the same hash wherever it occurs. -/
lemma mergeAccessLists_ok_iff {lists : List AccessList} :
    (∃ policy, mergeAccessLists lists = .ok policy) ↔
      Dict.Functional ((lists.flatMap AccessList.credentials).map AccessCredential.pair) := by
  have hperm := perm_sortedBy natLe AccessList.id lists
  have hsame : Dict.Functional
      (((sortedBy natLe AccessList.id lists).flatMap AccessList.credentials).map
        AccessCredential.pair) ↔
      Dict.Functional ((lists.flatMap AccessList.credentials).map AccessCredential.pair) := by
    have hpairs := (hperm.flatMap_right AccessList.credentials).map AccessCredential.pair
    exact ⟨fun h => h.subset hpairs.symm.subset, fun h => h.subset hpairs.subset⟩
  rw [← hsame]
  unfold mergeAccessLists
  cases hordered : sortedBy natLe AccessList.id lists with
  | nil => simp [Dict.Functional]
  | cons first rest =>
    simp only [bind_eq_ok_iff, pure_eq_ok_iff]
    constructor
    · rintro ⟨policy, merged, hmerged, -⟩
      exact mergeCredentials_empty_ok_iff.mp ⟨merged, hmerged⟩
    · intro hfunctional
      obtain ⟨merged, hmerged⟩ := mergeCredentials_empty_ok_iff.mpr hfunctional
      obtain ⟨l, hl⟩ := AccessList.validate_ok_iff.mpr
        ⟨first.idPositive, strip_intercalate first.nameGiven⟩
      exact ⟨some l, merged, hmerged, l, hl, rfl⟩

/-- A render succeeds exactly when the policies of all proxy hosts do. -/
theorem render_ok_iff {input : RenderInput} : (∃ files, render {} input = .ok files) ↔
    ∀ host ∈ input.proxyHosts,
      ∃ policy, effectivePolicy (accessById input.accessLists) host = .ok policy := by
  constructor
  · rintro ⟨files, h⟩ host hhost
    obtain ⟨proxies, custom, -, hproxies, -⟩ := render_eq_ok h
    obtain ⟨l, -, hl⟩ :=
      Numeral.exists_of_mem_left (mapM_eq_ok_iff.mp hproxies) (mem_sortedBy.mpr hhost)
    obtain ⟨effective, heffective, -⟩ := proxyFiles_eq_ok.mp hl
    exact ⟨effective, heffective⟩
  · intro h
    have hproxies : ∃ proxies, (sortedBy natLe RuntimeHost.id input.proxyHosts).mapM
        (proxyFiles {} (accessById input.accessLists)) = .ok proxies := by
      rw [mapM_ok_iff]
      intro host hhost
      obtain ⟨policy, hpolicy⟩ := h host (mem_sortedBy.mp hhost)
      exact ⟨_, proxyFiles_eq_ok.mpr ⟨policy, hpolicy, rfl⟩⟩
    obtain ⟨proxies, hproxies⟩ := hproxies
    rw [render, hproxies]
    exact ⟨_, rfl⟩

end Portwyrm.Runtime

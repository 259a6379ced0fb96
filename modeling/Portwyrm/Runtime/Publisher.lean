import Portwyrm.Runtime.Reconcile

/-!
# The published link

`build_reconciler` of `portwyrm.runtime.publisher`: the reloader of a deployment points the link
`current` at a generation and then reloads Nginx, which serves from the link.

The link and the manifest `ACTIVE` are written by different components.  They agree as long as no
generation fails to load while there is no generation to go back to.
-/

namespace Portwyrm.Runtime

open Base

/-! ## The link -/

/-- `reload_generation`: `publish` replaces the link, and whatever the reload of Nginx does behind
it, the link stays replaced. -/
def publish (current : Option String) : Event → Option String
  | .reloaded generation _ => some generation
  | .validated _ _ | .published _ => current

namespace ReconcilerState

/-- The generation that the link `current` points at. -/
def current (s : ReconcilerState) : Option String := s.events.foldl publish none

lemma current_append (s : ReconcilerState) (store : GenerationStore) (events : List Event) :
    current ⟨store, s.events ++ events⟩ = events.foldl publish s.current :=
  List.foldl_append

/-- The link points at the generation that `ACTIVE` names, and is missing with it. -/
def LinkAgrees (s : ReconcilerState) : Prop := s.current = s.store.activeId

instance (s : ReconcilerState) : Decidable s.LinkAgrees :=
  inferInstanceAs (Decidable (s.current = s.store.activeId))

end ReconcilerState

/-- A call of `reconcile`, with what the validator and the reload of Nginx do in it. -/
structure ReconcileCall where
  outcomes : Outcomes
  files : Files

section Calls

variable (sha256 : List UInt8 → HexDigest)

/-- Calls of `reconcile`, one behind the other, from an empty root. -/
def reconcileAll (calls : List ReconcileCall) : ReconcilerState :=
  calls.foldl (fun s call => (reconcile sha256 call.outcomes call.files s).2) .start

/-- The reload fails for a candidate that is valid, and no generation is active before. -/
def FirstLoadFails (s : ReconcilerState) (call : ReconcileCall) : Prop :=
  s.store.activeId = none ∧ call.outcomes.validator = none ∧ call.outcomes.reloader ≠ none ∧
    ∃ id r, generationId sha256 call.files = .ok id ∧ s.store.stage id call.files = .ok r

lemma reconcileAll_append (calls : List ReconcileCall) (call : ReconcileCall) :
    reconcileAll sha256 (calls ++ [call]) =
      (reconcile sha256 call.outcomes call.files (reconcileAll sha256 calls)).2 := by
  simp [reconcileAll]

end Calls

/-! ## The manifest -/

variable {sha256 : List UInt8 → HexDigest} {outcomes : Outcomes} {files : Files}
  {s s' : ReconcilerState} {id previous : String}

/-- `ACTIVE` is missing, or names a generation that is staged. -/
def ActiveStaged (store : GenerationStore) : Prop :=
  store.activeManifest = none ∨ ∃ id, store.activeManifest = some (id ++ "\n") ∧
    Text.Stripped id ∧ id ≠ "" ∧ id ∈ store.generations

@[simp] lemma activeId_recordFailure (store : GenerationStore) (id diagnostic : String) :
    (store.recordFailure id diagnostic).activeId = store.activeId := rfl

@[simp] lemma activeId_clearActive (store : GenerationStore) :
    store.clearActive.activeId = none := rfl

lemma activeId_activated (store : GenerationStore) (hid : Text.Stripped id) (hne : id ≠ "") :
    { store with activeManifest := some (id ++ "\n") }.activeId = some id :=
  activeId_of_manifest hid hne rfl

lemma ActiveStaged.of_activate {store : GenerationStore} (hid : generationId sha256 files = .ok id)
    (hmem : id ∈ store.generations) :
    ActiveStaged { store with activeManifest := some (id ++ "\n") } := by
  obtain ⟨-, rfl⟩ := generationId_eq_ok.mp hid
  exact .inr ⟨_, rfl, stripped_short _, short_ne_empty _, hmem⟩

/-- The generation that is active. -/
lemma ActiveStaged.of_activeId {store : GenerationStore} (h : ActiveStaged store)
    (hprevious : store.activeId = some previous) :
    store.activeManifest = some (previous ++ "\n") ∧ Text.Stripped previous ∧ previous ≠ "" ∧
      previous ∈ store.generations := by
  rcases h with hnone | ⟨id, hmanifest, hstripped, hne, hmem⟩
  · simp [GenerationStore.activeId, hnone] at hprevious
  · obtain rfl := Option.some.inj
      ((activeId_of_manifest hstripped hne hmanifest).symm.trans hprevious)
    exact ⟨hmanifest, hstripped, hne, hmem⟩

/-- More generations do no harm. -/
lemma ActiveStaged.mono {store store' : GenerationStore} (h : ActiveStaged store)
    (hmanifest : store'.activeManifest = store.activeManifest)
    (hsub : ∀ id ∈ store.generations, id ∈ store'.generations) : ActiveStaged store' := by
  rcases h with hnone | ⟨id, hsome, hstripped, hne, hmem⟩
  · exact .inl (hmanifest.trans hnone)
  · exact .inr ⟨id, hmanifest.trans hsome, hstripped, hne, hsub id hmem⟩

lemma mem_of_stage {store store' : GenerationStore} {created : Bool}
    (hstage : store.stage id files = .ok (created, store')) :
    ∀ id' ∈ store.generations, id' ∈ store'.generations := by
  intro id' hmem
  obtain ⟨tree, htree⟩ := Dict.mem_iff.mp hmem
  exact Dict.mem_iff.mpr ⟨tree, (stage_spec hstage).2.2 id' tree htree⟩

/-- A roll back to a generation that is staged publishes it again, whether it can be loaded or
not. -/
lemma rollBack_of_mem (exc : String) (rollback : Option String)
    (hmem : previous ∈ s.store.generations) :
    rollBack id (some previous) exc rollback s =
      (.reconcileError (reloadDiagnostic exc rollback),
        ⟨{ s.store with activeManifest := some (previous ++ "\n") }.recordFailure id
          (reloadDiagnostic exc rollback), s.events ++ [.reloaded previous rollback]⟩) := by
  rw [rollBack, activate_of_mem hmem]

/-- No call makes `ACTIVE` name a generation that is not there. -/
lemma activeStaged_reconciled {r : Result ReconcileResult}
    (h : Reconciled sha256 outcomes files s r s') (hs : ActiveStaged s.store) :
    ActiveStaged s'.store := by
  cases h with
  | refused => exact hs
  | unchanged => exact hs
  | invalid id exc created store diagnostic hid hactive hstage =>
    have hstore : ActiveStaged store := hs.mono (stage_spec hstage).2.1 (mem_of_stage hstage)
    exact hstore
  | rolledBack id exc created store e s' hid hactive hstage hvalidator hreloader hback =>
    cases hprevious : s.store.activeId with
    | none =>
      rw [hprevious] at hback
      exact .inl ((rollBack_spec hback).2.1 rfl)
    | some previous =>
      obtain ⟨-, hstripped, hne, hmem⟩ := hs.of_activeId hprevious
      have hmem' := mem_of_stage hstage _ hmem
      rw [hprevious] at hback
      obtain ⟨hgenerations, -, hmanifest, -⟩ := rollBack_spec hback
      exact .inr ⟨previous, hmanifest previous rfl hmem', hstripped, hne, hgenerations ▸ hmem'⟩
  | applied id created store hid hactive hstage => exact .of_activate hid (stage_spec hstage).1

/-! ## One call -/

/-- A call that meets the condition keeps the link at the active generation. -/
lemma linkAgrees_reconciled {r : Result ReconcileResult}
    (h : Reconciled sha256 outcomes files s r s') (hs : ActiveStaged s.store)
    (hfirst : ¬ FirstLoadFails sha256 s ⟨outcomes, files⟩) (hagrees : s.LinkAgrees) :
    s'.LinkAgrees := by
  cases h with
  | refused => exact hagrees
  | unchanged => exact hagrees
  | invalid id exc created store diagnostic hid hactive hstage =>
    -- the validator does not touch the link, and the manifest stays
    have hmanifest : (store.recordFailure id diagnostic).activeManifest = s.store.activeManifest :=
      (stage_spec hstage).2.1
    unfold ReconcilerState.LinkAgrees GenerationStore.activeId at *
    rw [ReconcilerState.current_append, hmanifest, ← hagrees]
    rfl
  | rolledBack id exc created store e s' hid hactive hstage hvalidator hreloader hback =>
    cases hprevious : s.store.activeId with
    | none => exact absurd ⟨hprevious, hvalidator, by simp [hreloader], id, _, hid, hstage⟩ hfirst
    | some previous =>
      -- the second call of the reloader brings the link back, even when the reload fails
      obtain ⟨-, hstripped, hne, hmem⟩ := hs.of_activeId hprevious
      rw [hprevious, rollBack_of_mem exc outcomes.rollback (mem_of_stage hstage _ hmem)] at hback
      obtain ⟨-, rfl⟩ := Prod.mk.inj hback
      have hactive' := activeId_activated store hstripped hne
      simp [ReconcilerState.LinkAgrees, ReconcilerState.current, publish, hactive']
  | applied id created store hid hactive hstage =>
    obtain ⟨-, rfl⟩ := generationId_eq_ok.mp hid
    have hactive' := activeId_activated store (stripped_short (sha256 (encode files)))
      (short_ne_empty _)
    simp [ReconcilerState.LinkAgrees, ReconcilerState.current, publish, hactive']

/-- A first generation that cannot be loaded leaves the link without its manifest. -/
lemma not_linkAgrees_of_firstLoadFails (hfirst : FirstLoadFails sha256 s ⟨outcomes, files⟩) :
    ¬ (reconcile sha256 outcomes files s).2.LinkAgrees := by
  obtain ⟨hprevious, hvalidator, hreloader, id, ⟨created, store⟩, hid, hstage⟩ := hfirst
  obtain ⟨exc, hexc⟩ := Option.ne_none_iff_exists'.mp hreloader
  have hactivate := activate_of_mem (stage_spec hstage).1
  dsimp only at hvalidator hexc hstage hid
  simp [reconcile, hid, hprevious, hstage, applyCandidate, hvalidator, hactivate, hexc, rollBack,
    ReconcilerState.LinkAgrees, ReconcilerState.current, publish]

/-! ## Runs -/

lemma activeStaged_reconcileAll (sha256 : List UInt8 → HexDigest) (calls : List ReconcileCall) :
    ActiveStaged (reconcileAll sha256 calls).store := by
  induction calls using List.reverseRecOn with
  | nil => exact .inl rfl
  | append_singleton calls call ih =>
    rw [reconcileAll_append]
    exact activeStaged_reconciled (reconciled sha256 _ _ _) ih

/-- The published link and the manifest.  From an empty root the link points at the generation
that `ACTIVE` names behind every call, and is missing when `ACTIVE` is, if and only if no call of
the run fails to load a candidate while no generation is active. -/
theorem linkAgrees_iff (sha256 : List UInt8 → HexDigest) (calls : List ReconcileCall) :
    (∀ before, before <+: calls → (reconcileAll sha256 before).LinkAgrees) ↔
      ∀ before call, before ++ [call] <+: calls →
        ¬ FirstLoadFails sha256 (reconcileAll sha256 before) call := by
  constructor
  · intro hagrees before call hprefix hfirst
    have hlink := hagrees _ hprefix
    rw [reconcileAll_append] at hlink
    exact not_linkAgrees_of_firstLoadFails hfirst hlink
  · intro hfirst before hprefix
    induction before using List.reverseRecOn with
    | nil => rfl
    | append_singleton before call ih =>
      rw [reconcileAll_append]
      exact linkAgrees_reconciled (reconciled sha256 _ _ _) (activeStaged_reconcileAll sha256 before)
        (hfirst before call hprefix) (ih ((List.prefix_append before [call]).trans hprefix))

/-- The very first generation is published, Nginx cannot load it, and `ACTIVE` is removed: the
link stays behind. -/
theorem firstLoad_leaves_link :
    ¬ (reconcileAll zeroHash [⟨{ reloader := some "exit status 1" }, oneFile⟩]).LinkAgrees := by
  decide

end Portwyrm.Runtime

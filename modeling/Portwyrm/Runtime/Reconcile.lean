import Portwyrm.Runtime.GenerationStore

/-!
# Reconciliation

`Reconciler` of `portwyrm.runtime.reconcile`: a generation is staged, validated, activated and
loaded, and the generation that was active before comes back when it cannot be loaded.  The
validator and the reloader are code outside the store; a call is given what they do in it.

The last part is about runs: whatever the validator and the reloader do, the last generation
that was applied stays the active one.
-/

namespace Portwyrm.Runtime

open Base

/-! ## The reconciler -/

/-- What happens around the store, in order. -/
inductive Event
  /-- The validator ran on a generation, and raised an exception of the given text. -/
  | validated (generation : String) (failure : Option String)
  /-- The reloader ran on a generation, and raised an exception of the given text. -/
  | reloaded (generation : String) (failure : Option String)
  /-- The material of a certificate was published. -/
  | published (certificate : ℕ)
deriving DecidableEq

/-- What the validator and the reloader do in one call of `reconcile`: the texts of the
exceptions they raise. -/
structure Outcomes where
  validator : Option String := none
  reloader : Option String := none
  /-- The second call of the reloader, on the previous generation. -/
  rollback : Option String := none

/-- `ReconcileResult`. -/
structure ReconcileResult where
  generation : String
  previousGeneration : Option String
  changed : Bool
  applied : Bool
  diagnostic : Option String := none
deriving DecidableEq

/-- The store, and what has happened so far, oldest first. -/
structure ReconcilerState where
  store : GenerationStore
  events : List Event

namespace ReconcilerState

/-- A reconciler with an empty store. -/
def start : ReconcilerState := ⟨.empty, []⟩

/-- Something happens that leaves the store alone. -/
def happen (s : ReconcilerState) (e : Event) : ReconcilerState :=
  { s with events := s.events ++ [e] }

@[simp] lemma store_happen (s : ReconcilerState) (e : Event) : (s.happen e).store = s.store := rfl

@[simp] lemma events_happen (s : ReconcilerState) (e : Event) :
    (s.happen e).events = s.events ++ [e] := rfl

end ReconcilerState

/-- The diagnostic of a failed reload. -/
def reloadDiagnostic (exc : String) : Option String → String
  | none => s!"reload failed: {exc}"
  | some rollbackExc => s!"reload failed: {exc}; rollback reload failed: {rollbackExc}"

/-- `reconcile` behind a failed reload: the previous generation comes back. -/
def rollBack (id : String) (previous : Option String) (exc : String) (rollback : Option String)
    (s : ReconcilerState) : Exc × ReconcilerState :=
  match previous with
  | none =>
    let diagnostic := reloadDiagnostic exc none
    (.reconcileError diagnostic, { s with store := s.store.clearActive.recordFailure id diagnostic })
  | some previous =>
    match s.store.activate previous with
    | .error e => (e, s)
    | .ok store =>
      let diagnostic := reloadDiagnostic exc rollback
      (.reconcileError diagnostic,
        { store := store.recordFailure id diagnostic
          events := s.events ++ [.reloaded previous rollback] })

/-- `reconcile` behind the staging of a candidate. -/
def applyCandidate (outcomes : Outcomes) (id : String) (previous : Option String)
    (s : ReconcilerState) : Result ReconcileResult × ReconcilerState :=
  let s := s.happen (.validated id outcomes.validator)
  match outcomes.validator with
  | some exc =>
    let diagnostic := s!"validation failed: {exc}"
    (.error (.reconcileError diagnostic), { s with store := s.store.recordFailure id diagnostic })
  | none =>
    match s.store.activate id with
    | .error e => (.error e, s)
    | .ok store =>
      let s := { s with store := store }.happen (.reloaded id outcomes.reloader)
      match outcomes.reloader with
      | some exc =>
        let (e, s) := rollBack id previous exc outcomes.rollback s
        (.error e, s)
      | none =>
        (.ok { generation := id, previousGeneration := previous, changed := true, applied := true },
          s)

section Reconcile

variable (sha256 : List UInt8 → HexDigest)

/-- `Reconciler.reconcile`. -/
def reconcile (outcomes : Outcomes) (files : Files) (s : ReconcilerState) :
    Result ReconcileResult × ReconcilerState :=
  match generationId sha256 files with
  | .error e => (.error e, s)
  | .ok id =>
    let previous := s.store.activeId
    if previous = some id then
      (.ok { generation := id, previousGeneration := previous, changed := false, applied := true },
        s)
    else
      match s.store.stage id files with
      | .error e => (.error e, s)
      | .ok (_, store) => applyCandidate outcomes id previous { s with store := store }

end Reconcile

/-! ## What one call does -/

/-- The ways in which a call of `reconcile` ends. -/
inductive Reconciled (sha256 : List UInt8 → HexDigest) (outcomes : Outcomes) (files : Files)
    (s : ReconcilerState) : Result ReconcileResult → ReconcilerState → Prop
  /-- The files have unsafe names, or cannot be staged. -/
  | refused (e : Exc) : Reconciled sha256 outcomes files s (.error e) s
  /-- The generation is active. -/
  | unchanged (id : String) (hid : generationId sha256 files = .ok id)
      (hactive : s.store.activeId = some id) :
      Reconciled sha256 outcomes files s (.ok ⟨id, some id, false, true, none⟩) s
  /-- The validator refuses the candidate. -/
  | invalid (id exc : String) (created : Bool) (store : GenerationStore) (diagnostic : String)
      (hid : generationId sha256 files = .ok id) (hactive : s.store.activeId ≠ some id)
      (hstage : s.store.stage id files = .ok (created, store))
      (hvalidator : outcomes.validator = some exc) :
      Reconciled sha256 outcomes files s (.error (.reconcileError diagnostic))
        ⟨store.recordFailure id diagnostic, s.events ++ [.validated id (some exc)]⟩
  /-- The candidate cannot be loaded. -/
  | rolledBack (id exc : String) (created : Bool) (store : GenerationStore) (e : Exc)
      (s' : ReconcilerState)
      (hid : generationId sha256 files = .ok id) (hactive : s.store.activeId ≠ some id)
      (hstage : s.store.stage id files = .ok (created, store))
      (hvalidator : outcomes.validator = none) (hreloader : outcomes.reloader = some exc)
      (hback : rollBack id s.store.activeId exc outcomes.rollback
        ⟨{ store with activeManifest := some (id ++ "\n") },
          s.events ++ [.validated id none, .reloaded id (some exc)]⟩ = (e, s')) :
      Reconciled sha256 outcomes files s (.error e) s'
  /-- The candidate is loaded. -/
  | applied (id : String) (created : Bool) (store : GenerationStore)
      (hid : generationId sha256 files = .ok id) (hactive : s.store.activeId ≠ some id)
      (hstage : s.store.stage id files = .ok (created, store))
      (hvalidator : outcomes.validator = none) (hreloader : outcomes.reloader = none) :
      Reconciled sha256 outcomes files s (.ok ⟨id, s.store.activeId, true, true, none⟩)
        ⟨{ store with activeManifest := some (id ++ "\n") },
          s.events ++ [.validated id none, .reloaded id none]⟩

variable {sha256 : List UInt8 → HexDigest} {outcomes : Outcomes} {files : Files}
  {s s' : ReconcilerState} {store store' : GenerationStore} {id : String} {created : Bool}

/-- A staged generation is there, and the generations that were there are as they were. -/
lemma stage_spec (h : store.stage id files = .ok (created, store')) :
    id ∈ store'.generations ∧ store'.activeManifest = store.activeManifest ∧
      ∀ id' tree, store.generations.get? id' = some tree →
        store'.generations.get? id' = some tree := by
  rcases stage_eq_ok.mp h with ⟨hmem, -, rfl⟩ | ⟨hnew, -, tree, -, rfl⟩
  · exact ⟨hmem, rfl, fun _ _ h => h⟩
  · refine ⟨Dict.mem_set.mpr (.inl rfl), rfl, fun id' tree' hget => ?_⟩
    have hne : id' ≠ id := fun heq => hnew (heq ▸ Dict.mem_iff.mpr ⟨_, hget⟩)
    rw [Dict.get?_set_of_ne _ _ hne, hget]

lemma activate_of_mem (h : id ∈ store.generations) :
    store.activate id = .ok { store with activeManifest := some (id ++ "\n") } :=
  activate_eq_ok.mpr ⟨h, rfl⟩

/-- Every call of `reconcile` ends in one of these ways. -/
theorem reconciled (sha256 : List UInt8 → HexDigest) (outcomes : Outcomes) (files : Files)
    (s : ReconcilerState) : Reconciled sha256 outcomes files s
      (reconcile sha256 outcomes files s).1 (reconcile sha256 outcomes files s).2 := by
  unfold reconcile
  cases hid : generationId sha256 files with
  | error e => exact .refused e
  | ok id =>
    dsimp only
    by_cases hactive : s.store.activeId = some id
    · rw [if_pos hactive, hactive]
      exact .unchanged id hid hactive
    rw [if_neg hactive]
    cases hstage : s.store.stage id files with
    | error e => exact .refused e
    | ok r =>
      obtain ⟨created, store⟩ := r
      have hactivate := activate_of_mem (stage_spec hstage).1
      dsimp only [applyCandidate]
      cases hvalidator : outcomes.validator with
      | some exc => exact .invalid id exc created store _ hid hactive hstage hvalidator
      | none =>
        dsimp only [ReconcilerState.store_happen]
        rw [hactivate]
        cases hreloader : outcomes.reloader with
        | some exc =>
          refine .rolledBack id exc created store _ _ hid hactive hstage hvalidator hreloader ?_
          simp [ReconcilerState.happen]
        | none =>
          have h := Reconciled.applied id created store hid hactive hstage hvalidator hreloader
          simpa [ReconcilerState.happen] using h

/-- A roll back ends in the exception; it keeps the generations, and brings the manifest of the
previous generation back. -/
lemma rollBack_spec {previous rollback : Option String} {exc : String} {e : Exc}
    (h : rollBack id previous exc rollback s = (e, s')) :
    s'.store.generations = s.store.generations ∧
    (previous = none → s'.store.activeManifest = none) ∧
    (∀ id', previous = some id' → id' ∈ s.store.generations →
      s'.store.activeManifest = some (id' ++ "\n")) ∧
    ∀ event ∈ s.events, event ∈ s'.events := by
  unfold rollBack at h
  cases previous with
  | none =>
    obtain ⟨-, rfl⟩ := Prod.mk.inj h
    exact ⟨rfl, fun _ => rfl, by simp, fun _ h => h⟩
  | some id' =>
    by_cases hid' : id' ∈ s.store.generations
    · simp only [activate_of_mem hid', Prod.mk.injEq] at h
      obtain ⟨-, rfl⟩ := h
      refine ⟨rfl, by simp, fun id'' h'' _ => ?_, fun event hevent => by simp [hevent]⟩
      rw [← Option.some.inj h'']
      rfl
    · cases hactivate : s.store.activate id' with
      | ok store => exact absurd (activate_eq_ok.mp hactivate).1 hid'
      | error e' =>
        simp only [hactivate, Prod.mk.injEq] at h
        obtain ⟨-, rfl⟩ := h
        refine ⟨rfl, by simp, fun id'' h'' hmem => ?_, fun _ h => h⟩
        exact absurd (Option.some.inj h'' ▸ hmem) hid'

/-- No call changes or removes a generation that is there. -/
lemma generations_reconciled {r : Result ReconcileResult}
    (h : Reconciled sha256 outcomes files s r s') {tree : Tree}
    (hget : s.store.generations.get? id = some tree) :
    s'.store.generations.get? id = some tree := by
  cases h with
  | refused => exact hget
  | unchanged => exact hget
  | invalid id' exc created store diagnostic hid hactive hstage => exact (stage_spec hstage).2.2 _ _ hget
  | rolledBack id' exc created store e s' hid hactive hstage hvalidator hreloader hback =>
    rw [(rollBack_spec hback).1]
    exact (stage_spec hstage).2.2 _ _ hget
  | applied id' created store hid hactive hstage => exact (stage_spec hstage).2.2 _ _ hget

/-! ## Runs -/

section Run

variable (sha256)

/-- The calls of `reconcile` from an empty store, latest first: the files of each call, and how
it ended. -/
inductive Run : List (Files × Result ReconcileResult) → ReconcilerState → Prop
  | start : Run [] .start
  | call {history : List (Files × Result ReconcileResult)} {s : ReconcilerState}
      (h : Run history s) (outcomes : Outcomes) (files : Files) :
      Run ((files, (reconcile sha256 outcomes files s).1) :: history)
        (reconcile sha256 outcomes files s).2

/-- The files of the most recent call that returned a result. -/
def lastReturned : List (Files × Result ReconcileResult) → Option Files
  | [] => none
  | (files, .ok _) :: _ => some files
  | (_, .error _) :: history => lastReturned history

/-- The generation ids of the calls do not collide. -/
def NoCollision (history : List (Files × Result ReconcileResult)) : Prop :=
  ∀ call ∈ history, ∀ call' ∈ history, ∀ id, generationId sha256 call.1 = .ok id →
    generationId sha256 call'.1 = .ok id → ∀ name, call.1.get? name = call'.1.get? name

/-- The generation of the given files is active, has passed the validator, and is staged. -/
structure AppliedGeneration (s : ReconcilerState) (files : Files) (id : String) (tree : Tree) :
    Prop where
  generation : generationId sha256 files = .ok id
  manifest : s.store.activeManifest = some (id ++ "\n")
  validated : .validated id none ∈ s.events
  staged : s.store.generations.get? id = some tree
  files : stagedTree files = .ok tree

/-- `ACTIVE` names the generation of the last call that returned. -/
def LastApplied (history : List (Files × Result ReconcileResult)) (s : ReconcilerState) : Prop :=
  match lastReturned history with
  | none => s.store.activeManifest = none
  | some files => ∃ id tree, AppliedGeneration sha256 s files id tree

/-- Every staged generation holds the files of a call. -/
def StagedByCalls (history : List (Files × Result ReconcileResult)) (s : ReconcilerState) : Prop :=
  ∀ id tree, s.store.generations.get? id = some tree →
    ∃ call ∈ history, generationId sha256 call.1 = .ok id ∧ stagedTree call.1 = .ok tree

end Run

variable {history : List (Files × Result ReconcileResult)} {tree : Tree}

lemma NoCollision.tail {call : Files × Result ReconcileResult}
    (h : NoCollision sha256 (call :: history)) : NoCollision sha256 history :=
  fun c hc c' hc' => h c (List.mem_cons_of_mem _ hc) c' (List.mem_cons_of_mem _ hc')

/-- Two calls with one generation id stage one directory. -/
lemma NoCollision.stagedTree_eq (h : NoCollision sha256 history)
    {call call' : Files × Result ReconcileResult} (hcall : call ∈ history) (hcall' : call' ∈ history)
    (hid : generationId sha256 call.1 = .ok id) (hid' : generationId sha256 call'.1 = .ok id) :
    stagedTree call.1 = stagedTree call'.1 := by
  rw [stagedTree, sortedItems_eq (h call hcall call' hcall' id hid hid'), ← stagedTree]

lemma activeId_of_applied (h : AppliedGeneration sha256 s files id tree) :
    s.store.activeId = some id := by
  obtain ⟨-, rfl⟩ := generationId_eq_ok.mp h.generation
  exact activeId_of_manifest (stripped_short _) (short_ne_empty _) h.manifest

/-- The manifest is that of the active generation. -/
lemma manifest_of_lastApplied (h : LastApplied sha256 history s) :
    (s.store.activeId = none → s.store.activeManifest = none) ∧
    ∀ id, s.store.activeId = some id → id ∈ s.store.generations ∧
      s.store.activeManifest = some (id ++ "\n") := by
  unfold LastApplied at h
  split at h
  · exact ⟨fun _ => h, fun id hid => by simp [GenerationStore.activeId, h] at hid⟩
  · obtain ⟨id, tree, h⟩ := h
    rw [activeId_of_applied h]
    refine ⟨by simp, fun id' hid' => ?_⟩
    rw [← Option.some.inj hid']
    exact ⟨Dict.mem_iff.mpr ⟨_, h.staged⟩, h.manifest⟩

/-- A call that raises leaves the manifest as it was. -/
lemma manifest_of_error {r : Result ReconcileResult} {e : Exc}
    (h : Reconciled sha256 outcomes files s r s') (hr : r = .error e)
    (hlast : LastApplied sha256 history s) :
    s'.store.activeManifest = s.store.activeManifest := by
  cases h with
  | refused => rfl
  | unchanged => simp at hr
  | invalid id exc created store diagnostic hid hactive hstage => exact (stage_spec hstage).2.1
  | rolledBack id exc created store e s' hid hactive hstage hvalidator hreloader hback =>
    obtain ⟨-, hnone, hsome, -⟩ := rollBack_spec hback
    obtain ⟨hmanifest, hmanifest'⟩ := manifest_of_lastApplied hlast
    cases hprevious : s.store.activeId with
    | none => rw [hnone hprevious, hmanifest hprevious]
    | some previous =>
      obtain ⟨hmem, hprevious'⟩ := hmanifest' previous hprevious
      obtain ⟨tree, htree⟩ := Dict.mem_iff.mp hmem
      rw [hsome previous hprevious (Dict.mem_iff.mpr ⟨_, (stage_spec hstage).2.2 _ _ htree⟩),
        hprevious']
  | applied => simp at hr

lemma events_reconciled {r : Result ReconcileResult} (h : Reconciled sha256 outcomes files s r s')
    {event : Event} (hevent : event ∈ s.events) : event ∈ s'.events := by
  cases h with
  | refused => exact hevent
  | unchanged => exact hevent
  | invalid => exact List.mem_append_left _ hevent
  | rolledBack id exc created store e s' hid hactive hstage hvalidator hreloader hback =>
    exact (rollBack_spec hback).2.2.2 event (List.mem_append_left _ hevent)
  | applied => exact List.mem_append_left _ hevent

/-- A generation that is new to the store holds the files of the call. -/
lemma generations_new {r : Result ReconcileResult} (h : Reconciled sha256 outcomes files s r s')
    (hget : s'.store.generations.get? id = some tree) :
    s.store.generations.get? id = some tree ∨
      generationId sha256 files = .ok id ∧ stagedTree files = .ok tree := by
  have hstaged : ∀ {id' created store}, generationId sha256 files = .ok id' →
      s.store.stage id' files = .ok (created, store) → store.generations.get? id = some tree →
      s.store.generations.get? id = some tree ∨
        generationId sha256 files = .ok id ∧ stagedTree files = .ok tree := by
    intro id' created store hid hstage hget
    rcases stage_eq_ok.mp hstage with ⟨-, -, rfl⟩ | ⟨-, -, tree', htree', rfl⟩
    · exact .inl hget
    · rw [Dict.get?_set] at hget
      split at hget
      · rename_i heq
        obtain rfl := Option.some.inj hget
        exact .inr ⟨heq ▸ hid, htree'⟩
      · exact .inl hget
  cases h with
  | refused => exact .inl hget
  | unchanged => exact .inl hget
  | invalid id' exc created store diagnostic hid hactive hstage => exact hstaged hid hstage hget
  | rolledBack id' exc created store e s' hid hactive hstage hvalidator hreloader hback =>
    rw [(rollBack_spec hback).1] at hget
    exact hstaged hid hstage hget
  | applied id' created store hid hactive hstage => exact hstaged hid hstage hget

/-- What a returning call leaves behind. -/
lemma applied_of_ok {result : ReconcileResult}
    (h : Reconciled sha256 outcomes files s (.ok result) s')
    (hcollision : NoCollision sha256 ((files, .ok result) :: history))
    (hlast : LastApplied sha256 history s) (hstagedBy : StagedByCalls sha256 history s) :
    ∃ id tree, AppliedGeneration sha256 s' files id tree := by
  have hself : (files, .ok result) ∈ (files, .ok result) :: history := List.mem_cons_self
  cases h with
  | unchanged id hid hactive =>
    -- the generation that is active was applied by an earlier call with the same files
    unfold LastApplied at hlast
    split at hlast
    · simp [GenerationStore.activeId, hlast] at hactive
    · obtain ⟨id', tree, happlied⟩ := hlast
      obtain rfl : id' = id := Option.some.inj ((activeId_of_applied happlied).symm.trans hactive)
      obtain ⟨call, hcall, hcallId, htree⟩ := hstagedBy _ _ happlied.staged
      refine ⟨id', tree, hid, happlied.manifest, happlied.validated, happlied.staged, ?_⟩
      rw [← htree]
      exact hcollision.stagedTree_eq hself (List.mem_cons_of_mem _ hcall) hid hcallId
  | applied id created store hid hactive hstage hvalidator hreloader =>
    rcases stage_eq_ok.mp hstage with ⟨hmem, -, rfl⟩ | ⟨-, -, tree, htree, rfl⟩
    · -- the generation was staged by an earlier call, which did not apply it or lost it since
      obtain ⟨tree, hget⟩ := Dict.mem_iff.mp hmem
      obtain ⟨call, hcall, hcallId, htree⟩ := hstagedBy _ _ hget
      refine ⟨id, tree, hid, rfl, by simp, hget, ?_⟩
      rw [← htree]
      exact hcollision.stagedTree_eq hself (List.mem_cons_of_mem _ hcall) hid hcallId
    · exact ⟨id, tree, hid, rfl, by simp, Dict.get?_set_self _ _ _, htree⟩

/-- The invariant of a run. -/
theorem run_invariant (h : Run sha256 history s) (hcollision : NoCollision sha256 history) :
    LastApplied sha256 history s ∧ StagedByCalls sha256 history s := by
  induction h with
  | start => exact ⟨rfl, fun id tree hget => absurd hget (by simp [ReconcilerState.start,
      GenerationStore.empty])⟩
  | @call history s h outcomes files ih =>
    obtain ⟨hlast, hstagedBy⟩ := ih hcollision.tail
    have hstep := reconciled sha256 outcomes files s
    refine ⟨?_, fun id tree hget => ?_⟩
    · unfold LastApplied
      cases hr : (reconcile sha256 outcomes files s).1 with
      | ok result =>
        rw [hr] at hstep hcollision
        exact applied_of_ok hstep hcollision hlast hstagedBy
      | error e =>
        have hmanifest := manifest_of_error hstep hr hlast
        unfold LastApplied at hlast
        rw [lastReturned]
        split at hlast
        · rw [hmanifest, hlast]
        · obtain ⟨id, tree, happlied⟩ := hlast
          exact ⟨id, tree, happlied.generation, hmanifest.trans happlied.manifest,
            events_reconciled hstep happlied.validated,
            generations_reconciled hstep happlied.staged, happlied.files⟩
    · rcases generations_new hstep hget with hget | ⟨hid, htree⟩
      · obtain ⟨call, hcall, h⟩ := hstagedBy id tree hget
        exact ⟨call, List.mem_cons_of_mem _ hcall, h⟩
      · exact ⟨_, List.mem_cons_self, hid, htree⟩

/-- The last known good generation is kept.  After every call `ACTIVE` names the generation of
the most recent call that returned; the generation has passed the validator, and its directory
holds exactly the files of that call.  A call that raises leaves `ACTIVE` and every staged
generation as they were. -/
theorem lastKnownGood (h : Run sha256 history s) (hcollision : NoCollision sha256 history) :
    (match lastReturned history with
      | none => s.store.activeManifest = none
      | some files => ∃ id tree, generationId sha256 files = .ok id ∧
          s.store.activeManifest = some (id ++ "\n") ∧ s.store.activeId = some id ∧
          .validated id none ∈ s.events ∧ s.store.generations.get? id = some tree ∧
          HoldsExactly tree files) ∧
    ∀ outcomes files e, (reconcile sha256 outcomes files s).1 = .error e →
      (reconcile sha256 outcomes files s).2.store.activeManifest = s.store.activeManifest ∧
      ∀ id tree, s.store.generations.get? id = some tree →
        (reconcile sha256 outcomes files s).2.store.generations.get? id = some tree := by
  obtain ⟨hlast, -⟩ := run_invariant h hcollision
  refine ⟨?_, fun outcomes files e he => ?_⟩
  · unfold LastApplied at hlast
    split
    · rename_i heq
      rwa [heq] at hlast
    · rename_i files heq
      rw [heq] at hlast
      obtain ⟨id, tree, happlied⟩ := hlast
      exact ⟨id, tree, happlied.generation, happlied.manifest, activeId_of_applied happlied,
        happlied.validated, happlied.staged, holdsExactly_of_stagedTree happlied.files⟩
  · have hstep := reconciled sha256 outcomes files s
    exact ⟨manifest_of_error hstep he hlast, fun id tree => generations_reconciled hstep⟩

/-! ### A candidate that is refused and tried again -/

/-- A hash with one value. -/
def zeroHash (_ : List UInt8) : HexDigest where
  text := List.replicate 64 '0'
  length_eq := by simp
  hex c hc := by
    obtain rfl := List.eq_of_mem_replicate hc
    decide

/-- A generation of one file. -/
def oneFile : Files := Dict.ofList [("nginx.conf", "events")]

/-- The state behind a call that the validator refuses. -/
def refusedState : ReconcilerState :=
  (reconcile zeroHash { validator := some "refused" } oneFile .start).2

/-- The second call finds the generation staged, validates it again and applies it. -/
theorem lastKnownGood_retried :
    (∃ id tree, generationId zeroHash oneFile = .ok id ∧
      (reconcile zeroHash {} oneFile refusedState).2.store.activeManifest = some (id ++ "\n") ∧
      (reconcile zeroHash {} oneFile refusedState).2.store.activeId = some id ∧
      .validated id none ∈ (reconcile zeroHash {} oneFile refusedState).2.events ∧
      (reconcile zeroHash {} oneFile refusedState).2.store.generations.get? id = some tree ∧
      HoldsExactly tree oneFile) := by
  have hrun := Run.call (Run.call (.start : Run zeroHash [] .start) { validator := some "refused" }
    oneFile) {} oneFile
  refine (lastKnownGood hrun ?_).1
  intro call hcall call' hcall' id _ _ name
  simp only [List.mem_cons, List.not_mem_nil, or_false] at hcall hcall'
  rcases hcall with rfl | rfl <;> rcases hcall' with rfl | rfl <;> rfl

end Portwyrm.Runtime

import Mathlib.Data.List.Basic
import Portwyrm.Runtime.GenerationTable
import Portwyrm.Runtime.Leases
import Portwyrm.Runtime.NodeLeases
import Portwyrm.Runtime.Publisher

/-!
# The runtime controller

`TableRuntimeController.reconcile_files` of `portwyrm.runtime.controller`: under the lease of its
holder, a call reconciles a map of files, persists the outcome in the generation table and in the
revisions of the hosts, and gives the lease back.

The first result is about the two places that name the active generation, the manifest `ACTIVE` and
the generation table; the second one about a call that finds its generation active.
-/

namespace Portwyrm.Runtime

open Base

/-! ## Revisions of hosts -/

/-- A row of `config_revisions`. -/
structure RevisionRow where
  hostId : ℕ
  generation : String
  configText : String
  configDigest : String
  applied : Bool
deriving DecidableEq

/-- The table `config_revisions`. -/
abbrev RevisionTable := Table RevisionRow

/-- The families of host files. -/
def hostFamilies : List String := ["proxy", "redirection", "dead"]

/-- The file of a host. -/
def hostFile (family : String) (id : ℕ) : String := s!"http/{family}-{id}.conf"

/-- The number between a prefix and a suffix. -/
def numberBetween (start stop path : List Char) : Option ℕ := do
  let rest ← path.dropPrefix? start
  let digits ← rest.dropSuffix? stop
  if digits = [] then none else Numeral.numeral 10 digits

/-- The host that a file is about: `http/(?:proxy|redirection|dead)-(\d+)\.conf`. -/
def hostOfPath (path : String) : Option ℕ :=
  hostFamilies.findSome? fun family =>
    numberBetween s!"http/{family}-".toList ".conf".toList path.toList

/-- `HostConfigRevisionStore.record`: a row that is there stays as it is. -/
def RevisionTable.record (t : RevisionTable) (row : RevisionRow) : RevisionTable :=
  match t.selectOne fun r => r.hostId = row.hostId ∧ r.generation = row.generation with
  | none => t.add row
  | some _ => t

section Persist

variable (sha256 : List UInt8 → HexDigest)

/-- `hashlib.sha256(text.encode()).hexdigest()`. -/
def configDigest (text : String) : String := String.ofList (sha256 (utf8 text)).text

/-- The revision that `_persist` records for one file. -/
def recordRevision (generation : String) (applied : Bool) (t : RevisionTable)
    (file : String × String) : RevisionTable :=
  match hostOfPath file.1 with
  | none => t
  | some id => t.record
      { hostId := id
        generation := generation
        configText := file.2
        configDigest := configDigest sha256 file.2
        applied := applied }

/-- The revisions that `_persist` records. -/
def recordRevisions (files : Files) (result : ReconcileResult) (t : RevisionTable) :
    RevisionTable :=
  files.entries.foldl (recordRevision sha256 result.generation result.applied) t

end Persist

/-! ## Calls -/

/-- The runtime root and the tables of the runtime. -/
structure ControllerState where
  reconciler : ReconcilerState
  leases : LeaseTable
  generations : GenerationTable
  revisions : RevisionTable

namespace ControllerState

/-- An empty root and empty tables. -/
def start : ControllerState := ⟨.start, Table.empty, Table.empty, Table.empty⟩

/-- `TableRuntimeController.active_generation`. -/
def activeGeneration (s : ControllerState) : Option String := s.reconciler.store.activeId

end ControllerState

/-- A call of `reconcile_files`: the holder id of the controller, the clock, the files, and what the
validator and the reloader do. -/
structure FilesCall where
  holder : String
  clock : ℤ
  outcomes : Outcomes
  files : Files

section ReconcileFiles

variable (sha256 : List UInt8 → HexDigest) (str : Exc → String)

/-- The lease that a call takes. -/
def FilesCall.lease (c : FilesCall) (s : ControllerState) : LeaseAnswer × LeaseTable :=
  s.leases.acquire reconcileLease c.holder (some reconcileTtl) c.clock

/-- What a call persists: the result of `reconcile`, or its exception under the generation of the
files, which may be unsafe. -/
def FilesCall.persisted (c : FilesCall) (s : ControllerState) : Option ReconcileResult :=
  let run := reconcile sha256 c.outcomes c.files s.reconciler
  match run.1 with
  | .ok result => some result
  | .error exc =>
    match generationId sha256 c.files with
    | .error _ => none
    | .ok id => some
        { generation := id
          previousGeneration := run.2.store.activeId
          changed := true
          applied := false
          diagnostic := some (str exc) }

/-- What a call returns or raises, once it has the lease. -/
def FilesCall.outcome (c : FilesCall) (s : ControllerState) : Result ReconcileResult :=
  match (reconcile sha256 c.outcomes c.files s.reconciler).1 with
  | .ok result => .ok result
  | .error exc =>
    match generationId sha256 c.files with
    | .error exc' => .error exc'
    | .ok _ => .error exc

/-- `TableRuntimeController.reconcile_files`. -/
def reconcileFiles (c : FilesCall) (s : ControllerState) :
    Result ReconcileResult × ControllerState :=
  let (lease, leases) := c.lease s
  if lease.acquired = false then
    (.error (.runtimeError s!"reconciliation lease is held by {lease.holder}"),
      { s with leases := leases })
  else
    let released := (leases.release reconcileLease c.holder).2
    let reconciler := (reconcile sha256 c.outcomes c.files s.reconciler).2
    (c.outcome sha256 s,
      match c.persisted sha256 str s with
      | none => { s with reconciler := reconciler, leases := released }
      | some result =>
        { reconciler := reconciler
          leases := released
          generations := s.generations.persist c.files result
          revisions := recordRevisions sha256 c.files result s.revisions })

/-- The generation table behind each transaction of a call that writes to it. -/
def FilesCall.commits (c : FilesCall) (s : ControllerState) : List GenerationTable :=
  if (c.lease s).1.acquired = false then []
  else
    match c.persisted sha256 str s with
    | none => []
    | some result => s.generations.persistCommits c.files result

/-- Completed calls, one behind the other, from empty tables and an empty root. -/
def runCalls (calls : List FilesCall) : ControllerState :=
  calls.foldl (fun s c => (reconcileFiles sha256 str c s).2) .start

lemma runCalls_append (calls : List FilesCall) (c : FilesCall) :
    runCalls sha256 str (calls ++ [c]) =
      (reconcileFiles sha256 str c (runCalls sha256 str calls)).2 := by
  simp [runCalls]

end ReconcileFiles

/-! ## What a call does -/

section Cases

variable {sha256 : List UInt8 → HexDigest} {str : Exc → String} {c : FilesCall}
  {s : ControllerState}

/-- A call that finds its generation active returns. -/
lemma reconcile_of_active {outcomes : Outcomes} {files : Files} {r : ReconcilerState} {id : String}
    (hid : generationId sha256 files = .ok id) (hactive : r.store.activeId = some id) :
    reconcile sha256 outcomes files r = (.ok ⟨id, some id, false, true, none⟩, r) := by
  rw [reconcile, hid]
  dsimp only
  rw [if_pos hactive, hactive]

/-- A call that raises leaves the active generation. -/
lemma activeId_of_error {outcomes : Outcomes} {files : Files} {r r' : ReconcilerState} {e : Exc}
    (h : Reconciled sha256 outcomes files r (.error e) r') (hr : ActiveStaged r.store) :
    r'.store.activeId = r.store.activeId := by
  cases h with
  | refused => rfl
  | invalid id exc created store diagnostic hid hactive hstage =>
    rw [activeId_recordFailure, GenerationStore.activeId, GenerationStore.activeId,
      (stage_spec hstage).2.1]
  | rolledBack id exc created store e s' hid hactive hstage hvalidator hreloader hback =>
    obtain ⟨-, hnone, hsome, -⟩ := rollBack_spec hback
    cases hprevious : r.store.activeId with
    | none => rw [GenerationStore.activeId, hnone hprevious]; rfl
    | some previous =>
      obtain ⟨-, hstripped, hne, hmem⟩ := hr.of_activeId hprevious
      exact activeId_of_manifest hstripped hne
        (hsome previous hprevious (mem_of_stage hstage _ hmem))

/-- A call that returns has applied its generation. -/
lemma activeId_of_ok {outcomes : Outcomes} {files : Files} {r r' : ReconcilerState}
    {result : ReconcileResult} (h : Reconciled sha256 outcomes files r (.ok result) r') :
    result.applied = true ∧ generationId sha256 files = .ok result.generation ∧
      r'.store.activeId = some result.generation := by
  cases h with
  | unchanged id hid hactive => exact ⟨rfl, hid, hactive⟩
  | applied id created store hid =>
    obtain ⟨-, rfl⟩ := generationId_eq_ok.mp hid
    exact ⟨rfl, hid, activeId_activated store (stripped_short _) (short_ne_empty _)⟩

/-- The ways in which a call of `reconcile_files` ends. -/
inductive FilesReconciled (sha256 : List UInt8 → HexDigest) (str : Exc → String) (c : FilesCall)
    (s : ControllerState) : Result ReconcileResult × ControllerState → Prop
  /-- Another holder has the lease. -/
  | refused (e : Exc) (leases : LeaseTable) (hlease : (c.lease s).1.acquired = false) :
      FilesReconciled sha256 str c s (.error e, { s with leases := leases })
  /-- The names of the files are unsafe. -/
  | unsafeNames (e : Exc) (reconciler : ReconcilerState) (leases : LeaseTable)
      (hstaged : ActiveStaged s.reconciler.store → ActiveStaged reconciler.store)
      (hactive : ActiveStaged s.reconciler.store →
        reconciler.store.activeId = s.reconciler.store.activeId) :
      FilesReconciled sha256 str c s
        (.error e, { s with reconciler := reconciler, leases := leases })
  /-- `reconcile` raises, and the failure of the generation is persisted. -/
  | failed (e : Exc) (result : ReconcileResult) (reconciler : ReconcilerState)
      (leases : LeaseTable) (happlied : result.applied = false)
      (hid : generationId sha256 c.files = .ok result.generation)
      (hpersisted : c.persisted sha256 str s = some result)
      (hstaged : ActiveStaged s.reconciler.store → ActiveStaged reconciler.store)
      (hactive : ActiveStaged s.reconciler.store →
        reconciler.store.activeId = s.reconciler.store.activeId)
      (hother : s.reconciler.store.activeId ≠ some result.generation) :
      FilesReconciled sha256 str c s (.error e,
        ⟨reconciler, leases, s.generations.persist c.files result,
          recordRevisions sha256 c.files result s.revisions⟩)
  /-- The generation is applied, or was. -/
  | applied (result : ReconcileResult) (reconciler : ReconcilerState) (leases : LeaseTable)
      (hlease : (c.lease s).1.acquired = true) (happlied : result.applied = true)
      (hid : generationId sha256 c.files = .ok result.generation)
      (hpersisted : c.persisted sha256 str s = some result)
      (hreconciled : Reconciled sha256 c.outcomes c.files s.reconciler (.ok result) reconciler)
      (hstaged : ActiveStaged s.reconciler.store → ActiveStaged reconciler.store)
      (hactive : reconciler.store.activeId = some result.generation) :
      FilesReconciled sha256 str c s (.ok result,
        ⟨reconciler, leases, s.generations.persist c.files result,
          recordRevisions sha256 c.files result s.revisions⟩)

theorem filesReconciled (sha256 : List UInt8 → HexDigest) (str : Exc → String) (c : FilesCall)
    (s : ControllerState) : FilesReconciled sha256 str c s (reconcileFiles sha256 str c s) := by
  rw [reconcileFiles]
  dsimp only
  cases hlease : (c.lease s).1.acquired with
  | false =>
    rw [if_pos rfl]
    exact .refused _ _ hlease
  | true =>
    rw [if_neg (by decide)]
    have hcase := reconciled sha256 c.outcomes c.files s.reconciler
    have hstaged := fun hs => activeStaged_reconciled hcase hs
    cases hrun : (reconcile sha256 c.outcomes c.files s.reconciler).1 with
    | ok result =>
      rw [hrun] at hcase
      obtain ⟨happlied, hid, hactive⟩ := activeId_of_ok hcase
      have houtcome : c.outcome sha256 s = .ok result := by rw [FilesCall.outcome, hrun]
      have hpersisted : c.persisted sha256 str s = some result := by
        simp only [FilesCall.persisted, hrun]
      rw [houtcome, hpersisted]
      exact .applied result _ _ hlease happlied hid hpersisted hcase hstaged hactive
    | error e =>
      rw [hrun] at hcase
      have hactive := fun hs => activeId_of_error hcase hs
      cases hid : generationId sha256 c.files with
      | error e' =>
        have houtcome : c.outcome sha256 s = .error e' := by simp only [FilesCall.outcome, hrun, hid]
        have hpersisted : c.persisted sha256 str s = none := by
          simp only [FilesCall.persisted, hrun, hid]
        rw [houtcome, hpersisted]
        exact .unsafeNames e' _ _ hstaged hactive
      | ok id =>
        have houtcome : c.outcome sha256 s = .error e := by simp only [FilesCall.outcome, hrun, hid]
        have hother : s.reconciler.store.activeId ≠ some id := by
          intro hsome
          rw [reconcile_of_active hid hsome] at hrun
          exact nomatch hrun
        have hpersisted : c.persisted sha256 str s = some
            { generation := id
              previousGeneration :=
                (reconcile sha256 c.outcomes c.files s.reconciler).2.store.activeId
              changed := true
              applied := false
              diagnostic := some (str e) } := by
          simp only [FilesCall.persisted, hrun, hid]
        rw [houtcome, hpersisted]
        exact .failed e _ _ _ rfl hid hpersisted hstaged hactive hother

end Cases

/-! ## The active generation -/

/-- The table names the active generation as the manifest does. -/
structure DatabaseAgrees (s : ControllerState) : Prop where
  unique : ∀ id id' row row', s.generations.get? id = some row → s.generations.get? id' = some row' →
    row.isActive = true → row'.isActive = true → id = id'
  names : ∀ generation, s.activeGeneration = some generation ↔
    ∃ id row, s.generations.get? id = some row ∧ row.isActive = true ∧ row.generation = generation
  absent : s.reconciler.store.activeManifest = none →
    ∀ id row, s.generations.get? id = some row → row.isActive = false

/-- What every call preserves: the generation that is active has the one active row. -/
structure ActiveRow (s : ControllerState) : Prop where
  unique : s.generations.UniqueGenerations
  staged : ActiveStaged s.reconciler.store
  active : ∀ id row, s.generations.get? id = some row →
    (row.isActive = true ↔ s.activeGeneration = some row.generation)
  recorded : ∀ generation, s.activeGeneration = some generation →
    ∃ id row, s.generations.get? id = some row ∧ row.generation = generation

lemma ActiveRow.databaseAgrees {s : ControllerState} (h : ActiveRow s) : DatabaseAgrees s where
  unique id id' row row' hrow hrow' hactive hactive' := by
    have hgeneration := (h.active id row hrow).mp hactive
    have hgeneration' := (h.active id' row' hrow').mp hactive'
    exact h.unique hrow hrow' (Option.some.inj (hgeneration.symm.trans hgeneration'))
  names generation := by
    constructor
    · intro hactive
      obtain ⟨id, row, hrow, rfl⟩ := h.recorded generation hactive
      exact ⟨id, row, hrow, (h.active id row hrow).mpr hactive, rfl⟩
    · rintro ⟨id, row, hrow, hactive, rfl⟩
      exact (h.active id row hrow).mp hactive
  absent hmanifest id row hrow := by
    have hnone : s.activeGeneration = none := by
      rw [ControllerState.activeGeneration, GenerationStore.activeId, hmanifest]
      rfl
    by_contra hactive
    rw [Bool.not_eq_false, h.active id row hrow, hnone] at hactive
    cases hactive

lemma activeRow_start : ActiveRow .start where
  unique := Table.uniqueOn_empty _
  staged := .inl rfl
  active id row hrow := absurd hrow (by simp [ControllerState.start, Table.get?, Table.empty])
  recorded generation hactive := nomatch hactive

/-- One call. -/
lemma activeRow_reconciled {sha256 : List UInt8 → HexDigest} {str : Exc → String} {c : FilesCall}
    {s : ControllerState} (hs : ActiveRow s) : ActiveRow (reconcileFiles sha256 str c s).2 := by
  have hcase := filesReconciled sha256 str c s
  generalize reconcileFiles sha256 str c s = r at hcase
  cases hcase with
  | refused => exact ⟨hs.unique, hs.staged, hs.active, hs.recorded⟩
  | unsafeNames e reconciler leases hstaged hactive =>
    have hactive := hactive hs.staged
    refine ⟨hs.unique, hstaged hs.staged, fun id row hrow => ?_, fun generation hgeneration => ?_⟩
    · rw [ControllerState.activeGeneration, hactive]
      exact hs.active id row hrow
    · rw [ControllerState.activeGeneration, hactive] at hgeneration
      exact hs.recorded generation hgeneration
  | failed e result reconciler leases happlied hid hpersisted hstaged hactive hother =>
    have hactive := hactive hs.staged
    rw [(GenerationTable.persist_of_not_applied happlied).2]
    obtain ⟨id₀, hget, hplace⟩ :=
      GenerationTable.get?_record s.generations (GenerationTable.persistedRow c.files result)
    refine ⟨GenerationTable.uniqueGenerations_record hs.unique _, hstaged hs.staged,
      fun id row hrow => ?_, fun generation hgeneration => ?_⟩
    · rw [ControllerState.activeGeneration, hactive]
      dsimp only at hrow
      rw [hget] at hrow
      split at hrow
      · -- the generation that has failed is not the active one
        obtain rfl := Option.some.inj hrow
        exact iff_of_false Bool.false_ne_true hother
      · exact hs.active id row hrow
    · rw [ControllerState.activeGeneration, hactive] at hgeneration
      obtain ⟨id, row, hrow, rfl⟩ := hs.recorded generation hgeneration
      have hid₀ : id ≠ id₀ := by
        rintro rfl
        rcases hplace with ⟨old, hold, hsame⟩ | ⟨hfree, -⟩
        · obtain rfl := Option.some.inj (hrow.symm.trans hold)
          exact hother (hgeneration.trans (congrArg some hsame))
        · exact absurd (hrow.symm.trans hfree) (Option.some_ne_none _)
      exact ⟨id, row, by dsimp only; rw [hget, if_neg hid₀, hrow], rfl⟩
  | applied result reconciler leases hlease happlied hid hpersisted hreconciled hstaged hactive =>
    obtain ⟨id₀, hget, hsame, -, hpersist⟩ :=
      GenerationTable.persist_of_applied hs.unique c.files happlied
    refine ⟨GenerationTable.uniqueGenerations_persist hs.unique _ _, hstaged hs.staged,
      fun id row hrow => ?_, fun generation hgeneration => ?_⟩
    · rw [ControllerState.activeGeneration, hactive]
      dsimp only at hrow
      rw [hpersist, GenerationTable.get?_activateRow, hget] at hrow
      obtain ⟨old, hold, rfl⟩ := Option.map_eq_some_iff.mp hrow
      split at hold
      · rename_i heq
        obtain rfl := Option.some.inj hold
        rw [if_pos heq]
        exact iff_of_true rfl rfl
      · rename_i hne
        rw [if_neg hne]
        refine iff_of_false Bool.false_ne_true fun heq => hne ?_
        exact (hsame id old hold).mp (Option.some.inj heq).symm
    · rw [ControllerState.activeGeneration, hactive] at hgeneration
      obtain rfl := Option.some.inj hgeneration
      refine ⟨id₀, ?_⟩
      dsimp only
      rw [hpersist, GenerationTable.get?_activateRow, hget, if_pos rfl, Option.map_some, if_pos rfl]
      exact ⟨_, rfl, rfl⟩

lemma activeRow_runCalls (sha256 : List UInt8 → HexDigest) (str : Exc → String)
    (calls : List FilesCall) : ActiveRow (runCalls sha256 str calls) := by
  induction calls using List.reverseRecOn with
  | nil => exact activeRow_start
  | append_singleton calls c ih =>
    rw [runCalls_append]
    exact activeRow_reconciled ih

/-- The database knows the active generation.  Behind every call, whether it returns or raises, one
row at most is active; it is the row of the generation that `ACTIVE` names, and there is none when
`ACTIVE` is absent. -/
theorem databaseAgrees_runCalls (sha256 : List UInt8 → HexDigest) (str : Exc → String)
    (calls : List FilesCall) : DatabaseAgrees (runCalls sha256 str calls) :=
  (activeRow_runCalls sha256 str calls).databaseAgrees

/-! ## A generation that is reconciled again -/

section Repeat

variable (sha256 : List UInt8 → HexDigest) (str : Exc → String)

/-- What the history of generations shows of a row. -/
def GenerationRow.history (row : GenerationRow) : Bool × GenerationState × Option String :=
  (row.isActive, row.state, row.previousGeneration)

/-- A call leaves the history of generations as it is. -/
def HistoryKept (c : FilesCall) (s : ControllerState) : Prop :=
  ∀ id, ((reconcileFiles sha256 str c s).2.generations.get? id).map GenerationRow.history =
    (s.generations.get? id).map GenerationRow.history

/-- A call leaves the history as it is, and there is an active row behind each of its
transactions. -/
def NoOp (c : FilesCall) (s : ControllerState) : Prop :=
  HistoryKept sha256 str c s ∧ ∀ t ∈ c.commits sha256 str s,
    ∃ id row, t.get? id = some row ∧ row.isActive = true

end Repeat

section RepeatCases

variable {sha256 : List UInt8 → HexDigest} {str : Exc → String} {c : FilesCall}
  {s : ControllerState} {result : ReconcileResult}

/-- What a call that returns leaves in the generation table. -/
lemma generations_of_ok (hs : ActiveRow s) (hok : (reconcileFiles sha256 str c s).1 = .ok result) :
    generationId sha256 c.files = .ok result.generation ∧
    (reconcileFiles sha256 str c s).2.activeGeneration = some result.generation ∧
    ∃ id₀,
      (∀ id, (s.generations.record (GenerationTable.persistedRow c.files result)).get? id =
        if id = id₀ then some (GenerationTable.persistedRow c.files result)
        else s.generations.get? id) ∧
      (∀ id old, s.generations.get? id = some old →
        (old.generation = result.generation ↔ id = id₀)) ∧
      c.commits sha256 str s = [s.generations.record (GenerationTable.persistedRow c.files result),
        (s.generations.record (GenerationTable.persistedRow c.files result)).activateRow id₀] ∧
      (reconcileFiles sha256 str c s).2.generations =
        (s.generations.record (GenerationTable.persistedRow c.files result)).activateRow id₀ := by
  have hcase := filesReconciled sha256 str c s
  generalize reconcileFiles sha256 str c s = r at hcase hok
  cases hcase with
  | refused => exact nomatch hok
  | unsafeNames => exact nomatch hok
  | failed => exact nomatch hok
  | applied result' reconciler leases hlease happlied hid hpersisted hreconciled hstaged hactive =>
    obtain rfl : result' = result := Except.ok.inj hok
    obtain ⟨id₀, hget, hsame, hcommits, hpersist⟩ :=
      GenerationTable.persist_of_applied hs.unique c.files happlied
    refine ⟨hid, hactive, id₀, hget, hsame, ?_, hpersist⟩
    rw [FilesCall.commits, hlease, if_neg (by decide), hpersisted]
    exact hcommits

/-- The record of a generation that is active leaves no active row, until it is activated again. -/
lemma recorded_inactive (hs : ActiveRow s) (hactive : s.activeGeneration = some result.generation)
    {files : Files} {id₀ : ℕ}
    (hget : ∀ id, (s.generations.record (GenerationTable.persistedRow files result)).get? id =
      if id = id₀ then some (GenerationTable.persistedRow files result) else s.generations.get? id)
    (hsame : ∀ id old, s.generations.get? id = some old →
      (old.generation = result.generation ↔ id = id₀)) {id : ℕ} {row : GenerationRow}
    (hrow : (s.generations.record (GenerationTable.persistedRow files result)).get? id = some row) :
    row.isActive = false := by
  rw [hget] at hrow
  split at hrow
  · rw [← Option.some.inj hrow]
    rfl
  · rename_i hne
    by_contra hrowActive
    have hgeneration := (hs.active id row hrow).mp (Bool.not_eq_false _ ▸ hrowActive)
    exact hne ((hsame id row hrow).mp (Option.some.inj (hgeneration.symm.trans hactive)))

/-- The active row behind a call that returns. -/
lemma active_of_ok (hs : ActiveRow s) (hok : (reconcileFiles sha256 str c s).1 = .ok result) :
    ∃ id row, (reconcileFiles sha256 str c s).2.generations.get? id = some row ∧
      row.generation = result.generation ∧ row.isActive = true ∧ row.state = .active := by
  obtain ⟨-, -, id₀, hget, -, -, hgenerations⟩ := generations_of_ok hs hok
  refine ⟨id₀, ?_⟩
  rw [hgenerations, GenerationTable.get?_activateRow, hget, if_pos rfl, Option.map_some, if_pos rfl]
  exact ⟨_, rfl, rfl, rfl, rfl⟩

/-- A call that finds its generation active commits a table without an active row. -/
lemma not_noOp_of_active (hs : ActiveRow s) (hactive : s.activeGeneration = some result.generation)
    (hok : (reconcileFiles sha256 str c s).1 = .ok result) : ¬ NoOp sha256 str c s := by
  obtain ⟨-, -, id₀, hget, hsame, hcommits, -⟩ := generations_of_ok hs hok
  intro hnoOp
  obtain ⟨id, row, hrow, hrowActive⟩ := hnoOp.2 _ (hcommits ▸ List.mem_cons_self)
  rw [recorded_inactive hs hactive hget hsame hrow] at hrowActive
  exact Bool.false_ne_true hrowActive

/-- Repeating a reconciliation.  A call that returns again for the files that have just been
reconciled is never a no-op: its first transaction leaves no active row.  It keeps the history of
the generations exactly when the active one had no generation before it. -/
theorem repeated_not_noOp (calls : List FilesCall) {c' : FilesCall} {result' : ReconcileResult}
    (hok : (reconcileFiles sha256 str c (runCalls sha256 str calls)).1 = .ok result)
    (hfiles : c'.files = c.files)
    (hok' : (reconcileFiles sha256 str c' (runCalls sha256 str (calls ++ [c]))).1 = .ok result') :
    ¬ NoOp sha256 str c' (runCalls sha256 str (calls ++ [c])) ∧
      (HistoryKept sha256 str c' (runCalls sha256 str (calls ++ [c])) ↔
        ∀ id row, (runCalls sha256 str (calls ++ [c])).generations.get? id = some row →
          row.isActive = true → row.previousGeneration = none) := by
  have hs := activeRow_runCalls sha256 str calls
  have hs₁ := activeRow_runCalls sha256 str (calls ++ [c])
  obtain ⟨hid, hactive, -⟩ := generations_of_ok hs hok
  obtain ⟨id₀, row₀, hrow₀, hgeneration₀, hactive₀, hstate₀⟩ := active_of_ok hs hok
  rw [← runCalls_append] at hactive hrow₀
  generalize runCalls sha256 str (calls ++ [c]) = s₁ at hs₁ hactive hrow₀ hok' ⊢
  obtain ⟨hid', -, id₁, hget, hsame, -, hgenerations⟩ := generations_of_ok hs₁ hok'
  have hgeneration : result'.generation = result.generation :=
    Except.ok.inj (hid'.symm.trans (hfiles ▸ hid))
  rw [← hgeneration] at hactive
  have hinactive : ∀ {id row}, (s₁.generations.record
      (GenerationTable.persistedRow c'.files result')).get? id = some row → row.isActive = false :=
    fun hrow => recorded_inactive hs₁ hactive hget hsame hrow
  -- the row of the generation is where it was
  obtain rfl : id₀ = id₁ := (hsame id₀ row₀ hrow₀).mp (hgeneration₀.trans hgeneration.symm)
  refine ⟨not_noOp_of_active hs₁ hactive hok', ?_⟩
  have hprevious : (s₁.generations.record
      (GenerationTable.persistedRow c'.files result')).activeRow = none :=
    GenerationTable.activeRow_eq_none_iff.mpr fun id row hrow => hinactive hrow
  have hrepeated : (reconcileFiles sha256 str c' s₁).2.generations.get? id₀ =
      some { GenerationTable.persistedRow c'.files result' with
        isActive := true, state := .active, previousGeneration := none } := by
    rw [hgenerations, GenerationTable.get?_activateRow, hget, if_pos rfl, Option.map_some,
      if_pos rfl, hprevious]
    rfl
  constructor
  · intro hkept id row hrow hrowActive
    have hrowGeneration := (hs₁.active id row hrow).mp hrowActive
    obtain rfl : id = id₀ :=
      (hsame id row hrow).mp (Option.some.inj (hrowGeneration.symm.trans hactive))
    have hhistory := hkept id
    rw [hrepeated, hrow] at hhistory
    exact (Prod.mk.inj (Prod.mk.inj (Option.some.inj hhistory)).2).2.symm
  · intro hnone id
    by_cases hne : id = id₀
    · subst hne
      rw [hrepeated, hrow₀, Option.map_some, Option.map_some]
      rw [GenerationRow.history, GenerationRow.history, hactive₀, hstate₀,
        hnone id row₀ hrow₀ hactive₀]
    · have hrecorded := hget id
      rw [if_neg hne] at hrecorded
      rw [hgenerations, GenerationTable.get?_activateRow, hrecorded, Option.map_map]
      cases hrow : s₁.generations.get? id with
      | none => rfl
      | some row =>
        have hrowInactive := hinactive (hrecorded.trans hrow)
        rw [Option.map_some, Option.map_some, Function.comp_apply, if_neg hne,
          GenerationRow.history, GenerationRow.history, hrowInactive]

/-! ### Twice the same file -/

/-- A call for one file. -/
def oneFileCall : FilesCall := ⟨"a", 0, {}, oneFile⟩

/-- The generation of the file under a hash with one value. -/
def zeroGeneration : String := "00000000000000000000"

lemma oneFileCall_applied : (reconcileFiles zeroHash (fun _ => "") oneFileCall .start).1 =
    .ok ⟨zeroGeneration, none, true, true, none⟩ := by
  decide

lemma oneFileCall_unchanged : (reconcileFiles zeroHash (fun _ => "") oneFileCall
    (runCalls zeroHash (fun _ => "") [oneFileCall])).1 =
    .ok ⟨zeroGeneration, some zeroGeneration, false, true, none⟩ := by
  decide

/-- The second call leaves the history of a first generation as it is, and there is no active row
in between. -/
theorem repeated_not_noOp_oneFile :
    ¬ NoOp zeroHash (fun _ => "") oneFileCall (runCalls zeroHash (fun _ => "") [oneFileCall]) :=
  (repeated_not_noOp [] oneFileCall_applied rfl oneFileCall_unchanged).1

/-- Repeating a reconciliation is not always a no-op. -/
theorem repeat_clears_active :
    ¬ ∀ (calls : List FilesCall) (c c' : FilesCall) (result result' : ReconcileResult),
      (reconcileFiles zeroHash (fun _ => "") c (runCalls zeroHash (fun _ => "") calls)).1 =
        .ok result → c'.files = c.files →
      (reconcileFiles zeroHash (fun _ => "") c'
        (runCalls zeroHash (fun _ => "") (calls ++ [c]))).1 = .ok result' →
      NoOp zeroHash (fun _ => "") c' (runCalls zeroHash (fun _ => "") (calls ++ [c])) := by
  intro hall
  have hnoOp := hall [] _ _ _ _ oneFileCall_applied rfl oneFileCall_unchanged
  have hactive : (runCalls zeroHash (fun _ => "") [oneFileCall]).activeGeneration =
      some zeroGeneration := by
    decide
  exact not_noOp_of_active (activeRow_runCalls _ _ [oneFileCall]) hactive oneFileCall_unchanged hnoOp

end RepeatCases

end Portwyrm.Runtime

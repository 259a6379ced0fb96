import Portwyrm.Runtime.Controller
import Portwyrm.Runtime.GeneratedPaths
import Portwyrm.Tables.Rendering

/-!
# Concurrent reconciliations

`TableRuntimeController.reconcile`, as any number of tasks: each of the four reads of `render` is a
step of its own, and only what comes behind them is under the lock of the controller.

What a task applies may have been read before a mutation that another task has applied already.
The last part is about runs in which that does not happen.
-/

namespace Portwyrm.Tables

open Base Portwyrm.Runtime Portwyrm.Quic

/-! ## Tasks -/

/-- How far a call of `TableRuntimeController.reconcile` has come. -/
inductive ReconcileTask
  | started
  | readHosts (hosts : List (ℕ × HostRow))
  | readStreams (hosts : List (ℕ × HostRow)) (streams : List (ℕ × StreamRow))
  | readRoutes (hosts : List (ℕ × HostRow)) (streams : List (ℕ × StreamRow))
      (quicRoutes : List QuicRoute)
  /-- It waits for the lock. -/
  | rendered (files : Files)
  /-- It has the lock. -/
  | locked (files : Files)
  | finished

/-- What `render` does behind its reads. -/
def renderRead (hosts : List (ℕ × HostRow)) (streams : List (ℕ × StreamRow))
    (quicRoutes : List QuicRoute) (accessLists : List AccessList) : Result Files := do
  let hosts ← validateRows validateRuntimeHost hosts
  let streams ← validateRows validateRuntimeStream streams
  let quicRoutes ← validateRoutes quicRoutes
  let accessLists ← accessLists.mapM AccessList.revalidate
  render {} (renderInput hosts streams quicRoutes accessLists)

namespace ReconcileTask

/-- A task has the lock. -/
def isLocked : ReconcileTask → Bool
  | .locked _ => true
  | _ => false

/-- The next read of a task; the last one is followed by the render. -/
def read (t : RoutingTables) : ReconcileTask → Result ReconcileTask
  | .started => do pure (.readHosts (← validateRows validateRuntimeHost t.hosts.sorted))
  | .readHosts hosts => do
    pure (.readStreams hosts (← validateRows validateRuntimeStream t.streams.sorted))
  | .readStreams hosts streams => do
    pure (.readRoutes hosts streams
      (← validateRoutes (sortedBy natLe QuicRoute.id t.quicRoutes)))
  | .readRoutes hosts streams quicRoutes => do
    let accessLists ← accessRuntimeList t.access
    pure (.rendered (← renderRead hosts streams quicRoutes accessLists))
  | task => pure task

/-- What a task comes to when it does the rest of its reads in the tables as they are. -/
def outcome (t : RoutingTables) : ReconcileTask → Option (Result Files)
  | .started => some (renderTables t)
  | .readHosts hosts => some do
    let streams ← validateRows validateRuntimeStream t.streams.sorted
    let quicRoutes ← validateRoutes (sortedBy natLe QuicRoute.id t.quicRoutes)
    renderRead hosts streams quicRoutes (← accessRuntimeList t.access)
  | .readStreams hosts streams => some do
    let quicRoutes ← validateRoutes (sortedBy natLe QuicRoute.id t.quicRoutes)
    renderRead hosts streams quicRoutes (← accessRuntimeList t.access)
  | .readRoutes hosts streams quicRoutes => some do
    renderRead hosts streams quicRoutes (← accessRuntimeList t.access)
  | .rendered files => some (pure files)
  | .locked files => some (pure files)
  | .finished => none

end ReconcileTask

section Fresh

variable (sha256 : List UInt8 → HexDigest)

/-- The generation of some tables. -/
def generationOf (t : RoutingTables) : Result String := do generationId sha256 (← renderTables t)

/-- A task comes to the generation of the tables as they are. -/
def ReconcileTask.Fresh (t : RoutingTables) (task : ReconcileTask) : Prop :=
  ∃ files ∈ task.outcome t, (files >>= generationId sha256) = generationOf sha256 t

end Fresh

/-! ## Runs -/

/-- A database, the tasks that have been started, in order, and the controller. -/
structure LiveSystem where
  tables : RoutingTables
  tasks : List ReconcileTask
  controller : ControllerState

/-- What happens next. -/
inductive TaskEvent
  /-- A mutation commits; it leaves these tables, and starts a task. -/
  | committed (t : RoutingTables)
  /-- A task is started otherwise. -/
  | requested
  /-- A task makes its next step, at this second. -/
  | advanced (task : ℕ) (clock : ℤ)

namespace LiveSystem

/-- The start of the application, on an empty root: `runtime.reconcile()` runs first. -/
def start (t : RoutingTables) : LiveSystem := ⟨t, [.started], .start⟩

/-- A task comes to another step. -/
def come (s : LiveSystem) (i : ℕ) (task : ReconcileTask) : LiveSystem :=
  { s with tasks := s.tasks.set i task }

/-- No task is under way. -/
def Quiet (s : LiveSystem) : Prop := ∀ task ∈ s.tasks, task = .finished

section Events

variable (sha256 : List UInt8 → HexDigest) (str : Exc → String) (holder : String)

/-- A task makes its next step, unless it waits for the lock; every validation and every reload
succeeds. -/
def advance (s : LiveSystem) (i : ℕ) (clock : ℤ) : LiveSystem :=
  match s.tasks[i]? with
  | none | some .finished => s
  | some (.rendered files) =>
    if s.tasks.any ReconcileTask.isLocked then s else s.come i (.locked files)
  | some (.locked files) =>
    { s.come i .finished with
      controller := (reconcileFiles sha256 str ⟨holder, clock, {}, files⟩ s.controller).2 }
  | some task =>
    match task.read s.tables with
    | .ok task' => s.come i task'
    -- a read or the render raises
    | .error _ => s.come i .finished

/-- The system behind an event. -/
def after (s : LiveSystem) : TaskEvent → LiveSystem
  | .committed t => { s with tables := t, tasks := s.tasks ++ [.started] }
  | .requested => { s with tasks := s.tasks ++ [.started] }
  | .advanced i clock => s.advance sha256 str holder i clock

/-- The system behind a sequence of events. -/
def run (s : LiveSystem) (events : List TaskEvent) : LiveSystem :=
  events.foldl (after sha256 str holder) s

/-- The active generation is that of the tables as they are. -/
def UpToDate (s : LiveSystem) : Prop :=
  ∃ id, generationOf sha256 s.tables = .ok id ∧ s.controller.activeGeneration = some id

/-- Another task comes to the generation of the tables as they are. -/
def Superseded (s : LiveSystem) (i : ℕ) : Prop :=
  ∃ j task, j ≠ i ∧ s.tasks[j]? = some task ∧ task.Fresh sha256 s.tables

/-- The condition on an event: a task that applies the files of other tables, or that raises while
the active generation is that of other tables, is followed by one that does neither. -/
def Allowed (s : LiveSystem) : TaskEvent → Prop
  | .committed _ | .requested => True
  | .advanced i _ => ∀ task, s.tasks[i]? = some task →
    match task with
    | .locked _ => task.Fresh sha256 s.tables ∨ s.Superseded sha256 i
    | _ => (∃ e, task.read s.tables = .error e) → s.UpToDate sha256 ∨ s.Superseded sha256 i

/-- Every event of a run meets the condition. -/
def AllAllowed (s : LiveSystem) : List TaskEvent → Prop
  | [] => True
  | e :: events => s.Allowed sha256 e ∧ (s.after sha256 str holder e).AllAllowed events

end Events

end LiveSystem

/-! ## One step of a task -/

section Tasks

variable {sha256 : List UInt8 → HexDigest} {t : RoutingTables} {task task' : ReconcileTask}
  {files : Files}

/-- A task that reads still comes to the same. -/
lemma outcome_read (h : task.read t = .ok task') : task'.outcome t = task.outcome t := by
  cases task with
  | started =>
    simp only [ReconcileTask.read, bind_eq_ok_iff, pure_eq_ok_iff] at h
    obtain ⟨hosts, hhosts, rfl⟩ := h
    rw [ReconcileTask.outcome, ReconcileTask.outcome, renderTables, hhosts]
    rfl
  | readHosts hosts =>
    simp only [ReconcileTask.read, bind_eq_ok_iff, pure_eq_ok_iff] at h
    obtain ⟨streams, hstreams, rfl⟩ := h
    rw [ReconcileTask.outcome, ReconcileTask.outcome, hstreams]
    rfl
  | readStreams hosts streams =>
    simp only [ReconcileTask.read, bind_eq_ok_iff, pure_eq_ok_iff] at h
    obtain ⟨quicRoutes, hquicRoutes, rfl⟩ := h
    rw [ReconcileTask.outcome, ReconcileTask.outcome, hquicRoutes]
    rfl
  | readRoutes hosts streams quicRoutes =>
    simp only [ReconcileTask.read, bind_eq_ok_iff, pure_eq_ok_iff] at h
    obtain ⟨accessLists, haccess, files, hfiles, rfl⟩ := h
    rw [ReconcileTask.outcome, ReconcileTask.outcome, haccess, ok_bind, hfiles]
    rfl
  | rendered files => exact pure_eq_ok_iff.mp h ▸ rfl
  | locked files => exact pure_eq_ok_iff.mp h ▸ rfl
  | finished => exact pure_eq_ok_iff.mp h ▸ rfl

lemma fresh_started : ReconcileTask.started.Fresh sha256 t := ⟨_, rfl, rfl⟩

lemma not_fresh_finished : ¬ ReconcileTask.finished.Fresh sha256 t := by
  rintro ⟨files, hfiles, -⟩
  exact nomatch hfiles

lemma fresh_locked_iff :
    (ReconcileTask.locked files).Fresh sha256 t ↔ generationId sha256 files = generationOf sha256 t := by
  constructor
  · rintro ⟨result, hresult, h⟩
    obtain rfl := Option.some.inj hresult
    exact h
  · exact fun h => ⟨_, rfl, h⟩

/-- What a task has rendered has generated names. -/
def ReconcileTask.Generated : ReconcileTask → Prop
  | .rendered files => ∀ name ∈ files, GeneratedName name
  | .locked files => ∀ name ∈ files, GeneratedName name
  | _ => True

lemma generated_renderRead {hosts : List (ℕ × HostRow)} {streams : List (ℕ × StreamRow)}
    {quicRoutes : List QuicRoute} {accessLists : List AccessList}
    (h : renderRead hosts streams quicRoutes accessLists = .ok files) :
    ∀ name ∈ files, GeneratedName name := by
  simp only [renderRead, bind_eq_ok_iff] at h
  obtain ⟨_, -, _, -, _, -, _, -, hrender⟩ := h
  exact fun name hname => generatedName_of_render hrender hname

lemma generated_renderTables (h : renderTables t = .ok files) :
    ∀ name ∈ files, GeneratedName name := by
  simp only [renderTables, bind_eq_ok_iff] at h
  obtain ⟨_, -, _, -, _, -, _, -, _, -, _, -, _, -, _, -, hrender⟩ := h
  exact fun name hname => generatedName_of_render hrender hname

lemma generated_read (htask : task.Generated) (h : task.read t = .ok task') : task'.Generated := by
  cases task with
  | started =>
    simp only [ReconcileTask.read, bind_eq_ok_iff, pure_eq_ok_iff] at h
    obtain ⟨hosts, -, rfl⟩ := h
    exact trivial
  | readHosts hosts =>
    simp only [ReconcileTask.read, bind_eq_ok_iff, pure_eq_ok_iff] at h
    obtain ⟨streams, -, rfl⟩ := h
    exact trivial
  | readStreams hosts streams =>
    simp only [ReconcileTask.read, bind_eq_ok_iff, pure_eq_ok_iff] at h
    obtain ⟨quicRoutes, -, rfl⟩ := h
    exact trivial
  | readRoutes hosts streams quicRoutes =>
    simp only [ReconcileTask.read, bind_eq_ok_iff, pure_eq_ok_iff] at h
    obtain ⟨accessLists, -, files, hfiles, rfl⟩ := h
    exact generated_renderRead hfiles
  | rendered files => exact pure_eq_ok_iff.mp h ▸ htask
  | locked files => exact pure_eq_ok_iff.mp h ▸ htask
  | finished => exact pure_eq_ok_iff.mp h ▸ htask

end Tasks

/-! ## Applying -/

section Applying

variable {files : Files} {c : ControllerState}

/-- Nobody has the lease of reconciliations. -/
def LeaseFree (c : ControllerState) : Prop :=
  ∀ id row, c.leases.get? id = some row → row.name ≠ reconcileLease

/-- When nobody has the lease, a rendered generation becomes the active one, and the lease is given
back. -/
lemma reconcileFiles_generated (sha256 : List UInt8 → HexDigest) (str : Exc → String)
    (holder : String) (clock : ℤ) (hfree : LeaseFree c) (hfiles : ∀ name ∈ files, GeneratedName name) :
    LeaseFree (reconcileFiles sha256 str ⟨holder, clock, {}, files⟩ c).2 ∧
    (reconcileFiles sha256 str ⟨holder, clock, {}, files⟩ c).2.activeGeneration =
      some (sha256 (encode files)).short := by
  obtain ⟨result, hresult⟩ := reconcile_generated sha256 hfiles c.reconciler
  have hlease : FilesCall.lease ⟨holder, clock, {}, files⟩ c =
      (⟨true, reconcileLease, holder, clock + ttlSeconds (some reconcileTtl)⟩,
        c.leases.add ⟨reconcileLease, holder, clock + ttlSeconds (some reconcileTtl)⟩) := by
    have hcase := LeaseTable.acquired c.leases reconcileLease holder (some reconcileTtl) clock
    rw [FilesCall.lease]
    generalize c.leases.acquire reconcileLease holder (some reconcileTtl) clock = r at hcase
    cases hcase with
    | created => rfl
    | refused id row hrow hname => exact absurd hname (hfree id row hrow)
    | taken id row hrow hname => exact absurd hname (hfree id row hrow)
  have hpersisted : FilesCall.persisted sha256 str ⟨holder, clock, {}, files⟩ c = some result := by
    simp only [FilesCall.persisted, hresult]
  have hcase := reconciled sha256 {} files c.reconciler
  rw [hresult] at hcase
  obtain ⟨-, hid, hactive⟩ := activeId_of_ok hcase
  rw [generationId_ok sha256 hfiles] at hid
  rw [reconcileFiles, hlease]
  dsimp only
  rw [if_neg (by decide), hpersisted]
  refine ⟨fun id row hrow hname => ?_, hactive.trans (congrArg some (Except.ok.inj hid).symm)⟩
  -- the rows of the lease were deleted when it was given back
  obtain ⟨hrow, hkept⟩ := Table.get?_deleteWhere.mp hrow
  rw [Table.get?_add] at hrow
  split at hrow
  · obtain rfl := Option.some.inj hrow
    exact hkept (by simp)
  · exact hfree id row hrow hname

end Applying

/-! ## What an event does -/

namespace LiveSystem

lemma run_append (sha256 : List UInt8 → HexDigest) (str : Exc → String) (holder : String)
    (s : LiveSystem) (before later : List TaskEvent) : s.run sha256 str holder (before ++ later) =
      (s.run sha256 str holder before).run sha256 str holder later :=
  List.foldl_append

section Steps

variable {sha256 : List UInt8 → HexDigest} {str : Exc → String} {holder : String}
  {s s' : LiveSystem} {i : ℕ} {clock : ℤ}

/-- The ways in which a task makes its next step. -/
inductive Advanced (sha256 : List UInt8 → HexDigest) (str : Exc → String) (holder : String)
    (s : LiveSystem) (i : ℕ) (clock : ℤ) : LiveSystem → Prop
  /-- There is nothing to do, or another task has the lock. -/
  | waits : Advanced sha256 str holder s i clock s
  /-- It reads. -/
  | reads (task task' : ReconcileTask) (htask : s.tasks[i]? = some task)
      (hread : task.read s.tables = .ok task') :
      Advanced sha256 str holder s i clock (s.come i task')
  /-- It takes the lock. -/
  | locks (files : Files) (htask : s.tasks[i]? = some (.rendered files)) :
      Advanced sha256 str holder s i clock (s.come i (.locked files))
  /-- It applies its files. -/
  | applies (files : Files) (htask : s.tasks[i]? = some (.locked files)) :
      Advanced sha256 str holder s i clock { s.come i .finished with
        controller := (reconcileFiles sha256 str ⟨holder, clock, {}, files⟩ s.controller).2 }
  /-- It raises. -/
  | raises (task : ReconcileTask) (e : Exc) (htask : s.tasks[i]? = some task)
      (hread : task.read s.tables = .error e) :
      Advanced sha256 str holder s i clock (s.come i .finished)

theorem advanced (sha256 : List UInt8 → HexDigest) (str : Exc → String) (holder : String)
    (s : LiveSystem) (i : ℕ) (clock : ℤ) :
    Advanced sha256 str holder s i clock (s.advance sha256 str holder i clock) := by
  have hreads : ∀ task, s.tasks[i]? = some task →
      Advanced sha256 str holder s i clock (match task.read s.tables with
        | .ok task' => s.come i task'
        | .error _ => s.come i .finished) := by
    intro task htask
    cases hread : task.read s.tables with
    | ok task' => exact .reads task task' htask hread
    | error e => exact .raises task e htask hread
  unfold advance
  cases htask : s.tasks[i]? with
  | none => exact .waits
  | some task =>
    cases task with
    | started => exact hreads _ htask
    | readHosts hosts => exact hreads _ htask
    | readStreams hosts streams => exact hreads _ htask
    | readRoutes hosts streams quicRoutes => exact hreads _ htask
    | rendered files =>
      dsimp only
      split
      · exact .waits
      · exact .locks files htask
    | locked files => exact .applies files htask
    | finished => exact .waits

/-- What holds of every system that is reached: nobody has the lease between two steps, and what has
been rendered has generated names. -/
structure Sane (s : LiveSystem) : Prop where
  leaseFree : LeaseFree s.controller
  generated : ∀ task ∈ s.tasks, task.Generated

lemma Sane.task (hs : s.Sane) {task : ReconcileTask} (htask : s.tasks[i]? = some task) :
    task.Generated :=
  hs.generated task (List.mem_of_getElem? htask)

lemma sane_start (t : RoutingTables) : (start t).Sane where
  leaseFree id row hrow := absurd hrow (by simp [start, ControllerState.start, Table.get?, Table.empty])
  generated task htask := by
    obtain rfl := List.mem_singleton.mp htask
    exact trivial

lemma Sane.come (hs : s.Sane) {task : ReconcileTask} (htask : task.Generated) :
    (s.come i task).Sane where
  leaseFree := hs.leaseFree
  generated task' htask' := by
    rcases List.mem_or_eq_of_mem_set htask' with hmem | rfl
    · exact hs.generated task' hmem
    · exact htask

lemma Sane.started (hs : s.Sane) (t : RoutingTables) :
    Sane { s with tables := t, tasks := s.tasks ++ [.started] } where
  leaseFree := hs.leaseFree
  generated task htask := by
    rcases List.mem_append.mp htask with hmem | hmem
    · exact hs.generated task hmem
    · obtain rfl := List.mem_singleton.mp hmem
      exact trivial

lemma sane_after (hs : s.Sane) (e : TaskEvent) : (s.after sha256 str holder e).Sane := by
  cases e with
  | committed t => exact hs.started t
  | requested => exact hs.started s.tables
  | advanced i clock =>
    have hcase := advanced sha256 str holder s i clock
    rw [after]
    generalize s.advance sha256 str holder i clock = s' at hcase ⊢
    cases hcase with
    | waits => exact hs
    | reads task task' htask hread => exact hs.come (generated_read (hs.task htask) hread)
    | locks files htask =>
      have hfiles : (ReconcileTask.rendered files).Generated := hs.task htask
      exact hs.come hfiles
    | applies files htask =>
      have hfiles : ∀ name ∈ files, GeneratedName name := hs.task htask
      have hfinished : (s.come i .finished).Sane := hs.come trivial
      exact ⟨(reconcileFiles_generated sha256 str holder clock hs.leaseFree hfiles).1, hfinished.generated⟩
    | raises =>
      have hfinished : (s.come i .finished).Sane := hs.come trivial
      exact hfinished

/-- The active generation is that of the tables, or a task comes to it. -/
def Converges (sha256 : List UInt8 → HexDigest) (s : LiveSystem) : Prop :=
  s.UpToDate sha256 ∨ ∃ (i : ℕ) (task : ReconcileTask), s.tasks[i]? = some task ∧
    task.Fresh sha256 s.tables

/-- A task that steps on leaves the other ones. -/
lemma Superseded.come (h : s.Superseded sha256 i) (task : ReconcileTask) :
    ∃ (j : ℕ) (task' : ReconcileTask), (s.come i task).tasks[j]? = some task' ∧
      task'.Fresh sha256 s.tables := by
  obtain ⟨j, task', hne, htask', hfresh⟩ := h
  exact ⟨j, task', by rw [LiveSystem.come, List.getElem?_set_ne hne.symm, htask'], hfresh⟩

/-- A fresh task is the one that steps on, or another one. -/
lemma fresh_or_superseded {j : ℕ} {task : ReconcileTask} (htask : s.tasks[j]? = some task)
    (hfresh : task.Fresh sha256 s.tables) (i : ℕ) : i = j ∨ s.Superseded sha256 i := by
  by_cases hij : i = j
  · exact .inl hij
  · exact .inr ⟨j, task, fun h => hij h.symm, htask, hfresh⟩

/-- Who applies its files leaves the generation of the tables active, if and only if it is fresh. -/
theorem upToDate_applied_iff (sha256 : List UInt8 → HexDigest) (str : Exc → String)
    (holder : String) (clock : ℤ) (hs : s.Sane) {files : Files}
    (htask : s.tasks[i]? = some (.locked files)) :
    (s.after sha256 str holder (.advanced i clock)).UpToDate sha256 ↔
      (ReconcileTask.locked files).Fresh sha256 s.tables := by
  have hfiles : ∀ name ∈ files, GeneratedName name := hs.task htask
  have hactive := (reconcileFiles_generated sha256 str holder clock hs.leaseFree hfiles).2
  rw [fresh_locked_iff, generationId_ok sha256 hfiles]
  have hafter : s.after sha256 str holder (.advanced i clock) = { s.come i .finished with
      controller := (reconcileFiles sha256 str ⟨holder, clock, {}, files⟩ s.controller).2 } := by
    simp only [after, advance, htask]
  rw [hafter]
  constructor
  · rintro ⟨id, hid, hid'⟩
    obtain rfl := Option.some.inj (hactive.symm.trans hid')
    exact hid.symm
  · exact fun h => ⟨_, h.symm, hactive⟩

/-- One event that meets the condition. -/
lemma converges_after (hs : s.Sane) (h : s.Converges sha256) {e : TaskEvent}
    (hallowed : s.Allowed sha256 e) : (s.after sha256 str holder e).Converges sha256 := by
  have hstarted : ∀ t, Converges sha256 { s with tables := t, tasks := s.tasks ++ [.started] } := by
    intro t
    exact .inr ⟨s.tasks.length, .started, by simp, fresh_started⟩
  cases e with
  | committed t => exact hstarted t
  | requested => exact hstarted s.tables
  | advanced i clock =>
    have happlied := fun (files : Files) (htask : s.tasks[i]? = some (.locked files)) =>
      upToDate_applied_iff sha256 str holder clock hs htask
    have hcase := advanced sha256 str holder s i clock
    rw [after] at happlied ⊢
    generalize s.advance sha256 str holder i clock = s' at hcase happlied ⊢
    -- a task that goes on comes to what it came to before
    have hgoes : ∀ {task task'}, s.tasks[i]? = some task →
        (task.Fresh sha256 s.tables → task'.Fresh sha256 s.tables) →
        (s.come i task').Converges sha256 := by
      intro task task' htask hsame
      rcases h with hup | ⟨j, task'', htask'', hfresh⟩
      · exact .inl hup
      · rcases fresh_or_superseded htask'' hfresh i with rfl | hother
        · obtain rfl := Option.some.inj (htask.symm.trans htask'')
          refine .inr ⟨i, task', ?_, hsame hfresh⟩
          exact List.getElem?_set_self (List.getElem?_eq_some_iff.mp htask).1
        · exact .inr (hother.come task')
    cases hcase with
    | waits => exact h
    | reads task task' htask hread =>
      refine hgoes htask ?_
      rintro ⟨files, hfiles, hsame⟩
      exact ⟨files, outcome_read hread ▸ hfiles, hsame⟩
    | locks files htask => exact hgoes htask id
    | applies files htask =>
      rcases hallowed _ htask with hfresh | hother
      · exact .inl ((happlied files htask).mpr hfresh)
      · exact .inr (hother.come .finished)
    | raises task e htask hread =>
      have hends : s.UpToDate sha256 ∨ s.Superseded sha256 i := by
        have hcond := hallowed task htask
        cases task with
        | locked files => exact nomatch hread
        | started => exact hcond ⟨e, hread⟩
        | readHosts hosts => exact hcond ⟨e, hread⟩
        | readStreams hosts streams => exact hcond ⟨e, hread⟩
        | readRoutes hosts streams quicRoutes => exact hcond ⟨e, hread⟩
        | rendered files => exact nomatch hread
        | finished => exact nomatch hread
      rcases hends with hup | hother
      · exact .inl hup
      · exact .inr (hother.come .finished)

/-- A run whose events meet the condition. -/
lemma converges_run (hs : s.Sane) (h : s.Converges sha256) {events : List TaskEvent}
    (hallowed : s.AllAllowed sha256 str holder events) :
    (s.run sha256 str holder events).Sane ∧ (s.run sha256 str holder events).Converges sha256 := by
  induction events generalizing s with
  | nil => exact ⟨hs, h⟩
  | cons e events ih => exact ih (sane_after hs e) (converges_after hs h hallowed.1) hallowed.2

/-! ## A task that runs alone -/

lemma come_come (s : LiveSystem) (i : ℕ) (task task' : ReconcileTask) :
    (s.come i task).come i task' = s.come i task' := by
  simp only [LiveSystem.come, List.set_set]

lemma getElem?_come (hi : i < s.tasks.length) (task : ReconcileTask) :
    (s.come i task).tasks[i]? = some task :=
  List.getElem?_set_self hi

lemma come_self {task : ReconcileTask} (htask : s.tasks[i]? = some task) : s.come i task = s := by
  obtain ⟨hi, rfl⟩ := List.getElem?_eq_some_iff.mp htask
  simp only [LiveSystem.come, List.set_getElem_self]

variable (sha256 : List UInt8 → HexDigest) (str : Exc → String) (holder : String) (clock : ℤ)

/-- A task that makes a step which meets the condition. -/
def Goes (s : LiveSystem) (i : ℕ) (task task' : ReconcileTask) : Prop :=
  (s.come i task).Allowed sha256 (.advanced i clock) ∧
    (s.come i task).after sha256 str holder (.advanced i clock) = s.come i task'

variable {sha256 str holder clock}

/-- A task that reads. -/
lemma goes_of_read (hi : i < s.tasks.length) {task task' : ReconcileTask}
    (hread : task.read s.tables = .ok task') (hother : task.read s.tables ≠ .ok task) :
    Goes sha256 str holder clock s i task task' := by
  have htask : (s.come i task).tasks[i]? = some task := getElem?_come hi task
  have hsame : (s.come i task).tables = s.tables := rfl
  constructor
  · intro task'' htask''
    obtain rfl := Option.some.inj (htask.symm.trans htask'')
    cases task with
    | locked files => exact absurd rfl hother
    | _ => exact fun ⟨e, he⟩ => nomatch hread.symm.trans he
  · rw [after, advance, htask]
    cases task with
    | started => simp only [hsame, hread, come_come]
    | readHosts hosts => simp only [hsame, hread, come_come]
    | readStreams hosts streams => simp only [hsame, hread, come_come]
    | readRoutes hosts streams quicRoutes => simp only [hsame, hread, come_come]
    | rendered files => exact absurd rfl hother
    | locked files => exact absurd rfl hother
    | finished => exact absurd rfl hother

/-- A task that takes the lock. -/
lemma goes_locked (hi : i < s.tasks.length) (hfree : ∀ task ∈ s.tasks, task.isLocked = false)
    (files : Files) : Goes sha256 str holder clock s i (.rendered files) (.locked files) := by
  have htask : (s.come i (.rendered files)).tasks[i]? = some (.rendered files) :=
    getElem?_come hi _
  have hany : (s.come i (.rendered files)).tasks.any ReconcileTask.isLocked = false := by
    refine List.any_eq_false.mpr fun task htask => ?_
    rcases List.mem_or_eq_of_mem_set htask with hmem | rfl
    · rw [hfree task hmem]
      exact Bool.false_ne_true
    · exact Bool.false_ne_true
  refine ⟨fun task htask' => ?_, ?_⟩
  · obtain rfl := Option.some.inj (htask.symm.trans htask')
    exact fun ⟨e, he⟩ => nomatch he
  · rw [after, advance, htask]
    dsimp only
    rw [hany, if_neg Bool.false_ne_true, come_come]

/-- The system behind a task that applies its files. -/
def applied (sha256 : List UInt8 → HexDigest) (str : Exc → String) (holder : String) (clock : ℤ)
    (s : LiveSystem) (i : ℕ) (files : Files) : LiveSystem :=
  { s.come i .finished with
    controller := (reconcileFiles sha256 str ⟨holder, clock, {}, files⟩ s.controller).2 }

lemma after_locked (hi : i < s.tasks.length) (files : Files) :
    (s.come i (.locked files)).after sha256 str holder (.advanced i clock) =
      applied sha256 str holder clock s i files := by
  rw [after, advance, getElem?_come hi]
  dsimp only
  rw [come_come]
  rfl

/-- A task that nobody interferes with applies the generation of the tables. -/
theorem run_alone (htask : s.tasks[i]? = some .started)
    (hfree : ∀ task ∈ s.tasks, task.isLocked = false) {files : Files}
    (hrender : renderTables s.tables = .ok files) :
    s.AllAllowed sha256 str holder (List.replicate 6 (.advanced i clock)) ∧
    s.run sha256 str holder (List.replicate 6 (.advanced i clock)) =
      applied sha256 str holder clock s i files := by
  have hi : i < s.tasks.length := (List.getElem?_eq_some_iff.mp htask).1
  have hgeneration : generationId sha256 files = generationOf sha256 s.tables := by
    rw [generationOf, hrender]
    rfl
  simp only [renderTables, bind_eq_ok_iff] at hrender
  obtain ⟨hosts, hhosts, streams, hstreams, quicRoutes, hquicRoutes, accessLists, haccess, hrender⟩ :=
    hrender
  have hread : renderRead hosts streams quicRoutes accessLists = .ok files := by
    simp only [renderRead, bind_eq_ok_iff]
    exact hrender
  have h₁ : Goes sha256 str holder clock s i .started (.readHosts hosts) :=
    goes_of_read hi (by rw [ReconcileTask.read, hhosts]; rfl)
      (by rw [ReconcileTask.read, hhosts]; rintro ⟨⟩)
  have h₂ : Goes sha256 str holder clock s i (.readHosts hosts) (.readStreams hosts streams) :=
    goes_of_read hi (by rw [ReconcileTask.read, hstreams]; rfl)
      (by rw [ReconcileTask.read, hstreams]; rintro ⟨⟩)
  have h₃ : Goes sha256 str holder clock s i (.readStreams hosts streams)
      (.readRoutes hosts streams quicRoutes) :=
    goes_of_read hi (by rw [ReconcileTask.read, hquicRoutes]; rfl)
      (by rw [ReconcileTask.read, hquicRoutes]; rintro ⟨⟩)
  have h₄ : Goes sha256 str holder clock s i (.readRoutes hosts streams quicRoutes)
      (.rendered files) :=
    goes_of_read hi (by rw [ReconcileTask.read, haccess, ok_bind, hread]; rfl)
      (by rw [ReconcileTask.read, haccess, ok_bind, hread]; rintro ⟨⟩)
  have h₅ : Goes sha256 str holder clock s i (.rendered files) (.locked files) :=
    goes_locked hi hfree files
  have hallowed : (s.come i (.locked files)).Allowed sha256 (.advanced i clock) := by
    intro task' htask'
    obtain rfl := Option.some.inj ((getElem?_come hi (.locked files)).symm.trans htask')
    exact .inl (fresh_locked_iff.mpr hgeneration)
  rw [← come_self htask]
  constructor
  · refine ⟨h₁.1, ?_⟩
    rw [h₁.2]
    refine ⟨h₂.1, ?_⟩
    rw [h₂.2]
    refine ⟨h₃.1, ?_⟩
    rw [h₃.2]
    refine ⟨h₄.1, ?_⟩
    rw [h₄.2]
    refine ⟨h₅.1, ?_⟩
    rw [h₅.2]
    exact ⟨hallowed, trivial⟩
  · simp only [run, List.replicate, List.foldl_cons, List.foldl_nil]
    rw [h₁.2, h₂.2, h₃.2, h₄.2, h₅.2, after_locked hi, come_self htask]

/-! ## Runs that meet the condition -/

/-- Concurrent reconciliations: in every run whose events meet the condition, the active generation
is that of the tables whenever no task is under way. -/
theorem upToDate_of_allowed (sha256 : List UInt8 → HexDigest) (str : Exc → String)
    (holder : String) (t : RoutingTables) (events : List TaskEvent)
    (hallowed : (start t).AllAllowed sha256 str holder events)
    (hquiet : ((start t).run sha256 str holder events).Quiet) :
    ((start t).run sha256 str holder events).UpToDate sha256 := by
  have hstart : (start t).Converges sha256 := .inr ⟨0, .started, rfl, fresh_started⟩
  rcases (converges_run (sane_start t) hstart hallowed).2 with hup | ⟨i, task, htask, hfresh⟩
  · exact hup
  · rw [hquiet task (List.mem_of_getElem? htask)] at hfresh
    exact absurd hfresh not_fresh_finished

end Steps

/-! ### A task on empty tables -/

lemma renderTables_empty : ∃ files, renderTables {} = .ok files := ⟨_, rfl⟩

lemma quiet_applied_start (sha256 : List UInt8 → HexDigest) (str : Exc → String)
    (t : RoutingTables) (files : Files) : (applied sha256 str "a" 0 (start t) 0 files).Quiet := by
  intro task htask
  exact List.mem_singleton.mp htask

/-- The first task of an application without resources. -/
theorem upToDate_of_allowed_start :
    ((start {}).run zeroHash (fun _ => "") "a" (List.replicate 6 (.advanced 0 0))).UpToDate
      zeroHash := by
  obtain ⟨files, hfiles⟩ := renderTables_empty
  have hfree : ∀ task ∈ (start {}).tasks, task.isLocked = false := by
    intro task htask
    rw [List.mem_singleton.mp htask]
    rfl
  have hrun : (start {}).AllAllowed zeroHash (fun _ => "") "a"
        (List.replicate 6 (.advanced 0 0)) ∧
      (start {}).run zeroHash (fun _ => "") "a" (List.replicate 6 (.advanced 0 0)) =
        applied zeroHash (fun _ => "") "a" 0 (start {}) 0 files :=
    run_alone rfl hfree hfiles
  refine upToDate_of_allowed zeroHash (fun _ => "") "a" {} _ hrun.1 ?_
  rw [hrun.2]
  exact quiet_applied_start zeroHash _ {} files

/-! ### A stream that is deleted -/

/-- A stream. -/
def servedStream : StreamRow where
  ownerPrincipalId := none
  protocol := .tcp
  incomingPort := 5432
  targetKind := .dns
  target := "database"
  targetPort := 5432
  certificateId := none
  enabled := true
  compat := {}

/-- The tables with the stream. -/
def servedTables : RoutingTables := { streams := Dict.empty.set 1 servedStream }

/-- A task reads the stream, and is overtaken by the task of the mutation that deletes it. -/
def overtakenEvents : List TaskEvent :=
  List.replicate 6 (.advanced 0 0) ++ [.committed servedTables, .advanced 1 0, .advanced 1 0,
    .committed {}] ++ List.replicate 6 (.advanced 2 0) ++ List.replicate 4 (.advanced 1 0)

/-- What is rendered with the stream. -/
def servedFile : String × String :=
  ("stream/stream-1.conf", renderStream {} (runtimeStream 1 servedStream))

/-- The renders of the empty tables and of the stream. -/
lemma renders_served : ∃ files, renderTables {} = .ok files ∧ renderRead [] [] [] [] = .ok files ∧
    renderRead [] [(1, servedStream)] [] [] = .ok (files.set servedFile.1 servedFile.2) ∧
    servedFile.1 ∉ files :=
  ⟨_, rfl, rfl, rfl, by decide⟩

/-- More files are more for the hash to read. -/
lemma length_encode_set {files : Files} {e : String × String} (h : e.1 ∉ files) :
    (encode files).length < (encode (files.set e.1 e.2)).length := by
  have hlength : ∀ files : Files,
      (encode files).length = (files.entries.map fun item => (encodeItem item).length).sum := by
    intro files
    rw [encode, List.length_flatMap]
    exact ((perm_sortedBy textLe Prod.fst files.entries).map _).sum_nat
  rw [hlength, hlength, Dict.entries_set_of_not_mem h, List.map_append, List.sum_append]
  have hpositive : 0 < (encodeItem e).length := by
    rw [encodeItem, List.length_append]
    exact Nat.lt_of_lt_of_le Nat.one_pos (Nat.le_add_left 1 _)
  simpa using hpositive

/-- A hash with two values, by the length of what is read. -/
def lengthHash (n : ℕ) (bytes : List UInt8) : HexDigest :=
  if bytes.length ≤ n then zeroHash bytes
  else
    { text := List.replicate 64 'f'
      length_eq := by simp
      hex := fun c hc => by
        obtain rfl := List.eq_of_mem_replicate hc
        decide }

lemma short_lengthHash {bytes bytes' : List UInt8} (h : bytes.length < bytes'.length) :
    (lengthHash bytes.length bytes').short ≠ (lengthHash bytes.length bytes).short := by
  have hzero : (zeroHash bytes).short = (zeroHash []).short := rfl
  rw [lengthHash, lengthHash, if_pos (le_refl _), if_neg (Nat.not_le.mpr h), hzero]
  decide

/-- The system when the overtaken task has read the stream. -/
def readServed (third : ReconcileTask) (c : ControllerState) : LiveSystem :=
  ⟨{}, [.finished, .readStreams [] [(1, servedStream)], third], c⟩

/-- The events before and behind the task that overtakes the other one. -/
lemma run_readServed (sha256 : List UInt8 → HexDigest) (str : Exc → String) (holder : String)
    (c : ControllerState) : LiveSystem.run sha256 str holder ⟨{}, [.finished], c⟩
      [.committed servedTables, .advanced 1 0, .advanced 1 0, .committed {}] =
    readServed .started c := rfl

/-- The overtaken task renders the stream, and applies it. -/
lemma run_overtaken (sha256 : List UInt8 → HexDigest) (str : Exc → String) (holder : String)
    (c : ControllerState) {files : Files} (h : renderRead [] [(1, servedStream)] [] [] = .ok files) :
    (readServed .finished c).run sha256 str holder (List.replicate 4 (.advanced 1 0)) =
      ((readServed .finished c).come 1 (.locked files)).after sha256 str holder (.advanced 1 0) := by
  have hi : 1 < (readServed .finished c).tasks.length := Nat.lt_of_sub_eq_succ rfl
  have hroutes : Goes sha256 str holder 0 (readServed .finished c) 1
      (.readStreams [] [(1, servedStream)]) (.readRoutes [] [(1, servedStream)] []) :=
    goes_of_read hi rfl nofun
  have hrender : Goes sha256 str holder 0 (readServed .finished c) 1
      (.readRoutes [] [(1, servedStream)] []) (.rendered files) := by
    have hread : ReconcileTask.read {} (.readRoutes [] [(1, servedStream)] []) =
        .ok (.rendered files) := by
      have haccess : accessRuntimeList ({} : RoutingTables).access = .ok [] := rfl
      rw [ReconcileTask.read, haccess, ok_bind, h]
      rfl
    exact goes_of_read hi hread (hread ▸ nofun)
  have hlock : Goes sha256 str holder 0 (readServed .finished c) 1 (.rendered files)
      (.locked files) := by
    refine goes_locked hi (fun task htask => ?_) files
    simp only [readServed, List.mem_cons, List.not_mem_nil, or_false] at htask
    rcases htask with rfl | rfl | rfl <;> rfl
  have hself : (readServed .finished c).come 1 (.readStreams [] [(1, servedStream)]) =
      readServed .finished c := rfl
  simp only [run, List.replicate, List.foldl_cons, List.foldl_nil]
  rw [← hself, hroutes.2, hrender.2, hlock.2, hself]

/-- A stream that is deleted can stay in the active generation when no task is under way. -/
theorem deleted_served : ¬ ∀ (sha256 : List UInt8 → HexDigest) (str : Exc → String)
    (holder : String) (t : RoutingTables) (events : List TaskEvent),
    ((start t).run sha256 str holder events).Quiet →
      ((start t).run sha256 str holder events).UpToDate sha256 := by
  intro hall
  obtain ⟨files, hempty, hread, hserved, hnew⟩ := renders_served
  let sha256 := lengthHash (encode files).length
  let str : Exc → String := fun _ => ""
  let apply : Files → ControllerState → ControllerState :=
    fun files c => (reconcileFiles sha256 str ⟨"a", 0, {}, files⟩ c).2
  -- the first task runs alone, and the third one between two steps of the second one
  have hfirst : (start {}).run sha256 str "a" (List.replicate 6 (.advanced 0 0)) =
      ⟨{}, [.finished], apply files .start⟩ := by
    refine (run_alone rfl (fun task htask => ?_) hempty).2
    rw [List.mem_singleton.mp htask]
    rfl
  have hthird : ∀ c, (readServed .started c).run sha256 str "a"
      (List.replicate 6 (.advanced 2 0)) = readServed .finished (apply files c) := by
    refine fun c => (run_alone rfl (fun task htask => ?_) hempty).2
    simp only [readServed, List.mem_cons, List.not_mem_nil, or_false] at htask
    rcases htask with rfl | rfl | rfl <;> rfl
  have hrun : (start {}).run sha256 str "a" overtakenEvents =
      ((readServed .finished (apply files (apply files .start))).come 1
        (.locked (files.set servedFile.1 servedFile.2))).after sha256 str "a" (.advanced 1 0) := by
    rw [overtakenEvents, run_append, run_append, run_append, hfirst, run_readServed, hthird,
      run_overtaken sha256 str "a" _ hserved]
  have hfree : LeaseFree (apply files (apply files .start)) := by
    have happly : ∀ c, LeaseFree c → LeaseFree (apply files c) := fun c hc =>
      (reconcileFiles_generated sha256 str "a" 0 hc (generated_renderRead hread)).1
    exact happly _ (happly _ (sane_start {}).leaseFree)
  have hquiet : ((start {}).run sha256 str "a" overtakenEvents).Quiet := by
    rw [hrun]
    intro task htask
    simp only [after, advance, come, readServed, List.set_cons_succ, List.set_cons_zero,
      List.getElem?_cons_succ, List.getElem?_cons_zero, List.mem_cons, List.not_mem_nil,
      or_false] at htask
    rcases htask with rfl | rfl | rfl <;> rfl
  have hup := hall sha256 str "a" {} overtakenEvents hquiet
  -- what is applied last is not what the tables render to
  have hsane : ((readServed .finished (apply files (apply files .start))).come 1
      (.locked (files.set servedFile.1 servedFile.2))).Sane := by
    refine ⟨hfree, fun task htask => ?_⟩
    simp only [come, readServed, List.set_cons_succ, List.set_cons_zero, List.mem_cons,
      List.not_mem_nil, or_false] at htask
    rcases htask with rfl | rfl | rfl
    · exact trivial
    · exact generated_renderRead hserved
    · exact trivial
  rw [hrun, upToDate_applied_iff sha256 str "a" 0 hsane rfl, fresh_locked_iff] at hup
  have hcurrent : generationOf sha256 {} = .ok (sha256 (encode files)).short := by
    rw [generationOf, hempty]
    exact generationId_ok sha256 (generated_renderRead hread)
  have hsame := hup.symm.trans (generationId_ok sha256 (generated_renderRead hserved))
  exact short_lengthHash (length_encode_set hnew)
    (Except.ok.inj (hsame.symm.trans hcurrent))

end LiveSystem

end Portwyrm.Tables

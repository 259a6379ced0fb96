import Mathlib.Logic.Function.Basic
import Mathlib.Logic.Relation
import Portwyrm.Runtime.Leases

/-!
# Nodes that share a runtime root

`TableRuntimeController.reconcile_files` on several nodes with one lease table and one runtime root.
A node takes the lease once, runs `Reconciler.reconcile`, persists what came of it, and gives the
lease back.  The lease runs for two minutes and is not renewed, and the validator and the reloader
may take any time.
-/

namespace Portwyrm.Runtime

open Base

/-- How far `Reconciler.reconcile` has come. -/
inductive ReconcileStage
  /-- `ACTIVE` has been read. -/
  | entered
  /-- The candidate is staged, and is validated. -/
  | staged
  /-- The candidate is active, and is loaded. -/
  | activated
  /-- The previous generation is active again, and is loaded. -/
  | restored
deriving DecidableEq

/-- What `reconcile` goes on with. -/
inductive ReconcileStage.Next : ReconcileStage → ReconcileStage → Prop
  | stage : Next .entered .staged
  | activate : Next .staged .activated
  | restore : Next .activated .restored

/-- How far `reconcile_files` has come on a node.  A node remembers when it took the lease. -/
inductive NodePhase
  | idle
  | leased (since : ℤ)
  | inside (since : ℤ) (stage : ReconcileStage)
  /-- `reconcile` has returned or raised; its outcome is persisted. -/
  | left

/-- A node has taken the lease, and is in `reconcile` or about to enter it. -/
inductive NodePhase.BusySince (since : ℤ) : NodePhase → Prop
  | leased : BusySince since (.leased since)
  | inside (stage : ReconcileStage) : BusySince since (.inside since stage)

/-- `"nginx-reconcile"`. -/
def reconcileLease : String := "nginx-reconcile"

/-- `ttl_seconds` of the lease. -/
def reconcileTtl : ℤ := 120

/-- The lease table, the clock, and the nodes. -/
structure NodesState (κ : Type) where
  leases : LeaseTable
  clock : ℤ
  phase : κ → NodePhase

namespace NodesState

variable {κ : Type} [DecidableEq κ]

/-- No node runs, and there is no lease. -/
def start (clock : ℤ) : NodesState κ := ⟨Table.empty, clock, fun _ => .idle⟩

/-- A node comes to another phase. -/
def come (x : NodesState κ) (k : κ) (phase : NodePhase) : NodesState κ :=
  { x with phase := Function.update x.phase k phase }

@[simp] lemma phase_come_self (x : NodesState κ) (k : κ) (phase : NodePhase) :
    (x.come k phase).phase k = phase := by
  rw [come]
  dsimp only
  rw [Function.update_self]

lemma phase_come_of_ne (x : NodesState κ) {j k : κ} (hj : j ≠ k) (phase : NodePhase) :
    (x.come k phase).phase j = x.phase j := by
  rw [come]
  dsimp only
  rw [Function.update_of_ne hj]

/-- A node asks for the lease. -/
def ask (holder : κ → String) (x : NodesState κ) (k : κ) : LeaseAnswer × LeaseTable :=
  x.leases.acquire reconcileLease (holder k) (some reconcileTtl) x.clock

/-- One step; `G` says at which states a node takes the lease. -/
inductive Step (holder : κ → String) (G : NodesState κ → κ → Prop) :
    NodesState κ → NodesState κ → Prop
  /-- Time passes, in commands and elsewhere. -/
  | pass {x : NodesState κ} (time : ℤ) (htime : x.clock ≤ time) :
      Step holder G x { x with clock := time }
  | acquire {x : NodesState κ} (k : κ) (hidle : x.phase k = .idle)
      (hgranted : (x.ask holder k).1.acquired = true) (hG : G x k) :
      Step holder G x (come { x with leases := (x.ask holder k).2 } k (.leased x.clock))
  /-- Another node has the lease: the call raises. -/
  | refuse {x : NodesState κ} (k : κ) (hidle : x.phase k = .idle)
      (hrefused : (x.ask holder k).1.acquired = false) :
      Step holder G x { x with leases := (x.ask holder k).2 }
  | enter {x : NodesState κ} (k : κ) (since : ℤ) (hleased : x.phase k = .leased since) :
      Step holder G x (x.come k (.inside since .entered))
  | work {x : NodesState κ} (k : κ) (since : ℤ) (stage stage' : ReconcileStage)
      (hinside : x.phase k = .inside since stage) (hnext : stage.Next stage') :
      Step holder G x (x.come k (.inside since stage'))
  /-- `reconcile` returns or raises, which it may do at every stage. -/
  | leave {x : NodesState κ} (k : κ) (since : ℤ) (stage : ReconcileStage)
      (hinside : x.phase k = .inside since stage) : Step holder G x (x.come k .left)
  | release {x : NodesState κ} (k : κ) (hleft : x.phase k = .left) :
      Step holder G x
        (come { x with leases := (x.leases.release reconcileLease (holder k)).2 } k .idle)

/-- Two nodes are not in `reconcile` at the same time. -/
def Exclusive (x : NodesState κ) : Prop :=
  ∀ i j since since' stage stage', x.phase i = .inside since stage →
    x.phase j = .inside since' stage' → i = j

/-- When a node takes the lease, no other one has been busy for two minutes or longer. -/
def InTime (x : NodesState κ) (k : κ) : Prop :=
  ∀ j since, j ≠ k → (x.phase j).BusySince since → x.clock < since + reconcileTtl

/-- What holds in every state of a run in time: a node that is busy has the lease. -/
structure BusyLeased (holder : κ → String) (x : NodesState κ) : Prop where
  unique : x.leases.UniqueNames
  leased : ∀ j since, (x.phase j).BusySince since →
    ∃ id, x.leases.get? id = some ⟨reconcileLease, holder j, since + reconcileTtl⟩

variable {holder : κ → String} {G : NodesState κ → κ → Prop} {x y : NodesState κ} {k j : κ}
  {since : ℤ}

omit [DecidableEq κ] in
lemma busyLeased_start (holder : κ → String) (clock : ℤ) : BusyLeased holder (start clock) where
  unique := Table.uniqueOn_empty _
  leased _ _ h := nomatch h

/-- A node comes to a phase in which it is as busy as before. -/
lemma BusyLeased.come (h : BusyLeased holder x) {phase : NodePhase}
    (hphase : ∀ since, phase.BusySince since → (x.phase k).BusySince since) :
    BusyLeased holder (x.come k phase) where
  unique := h.unique
  leased j since hbusy := by
    by_cases hj : j = k
    · subst hj
      rw [phase_come_self] at hbusy
      exact h.leased j since (hphase since hbusy)
    · rw [phase_come_of_ne _ hj] at hbusy
      exact h.leased j since hbusy

omit [DecidableEq κ] in
/-- The lease that a call of `acquire` grants. -/
lemma get?_ask (hgranted : (x.ask holder k).1.acquired = true) :
    ∃ id, (x.ask holder k).2.get? id =
      some ⟨reconcileLease, holder k, x.clock + reconcileTtl⟩ := by
  have hcase : LeaseTable.Acquired _ _ _ _ _ (x.ask holder k) := LeaseTable.acquired _ _ _ _ _
  generalize x.ask holder k = r at hcase hgranted
  cases hcase with
  | created => exact ⟨_, by rw [Table.get?_add, if_pos rfl]; rfl⟩
  | refused => exact absurd hgranted Bool.false_ne_true
  | taken id row hrow hname =>
    refine ⟨id, ?_⟩
    rw [Table.get?_modify, hrow, Option.map_some, if_pos rfl, hname]
    rfl

omit [DecidableEq κ] in
/-- A node that is busy in time excludes the others from the lease. -/
lemma refused_of_busy (h : BusyLeased holder x) (hholder : Function.Injective holder) (hne : k ≠ j)
    (hbusy : (x.phase j).BusySince since) (htime : x.clock < since + reconcileTtl) :
    (x.ask holder k).1.acquired = false := by
  obtain ⟨id, hrow⟩ := h.leased j since hbusy
  have hholds : x.leases.Holds x.clock reconcileLease (holder j) :=
    ⟨id, _, hrow, rfl, rfl, htime⟩
  exact (LeaseTable.acquire_refused h.unique hholds fun heq => hne (hholder heq)).1

/-- One step in time. -/
lemma busyLeased_step (hholder : Function.Injective holder) (h : BusyLeased holder x)
    (hstep : Step holder InTime x y) : BusyLeased holder y := by
  cases hstep with
  | pass time => exact ⟨h.unique, h.leased⟩
  | acquire k hidle hgranted hG =>
    refine ⟨LeaseTable.uniqueNames_acquire h.unique, fun j since hbusy => ?_⟩
    by_cases hj : j = k
    · subst hj
      rw [phase_come_self] at hbusy
      cases hbusy
      exact get?_ask hgranted
    · -- another node that is busy would have kept this one from the lease
      rw [phase_come_of_ne _ hj] at hbusy
      have hrefused := refused_of_busy h hholder (Ne.symm hj) hbusy (hG j since hj hbusy)
      exact absurd (hgranted.symm.trans hrefused) (by decide)
  | refuse k hidle hrefused =>
    have hcase : LeaseTable.Acquired _ _ _ _ _ (x.ask holder k) := LeaseTable.acquired _ _ _ _ _
    generalize x.ask holder k = r at hcase hrefused
    cases hcase with
    | refused => exact h
    | created => exact absurd hrefused.symm Bool.false_ne_true
    | taken => exact absurd hrefused.symm Bool.false_ne_true
  | enter k since hleased =>
    refine h.come fun since' hbusy => ?_
    cases hbusy
    exact hleased ▸ .leased
  | work k since stage stage' hinside hnext =>
    refine h.come fun since' hbusy => ?_
    cases hbusy
    exact hinside ▸ .inside stage
  | leave k since stage hinside => exact h.come fun since' hbusy => nomatch hbusy
  | release k hleft =>
    refine ⟨Table.UniqueOn.deleteWhere h.unique _, fun j since hbusy => ?_⟩
    have hj : j ≠ k := by
      rintro rfl
      rw [phase_come_self] at hbusy
      exact nomatch hbusy
    rw [phase_come_of_ne _ hj] at hbusy
    obtain ⟨id, hrow⟩ := h.leased j since hbusy
    refine ⟨id, Table.get?_deleteWhere.mpr ⟨hrow, ?_⟩⟩
    simpa using fun heq => hj (hholder heq)

omit [DecidableEq κ] in
/-- Only one node has the lease. -/
lemma BusyLeased.exclusive (h : BusyLeased holder x) (hholder : Function.Injective holder) :
    x.Exclusive := by
  intro i j since since' stage stage' hi hj
  obtain ⟨id, hrow⟩ := h.leased i since (hi ▸ .inside stage)
  obtain ⟨id', hrow'⟩ := h.leased j since' (hj ▸ .inside stage')
  have heq := Table.UniqueOn.row_eq h.unique hrow hrow' rfl
  exact hholder (LeaseRow.mk.inj heq).2.1

omit [DecidableEq κ] in
/-- A node that has been busy for too long does not keep another one from the lease. -/
lemma granted_of_late (h : BusyLeased holder x) (hbusy : (x.phase j).BusySince since)
    (hlate : since + reconcileTtl ≤ x.clock) : (x.ask holder k).1.acquired = true := by
  obtain ⟨id, hrow⟩ := h.leased j since hbusy
  have hcase : LeaseTable.Acquired _ _ _ _ _ (x.ask holder k) := LeaseTable.acquired _ _ _ _ _
  generalize x.ask holder k = r at hcase
  cases hcase with
  | created => rfl
  | taken => rfl
  | refused id' row' hrow' hname' hlive =>
    obtain rfl := Table.UniqueOn.row_eq h.unique hrow hrow' hname'.symm
    exact absurd hlive (not_lt.mpr hlate)

/-- Then both may be in `reconcile`. -/
lemma overlap_of_late (h : BusyLeased holder x) (hne : k ≠ j) (hbusy : (x.phase j).BusySince since)
    (hlate : since + reconcileTtl ≤ x.clock) (hidle : x.phase k = .idle) :
    ∃ y, Relation.ReflTransGen (Step holder fun _ _ => True) x y ∧ ¬ y.Exclusive := by
  let taken := come { x with leases := (x.ask holder k).2 } k (.leased x.clock)
  let entered := taken.come k (.inside x.clock .entered)
  have htaken : Step holder (fun _ _ => True) x taken :=
    .acquire k hidle (granted_of_late h hbusy hlate) trivial
  have hentered : Step holder (fun _ _ => True) taken entered :=
    .enter k x.clock (phase_come_self _ _ _)
  have hrun : Relation.ReflTransGen (Step holder fun _ _ => True) x entered :=
    (Relation.ReflTransGen.single htaken).tail hentered
  have hk : entered.phase k = .inside x.clock .entered := phase_come_self _ _ _
  have hj : entered.phase j = x.phase j :=
    (phase_come_of_ne _ hne.symm _).trans (phase_come_of_ne _ hne.symm _)
  generalize hphase : x.phase j = phase at hbusy hj
  cases hbusy with
  | inside stage => exact ⟨entered, hrun, fun hexclusive => hne (hexclusive _ _ _ _ _ _ hk hj)⟩
  | leased =>
    -- the late node has not entered yet, and does so behind the other one
    refine ⟨_, hrun.tail (.enter j since hj), fun hexclusive => hne ?_⟩
    exact hexclusive _ _ _ _ _ _ ((phase_come_of_ne _ hne _).trans hk) (phase_come_self _ _ _)

/-- One node applies at a time, as long as no node takes the lease when another one has been busy
for two minutes: then no two nodes are in `reconcile` together.  When a node has been busy that
long, another one that is idle can take the lease, and both can be in `reconcile`. -/
theorem exclusive_of_inTime (hholder : Function.Injective holder) {clock : ℤ}
    (h : Relation.ReflTransGen (Step holder InTime) (start clock) x) :
    x.Exclusive ∧ ∀ j k since, k ≠ j → (x.phase j).BusySince since →
      since + reconcileTtl ≤ x.clock → x.phase k = .idle →
      ∃ y, Relation.ReflTransGen (Step holder fun _ _ => True) x y ∧ ¬ y.Exclusive := by
  have hleased : BusyLeased holder x := by
    induction h with
    | refl => exact busyLeased_start holder clock
    | tail _ hstep ih => exact busyLeased_step hholder ih hstep
  exact ⟨hleased.exclusive hholder, fun _ _ _ hne hbusy => overlap_of_late hleased hne hbusy⟩

/-! ### Two nodes -/

/-- The holder ids of two nodes. -/
def nodeHolder (k : Bool) : String := if k then "a" else "b"

lemma nodeHolder_injective : Function.Injective nodeHolder := by
  intro k j h
  cases k <;> cases j <;> first | rfl | exact absurd h (by decide)

/-- One of them has taken the lease. -/
def oneLeased : NodesState Bool :=
  come { start 0 with leases := ((start 0).ask nodeHolder true).2 } true (.leased 0)

lemma step_oneLeased : Step nodeHolder InTime (start 0) oneLeased :=
  .acquire true rfl rfl fun _ _ _ h => nomatch h

/-- It excludes the other one so far. -/
theorem exclusive_of_inTime_oneLeased : oneLeased.Exclusive :=
  (exclusive_of_inTime nodeHolder_injective (.single step_oneLeased)).1

/-- When it takes two minutes from there, both nodes can be in `reconcile`. -/
theorem two_nodes_inside : ¬ ∀ x : NodesState Bool,
    Relation.ReflTransGen (Step nodeHolder fun _ _ => True) (start 0) x → x.Exclusive := by
  intro hall
  have hleased : BusyLeased nodeHolder oneLeased :=
    busyLeased_step nodeHolder_injective (busyLeased_start _ 0) step_oneLeased
  have hlate : BusyLeased nodeHolder { oneLeased with clock := 120 } :=
    ⟨hleased.unique, hleased.leased⟩
  obtain ⟨y, hrun, hnot⟩ := overlap_of_late (k := false) (j := true) hlate (by decide) (.leased)
    (le_refl 120) rfl
  have htaken : Step nodeHolder (fun _ _ => True) (start 0) oneLeased := .acquire true rfl rfl trivial
  have hpassed : Step nodeHolder (fun _ _ => True) oneLeased { oneLeased with clock := 120 } :=
    .pass 120 (by decide : (0 : ℤ) ≤ 120)
  exact hnot (hall y (((Relation.ReflTransGen.single htaken).tail hpassed).trans hrun))

end NodesState

end Portwyrm.Runtime

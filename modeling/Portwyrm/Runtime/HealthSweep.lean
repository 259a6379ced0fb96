import Mathlib.Algebra.Order.Ring.Int
import Mathlib.Data.List.Perm.Basic
import Mathlib.Logic.Relation
import Portwyrm.Runtime.HealthScheduler

/-!
# A sweep of the health scheduler

`ProxyHostHealthScheduler.sweep` starts a task for each enabled host, and `gather` waits for all of
them.  The tasks share a semaphore: in any order in which they come to it, only so many probe at the
same time, and each host is probed once.
-/

namespace Portwyrm.Runtime

open Base

/-- The tasks of a sweep, by their hosts, and the semaphore that they share. -/
structure SweepState where
  /-- How many tasks may still enter. -/
  value : ℕ
  /-- The tasks that have not entered yet. -/
  queued : List ℕ
  /-- The tasks that probe. -/
  probing : List ℕ
  /-- The tasks that have ended. -/
  ended : List ℕ

namespace SweepState

/-- The size of the semaphore, as `__init__` sets it. -/
def limit (concurrency : ℤ) : ℕ := (max 1 concurrency).toNat

/-- `gather` has started the tasks. -/
def start (concurrency : ℤ) (hosts : Dict ℕ String) : SweepState where
  value := limit concurrency
  queued := HealthScheduler.enabledIds hosts
  probing := []
  ended := []

/-- What happens next in `_probe`. -/
inductive Step (x : SweepState) : SweepState → Prop
  /-- A task enters the semaphore. -/
  | enter (host : ℕ) (hqueued : host ∈ x.queued) (hfree : 0 < x.value) : Step x
      { x with
        value := x.value - 1
        queued := x.queued.erase host
        probing := host :: x.probing }
  /-- A probe comes to its end, or raises and is logged: the task leaves the semaphore. -/
  | leave (host : ℕ) (hprobing : host ∈ x.probing) : Step x
      { x with
        value := x.value + 1
        probing := x.probing.erase host
        ended := host :: x.ended }

/-- All tasks have ended, and `gather` returns. -/
def Over (x : SweepState) : Prop := x.queued = [] ∧ x.probing = []

/-- What holds in a sweep: the places of the semaphore are free or taken, and no task is lost. -/
structure Counted (limit : ℕ) (ids : List ℕ) (x : SweepState) : Prop where
  places : x.value + x.probing.length = limit
  tasks : (x.queued ++ (x.probing ++ x.ended)).Perm ids

variable {x y : SweepState} {limit : ℕ} {ids : List ℕ} {concurrency : ℤ} {hosts : Dict ℕ String}

/-! ## One step -/

lemma Counted.step (h : Counted limit ids x) (hstep : Step x y) : Counted limit ids y := by
  cases hstep with
  | enter host hqueued hfree =>
    refine ⟨?_, ?_⟩
    · have hplaces := h.places
      show x.value - 1 + (x.probing.length + 1) = limit
      omega
    · have hmoved : (x.queued.erase host ++ host :: (x.probing ++ x.ended)).Perm
          (host :: x.queued.erase host ++ (x.probing ++ x.ended)) := List.perm_middle
      exact (hmoved.trans ((List.perm_cons_erase hqueued).symm.append_right _)).trans h.tasks
  | leave host hprobing =>
    refine ⟨?_, ?_⟩
    · have hplaces := h.places
      have hlength := List.length_erase_of_mem hprobing
      have hpos := List.length_pos_of_mem hprobing
      show x.value + 1 + (x.probing.erase host).length = limit
      omega
    · have hmoved : (x.probing.erase host ++ host :: x.ended).Perm
          (host :: x.probing.erase host ++ x.ended) := List.perm_middle
      have hback := hmoved.trans ((List.perm_cons_erase hprobing).symm.append_right x.ended)
      exact (hback.append_left x.queued).trans h.tasks

/-- Each step brings the sweep nearer to its end. -/
lemma remaining_lt (hstep : Step x y) :
    2 * y.queued.length + y.probing.length < 2 * x.queued.length + x.probing.length := by
  cases hstep with
  | enter host hqueued hfree =>
    have hlength := List.length_erase_of_mem hqueued
    have hpos := List.length_pos_of_mem hqueued
    show 2 * (x.queued.erase host).length + (x.probing.length + 1) < _
    omega
  | leave host hprobing =>
    have hlength := List.length_erase_of_mem hprobing
    have hpos := List.length_pos_of_mem hprobing
    show 2 * x.queued.length + (x.probing.erase host).length < _
    omega

/-- A sweep that is not over goes on. -/
lemma Counted.exists_step (h : Counted limit ids x) (hlimit : 0 < limit) (hover : ¬ x.Over) :
    ∃ y, Step x y := by
  cases hprobing : x.probing with
  | cons host rest => exact ⟨_, .leave host (by rw [hprobing]; exact List.mem_cons_self)⟩
  | nil =>
    have hfree : 0 < x.value := by
      have hplaces := h.places
      rw [hprobing] at hplaces
      exact hlimit.trans_eq hplaces.symm
    cases hqueued : x.queued with
    | cons host rest => exact ⟨_, .enter host (by rw [hqueued]; exact List.mem_cons_self) hfree⟩
    | nil => exact absurd ⟨hqueued, hprobing⟩ hover

/-! ## Runs -/

lemma limit_pos (concurrency : ℤ) : 0 < SweepState.limit concurrency := by
  unfold SweepState.limit
  omega

lemma nodup_enabledIds (hosts : Dict ℕ String) : (HealthScheduler.enabledIds hosts).Nodup :=
  hosts.nodup.sublist (List.Sublist.map _ List.filter_sublist)

lemma counted_run (h : Relation.ReflTransGen Step (start concurrency hosts) x) :
    Counted (SweepState.limit concurrency) (HealthScheduler.enabledIds hosts) x := by
  induction h with
  | refl =>
    exact ⟨rfl, by rw [start, List.append_nil, List.append_nil]⟩
  | tail _ hstep ih => exact ih.step hstep

/-- From every state of a sweep its end can be reached. -/
lemma Counted.exists_over (hlimit : 0 < limit) {n : ℕ} (h : Counted limit ids x)
    (hn : 2 * x.queued.length + x.probing.length ≤ n) :
    ∃ y, Relation.ReflTransGen Step x y ∧ y.Over := by
  induction n generalizing x with
  | zero =>
    refine ⟨x, .refl, List.eq_nil_of_length_eq_zero ?_, List.eq_nil_of_length_eq_zero ?_⟩ <;> omega
  | succ n ih =>
    by_cases hover : x.Over
    · exact ⟨x, .refl, hover⟩
    obtain ⟨y, hstep⟩ := h.exists_step hlimit hover
    have hless := remaining_lt hstep
    obtain ⟨z, hrun, hz⟩ := ih (h.step hstep) (by omega)
    exact ⟨z, .head hstep hrun, hz⟩

/-- No sweep goes on forever. -/
lemma not_forever (f : ℕ → SweepState) (hsteps : ∀ n, Step (f n) (f (n + 1))) : False := by
  have hbound : ∀ n, 2 * (f n).queued.length + (f n).probing.length + n ≤
      2 * (f 0).queued.length + (f 0).probing.length := by
    intro n
    induction n with
    | zero => exact le_rfl
    | succ n ih =>
      have hless := remaining_lt (hsteps n)
      omega
  have hlast := hbound (2 * (f 0).queued.length + (f 0).probing.length + 1)
  omega

/-- In every order of the tasks of a sweep, with any concurrency: no more hosts are probed at the
same time than the semaphore has places, none of them twice, and only enabled ones.  The sweep never
gets stuck before its end and reaches it in every run; and at the end each enabled host has been
probed exactly once, whatever became of the other probes. -/
theorem sweep_exact (h : Relation.ReflTransGen Step (start concurrency hosts) x) :
    (x.probing.length ≤ SweepState.limit concurrency ∧ x.probing.Nodup ∧
      ∀ host ∈ x.probing, hosts.get? host = some "enabled" ∧ host ∉ x.ended) ∧
    (x.Over ↔ ¬ ∃ y, Step x y) ∧
    (∃ y, Relation.ReflTransGen Step x y ∧ y.Over) ∧
    (¬ ∃ f : ℕ → SweepState, f 0 = x ∧ ∀ n, Step (f n) (f (n + 1))) ∧
    (x.Over → x.ended.Perm (HealthScheduler.enabledIds hosts)) := by
  have hcounted := counted_run h
  have hnodup : (x.queued ++ (x.probing ++ x.ended)).Nodup :=
    hcounted.tasks.nodup_iff.mpr (nodup_enabledIds hosts)
  obtain ⟨-, hprobed, -⟩ := List.nodup_append.mp hnodup
  obtain ⟨hprobing, -, hapart⟩ := List.nodup_append.mp hprobed
  refine ⟨⟨?_, hprobing, fun host hhost => ⟨?_, fun hended => ?_⟩⟩, ⟨?_, fun hstuck => ?_⟩,
    hcounted.exists_over (limit_pos concurrency) le_rfl, ?_, ?_⟩
  · have hplaces := hcounted.places
    omega
  · have hmem := hcounted.tasks.mem_iff.mp
      (List.mem_append_right x.queued (List.mem_append_left x.ended hhost))
    obtain ⟨⟨id, state⟩, hentry, rfl⟩ := List.mem_map.mp hmem
    obtain ⟨hstored, henabled⟩ := List.mem_filter.mp hentry
    have hstate : state = "enabled" := of_decide_eq_true henabled
    rw [Dict.mem_entries_iff.mp hstored, hstate]
  · exact hapart host hhost host hended rfl
  · rintro ⟨hqueued, hnone⟩ ⟨y, hstep⟩
    have hless := remaining_lt hstep
    rw [hqueued, hnone] at hless
    exact absurd hless (Nat.not_lt_zero _)
  · by_contra hover
    exact hstuck (hcounted.exists_step (limit_pos concurrency) hover)
  · rintro ⟨f, -, hsteps⟩
    exact not_forever f hsteps
  · rintro ⟨hqueued, hnone⟩
    have htasks := hcounted.tasks
    rwa [hqueued, hnone] at htasks

/-- Three hosts, one of which is disabled. -/
def threeHosts : Dict ℕ String := Dict.ofList [(1, "enabled"), (2, "disabled"), (3, "enabled")]

/-- With one place, the first host is probed. -/
def firstProbed : SweepState := ⟨0, [3], [1], []⟩

/-- The sweep comes to its end from there. -/
theorem sweep_exact_firstProbed :
    firstProbed.probing.length ≤ SweepState.limit 0 ∧
      ∃ y, Relation.ReflTransGen Step firstProbed y ∧ y.Over := by
  have hstep : Step (start 0 threeHosts) firstProbed :=
    .enter (x := start 0 threeHosts) 1 (by decide) (by decide)
  obtain ⟨hbounds, -, hends, -⟩ := sweep_exact (Relation.ReflTransGen.single hstep)
  exact ⟨hbounds.1, hends⟩

end SweepState

end Portwyrm.Runtime

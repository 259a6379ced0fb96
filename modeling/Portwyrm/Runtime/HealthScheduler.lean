import Portwyrm.Base.Dict

/-!
# The health scheduler

`ProxyHostHealthScheduler`: a loop that reads the list of hosts, probes the enabled ones, clears its
event and waits until the event is set or the interval is over.  A committed change of a host is
followed by a call of `wake`, which sets the event.  The probes are awaited between the reading and
the clearing, and the other tasks run meanwhile.
-/

namespace Portwyrm.Runtime

open Base

/-! ## The loop -/

/-- Where the task of the scheduler is. -/
inductive HealthPhase
  /-- There is no task, or it is done. -/
  | stopped
  /-- `sweep` has been called and `health_list` has not answered. -/
  | reading
  /-- `gather` waits for the probes of some hosts. -/
  | probing (hostIds : List ℕ)
  /-- `wait_for` waits for the event. -/
  | waiting
deriving DecidableEq

/-- The scheduler, the hosts and the tasks that change them. -/
structure HealthScheduler where
  /-- The administrative states of the hosts. -/
  hosts : Dict ℕ String
  phase : HealthPhase
  /-- Whether `_wake` is set. -/
  wakeSet : Bool
  /-- How many changes of hosts have been committed. -/
  mutations : ℕ
  /-- The changes whose tasks have not come to `wake` yet. -/
  owed : List ℕ
  /-- How many changes had been committed when the list of hosts was last read. -/
  seen : ℕ
  /-- Whether `wake` has been called since then. -/
  wokenSinceRead : Bool

/-- What happens next. -/
inductive HealthEvent
  | start
  | stop
  /-- A host is created, updated, replaced or enabled. -/
  | commit (hostId : ℕ) (administrativeState : String)
  /-- `schedule_committed_health_probe` behind a change. -/
  | wake (mutation : ℕ)
  /-- `health_list` reads the hosts. -/
  | read
  /-- `health_list` raises, which ends the task. -/
  | raise
  /-- The probe of a host comes to its end. -/
  | probe (hostId : ℕ)
  /-- All probes have ended: the event is cleared and the timed wait begins. -/
  | clear
  /-- The wait ends because the event is set. -/
  | woken
  /-- The wait ends because the interval is over. -/
  | timeout

namespace HealthScheduler

/-- A scheduler that has not been started. -/
def init (hosts : Dict ℕ String) : HealthScheduler where
  hosts := hosts
  phase := .stopped
  wakeSet := false
  mutations := 0
  owed := []
  seen := 0
  wokenSinceRead := false

/-- The hosts that `sweep` probes. -/
def enabledIds (hosts : Dict ℕ String) : List ℕ :=
  (hosts.entries.filter fun item => item.2 = "enabled").map Prod.fst

/-- What an event does, where it can happen. -/
def step (s : HealthScheduler) : HealthEvent → Option HealthScheduler
  | .start => some (if s.phase = .stopped then { s with phase := .reading } else s)
  | .stop => some { s with phase := .stopped }
  | .commit hostId administrativeState => some { s with
      hosts := s.hosts.set hostId administrativeState
      mutations := s.mutations + 1
      owed := s.owed ++ [s.mutations + 1] }
  | .wake mutation =>
    if mutation ∈ s.owed then some { s with
      owed := s.owed.erase mutation
      wakeSet := true
      wokenSinceRead := true }
    else none
  | .read =>
    if s.phase = .reading then some { s with
      phase := .probing (enabledIds s.hosts)
      seen := s.mutations
      wokenSinceRead := false }
    else none
  | .raise => if s.phase = .reading then some { s with phase := .stopped } else none
  | .probe hostId =>
    match s.phase with
    | .probing hostIds =>
      if hostId ∈ hostIds then some { s with phase := .probing (hostIds.erase hostId) } else none
    | _ => none
  | .clear =>
    if s.phase = .probing [] then some { s with phase := .waiting, wakeSet := false } else none
  | .woken =>
    if s.phase = .waiting ∧ s.wakeSet = true then some { s with phase := .reading } else none
  | .timeout => if s.phase = .waiting then some { s with phase := .reading } else none

/-- The state behind events one after the other. -/
def run (s : HealthScheduler) (events : List HealthEvent) : Option HealthScheduler :=
  events.foldlM step s

/-! ## Wakes that are pending -/

/-- In the timed wait the event is set, when `wake` has been called since the hosts were read. -/
def WakePending (s : HealthScheduler) : Prop :=
  s.phase = .waiting → s.wokenSinceRead = true → s.wakeSet = true

/-- The timed wait ends at once, when there is a change that the last sweep has not read and whose
task has called `wake`. -/
def Prompt (s : HealthScheduler) : Prop :=
  s.phase = .waiting → ∀ mutation, s.seen < mutation → mutation ≤ s.mutations →
    mutation ∉ s.owed → ∃ s', s.step .woken = some s'

/-- No wake-up is lost in a run. -/
def KeepsWakes (hosts : Dict ℕ String) (events : List HealthEvent) : Prop :=
  ∀ before after s, events = before ++ after → (init hosts).run before = some s →
    WakePending s ∧ Prompt s

/-- In a run the event is cleared only where `wake` has not been called since the hosts were read. -/
def ClearsUnwoken (hosts : Dict ℕ String) (events : List HealthEvent) : Prop :=
  ∀ before after s, events = before ++ .clear :: after → (init hosts).run before = some s →
    s.phase = .probing [] → s.wokenSinceRead = false

variable {hosts : Dict ℕ String} {s s' : HealthScheduler} {e : HealthEvent}
  {events : List HealthEvent}

/-- The ways in which an event happens. -/
inductive Happens (s : HealthScheduler) : HealthEvent → HealthScheduler → Prop
  | start (h : s.phase = .stopped) : Happens s .start { s with phase := .reading }
  | startAgain (h : s.phase ≠ .stopped) : Happens s .start s
  | stop : Happens s .stop { s with phase := .stopped }
  | commit (hostId : ℕ) (administrativeState : String) :
      Happens s (.commit hostId administrativeState) { s with
        hosts := s.hosts.set hostId administrativeState
        mutations := s.mutations + 1
        owed := s.owed ++ [s.mutations + 1] }
  | wake {mutation : ℕ} (h : mutation ∈ s.owed) : Happens s (.wake mutation) { s with
      owed := s.owed.erase mutation
      wakeSet := true
      wokenSinceRead := true }
  | read (h : s.phase = .reading) : Happens s .read { s with
      phase := .probing (enabledIds s.hosts)
      seen := s.mutations
      wokenSinceRead := false }
  | raise (h : s.phase = .reading) : Happens s .raise { s with phase := .stopped }
  | probe {hostIds : List ℕ} {hostId : ℕ} (h : s.phase = .probing hostIds) (hmem : hostId ∈ hostIds) :
      Happens s (.probe hostId) { s with phase := .probing (hostIds.erase hostId) }
  | clear (h : s.phase = .probing []) :
      Happens s .clear { s with phase := .waiting, wakeSet := false }
  | woken (h : s.phase = .waiting) (hset : s.wakeSet = true) :
      Happens s .woken { s with phase := .reading }
  | timeout (h : s.phase = .waiting) : Happens s .timeout { s with phase := .reading }

lemma happens_of_step (h : s.step e = some s') : Happens s e s' := by
  cases e with
  | start =>
    obtain rfl := Option.some.inj h
    split
    · exact .start ‹_›
    · exact .startAgain ‹_›
  | stop =>
    obtain rfl := Option.some.inj h
    exact .stop
  | commit hostId administrativeState =>
    obtain rfl := Option.some.inj h
    exact .commit hostId administrativeState
  | wake mutation =>
    obtain ⟨howed, ⟨⟩⟩ := Option.ite_none_right_eq_some.mp h
    exact .wake howed
  | read =>
    obtain ⟨hphase, ⟨⟩⟩ := Option.ite_none_right_eq_some.mp h
    exact .read hphase
  | raise =>
    obtain ⟨hphase, ⟨⟩⟩ := Option.ite_none_right_eq_some.mp h
    exact .raise hphase
  | probe hostId =>
    rw [step] at h
    split at h
    · obtain ⟨hmem, ⟨⟩⟩ := Option.ite_none_right_eq_some.mp h
      exact .probe ‹_› hmem
    · cases h
  | clear =>
    obtain ⟨hphase, ⟨⟩⟩ := Option.ite_none_right_eq_some.mp h
    exact .clear hphase
  | woken =>
    obtain ⟨hphase, ⟨⟩⟩ := Option.ite_none_right_eq_some.mp h
    exact .woken hphase.1 hphase.2
  | timeout =>
    obtain ⟨hphase, ⟨⟩⟩ := Option.ite_none_right_eq_some.mp h
    exact .timeout hphase

/-- A change that the last sweep has not read has been followed by a call of `wake` since, or its
task has not come to it yet. -/
def UnreadWoken (s : HealthScheduler) : Prop :=
  ∀ mutation, s.seen < mutation → mutation ≤ s.mutations → mutation ∉ s.owed →
    s.wokenSinceRead = true

lemma unreadWoken_step (h : UnreadWoken s) (hstep : s.step e = some s') : UnreadWoken s' := by
  cases happens_of_step hstep with
  | commit hostId administrativeState =>
    intro mutation hseen hle howed
    dsimp only at hseen hle howed ⊢
    rw [List.mem_append, List.mem_singleton, not_or] at howed
    exact h mutation hseen (by omega) howed.1
  | wake howed => exact fun _ _ _ _ => rfl
  | read hphase =>
    -- what is committed is read
    intro mutation hseen hle _
    dsimp only at hseen hle
    omega
  | _ => exact h

/-- The event is cleared where it has not been set since the hosts were read, and nothing else
clears it. -/
lemma wakePending_step (h : WakePending s)
    (hclear : e = .clear → s.phase = .probing [] → s.wokenSinceRead = false)
    (hstep : s.step e = some s') : WakePending s' := by
  cases happens_of_step hstep with
  | startAgain hphase => exact h
  | commit hostId administrativeState => exact h
  | wake howed => exact fun _ _ => rfl
  | clear hphase =>
    intro _ hwoken
    exact absurd (hclear rfl hphase) (by simpa using hwoken)
  | start | stop | read | raise | probe | woken | timeout => exact nofun

/-- In the timed wait a pending event ends it. -/
lemma prompt_of_wakePending (h : WakePending s) (hunread : UnreadWoken s) : Prompt s := by
  intro hphase mutation hseen hle howed
  have hset := h hphase (hunread mutation hseen hle howed)
  exact ⟨{ s with phase := .reading }, if_pos ⟨hphase, hset⟩⟩

lemma run_concat (before : List HealthEvent) (e : HealthEvent) :
    s.run (before ++ [e]) = s.run before >>= fun u => u.step e := by
  rw [run, run, List.foldlM_append]
  refine bind_congr fun u => ?_
  rw [List.foldlM_cons]
  cases u.step e <;> rfl

lemma unreadWoken_run (h : (init hosts).run events = some s) : UnreadWoken s := by
  induction events using List.reverseRecOn generalizing s with
  | nil =>
    obtain rfl := Option.some.inj h
    intro mutation hseen hle _
    dsimp only [init] at hseen hle
    omega
  | append_singleton before e ih =>
    rw [run_concat] at h
    obtain ⟨u, hu, hstep⟩ := Option.bind_eq_some_iff.mp h
    exact unreadWoken_step (ih hu) hstep

lemma wakePending_run (hclears : ClearsUnwoken hosts events) (h : (init hosts).run events = some s) :
    WakePending s := by
  induction events using List.reverseRecOn generalizing s with
  | nil =>
    obtain rfl := Option.some.inj h
    exact nofun
  | append_singleton before e ih =>
    rw [run_concat] at h
    obtain ⟨u, hu, hstep⟩ := Option.bind_eq_some_iff.mp h
    have hbefore : ClearsUnwoken hosts before := by
      rintro first rest v rfl hv hphase
      exact hclears first (rest ++ [e]) v (by simp) hv hphase
    refine wakePending_step (ih hbefore hu) ?_ hstep
    rintro rfl hphase
    exact hclears before [] u rfl hu hphase

/-- No wake-up is lost in a run if and only if `wake` is never called between the reading of the
hosts and the clearing of the event in one sweep. -/
theorem keepsWakes_iff (hosts : Dict ℕ String) (events : List HealthEvent) :
    KeepsWakes hosts events ↔ ClearsUnwoken hosts events := by
  constructor
  · intro h before after s hevents hrun hphase
    by_contra hwoken
    have hcleared : (init hosts).run (before ++ [.clear]) =
        some { s with phase := .waiting, wakeSet := false } := by
      rw [run_concat, hrun]
      exact if_pos hphase
    have hpending := (h (before ++ [.clear]) after _ (by rw [hevents]; simp) hcleared).1
    exact Bool.false_ne_true (hpending rfl (by simpa using hwoken))
  · rintro h before after s rfl hrun
    have hbefore : ClearsUnwoken hosts before := by
      rintro first rest v rfl hv hphase
      exact h first (rest ++ after) v (by simp) hv hphase
    have hpending := wakePending_run hbefore hrun
    exact ⟨hpending, prompt_of_wakePending hpending (unreadWoken_run hrun)⟩

/-- A host that is created while another one is probed waits for the interval. -/
theorem created_while_probing_not_keepsWakes :
    ¬ KeepsWakes (Dict.ofList [(1, "enabled")])
      [.start, .read, .commit 2 "enabled", .wake 1, .probe 1, .clear] := by
  intro h
  have hclears := (h _ [] _ (List.append_nil _).symm rfl).1
  exact absurd (hclears rfl rfl) (by decide)

end HealthScheduler

end Portwyrm.Runtime

import Mathlib.Logic.Relation
import Portwyrm.Tables.HostHealth

/-!
# Runs of probes

Any number of calls of `RoutingHostStore.probe`, from the scheduler and from requests, between
changes of the hosts.  Every call has a lease holder of its own and goes on with the row that it
has read when it began; its host may be written, disabled and deleted meanwhile.

The state remembers what has been recorded, and what the prober had met on the network.
-/

namespace Portwyrm.Tables

open Base Portwyrm.Runtime Portwyrm.Identity

/-! ## States of a run -/

/-- A result on its way to the table: the row of the host when the call began, and the network that
the prober has met. -/
structure Observed where
  principal : Actor
  host : ℕ
  row : HostRow
  net : Network
  checkedAt : ℤ
  elapsed : ℤ
  result : ProbeResult

/-- How far a call of `probe` has come. -/
inductive ProbeCall
  | ready
  /-- The row of the host is read. -/
  | entered (principal : Actor) (host : ℕ) (row : HostRow)
  /-- The lease is taken, and the prober at work. -/
  | probing (principal : Actor) (host : ℕ) (row : HostRow) (since : ℤ)
  /-- The lease is given back. -/
  | probed (observed : Observed)
  | ended

/-- What has become of the observations. -/
inductive HealthEntry
  | recorded (observed : Observed)
  | deleted (host : ℕ)

/-- What an entry makes of the results recorded of a host. -/
def HealthEntry.onto (host : ℕ) (results : List Observed) : HealthEntry → List Observed
  | .recorded observed => if observed.host = host then results ++ [observed] else results
  | .deleted id => if host = id then [] else results

/-- The results recorded of a host since it was last deleted, oldest first. -/
def recordedOf (host : ℕ) (log : List HealthEntry) : List Observed :=
  log.foldl (HealthEntry.onto host) []

lemma recordedOf_concat (host : ℕ) (log : List HealthEntry) (entry : HealthEntry) :
    recordedOf host (log ++ [entry]) = entry.onto host (recordedOf host log) :=
  List.foldl_concat _ _ _ _

/-- The tables, the clock, the calls, and what has been recorded so far. -/
structure HealthState (κ : Type) where
  hosts : Dict ℕ HostRow
  observations : ObservationTable
  leases : LeaseTable
  clock : ℤ
  calls : κ → ProbeCall
  log : List HealthEntry
  audit : List AuditEvent

namespace HealthState

variable {κ : Type} [DecidableEq κ]

/-- No call has begun, and nothing has been recorded. -/
def start (hosts : Dict ℕ HostRow) (clock : ℤ) : HealthState κ where
  hosts := hosts
  observations := Table.empty
  leases := Table.empty
  clock := clock
  calls := fun _ => .ready
  log := []
  audit := []

/-- A call goes on. -/
def come (x : HealthState κ) (k : κ) (call : ProbeCall) : HealthState κ :=
  { x with calls := Function.update x.calls k call }

omit [DecidableEq κ] in
/-- A call asks for the lease of a host. -/
def ask (holder : κ → String) (x : HealthState κ) (k : κ) (host : ℕ) : LeaseAnswer × LeaseTable :=
  x.leases.acquire (probeLease host) (holder k) (some probeTtl) x.clock

omit [DecidableEq κ] in
/-- The state behind that. -/
def take (holder : κ → String) (x : HealthState κ) (k : κ) (host : ℕ) : HealthState κ :=
  { x with leases := (x.ask holder k host).2 }

omit [DecidableEq κ] in
/-- A call gives the lease of a host back. -/
def giveBack (holder : κ → String) (x : HealthState κ) (k : κ) (host : ℕ) : HealthState κ :=
  { x with leases := (x.leases.release (probeLease host) (holder k)).2 }

omit [DecidableEq κ] in
/-- A result is recorded, and audited in the same transaction. -/
def record (freshness : ℤ) (x : HealthState κ) (o : Observed) : HealthState κ :=
  let observations := x.observations.add (observationOf freshness o.host o.result)
  { x with
    observations := observations
    log := x.log ++ [.recorded o]
    audit := x.audit ++
      (auditMutation (probeContext observations o.principal o.host o.result)).toList }

omit [DecidableEq κ] in
/-- A host is deleted with its observations. -/
def delete (x : HealthState κ) (host : ℕ) : HealthState κ :=
  { x with
    hosts := x.hosts.pop host
    observations := x.observations.deleteWhere fun row => row.routingHostId = host
    log := x.log ++ [.deleted host] }

/-- One step. -/
inductive Step (holder : κ → String) (freshness : ℤ) : HealthState κ → HealthState κ → Prop
  | pass {x : HealthState κ} (time : ℤ) (htime : x.clock ≤ time) :
      Step holder freshness x { x with clock := time }
  | write {x : HealthState κ} (host : ℕ) (row : HostRow) :
      Step holder freshness x { x with hosts := x.hosts.set host row }
  | delete {x : HealthState κ} (host : ℕ) : Step holder freshness x (x.delete host)
  | enter {x : HealthState κ} (k : κ) (principal : Actor) (host : ℕ) (row : HostRow)
      (hready : x.calls k = .ready) (hrow : probedRow x.hosts host = .ok row) :
      Step holder freshness x (x.come k (.entered principal host row))
  | acquire {x : HealthState κ} (k : κ) (principal : Actor) (host : ℕ) (row : HostRow)
      (hentered : x.calls k = .entered principal host row)
      (hgranted : (x.ask holder k host).1.acquired = true) :
      Step holder freshness x
        ((x.take holder k host).come k (.probing principal host row x.clock))
  /-- The prober returns. -/
  | answer {x : HealthState κ} (k : κ) (o : Observed) (since : ℤ)
      (hprobing : x.calls k = .probing o.principal o.host o.row since)
      (hprobe : (probe o.net (probeTarget o.row) o.checkedAt o.elapsed).1 = .ok o.result) :
      Step holder freshness x ((x.giveBack holder k o.host).come k (.probed o))
  /-- The prober raises. -/
  | raise {x : HealthState κ} (k : κ) (principal : Actor) (host : ℕ) (row : HostRow) (since : ℤ)
      (hprobing : x.calls k = .probing principal host row since) :
      Step holder freshness x ((x.giveBack holder k host).come k .ended)
  | record {x : HealthState κ} (k : κ) (o : Observed) (hprobed : x.calls k = .probed o) :
      Step holder freshness x ((x.record freshness o).come k .ended)
  /-- The call is refused, or its transaction fails, or it ends with its process. -/
  | leave {x : HealthState κ} (k : κ) : Step holder freshness x (x.come k .ended)

variable {holder : κ → String} {freshness : ℤ} {x y : HealthState κ} {hosts : Dict ℕ HostRow}
  {clock : ℤ}

@[simp] lemma calls_come_self (x : HealthState κ) (k : κ) (call : ProbeCall) :
    (x.come k call).calls k = call := Function.update_self _ _ _

lemma calls_come_of_ne (x : HealthState κ) {j k : κ} (hj : j ≠ k) (call : ProbeCall) :
    (x.come k call).calls j = x.calls j := Function.update_of_ne hj _ _

/-! ## What has been recorded -/

/-- A result comes from a probe of the upstream that an enabled proxy host had when the probe
began. -/
structure Honest (o : Observed) : Prop where
  kind : o.row.kind = .proxy
  enabled : o.row.enabled = true
  probed : (probe o.net (probeTarget o.row) o.checkedAt o.elapsed).1 = .ok o.result

/-- A call goes on with the row of an enabled proxy host, and with what it has really met. -/
def Sound : ProbeCall → Prop
  | .entered _ _ row | .probing _ _ row _ => row.kind = .proxy ∧ row.enabled = true
  | .probed o => Honest o
  | .ready | .ended => True

lemma sound_ended : Sound .ended := trivial

lemma sound_of_probedRow {host : ℕ} {row : HostRow} (h : probedRow hosts host = .ok row) :
    row.kind = .proxy ∧ row.enabled = true := by
  unfold probedRow at h
  split at h
  · cases h
  · rename_i row' hrow
    have hkind := (Option.filter_eq_some_iff.mp hrow).2
    unfold raiseIf at h
    split at h
    · cases h
    · rename_i henabled
      obtain rfl := Except.ok.inj h
      exact ⟨of_decide_eq_true hkind, by simpa using henabled⟩

/-- The table holds the results that have been recorded of the hosts, in their order. -/
structure Kept (freshness : ℤ) (x : HealthState κ) : Prop where
  calls : ∀ k, Sound (x.calls k)
  honest : ∀ host, ∀ o ∈ recordedOf host x.log, Honest o
  rows : ∀ host, (x.observations.ofHost host).map Prod.snd =
    (recordedOf host x.log).map fun o => observationOf freshness host o.result
  increasing : x.observations.rows.entries.Pairwise fun a b => a.1 < b.1

omit [DecidableEq κ] in
lemma kept_start : Kept freshness (start hosts clock : HealthState κ) where
  calls _ := trivial
  honest _ _ ho := absurd ho List.not_mem_nil
  rows _ := rfl
  increasing := .nil

lemma Kept.come (h : Kept freshness x) (k : κ) {call : ProbeCall} (hcall : Sound call) :
    Kept freshness (x.come k call) where
  calls j := by
    by_cases hj : j = k
    · subst hj
      rw [calls_come_self]
      exact hcall
    · rw [calls_come_of_ne _ hj]
      exact h.calls j
  honest := h.honest
  rows := h.rows
  increasing := h.increasing

omit [DecidableEq κ] in
/-- The leases do not matter. -/
lemma Kept.leased (h : Kept freshness x) {leases : LeaseTable} :
    Kept freshness { x with leases := leases } :=
  ⟨h.calls, h.honest, h.rows, h.increasing⟩

omit [DecidableEq κ] in
lemma Kept.record (h : Kept freshness x) {o : Observed} (ho : Honest o) :
    Kept freshness (x.record freshness o) where
  calls := h.calls
  honest host p hp := by
    rw [show (x.record freshness o).log = x.log ++ [.recorded o] from rfl, recordedOf_concat,
      HealthEntry.onto] at hp
    split at hp
    · rcases List.mem_append.mp hp with hp | hp
      · exact h.honest host p hp
      · rwa [List.mem_singleton.mp hp]
    · exact h.honest host p hp
  rows host := by
    show (ObservationTable.ofHost (x.observations.add _) host).map _ =
      (recordedOf host (x.log ++ [.recorded o])).map _
    rw [ofHost_add, routingHostId_observationOf, recordedOf_concat, List.map_append, h.rows,
      HealthEntry.onto]
    by_cases hhost : o.host = host
    · rw [if_pos hhost, if_pos hhost, List.map_append, ← hhost]
      rfl
    · rw [if_neg hhost, if_neg hhost, List.map_nil, List.append_nil]
  increasing := by
    have hnew : x.observations.next ∉ x.observations.rows :=
      fun hmem => Nat.lt_irrefl _ (x.observations.fresh _ hmem)
    show List.Pairwise _ (x.observations.rows.set _ _).entries
    rw [Dict.entries_set_of_not_mem hnew]
    refine List.pairwise_append.mpr ⟨h.increasing, List.pairwise_singleton _ _, ?_⟩
    intro e he e' he'
    rw [List.mem_singleton.mp he']
    exact x.observations.fresh _ (Dict.mem_iff.mpr ⟨e.2, Dict.mem_entries_iff.mp he⟩)

omit [DecidableEq κ] in
lemma Kept.delete (h : Kept freshness x) (id : ℕ) : Kept freshness (x.delete id) where
  calls := h.calls
  honest host p hp := by
    rw [show (x.delete id).log = x.log ++ [.deleted id] from rfl, recordedOf_concat,
      HealthEntry.onto] at hp
    split at hp
    · exact absurd hp List.not_mem_nil
    · exact h.honest host p hp
  rows host := by
    show (ObservationTable.ofHost (x.observations.deleteWhere _) host).map _ =
      (recordedOf host (x.log ++ [.deleted id])).map _
    rw [ofHost_deleteWhere, recordedOf_concat, HealthEntry.onto]
    by_cases hhost : host = id
    · rw [if_pos hhost, if_pos hhost]
      rfl
    · rw [if_neg hhost, if_neg hhost]
      exact h.rows host
  increasing := h.increasing.sublist List.filter_sublist

/-- One step. -/
lemma kept_step (h : Kept freshness x) (hstep : Step holder freshness x y) : Kept freshness y := by
  cases hstep with
  | pass time => exact ⟨h.calls, h.honest, h.rows, h.increasing⟩
  | write host row => exact ⟨h.calls, h.honest, h.rows, h.increasing⟩
  | delete host => exact h.delete host
  | enter k principal host row hready hrow =>
    have hsound : Sound (.entered principal host row) := sound_of_probedRow hrow
    exact h.come k hsound
  | acquire k principal host row hentered =>
    have hsound : Sound (.probing principal host row x.clock) := by
      have hsound := h.calls k
      rwa [hentered] at hsound
    exact h.leased.come k hsound
  | answer k o since hprobing hprobe =>
    have hsound := h.calls k
    rw [hprobing] at hsound
    have hhonest : Sound (.probed o) := ⟨hsound.1, hsound.2, hprobe⟩
    exact h.leased.come k hhonest
  | raise k => exact h.leased.come k sound_ended
  | record k o hprobed =>
    have hsound := h.calls k
    rw [hprobed] at hsound
    exact (h.record hsound).come k sound_ended
  | leave k => exact h.come k sound_ended

lemma kept_run (h : Relation.ReflTransGen (Step holder freshness) (start hosts clock) x) :
    Kept freshness x := by
  induction h with
  | refl => exact kept_start
  | tail _ hstep ih => exact kept_step ih hstep

/-! ## What is shown of a host -/

end HealthState

/-- A result is the newest one: of those with the latest second, the one recorded last. -/
def Newest (results : List Observed) (o : Observed) : Prop :=
  ∃ before after, results = before ++ o :: after ∧
    (∀ p ∈ before, p.result.checkedAt ≤ o.result.checkedAt) ∧
    ∀ p ∈ after, p.result.checkedAt < o.result.checkedAt

lemma newest_concat {results : List Observed} {o : Observed}
    (h : ∀ p ∈ results, p.result.checkedAt ≤ o.result.checkedAt) : Newest (results ++ [o]) o :=
  ⟨results, [], rfl, h, fun _ hp => absurd hp List.not_mem_nil⟩

lemma exists_newest {results : List Observed} (h : results ≠ []) : ∃ o, Newest results o := by
  induction results using List.reverseRecOn with
  | nil => exact absurd rfl h
  | append_singleton results o ih =>
    rcases eq_or_ne results [] with rfl | hne
    · exact ⟨o, newest_concat fun _ hp => absurd hp List.not_mem_nil⟩
    obtain ⟨p, before, after, rfl, hbefore, hafter⟩ := ih hne
    rcases lt_or_ge o.result.checkedAt p.result.checkedAt with hlt | hge
    · refine ⟨p, before, after ++ [o], by simp, hbefore, fun q hq => ?_⟩
      rcases List.mem_append.mp hq with hq | hq
      · exact hafter q hq
      · rwa [List.mem_singleton.mp hq]
    · refine ⟨o, newest_concat fun q hq => ?_⟩
      rcases List.mem_append.mp hq with hq | hq
      · exact (hbefore q hq).trans hge
      · rcases List.mem_cons.mp hq with rfl | hq
        · exact hge
        · exact (hafter q hq).le.trans hge

lemma Newest.mem {results : List Observed} {o : Observed} (h : Newest results o) :
    o ∈ results := by
  obtain ⟨before, after, rfl, -⟩ := h
  exact List.mem_append_right before List.mem_cons_self

/-- There is one newest result. -/
lemma Newest.eq {results : List Observed} {o p : Observed} (ho : Newest results o)
    (hp : Newest results p) : o = p := by
  obtain ⟨before, after, rfl, hbefore, hafter⟩ := ho
  obtain ⟨before', after', heq, hbefore', hafter'⟩ := hp
  rcases List.append_eq_append_iff.mp heq with ⟨m, rfl, hm⟩ | ⟨m, rfl, hm⟩
  · rcases m with _ | ⟨q, m⟩
    · exact (List.cons.inj hm).1
    · -- the other one is behind this one
      obtain ⟨rfl, rfl⟩ := List.cons.inj hm
      have hlt := hafter p (by simp)
      have hle := hbefore' o (by simp)
      omega
  · rcases m with _ | ⟨q, m⟩
    · exact (List.cons.inj hm).1.symm
    · obtain ⟨rfl, rfl⟩ := List.cons.inj hm
      have hlt := hafter' o (by simp)
      have hle := hbefore p (by simp)
      omega

namespace HealthState

variable {κ : Type} {holder : κ → String} {freshness : ℤ} {x y : HealthState κ}
  {hosts : Dict ℕ HostRow} {clock : ℤ} {host : ℕ} {o : Observed}

lemma Kept.latest (h : Kept freshness x) (ho : Newest (recordedOf host x.log) o) :
    x.observations.latest host = some (observationOf freshness host o.result) := by
  obtain ⟨before, after, hresults, hbefore, hafter⟩ := ho
  have hrows := h.rows host
  rw [hresults, List.map_append, List.map_cons] at hrows
  obtain ⟨left, rest, hentries, hleft, hrest⟩ := List.map_eq_append_iff.mp hrows
  obtain ⟨e, right, rfl, he, hright⟩ := List.map_eq_cons_iff.mp hrest
  have hincreasing : (left ++ e :: right).Pairwise fun a b => a.1 < b.1 :=
    hentries ▸ h.increasing.sublist List.filter_sublist
  rw [← he]
  refine latest_eq_some (hentries ▸ List.mem_append_right left List.mem_cons_self) fun e' he' hne => ?_
  rw [hentries] at he'
  unfold later
  rcases List.mem_append.mp he' with hmem | hmem
  · -- it was recorded before, and not seen later
    have hid := (List.pairwise_append.mp hincreasing).2.2 e' hmem e List.mem_cons_self
    have hrow : e'.2 ∈ before.map fun o => observationOf freshness host o.result :=
      hleft ▸ List.mem_map_of_mem hmem
    obtain ⟨p, hp, hrow⟩ := List.mem_map.mp hrow
    have hle := hbefore p hp
    rw [he, ← hrow]
    dsimp only [observationOf]
    omega
  · have hmem := (List.mem_cons.mp hmem).resolve_left hne
    have hrow : e'.2 ∈ after.map fun o => observationOf freshness host o.result :=
      hright ▸ List.mem_map_of_mem hmem
    obtain ⟨p, hp, hrow⟩ := List.mem_map.mp hrow
    have hlt := hafter p hp
    rw [he, ← hrow]
    dsimp only [observationOf]
    omega

/-- An honest result is online, if and only if the upstream has answered. -/
lemma Honest.online_iff (h : Honest o) :
    o.result.status = .online ↔ ∃ status, Answers o.net (probeTarget o.row) status := by
  constructor
  · intro honline
    obtain ⟨-, ⟨-, -, status, hanswers, -⟩ | hoffline⟩ := told_of_probe h.probed
    · exact ⟨status, hanswers⟩
    · exact absurd (honline.symm.trans hoffline.status) (by decide)
  · rintro ⟨status, hanswers⟩
    have hprobed : (probe o.net (probeTarget o.row) o.checkedAt o.elapsed).1 = _ :=
      probe_of_answers hanswers
    rw [h.probed] at hprobed
    rcases hclosed : suppressed o.net.waitClosed with e | ⟨⟩
    · rw [hclosed] at hprobed
      cases hprobed
    · rw [hclosed] at hprobed
      rw [Except.ok.inj hprobed]

/-- An honest result is online or offline. -/
lemma Honest.offline (h : Honest o) (hne : o.result.status ≠ .online) :
    o.result.status = .offline := by
  obtain ⟨-, ⟨honline, -⟩ | hoffline⟩ := told_of_probe h.probed
  · exact absurd honline hne
  · exact hoffline.status

lemma Honest.settled (h : Honest o) : o.result.status = .online ∨ o.result.status = .offline := by
  by_cases honline : o.result.status = .online
  · exact .inl honline
  · exact .inr (h.offline honline)

/-- The reachability that is shown, by the newest result. -/
lemma Kept.reachability (h : Kept freshness x) (ho : Newest (recordedOf host x.log) o) (now : ℤ) :
    reachabilityAt now (x.observations.latest host) =
      if o.result.checkedAt + freshness ≤ now then .stale else o.result.status := by
  rw [h.latest ho]
  rfl

lemma Kept.latest_of_nil (h : Kept freshness x) (hnone : recordedOf host x.log = []) :
    x.observations.latest host = none := by
  have hrows := h.rows host
  rw [hnone] at hrows
  exact latest_eq_none (List.map_eq_nil_iff.mp hrows)

/-- What is shown of a host, in every state of every run.  Its reachability is unknown until a
result is recorded of it; it is stale when the newest result is as old as the freshness; else it is
online or offline, and online if and only if the upstream that the host had when the newest probe
began has answered that probe.  The summary says so for an enabled host that is applied.  All results
are of enabled proxy hosts. -/
theorem shown_exact [DecidableEq κ]
    (h : Relation.ReflTransGen (Step holder freshness) (start hosts clock) x) (host : ℕ)
    (row : HostRow) (deployment : DeploymentState) :
    let shown := healthStatus x.observations deployment x.clock host row
    let fresh := fun o => Newest (recordedOf host x.log) o ∧
      x.clock < o.result.checkedAt + freshness
    (∀ o ∈ recordedOf host x.log, Honest o) ∧
    (shown.reachabilityState = .unknown ↔ recordedOf host x.log = []) ∧
    (shown.reachabilityState = .stale ↔ ∃ o, Newest (recordedOf host x.log) o ∧
      o.result.checkedAt + freshness ≤ x.clock) ∧
    (shown.reachabilityState = .online ↔ ∃ o, fresh o ∧
      ∃ status, Answers o.net (probeTarget o.row) status) ∧
    (shown.reachabilityState = .offline ↔ ∃ o, fresh o ∧
      ¬ ∃ status, Answers o.net (probeTarget o.row) status) ∧
    (shown.summaryStatus = "online" ↔ row.enabled = true ∧ deployment = .applied ∧
      shown.reachabilityState = .online) := by
  intro shown fresh
  have hkept := kept_run h
  have hshown : shown.reachabilityState =
    reachabilityAt x.clock (x.observations.latest host) := rfl
  refine ⟨hkept.honest host, ?_⟩
  rw [← and_assoc, ← and_assoc, ← and_assoc]
  refine ⟨?_, summary_online_iff⟩
  rcases eq_or_ne (recordedOf host x.log) [] with hnone | hsome
  · -- nothing is recorded, and there is no newest result
    have hnot : ∀ o, ¬ Newest (recordedOf host x.log) o := fun o ho =>
      absurd ho.mem (hnone ▸ List.not_mem_nil)
    rw [hshown, hkept.latest_of_nil hnone, reachabilityAt]
    refine ⟨⟨⟨⟨fun _ => hnone, fun _ => rfl⟩, ?_⟩, ?_⟩, ?_⟩
    all_goals refine iff_of_false (by decide) ?_
    · rintro ⟨o, ho, -⟩
      exact hnot o ho
    · rintro ⟨o, ⟨ho, -⟩, -⟩
      exact hnot o ho
    · rintro ⟨o, ⟨ho, -⟩, -⟩
      exact hnot o ho
  · obtain ⟨o, ho⟩ := exists_newest hsome
    have honest := hkept.honest host o ho.mem
    have hunique : ∀ p, Newest (recordedOf host x.log) p → p = o := fun p hp => hp.eq ho
    rw [hshown, hkept.reachability ho]
    by_cases hstale : o.result.checkedAt + freshness ≤ x.clock
    · rw [if_pos hstale]
      refine ⟨⟨⟨iff_of_false (by decide) hsome, fun _ => ⟨o, ho, hstale⟩, fun _ => rfl⟩, ?_⟩, ?_⟩
      all_goals
        refine iff_of_false (by decide) ?_
        rintro ⟨p, ⟨hp, hlt⟩, -⟩
        rw [hunique p hp] at hlt
        omega
    · rw [if_neg hstale]
      have hlt : x.clock < o.result.checkedAt + freshness := by omega
      have hnotStale : ¬ ∃ p, Newest (recordedOf host x.log) p ∧
          p.result.checkedAt + freshness ≤ x.clock := by
        rintro ⟨p, hp, hle⟩
        rw [hunique p hp] at hle
        exact hstale hle
      by_cases honline : o.result.status = .online
      · have hanswers := honest.online_iff.mp honline
        rw [honline]
        refine ⟨⟨⟨iff_of_false (by decide) hsome, iff_of_false (by decide) hnotStale⟩, ?_⟩, ?_⟩
        · exact iff_of_true rfl ⟨o, ⟨ho, hlt⟩, hanswers⟩
        · refine iff_of_false (by decide) ?_
          rintro ⟨p, ⟨hp, -⟩, hnone⟩
          rw [hunique p hp] at hnone
          exact hnone hanswers
      · have hanswers : ¬ ∃ status, Answers o.net (probeTarget o.row) status :=
          fun hanswers => honline (honest.online_iff.mpr hanswers)
        rw [honest.offline honline]
        refine ⟨⟨⟨iff_of_false (by decide) hsome, iff_of_false (by decide) hnotStale⟩, ?_⟩, ?_⟩
        · refine iff_of_false (by decide) ?_
          rintro ⟨p, ⟨hp, -⟩, hsome⟩
          rw [hunique p hp] at hsome
          exact hanswers hsome
        · exact iff_of_true rfl ⟨o, ⟨ho, hlt⟩, hanswers⟩

/-! ## What is audited -/

/-- The row of the audit log for a change from one result to another. -/
def healthChange (p o : Observed) : AuditEvent where
  actorPrincipalId := o.principal.map SecurityPrincipal.userId
  actorSnapshot := o.principal.map actorSnapshot
  targetPrincipalId := none
  outcome := "success"
  action := "proxy_host.health.changed"
  objectType := "proxy_hosts"
  objectId := toString o.host
  details := Dict.ofList
    [ ("from", .text p.result.status.value), ("to", .text o.result.status.value),
      ("phase", .text o.result.phase.value),
      ("error_code", o.result.errorCode.elim .null Json.text) ]

end HealthState

/-- The change that an entry makes, if it makes one: the result is another one than the last. -/
def HealthEntry.change (earlier : List HealthEntry) : HealthEntry → Option AuditEvent
  | .recorded o =>
    ((recordedOf o.host earlier).getLast?.filter fun p => p.result.status ≠ o.result.status).map
      fun p => HealthState.healthChange p o
  | .deleted _ => none

/-- The changes that entries make behind earlier ones. -/
def changesFrom (earlier : List HealthEntry) : List HealthEntry → List AuditEvent
  | [] => []
  | entry :: log => (entry.change earlier).toList ++ changesFrom (earlier ++ [entry]) log

lemma changesFrom_concat (earlier log : List HealthEntry) (entry : HealthEntry) :
    changesFrom earlier (log ++ [entry]) =
      changesFrom earlier log ++ (entry.change (earlier ++ log)).toList := by
  induction log generalizing earlier with
  | nil => simp [changesFrom]
  | cons first log ih =>
    rw [List.cons_append, changesFrom, changesFrom, ih, List.append_assoc, List.append_assoc,
      List.singleton_append]

/-- The results of every host are recorded in the order of their seconds. -/
def ClockOrdered (log : List HealthEntry) : Prop :=
  ∀ before o after, log = before ++ .recorded o :: after →
    ∀ p ∈ recordedOf o.host before, p.result.checkedAt ≤ o.result.checkedAt

lemma ClockOrdered.init {log : List HealthEntry} {entry : HealthEntry}
    (h : ClockOrdered (log ++ [entry])) : ClockOrdered log := by
  intro before o after hlog
  exact h before o (after ++ [entry]) (by rw [hlog, List.append_assoc, List.cons_append])

/-- Then the newest result of a host is the last one. -/
lemma ClockOrdered.newest {log : List HealthEntry} (h : ClockOrdered log) {host : ℕ}
    {o : Observed} (hlast : (recordedOf host log).getLast? = some o) :
    Newest (recordedOf host log) o := by
  induction log using List.reverseRecOn with
  | nil => cases hlast
  | append_singleton log entry ih =>
    rw [recordedOf_concat] at hlast ⊢
    cases entry with
    | recorded p =>
      rw [HealthEntry.onto] at hlast ⊢
      split at hlast
      · rename_i hhost
        rw [if_pos hhost]
        rw [List.getLast?_concat] at hlast
        obtain rfl := Option.some.inj hlast
        exact newest_concat (hhost ▸ h log p [] rfl)
      · rename_i hhost
        rw [if_neg hhost]
        exact ih h.init hlast
    | deleted id =>
      rw [HealthEntry.onto] at hlast ⊢
      split at hlast
      · cases hlast
      · rename_i hhost
        rw [if_neg hhost]
        exact ih h.init hlast

namespace HealthState

variable {κ : Type} {holder : κ → String} {freshness : ℤ} {x y : HealthState κ}
  {hosts : Dict ℕ HostRow} {clock : ℤ} {host : ℕ} {o : Observed}

/-- A result that is no earlier than the others is the newest one, and the newest before it is
next. -/
lemma Kept.statuses (h : Kept freshness x)
    (hordered : ∀ p ∈ recordedOf o.host x.log, p.result.checkedAt ≤ o.result.checkedAt) :
    ((ObservationTable.newest (x.observations.add (observationOf freshness o.host o.result))
        o.host).take 2).map (fun e => e.2.status.value) =
      o.result.status.value ::
        ((x.observations.latest o.host).map fun row => row.status.value).toList := by
  have hnewest : ObservationTable.newest
      (x.observations.add (observationOf freshness o.host o.result)) o.host =
        (x.observations.next, observationOf freshness o.host o.result) ::
          x.observations.newest o.host := by
    have hofHost : ObservationTable.ofHost
        (x.observations.add (observationOf freshness o.host o.result)) o.host = _ :=
      ofHost_add (observationOf freshness o.host o.result)
    rw [routingHostId_observationOf, if_pos rfl] at hofHost
    show (ObservationTable.ofHost _ _).insertionSort later = _
    rw [hofHost]
    refine insertionSort_concat fun e he => ?_
    -- it is as late as this one at most, and its id is smaller
    have hrow : e.2 ∈ (recordedOf o.host x.log).map fun p => observationOf freshness o.host p.result :=
      h.rows o.host ▸ List.mem_map_of_mem he
    obtain ⟨p, hp, hrow⟩ := List.mem_map.mp hrow
    have hle := hordered p hp
    have hmem := Dict.mem_entries_iff.mp (List.mem_filter.mp he).1
    have hid := x.observations.fresh e.1 (Dict.mem_iff.mpr ⟨e.2, hmem⟩)
    unfold later
    rw [← hrow]
    dsimp only [observationOf]
    omega
  rw [hnewest, ObservationTable.latest]
  rcases x.observations.newest o.host with _ | ⟨first, rest⟩
  · rfl
  · rfl

/-- What `audit_mutation` makes of a result that is recorded in order. -/
lemma Kept.audited (h : Kept freshness x) (hordered : ClockOrdered x.log)
    (hlate : ∀ p ∈ recordedOf o.host x.log, p.result.checkedAt ≤ o.result.checkedAt) :
    auditMutation (probeContext (x.observations.add (observationOf freshness o.host o.result))
      o.principal o.host o.result) = (HealthEntry.recorded o).change x.log := by
  have hstatuses := h.statuses hlate
  unfold auditMutation probeContext
  rw [hstatuses]
  dsimp only [HealthEntry.change]
  rw [if_neg (by decide), if_pos ⟨rfl, rfl⟩, Option.bind_some]
  rcases hlast : (recordedOf o.host x.log).getLast? with _ | p
  · rw [h.latest_of_nil (List.getLast?_eq_none_iff.mp hlast)]
    rfl
  · have hnewest := hordered.newest hlast
    rw [h.latest hnewest]
    have hsettled := (h.honest o.host p hnewest.mem).settled
    by_cases hsame : p.result.status = o.result.status
    · rw [Option.filter_some, if_neg (by simpa using hsame)]
      dsimp only [healthDetails, observationOf, Option.map_some, Option.toList]
      rw [hsame, if_pos (.inr rfl)]
      rfl
    · rw [Option.filter_some, if_pos (by simpa using hsame)]
      have hvalue : ¬ o.result.status.value = p.result.status.value :=
        fun heq => hsame (ReachabilityState.value_injective heq).symm
      have hknown : p.result.status.value ∈ ["online", "offline"] := by
        rcases hsettled with hstatus | hstatus
        · rw [hstatus]
          decide
        · rw [hstatus]
          decide
      dsimp only [healthDetails, observationOf, Option.map_some, Option.toList]
      rw [if_neg (not_or.mpr ⟨not_not.mpr hknown, hvalue⟩)]
      rfl

/-- One step. -/
lemma audit_step [DecidableEq κ] (h : Kept freshness x) (haudit : x.audit = changesFrom [] x.log)
    (hstep : Step holder freshness x y) (hordered : ClockOrdered y.log) :
    y.audit = changesFrom [] y.log := by
  cases hstep with
  | delete id =>
    show x.audit = changesFrom [] (x.log ++ [.deleted id])
    rw [changesFrom_concat, haudit]
    exact (List.append_nil _).symm
  | record k o hprobed =>
    have hlog : ClockOrdered (x.log ++ [.recorded o]) := hordered
    show x.audit ++ _ = changesFrom [] (x.log ++ [.recorded o])
    rw [changesFrom_concat, haudit, h.audited hlog.init (hlog x.log o [] rfl),
      List.nil_append]
  | _ => exact haudit

/-- A step does not take entries back. -/
lemma log_step [DecidableEq κ] (hstep : Step holder freshness x y) :
    y.log = x.log ∨ ∃ entry, y.log = x.log ++ [entry] := by
  cases hstep with
  | delete id => exact .inr ⟨.deleted id, rfl⟩
  | record k o => exact .inr ⟨.recorded o, rfl⟩
  | _ => exact .inl rfl

/-- The audit log is the history of the changes: in every run that records the results of each host
in the order of their seconds, it has one row for every result that differs from the last one
recorded of its host, with both states, and no other rows. -/
theorem audit_exact [DecidableEq κ]
    (h : Relation.ReflTransGen (Step holder freshness) (start hosts clock) x)
    (hordered : ClockOrdered x.log) : x.audit = changesFrom [] x.log := by
  induction h with
  | refl => rfl
  | tail hrun hstep ih =>
    refine audit_step (kept_run hrun) (ih ?_) hstep hordered
    rcases log_step hstep with hlog | ⟨entry, hlog⟩
    · rwa [hlog] at hordered
    · rw [hlog] at hordered
      exact hordered.init

/-! ## Who probes -/

section Leases

variable {t : LeaseTable} {name holder' : String} {ttl : Option ℤ} {now : ℤ}

/-- The lease that a call of `acquire` grants. -/
lemma get?_of_granted (hgranted : (t.acquire name holder' ttl now).1.acquired = true) :
    ∃ id, (t.acquire name holder' ttl now).2.get? id =
      some ⟨name, holder', now + ttlSeconds ttl⟩ := by
  have hcase := LeaseTable.acquired t name holder' ttl now
  generalize t.acquire name holder' ttl now = r at hcase hgranted
  cases hcase with
  | created => exact ⟨_, by rw [Table.get?_add, if_pos rfl]⟩
  | refused => exact absurd hgranted Bool.false_ne_true
  | taken id row hrow hname =>
    refine ⟨id, ?_⟩
    rw [Table.get?_modify, hrow, Option.map_some, if_pos rfl, hname]

/-- A lease of another holder stays as it is, unless it has expired. -/
lemma kept_or_expired {id : ℕ} {row : LeaseRow} (hrow : t.get? id = some row)
    (hother : row.holder ≠ holder') :
    (t.acquire name holder' ttl now).2.get? id = some row ∨ row.expiresAt ≤ now := by
  have hcase := LeaseTable.acquired t name holder' ttl now
  generalize t.acquire name holder' ttl now = r at hcase
  cases hcase with
  | created => exact .inl (Table.get?_add_of_eq_some hrow)
  | refused => exact .inl hrow
  | taken id' row' hrow' hname' hfree =>
    by_cases hid : id = id'
    · subst hid
      obtain rfl := Option.some.inj (hrow.symm.trans hrow')
      exact .inr (hfree.resolve_right hother)
    · refine .inl ?_
      rw [Table.get?_modify, hrow, Option.map_some, if_neg hid]

/-- Who is granted a lease that is in the name of another one finds it expired, and conversely. -/
lemma granted_iff_expired (hunique : t.UniqueNames) {id : ℕ} {row : LeaseRow}
    (hrow : t.get? id = some row) (hname : row.name = name) (hother : row.holder ≠ holder') :
    (t.acquire name holder' ttl now).1.acquired = true ↔ row.expiresAt ≤ now := by
  have hcase := LeaseTable.acquired t name holder' ttl now
  generalize t.acquire name holder' ttl now = r at hcase
  cases hcase with
  | created hnew => exact absurd hname (hnew id row hrow)
  | refused id' row' hrow' hname' hlive =>
    obtain rfl := Table.UniqueOn.row_eq hunique hrow hrow' (hname.trans hname'.symm)
    exact iff_of_false Bool.false_ne_true (not_le.mpr hlive)
  | taken id' row' hrow' hname' hfree =>
    obtain rfl := Table.UniqueOn.row_eq hunique hrow hrow' (hname.trans hname'.symm)
    exact iff_of_true rfl (hfree.resolve_right hother)

end Leases

/-- A call probes a host since some second. -/
def Probes (x : HealthState κ) (k : κ) (host : ℕ) (since : ℤ) : Prop :=
  ∃ principal row, x.calls k = .probing principal host row since

/-- A call that probes has the lease of its host, or its time is over; and calls that probe the same
host have begun one after the other's time. -/
structure Leased (holder : κ → String) (x : HealthState κ) : Prop where
  unique : x.leases.UniqueNames
  held : ∀ k host since, x.Probes k host since →
    (∃ id, x.leases.get? id = some ⟨probeLease host, holder k, since + probeTtl⟩) ∨
      since + probeTtl ≤ x.clock
  apart : ∀ j k host since since', j ≠ k → x.Probes j host since → x.Probes k host since' →
    since + probeTtl ≤ since' ∨ since' + probeTtl ≤ since

variable [DecidableEq κ]

lemma probes_come_self {k : κ} {call : ProbeCall} {since : ℤ} : (x.come k call).Probes k host since ↔
    ∃ principal row, call = .probing principal host row since := by
  unfold Probes
  rw [calls_come_self]

lemma probes_come_of_ne {j k : κ} (hj : j ≠ k) {call : ProbeCall} {since : ℤ} :
    (x.come k call).Probes j host since ↔ x.Probes j host since := by
  unfold Probes
  rw [calls_come_of_ne _ hj]

omit [DecidableEq κ] in
lemma leased_start : Leased holder (start hosts clock) where
  unique := Table.uniqueOn_empty _
  held _ _ _ := by
    rintro ⟨_, _, ⟨⟩⟩
  apart _ _ _ _ _ _ := by
    rintro ⟨_, _, ⟨⟩⟩

/-- A call that does not go on to probe, and gives no lease back. -/
lemma Leased.come (h : Leased holder x) (k : κ) {call : ProbeCall}
    (hcall : ∀ principal host row since, call ≠ .probing principal host row since) :
    Leased holder (x.come k call) := by
  have hprobes : ∀ j host since, (x.come k call).Probes j host since → x.Probes j host since := by
    intro j host since hj
    by_cases hjk : j = k
    · subst hjk
      obtain ⟨principal, row, hprobing⟩ := probes_come_self.mp hj
      exact absurd hprobing (hcall principal host row since)
    · exact (probes_come_of_ne hjk).mp hj
  exact ⟨h.unique, fun j host since hj => h.held j host since (hprobes j host since hj),
    fun i j host since since' hne hi hj =>
      h.apart i j host since since' hne (hprobes i host since hi) (hprobes j host since' hj)⟩

/-- A call gives its lease back, and does not probe any more. -/
lemma Leased.giveBack (h : Leased holder x) (hholder : Function.Injective holder) (k : κ)
    (id : ℕ) {call : ProbeCall}
    (hcall : ∀ principal host row since, call ≠ .probing principal host row since) :
    Leased holder ((x.giveBack holder k id).come k call) := by
  have hcome := h.come k hcall
  refine ⟨Table.UniqueOn.deleteWhere h.unique _, fun j host since hj => ?_, hcome.apart⟩
  refine (hcome.held j host since hj).imp_left ?_
  rintro ⟨lease, hlease⟩
  refine ⟨lease, Table.get?_deleteWhere.mpr ⟨hlease, ?_⟩⟩
  have hjk : j ≠ k := by
    rintro rfl
    obtain ⟨principal, row, hprobing⟩ := probes_come_self.mp hj
    exact hcall principal host row since hprobing
  simpa using fun _ heq => hjk (hholder heq)

/-- A call takes the lease of its host. -/
lemma Leased.acquire (h : Leased holder x) (hholder : Function.Injective holder) {k : κ} {id : ℕ}
    (hgranted : (x.ask holder k id).1.acquired = true) (principal : Actor) (row : HostRow) :
    Leased holder ((x.take holder k id).come k (.probing principal id row x.clock)) := by
  -- who else probes the host has had its time
  have hlate : ∀ j since, j ≠ k → x.Probes j id since → since + probeTtl ≤ x.clock := by
    intro j since hjk hj
    rcases h.held j id since hj with ⟨lease, hlease⟩ | hlate
    · exact (granted_iff_expired h.unique hlease rfl fun heq => hjk (hholder heq)).mp hgranted
    · exact hlate
  have hprobes : ∀ j host since, j ≠ k →
      ((x.take holder k id).come k (.probing principal id row x.clock)).Probes j host since →
        x.Probes j host since :=
    fun j host since hjk => (probes_come_of_ne hjk).mp
  have hself : ∀ host since,
      ((x.take holder k id).come k (.probing principal id row x.clock)).Probes k host since →
        host = id ∧ since = x.clock := by
    intro host since hk
    obtain ⟨principal', row', hprobing⟩ := probes_come_self.mp hk
    injection hprobing with _ hhost _ hsince
    exact ⟨hhost.symm, hsince.symm⟩
  refine ⟨LeaseTable.uniqueNames_acquire h.unique, fun j host since hj => ?_,
    fun i j host since since' hne hi hj => ?_⟩
  · by_cases hjk : j = k
    · subst hjk
      obtain ⟨rfl, rfl⟩ := hself host since hj
      exact .inl (get?_of_granted hgranted)
    · rcases h.held j host since (hprobes j host since hjk hj) with ⟨lease, hlease⟩ | hlate
      · rcases kept_or_expired hlease fun heq => hjk (hholder heq) with hkept | hexpired
        · exact .inl ⟨lease, hkept⟩
        · exact .inr hexpired
      · exact .inr hlate
  · by_cases hik : i = k
    · subst hik
      obtain ⟨rfl, rfl⟩ := hself host since hi
      exact .inr (hlate j since' hne.symm (hprobes j _ since' hne.symm hj))
    · by_cases hjk : j = k
      · subst hjk
        obtain ⟨rfl, rfl⟩ := hself host since' hj
        exact .inl (hlate i since hik (hprobes i _ since hik hi))
      · exact h.apart i j host since since' hne (hprobes i host since hik hi)
          (hprobes j host since' hjk hj)

/-- One step. -/
lemma leased_step (hholder : Function.Injective holder) (h : Leased holder x)
    (hstep : Step holder freshness x y) : Leased holder y := by
  cases hstep with
  | pass time htime =>
    refine ⟨h.unique, fun k host since hk => ?_, h.apart⟩
    exact (h.held k host since hk).imp_right fun hlate => hlate.trans htime
  | write host row => exact ⟨h.unique, h.held, h.apart⟩
  | delete host => exact ⟨h.unique, h.held, h.apart⟩
  | enter k principal host row => exact h.come k (by rintro _ _ _ _ ⟨⟩)
  | acquire k principal host row hentered hgranted => exact h.acquire hholder hgranted principal row
  | answer k o since => exact h.giveBack hholder k o.host (by rintro _ _ _ _ ⟨⟩)
  | raise k principal host row since => exact h.giveBack hholder k host (by rintro _ _ _ _ ⟨⟩)
  | record k o =>
    have hrecord : Leased holder (x.record freshness o) := ⟨h.unique, h.held, h.apart⟩
    exact hrecord.come k (by rintro _ _ _ _ ⟨⟩)
  | leave k => exact h.come k (by rintro _ _ _ _ ⟨⟩)

lemma leased_run (hholder : Function.Injective holder)
    (h : Relation.ReflTransGen (Step holder freshness) (start hosts clock) x) : Leased holder x := by
  induction h with
  | refl => exact leased_start
  | tail _ hstep ih => exact leased_step hholder ih hstep

omit [DecidableEq κ] in
/-- A call that waits for the lease of its host to expire is granted it. -/
lemma exists_granted (x : HealthState κ) (k : κ) (host : ℕ) : ∃ time, x.clock ≤ time ∧
    (ask holder { x with clock := time } k host).1.acquired = true := by
  rcases hrow : x.leases.selectOne fun row => row.name = probeLease host with _ | ⟨id, row⟩
  · refine ⟨x.clock, le_rfl, ?_⟩
    unfold ask LeaseTable.acquire
    dsimp only
    rw [hrow]
  · refine ⟨max x.clock row.expiresAt, le_max_left _ _, ?_⟩
    unfold ask LeaseTable.acquire
    dsimp only
    rw [hrow]
    dsimp only
    rw [if_neg fun h => not_le.mpr h.1 (le_max_right _ _)]

/-- In every run, two calls that probe the same host together have taken its lease thirty seconds
apart, or more.  That is all: while a call probes a host, another one that has entered may come to
probe it too, when its lease has expired. -/
theorem probes_apart (hholder : Function.Injective holder)
    (h : Relation.ReflTransGen (Step holder freshness) (start hosts clock) x) {j k : κ} (host : ℕ)
    (since : ℤ) (hne : j ≠ k) (hj : x.Probes j host since) :
    (∀ since', x.Probes k host since' →
      since + probeTtl ≤ since' ∨ since' + probeTtl ≤ since) ∧
    ∀ principal row, x.calls k = .entered principal host row →
      ∃ y, Relation.ReflTransGen (Step holder freshness) x y ∧ y.Probes j host since ∧
        ∃ since', y.Probes k host since' := by
  refine ⟨fun since' hk => (leased_run hholder h).apart j k host since since' hne hj hk,
    fun principal row hentered => ?_⟩
  obtain ⟨time, htime, hgranted⟩ : ∃ time, x.clock ≤ time ∧
      (ask holder { x with clock := time } k host).1.acquired = true :=
    exists_granted x k host
  have hrun : Relation.ReflTransGen (Step holder freshness) x { x with clock := time } :=
    .single (.pass time htime)
  refine ⟨_, hrun.tail (.acquire k principal host row hentered hgranted), ?_, time, ?_⟩
  · exact (probes_come_of_ne hne).mpr hj
  · exact probes_come_self.mpr ⟨principal, row, rfl⟩

/-! ### One call -/

/-- The holder ids of two calls. -/
def callHolder (k : Bool) : String := if k then "a" else "b"

lemma callHolder_injective : Function.Injective callHolder := by
  intro k j h
  cases k <;> cases j <;> first | rfl | exact absurd h (by decide)

/-- A proxy host. -/
def shop : HostRow where
  kind := .proxy
  ownerPrincipalId := none
  enabled := true
  certificateId := none
  forceSsl := false
  hstsEnabled := false
  hstsSubdomains := false
  http2Enabled := false
  trustForwardedProto := false
  websocketEnabled := false
  cacheEnabled := false
  blockExploits := false
  redirectTarget := none
  redirectScheme := none
  redirectCode := none
  preservePath := false
  advancedConfig := ""
  extensions := Dict.empty

/-- A network in which no name is resolved. -/
def unresolving : Network where
  getaddrinfo := .error (.raised "gaierror" "Name or service not known" true)
  socket _ := .ok ()
  sockConnect _ := .ok ()
  openConnection := .ok ()
  drain := .ok ()
  readline := .ok []
  waitClosed := .ok ()
  encodeError := ""

/-- What is observed there. -/
def unresolved : Observed where
  principal := none
  host := 1
  row := shop
  net := unresolving
  checkedAt := 0
  elapsed := 0
  result :=
    { status := .offline
      phase := .dns
      checkedAt := 0
      latencyMs := some 0
      errorCode := some "gaierror"
      errorDetail := some (errorDetail "gaierror" "Name or service not known") }

/-- Two calls have entered. -/
def bothEntered : HealthState Bool :=
  ((start (Dict.empty.set 1 shop) 0).come true (.entered none 1 shop)).come false
    (.entered none 1 shop)

/-- One of them probes the host. -/
def oneProbes : HealthState Bool :=
  (bothEntered.take callHolder true 1).come true (.probing none 1 shop 0)

/-- Its result is recorded. -/
def oneRecorded : HealthState Bool :=
  ((((oneProbes.giveBack callHolder true 1).come true (.probed unresolved)).record 60
    unresolved).come true .ended)

lemma run_oneProbes :
    Relation.ReflTransGen (Step callHolder 60) (start (Dict.empty.set 1 shop) 0) oneProbes :=
  ((Relation.ReflTransGen.single (.enter true none 1 shop rfl rfl)).tail
    (.enter false none 1 shop rfl rfl)).tail (.acquire true none 1 shop rfl rfl)

lemma run_oneRecorded :
    Relation.ReflTransGen (Step callHolder 60) (start (Dict.empty.set 1 shop) 0) oneRecorded :=
  (run_oneProbes.tail (.answer true unresolved 0 rfl rfl)).tail (.record true unresolved rfl)

/-- The host is shown to be offline then. -/
theorem shown_exact_oneRecorded : (healthStatus oneRecorded.observations .applied oneRecorded.clock
    1 shop).reachabilityState = .offline := by
  refine (shown_exact run_oneRecorded 1 shop .applied).2.2.2.2.1.mpr
    ⟨unresolved, ⟨?_, by decide⟩, ?_⟩
  · exact ⟨[], [], rfl, fun _ hp => absurd hp List.not_mem_nil,
      fun _ hp => absurd hp List.not_mem_nil⟩
  · rintro ⟨status, hanswers⟩
    obtain ⟨address, rest, hresolved, -⟩ := hanswers.connects
    cases hresolved

/-- That it was unknown before is no change. -/
theorem audit_exact_oneRecorded : oneRecorded.audit = [] := by
  refine (audit_exact run_oneRecorded ?_).trans rfl
  rintro before o after hlog p hp
  rcases before with _ | ⟨entry, before⟩
  · exact absurd hp List.not_mem_nil
  · obtain ⟨-, hrest⟩ := List.cons.inj hlog
    exact absurd hrest (by simp)

/-- The other call may come to probe the host too. -/
theorem probes_apart_oneProbes : ∃ y, Relation.ReflTransGen (Step callHolder 60) oneProbes y ∧
    y.Probes true 1 0 ∧ ∃ since', y.Probes false 1 since' :=
  (probes_apart callHolder_injective run_oneProbes (j := true) (k := false) 1 0 (by decide)
    ⟨none, shop, rfl⟩).2 none shop rfl

end HealthState

end Portwyrm.Tables

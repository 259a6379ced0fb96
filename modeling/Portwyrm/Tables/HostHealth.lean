import Mathlib.Data.List.Sort
import Mathlib.Logic.Function.Basic
import Portwyrm.Runtime.Deployment
import Portwyrm.Runtime.Leases
import Portwyrm.Runtime.UpstreamProbe
import Portwyrm.Tables.Audit
import Portwyrm.Tables.Hosts

/-!
# The health of proxy hosts

`portwyrm.health`, the table of observations, and the operations `probe` and `health_read` of
`RoutingHostStore`.  A probe takes a lease on its host, asks the network, gives the lease back and
records what it has seen, with a row in the audit log when the state of the host has changed.
-/

namespace Portwyrm.Tables

open Base Portwyrm.Runtime Portwyrm.Identity

/-! ## States -/

/-- `AdministrativeState`. -/
inductive AdministrativeState
  | enabled
  | disabled
deriving DecidableEq

/-- The text of a state. -/
def AdministrativeState.value : AdministrativeState → String
  | .enabled => "enabled"
  | .disabled => "disabled"

/-- The text of a `DeploymentState`. -/
def deploymentValue : DeploymentState → String
  | .pending => "pending"
  | .applying => "applying"
  | .applied => "applied"
  | .failed => "failed"
  | .drifted => "drifted"
  | .rolledBack => "rolled_back"

/-- `derive_host_summary`. -/
def deriveHostSummary (administrative : AdministrativeState) (deployment : DeploymentState)
    (reachability : ReachabilityState) : String :=
  if administrative = .disabled then AdministrativeState.disabled.value
  else if deployment ∈ [.failed, .drifted, .rolledBack] then deploymentValue deployment
  else if deployment ∈ [.pending, .applying] then deploymentValue deployment
  else reachability.value

/-! ## Observations -/

/-- A row of `proxy_host_health_observations`. -/
structure ObservationRow where
  routingHostId : ℕ
  status : ReachabilityState
  phase : ProbePhase
  checkedAt : ℤ
  expiresAt : ℤ
  latencyMs : Option ℤ
  httpStatus : Option ℕ
  errorCode : Option String
  errorDetail : Option String
deriving DecidableEq

/-- The table `proxy_host_health_observations`. -/
abbrev ObservationTable := Table ObservationRow

/-- `order_by(checked_at.desc(), id.desc())`. -/
def later (a b : ℕ × ObservationRow) : Prop :=
  b.2.checkedAt < a.2.checkedAt ∨ b.2.checkedAt = a.2.checkedAt ∧ b.1 ≤ a.1

instance : DecidableRel later := fun _ _ => instDecidableOr

/-- The observations of a host, newest first. -/
def ObservationTable.newest (t : ObservationTable) (host : ℕ) : List (ℕ × ObservationRow) :=
  (t.rows.entries.filter fun e => e.2.routingHostId = host).insertionSort later

/-- `_latest_observation`. -/
def ObservationTable.latest (t : ObservationTable) (host : ℕ) : Option ObservationRow :=
  (t.newest host).head?.map Prod.snd

/-- The row that `probe` adds for its result. -/
def observationOf (freshness : ℤ) (host : ℕ) (result : ProbeResult) : ObservationRow where
  routingHostId := host
  status := result.status
  phase := result.phase
  checkedAt := result.checkedAt
  expiresAt := result.checkedAt + freshness
  latencyMs := result.latencyMs
  httpStatus := result.httpStatus
  errorCode := result.errorCode
  errorDetail := result.errorDetail

@[simp] lemma routingHostId_observationOf (freshness : ℤ) (host : ℕ) (result : ProbeResult) :
    (observationOf freshness host result).routingHostId = host := rfl

/-! ## What is shown -/

/-- `HealthStatus`. -/
structure HealthStatus where
  id : ℕ
  ownerPrincipalId : Option ℕ
  administrativeState : AdministrativeState
  deploymentState : DeploymentState
  reachabilityState : ReachabilityState
  summaryStatus : String
  checkedAt : Option ℤ
  expiresAt : Option ℤ
  latencyMs : Option ℤ
  httpStatus : Option ℕ
  phase : Option ProbePhase
  errorCode : Option String
  errorDetail : Option String

/-- The reachability that an observation shows at the second `now`. -/
def reachabilityAt (now : ℤ) : Option ObservationRow → ReachabilityState
  | none => .unknown
  | some observation => if observation.expiresAt ≤ now then .stale else observation.status

/-- Whether a host is enabled. -/
def administrativeState (row : HostRow) : AdministrativeState :=
  if row.enabled = true then .enabled else .disabled

/-- `_health_status`, with the deployment state of the host. -/
def healthStatus (t : ObservationTable) (deployment : DeploymentState) (now : ℤ) (id : ℕ)
    (row : HostRow) : HealthStatus :=
  let observation := t.latest id
  let reachability := reachabilityAt now observation
  { id := id
    ownerPrincipalId := row.ownerPrincipalId
    administrativeState := administrativeState row
    deploymentState := deployment
    reachabilityState := reachability
    summaryStatus := deriveHostSummary (administrativeState row) deployment reachability
    checkedAt := observation.map ObservationRow.checkedAt
    expiresAt := observation.map ObservationRow.expiresAt
    latencyMs := observation.bind ObservationRow.latencyMs
    httpStatus := observation.bind ObservationRow.httpStatus
    phase := observation.map ObservationRow.phase
    errorCode := observation.bind ObservationRow.errorCode
    errorDetail := observation.bind ObservationRow.errorDetail }

/-- A summary is that of an upstream, where the host is enabled and its configuration applied. -/
lemma summary_online_iff {t : ObservationTable} {deployment : DeploymentState} {now : ℤ} {id : ℕ}
    {row : HostRow} : (healthStatus t deployment now id row).summaryStatus = "online" ↔
      row.enabled = true ∧ deployment = .applied ∧
        (healthStatus t deployment now id row).reachabilityState = .online := by
  dsimp only [healthStatus]
  generalize reachabilityAt now (t.latest id) = reachability
  unfold deriveHostSummary administrativeState
  by_cases henabled : row.enabled = true
  · rw [if_pos henabled]
    cases deployment <;> cases reachability <;> simp [henabled, deploymentValue,
      ReachabilityState.value]
  · rw [if_neg henabled, if_pos rfl]
    simp [henabled, AdministrativeState.value]

/-! ## Probing -/

/-- `ttl_seconds` of the lease of a probe. -/
def probeTtl : ℤ := 30

/-- The name of the lease of a probe. -/
def probeLease (host : ℕ) : String := s!"proxy-host-probe:{host}"

/-- The target of a probe: the upstream that the projection of the host shows. -/
def probeTarget (row : HostRow) : ProbeTarget where
  host := ((projectHost row).forwardHost.get).getD "None"
  port := (((projectHost row).forwardPort.get).getD 0).toNat
  scheme := textOr (projectHost row).forwardScheme.get "http"

/-- The checks of `probe` before it takes the lease: the row of the host. -/
def probedRow (hosts : Dict ℕ HostRow) (host : ℕ) : Result HostRow :=
  match (hosts.get? host).filter fun row => row.kind = .proxy with
  | none => throw (.lookupError "proxy host not found")
  | some row => do
    raiseIf (row.enabled = false) (.valueError "disabled proxy hosts are not probed")
    pure row

/-- The context in which `audit_mutation` sees a probe that has recorded its result. -/
def probeContext (t : ObservationTable) (principal : Actor) (host : ℕ) (result : ProbeResult) :
    AuditContext where
  alias_ := "probe"
  tableName := "routing_hosts"
  principal := principal
  probe := some
    { hostId := host
      statuses := ((t.newest host).take 2).map fun e => e.2.status.value
      phase := some result.phase.value
      errorCode := result.errorCode }

/-! ## The newest observations -/

section Newest

variable {t : ObservationTable} {host : ℕ}

lemma later_total (a b : ℕ × ObservationRow) : later a b ∨ later b a := by
  unfold later
  omega

lemma later_trans {a b c : ℕ × ObservationRow} (hab : later a b) (hbc : later b c) : later a c := by
  unfold later at *
  omega

/-- What is sorted before everything else is sorted in front, wherever it comes from. -/
lemma insertionSort_concat {α : Type*} {r : α → α → Prop} [DecidableRel r] {l : List α} {a : α}
    (h : ∀ b ∈ l, ¬ r b a) : (l ++ [a]).insertionSort r = a :: l.insertionSort r := by
  induction l with
  | nil => rfl
  | cons b l ih =>
    rw [List.cons_append, List.insertionSort_cons, ih fun c hc => h c (List.mem_cons_of_mem b hc),
      List.orderedInsert_cons, if_neg (h b List.mem_cons_self), List.insertionSort_cons]

/-- The observations of a host. -/
def ObservationTable.ofHost (t : ObservationTable) (host : ℕ) : List (ℕ × ObservationRow) :=
  t.rows.entries.filter fun e => e.2.routingHostId = host

lemma ofHost_add (row : ObservationRow) : ObservationTable.ofHost (t.add row) host =
    t.ofHost host ++ if row.routingHostId = host then [(t.next, row)] else [] := by
  have hnew : t.next ∉ t.rows := fun h => Nat.lt_irrefl _ (t.fresh _ h)
  have hentries : (t.add row).rows.entries = t.rows.entries ++ [(t.next, row)] :=
    Dict.entries_set_of_not_mem hnew
  rw [ObservationTable.ofHost, hentries, List.filter_append, List.filter_singleton]
  split <;> simp_all [ObservationTable.ofHost]

lemma ofHost_deleteWhere (other : ℕ) :
    ObservationTable.ofHost (t.deleteWhere fun row => row.routingHostId = other) host =
      if host = other then [] else t.ofHost host := by
  have hentries : (t.deleteWhere fun row => row.routingHostId = other).rows.entries =
    t.rows.entries.filter fun e => !decide (e.2.routingHostId = other) := rfl
  rw [ObservationTable.ofHost, hentries, List.filter_filter]
  split
  · rename_i heq
    refine List.filter_eq_nil_iff.mpr fun e _ => ?_
    simp [heq]
  · rename_i hne
    refine List.filter_congr fun e _ => ?_
    by_cases hhost : e.2.routingHostId = host
    · simp [hhost, hne]
    · simp [hhost]

/-- The newest observation is in front. -/
lemma latest_eq_some {e : ℕ × ObservationRow} (h : e ∈ t.ofHost host)
    (hlater : ∀ e' ∈ t.ofHost host, e' ≠ e → ¬ later e' e) : t.latest host = some e.2 := by
  have hsorted : (t.newest host).Pairwise later :=
    haveI : Std.Total later := ⟨later_total⟩
    haveI : IsTrans _ later := ⟨fun _ _ _ => later_trans⟩
    List.pairwise_insertionSort later _
  have hmem : e ∈ t.newest host := (List.mem_insertionSort later).mpr h
  rw [ObservationTable.latest]
  rcases hnewest : t.newest host with _ | ⟨first, rest⟩
  · rw [hnewest] at hmem
    exact absurd hmem List.not_mem_nil
  rw [hnewest] at hmem hsorted
  have hfirst : first ∈ t.newest host := by
    rw [hnewest]
    exact List.mem_cons_self
  have hfirst : first ∈ t.ofHost host := (List.mem_insertionSort later).mp hfirst
  rcases List.mem_cons.mp hmem with rfl | hrest
  · rfl
  · have hle := List.rel_of_pairwise_cons hsorted hrest
    by_cases heq : first = e
    · rw [heq]
      rfl
    · exact absurd hle (hlater first hfirst heq)

lemma latest_eq_none (h : t.ofHost host = []) : t.latest host = none := by
  have hnewest : t.newest host = (t.ofHost host).insertionSort later := rfl
  rw [ObservationTable.latest, hnewest, h]
  rfl

end Newest

end Portwyrm.Tables

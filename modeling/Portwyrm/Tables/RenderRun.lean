import Mathlib.Data.PNat.Defs
import Portwyrm.Tables.WrittenRows

/-!
# Runs of writes

Sequences of creates, updates and replacements of hosts, streams, QUIC routes and access lists,
and whether the tables they lead to can be rendered.
-/

namespace Portwyrm.Tables

open Base Portwyrm.Runtime Portwyrm.Quic Portwyrm.Identity

/-! ## Operations -/

/-- An operation on the tables of a generation; the database generates the ids of hosts and
streams, which are positive. -/
inductive RoutingOp
  | createHost (kind : HostKind) (generated : ℕ+) (payload : HostPayload)
  | updateHost (kind : HostKind) (id : ℕ) (payload : HostPayload)
  | replaceHost (kind : HostKind) (id : ℕ) (payload : HostPayload)
  | createStream (generated : ℕ+) (payload : StreamPayload)
  | updateStream (id : ℕ) (payload : StreamPayload)
  | replaceStream (id : ℕ) (payload : StreamPayload)
  | route (op : RouteOp)
  | createAccessList (payload : AccessListPayload)
  | updateAccessList (id : ℕ) (payload : AccessListPayload)
  | replaceAccessList (id : ℕ) (payload : AccessListPayload)

/-- A call: who makes it, and the salts that are drawn for the passwords it sends. -/
structure RoutingCall where
  actor : Actor
  salts : ℕ → ℕ
  op : RoutingOp

section Operations

-- `bcrypt.hashpw`, by salt and password, and the certificates that are stored
variable (bcryptHash : ℕ → String → String) (certificates : List ℕ)

/-- The tables after a call. -/
def applyRoutingOp (t : RoutingTables) (call : RoutingCall) : Result RoutingTables :=
  let actor := call.actor
  let hash := fun position => bcryptHash (call.salts position)
  let accessLists := t.access.lists.rows.keys
  match call.op with
  | .createHost kind generated payload => do
    pure { t with
      hosts := ← createHost certificates accessLists actor kind generated payload t.hosts }
  | .updateHost kind id payload => do
    pure { t with hosts := ← updateHost certificates accessLists actor kind id payload t.hosts }
  | .replaceHost kind id payload => do
    pure { t with hosts := ← replaceHost certificates accessLists actor kind id payload t.hosts }
  | .createStream generated payload => do
    pure { t with streams := ← createStream certificates actor generated payload t.streams }
  | .updateStream id payload => do
    pure { t with streams := ← updateStream certificates actor id payload t.streams }
  | .replaceStream id payload => do
    pure { t with streams := ← replaceStream certificates actor id payload t.streams }
  | .route op => do pure { t with quicRoutes := ← applyRouteOp t.quicRoutes op }
  | .createAccessList payload => do
    pure { t with access := ← createAccessList hash actor payload t.access }
  | .updateAccessList id payload => do
    pure { t with access := ← updateAccessList hash actor id payload t.access }
  | .replaceAccessList id payload => do
    pure { t with access := ← replaceAccessList hash actor id payload t.access }

/-- One call: a refused operation leaves the tables as they are. -/
def routingStep (t : RoutingTables) (call : RoutingCall) : RoutingTables :=
  match applyRoutingOp bcryptHash certificates t call with
  | .ok t' => t'
  | .error _ => t

/-- The tables after a sequence of calls, from empty ones. -/
def routingRun (calls : List RoutingCall) : RoutingTables :=
  calls.foldl (routingStep bcryptHash certificates) {}

end Operations

/-! ## The condition -/

section Condition

variable (hash : ℕ → String → String) (t : RoutingTables)

/-- A proxy host selects access lists that agree on the passwords of their users. -/
def HostCompiles (kind : HostKind) (payload : HostPayload) : Prop :=
  kind = .proxy →
    Dict.Functional ((payload.selectedAccessLists.map Int.toNat).flatMap t.access.pairsOf)

/-- The target of a stream passes the check of targets. -/
def StreamCompiles (payload : StreamPayload) : Prop :=
  ∀ kind, TargetKind.ofValue? (streamValues payload).targetKind = some kind →
    ∃ s, target (streamValues payload).target kind "forwarding_host" = .ok s

/-- An access list has a name, and every proxy host that selects it selects lists that agree with
what the payload stores. -/
def AccessListCompiles (id : ℕ) (payload : AccessListPayload) : Prop :=
  Text.strip (textOr payload.name.get "") ≠ "" ∧
    ∀ host row, t.hosts.get? host = some row → row.kind = .proxy → id ∈ row.accessListIds →
      Dict.Functional (row.accessListIds.flatMap fun i =>
        if i = id then storedPairs hash id payload.aggregate t.access else t.access.pairsOf i)

/-- What an operation has to write for the tables to stay compilable. -/
def Compiles : RoutingOp → Prop
  | .createHost kind _ payload => HostCompiles t kind payload
  | .updateHost kind id payload => ∀ stored ∈ getHost kind id t.hosts,
      HostCompiles t kind (payload.over (projectHost stored))
  | .replaceHost kind id payload => (getHost kind id t.hosts).isSome → HostCompiles t kind payload
  | .replaceStream id payload => (t.streams.get? id).isSome → StreamCompiles payload
  | .createStream _ _ | .updateStream _ _ | .route _ => True
  | .createAccessList payload => AccessListCompiles hash t t.access.lists.next payload
  | .updateAccessList id payload => ∀ stored ∈ t.access.lists.get? id,
      AccessListCompiles hash t id (payload.over (projectAccessList t.access id stored))
  | .replaceAccessList id payload =>
      (t.access.lists.get? id).isSome → AccessListCompiles hash t id payload

end Condition

/-! ## One write -/

section Writes

variable {t : RoutingTables}

lemma sound_empty : Sound {} where
  hosts _ _ h := absurd h (by simp)
  selected _ _ h := absurd h (by simp)
  streams _ _ h := absurd h (by simp)
  quicRoutes := accepted_nil
  access :=
    { next := Nat.one_pos
      positive := fun _ _ h => absurd h (by simp [Table.get?, Table.empty])
      rules := fun _ _ h => absurd (mem_sortedBy.mp h) List.not_mem_nil
      credentials := fun _ _ h => absurd h List.not_mem_nil }

lemma compilable_empty : Compilable {} where
  names _ _ h := absurd h (by simp [Table.get?, Table.empty])
  targets _ _ h := absurd h (by simp)
  passwords _ _ h := absurd h (by simp)

/-- A host that is written. -/
structure HostWritten (t : RoutingTables) (kind : HostKind) (id : ℕ) (payload : HostPayload)
    (row : HostRow) : Prop where
  valid : ValidHost id row
  kind : row.kind = kind
  accessListIds : row.accessListIds = payload.selectedAccessLists.map Int.toNat
  stored : ∀ i ∈ row.accessListIds, ∃ l, t.access.lists.get? i = some l

lemma hostWritten_of_writeHost {certificates : List ℕ} (ht : Sound t)
    {owner : Option ℕ → Option ℕ} {excludeId : Option ℕ} {kind : HostKind} {id : ℕ}
    {payload : HostPayload} {row : HostRow} (hid : 0 < id)
    (h : writeHost certificates t.access.lists.rows.keys kind owner excludeId id payload t.hosts =
      .ok row) : HostWritten t kind id payload row := by
  have hpositive : ∀ i ∈ t.access.lists.rows.keys, 0 < i := by
    intro i hi
    obtain ⟨l, hl⟩ := Dict.mem_keys_iff.mp hi
    exact ht.access.positive i l hl
  obtain ⟨hvalid, hkind, hselected, hstored⟩ := validHost_of_writeHost hid hpositive h
  exact ⟨hvalid, hkind, hselected, fun i hi => Dict.mem_keys_iff.mp (hstored i hi)⟩

lemma sound_setHost (ht : Sound t) {kind : HostKind} {id : ℕ} {payload : HostPayload}
    {row : HostRow} (h : HostWritten t kind id payload row) :
    Sound { t with hosts := t.hosts.set id row } where
  hosts id' row' hget := by
    rw [Dict.get?_set] at hget
    split at hget
    · rename_i heq
      obtain rfl := Option.some.inj hget
      exact heq ▸ h.valid
    · exact ht.hosts id' row' hget
  selected id' row' hget := by
    rw [Dict.get?_set] at hget
    split at hget
    · obtain rfl := Option.some.inj hget
      exact h.stored
    · exact ht.selected id' row' hget
  streams := ht.streams
  quicRoutes := ht.quicRoutes
  access := ht.access

lemma compilable_setHost_iff (hc : Compilable t) {kind : HostKind} {id : ℕ} {payload : HostPayload}
    {row : HostRow} (h : HostWritten t kind id payload row) :
    Compilable { t with hosts := t.hosts.set id row } ↔ HostCompiles t kind payload := by
  constructor
  · intro hc' hkind
    rw [← h.accessListIds]
    exact hc'.passwords id row (Dict.get?_set_self _ _ _) (h.kind.trans hkind)
  · intro hhost
    refine ⟨hc.names, hc.targets, fun id' row' hget hproxy => ?_⟩
    rw [Dict.get?_set] at hget
    split at hget
    · obtain rfl := Option.some.inj hget
      rw [h.accessListIds]
      exact hhost (h.kind.symm.trans hproxy)
    · exact hc.passwords id' row' hget hproxy

lemma sound_setStream (ht : Sound t) {id : ℕ} {row : StreamRow} (h : ValidStream row) :
    Sound { t with streams := t.streams.set id row } where
  hosts := ht.hosts
  selected := ht.selected
  streams id' row' hget := by
    rw [Dict.get?_set] at hget
    split at hget
    · exact Option.some.inj hget ▸ h
    · exact ht.streams id' row' hget
  quicRoutes := ht.quicRoutes
  access := ht.access

lemma compilable_setStream_iff (hc : Compilable t) {id : ℕ} {row : StreamRow} :
    Compilable { t with streams := t.streams.set id row } ↔ row.Reachable := by
  constructor
  · intro hc'
    exact hc'.targets id row (Dict.get?_set_self _ _ _)
  · intro hrow
    refine ⟨hc.names, fun id' row' hget => ?_, hc.passwords⟩
    rw [Dict.get?_set] at hget
    split at hget
    · exact Option.some.inj hget ▸ hrow
    · exact hc.targets id' row' hget

variable {hash : ℕ → String → String} {id : ℕ} {payload : AccessListPayload} {access : AccessTables}

lemma sound_setAccess (ht : Sound t) (hid : 0 < id) (h : Wrote hash id payload t.access access) :
    Sound { t with access := access } where
  hosts := ht.hosts
  selected host row hget i hi := by
    obtain ⟨l, hl⟩ := ht.selected host row hget i hi
    by_cases heq : i = id
    · exact ⟨_, heq ▸ h.row⟩
    · exact ⟨l, (h.others i heq).trans hl⟩
  streams := ht.streams
  quicRoutes := ht.quicRoutes
  access := soundAccess_of_wrote ht.access hid h

/-- The names and hashes after a write. -/
lemma pairsOf_of_wrote (h : Wrote hash id payload t.access access) (i : ℕ) :
    access.pairsOf i =
      if i = id then storedPairs hash id payload.aggregate t.access else t.access.pairsOf i := by
  split
  · rename_i heq
    exact heq ▸ h.pairs
  · rename_i hne
    rw [AccessTables.pairsOf, h.otherCredentials i hne, AccessTables.pairsOf]

lemma compilable_setAccess_iff (hc : Compilable t) (h : Wrote hash id payload t.access access) :
    Compilable { t with access := access } ↔ AccessListCompiles hash t id payload := by
  have hpairs : access.pairsOf = fun i =>
      if i = id then storedPairs hash id payload.aggregate t.access else t.access.pairsOf i :=
    funext fun i => pairsOf_of_wrote h i
  constructor
  · intro hc'
    have hname : Text.strip (accessListRow payload).name ≠ "" := hc'.names id _ h.row
    refine ⟨hname, fun host row hget hproxy _ => ?_⟩
    have hpasswords : Dict.Functional (row.accessListIds.flatMap access.pairsOf) :=
      hc'.passwords host row hget hproxy
    rwa [hpairs] at hpasswords
  · rintro ⟨hname, hhosts⟩
    refine ⟨fun i row hrow => ?_, hc.targets, fun host row hget hproxy => ?_⟩
    · by_cases heq : i = id
      · subst heq
        obtain rfl := Option.some.inj (h.row.symm.trans hrow)
        exact hname
      · exact hc.names i row ((h.others i heq).symm.trans hrow)
    · show Dict.Functional (row.accessListIds.flatMap access.pairsOf)
      by_cases hmem : id ∈ row.accessListIds
      · rw [hpairs]
        exact hhosts host row hget hproxy hmem
      · -- the host does not select the list that is written
        have hsame : row.accessListIds.flatMap access.pairsOf =
            row.accessListIds.flatMap t.access.pairsOf := by
          refine List.flatMap_congr fun i hi => ?_
          have hne : i ≠ id := ne_of_mem_of_not_mem hi hmem
          rw [pairsOf_of_wrote h, if_neg hne]
        rw [hsame]
        exact hc.passwords host row hget hproxy

end Writes

/-! ## One call -/

section Calls

variable {bcryptHash : ℕ → String → String} {certificates : List ℕ} {t t' : RoutingTables}
  {call : RoutingCall}

/-- An accepted call keeps the tables sound, and keeps them compilable exactly when it writes what
it has to. -/
theorem applyRoutingOp_spec (ht : Sound t)
    (h : applyRoutingOp bcryptHash certificates t call = .ok t') :
    Sound t' ∧ (Compilable t →
      (Compilable t' ↔ Compiles (fun position => bcryptHash (call.salts position)) t call.op)) := by
  obtain ⟨actor, salts, op⟩ := call
  cases op with
  | createHost kind generated payload =>
    simp only [applyRoutingOp, bind_eq_ok_iff, pure_eq_ok_iff] at h
    obtain ⟨_, h, rfl⟩ := h
    obtain ⟨row, rfl, -, hrow⟩ := createHost_spec h
    have hwritten := hostWritten_of_writeHost ht generated.pos hrow
    exact ⟨sound_setHost ht hwritten, fun hc => compilable_setHost_iff hc hwritten⟩
  | updateHost kind id payload =>
    simp only [applyRoutingOp, bind_eq_ok_iff, pure_eq_ok_iff] at h
    obtain ⟨hosts, h, rfl⟩ := h
    rcases updateHost_cases h with ⟨rfl, hnone⟩ | ⟨stored, row, hstored, rfl, hrow⟩
    · exact ⟨ht, fun hc => iff_of_true hc (by simp [Compiles, hnone])⟩
    · have hid := (ht.hosts id stored (getHost_eq_some hstored)).positive
      have hwritten := hostWritten_of_writeHost ht hid hrow
      refine ⟨sound_setHost ht hwritten, fun hc => ?_⟩
      simpa [Compiles, hstored] using compilable_setHost_iff hc hwritten
  | replaceHost kind id payload =>
    simp only [applyRoutingOp, bind_eq_ok_iff, pure_eq_ok_iff] at h
    obtain ⟨hosts, h, rfl⟩ := h
    rcases replaceHost_cases h with ⟨rfl, hnone⟩ | ⟨stored, row, hstored, rfl, hrow⟩
    · exact ⟨ht, fun hc => iff_of_true hc (by simp [Compiles, hnone])⟩
    · have hid := (ht.hosts id stored (getHost_eq_some hstored)).positive
      have hwritten := hostWritten_of_writeHost ht hid hrow
      refine ⟨sound_setHost ht hwritten, fun hc => ?_⟩
      simpa [Compiles, hstored] using compilable_setHost_iff hc hwritten
  | createStream generated payload =>
    simp only [applyRoutingOp, bind_eq_ok_iff, pure_eq_ok_iff] at h
    obtain ⟨_, h, rfl⟩ := h
    obtain ⟨row, rfl, -, hvalidate, hrow⟩ := createStream_spec h
    obtain ⟨hvalid, htarget, hkind⟩ := validStream_of_checkStream hrow
    refine ⟨sound_setStream ht hvalid, fun hc => (compilable_setStream_iff hc).trans ?_⟩
    exact iff_of_true (reachable_of_validateStream hvalidate htarget hkind) trivial
  | updateStream id payload =>
    simp only [applyRoutingOp, bind_eq_ok_iff, pure_eq_ok_iff] at h
    obtain ⟨streams, h, rfl⟩ := h
    rcases updateStream_cases h with ⟨rfl, -⟩ | ⟨stored, row, hstored, rfl, hvalidate, hrow⟩
    · exact ⟨ht, fun hc => iff_of_true hc trivial⟩
    · obtain ⟨hvalid, htarget, hkind⟩ := validStream_of_checkStream hrow
      refine ⟨sound_setStream ht hvalid, fun hc => (compilable_setStream_iff hc).trans ?_⟩
      exact iff_of_true (reachable_of_validateStream hvalidate htarget hkind) trivial
  | replaceStream id payload =>
    simp only [applyRoutingOp, bind_eq_ok_iff, pure_eq_ok_iff] at h
    obtain ⟨streams, h, rfl⟩ := h
    rcases replaceStream_cases h with ⟨rfl, hnone⟩ | ⟨stored, row, hstored, rfl, hrow⟩
    · exact ⟨ht, fun hc => iff_of_true hc (by simp [Compiles, hnone])⟩
    · obtain ⟨hvalid, htarget, hkind⟩ := validStream_of_checkStream hrow
      refine ⟨sound_setStream ht hvalid, fun hc => (compilable_setStream_iff hc).trans ?_⟩
      -- the row has the target and the kind of the payload
      simp only [Compiles, hstored, Option.isSome_some, forall_const, StreamCompiles, hkind,
        Option.some.injEq, forall_eq', StreamRow.Reachable, htarget]
  | route op =>
    simp only [applyRoutingOp, bind_eq_ok_iff, pure_eq_ok_iff] at h
    obtain ⟨routes, h, rfl⟩ := h
    refine ⟨⟨ht.hosts, ht.selected, ht.streams, accepted_applyRouteOp ht.quicRoutes h, ht.access⟩,
      fun hc => iff_of_true ⟨hc.names, hc.targets, hc.passwords⟩ trivial⟩
  | createAccessList payload =>
    simp only [applyRoutingOp, bind_eq_ok_iff, pure_eq_ok_iff] at h
    obtain ⟨access, h, rfl⟩ := h
    have hwrote := wrote_of_createAccessList h
    exact ⟨sound_setAccess ht ht.access.next hwrote, fun hc => compilable_setAccess_iff hc hwrote⟩
  | updateAccessList id payload =>
    simp only [applyRoutingOp, bind_eq_ok_iff, pure_eq_ok_iff] at h
    obtain ⟨access, h, rfl⟩ := h
    rcases updateAccessList_cases h with ⟨rfl, hnone⟩ | ⟨stored, hstored, hwrote⟩
    · exact ⟨ht, fun hc => iff_of_true hc (by simp [Compiles, hnone])⟩
    · have hid := ht.access.positive id stored hstored
      refine ⟨sound_setAccess ht hid hwrote, fun hc => ?_⟩
      simpa [Compiles, hstored] using compilable_setAccess_iff hc hwrote
  | replaceAccessList id payload =>
    simp only [applyRoutingOp, bind_eq_ok_iff, pure_eq_ok_iff] at h
    obtain ⟨access, h, rfl⟩ := h
    rcases replaceAccessList_cases h with ⟨rfl, hnone⟩ | ⟨⟨stored, hstored⟩, hwrote⟩
    · exact ⟨ht, fun hc => iff_of_true hc (by simp [Compiles, hnone])⟩
    · have hid := ht.access.positive id stored hstored
      refine ⟨sound_setAccess ht hid hwrote, fun hc => ?_⟩
      simpa [Compiles, hstored] using compilable_setAccess_iff hc hwrote

end Calls

/-! ## Runs -/

section Runs

variable {bcryptHash : ℕ → String → String} {certificates : List ℕ}

lemma routingRun_append (calls : List RoutingCall) (call : RoutingCall) :
    routingRun bcryptHash certificates (calls ++ [call]) =
      routingStep bcryptHash certificates (routingRun bcryptHash certificates calls) call := by
  simp [routingRun]

/-- The tables that a run leads to are sound. -/
theorem sound_routingRun (calls : List RoutingCall) :
    Sound (routingRun bcryptHash certificates calls) := by
  induction calls using List.reverseRecOn with
  | nil => exact sound_empty
  | append_singleton calls call ih =>
    rw [routingRun_append, routingStep]
    split
    · rename_i t' hstep
      exact (applyRoutingOp_spec ih hstep).1
    · exact ih

/-- All tables that a run leads to can be rendered exactly when every accepted call of it writes
what the tables need to stay compilable. -/
theorem renders_routingRun_iff {calls : List RoutingCall} :
    (∀ before, before <+: calls →
      ∃ files, renderTables (routingRun bcryptHash certificates before) = .ok files) ↔
    ∀ before call, before ++ [call] <+: calls → ∀ t',
      applyRoutingOp bcryptHash certificates (routingRun bcryptHash certificates before) call =
        .ok t' →
      Compiles (fun position => bcryptHash (call.salts position))
        (routingRun bcryptHash certificates before) call.op := by
  simp only [renderTables_ok_iff (sound_routingRun _)]
  constructor
  · intro h before call hcall t' hstep
    have hbefore := h before ((List.prefix_append before [call]).trans hcall)
    have hafter := h _ hcall
    rw [routingRun_append, routingStep, hstep] at hafter
    exact ((applyRoutingOp_spec (sound_routingRun before) hstep).2 hbefore).mp hafter
  · intro h before
    induction before using List.reverseRecOn with
    | nil => exact fun _ => compilable_empty
    | append_singleton before call ih =>
      intro hcall
      have hbefore := ih ((List.prefix_append before [call]).trans hcall)
      rw [routingRun_append, routingStep]
      split
      · rename_i t' hstep
        have hspec := (applyRoutingOp_spec (sound_routingRun before) hstep).2 hbefore
        exact hspec.mpr (h before call hcall t' hstep)
      · exact hbefore

end Runs

/-! ### A replacement that cannot be rendered -/

/-- A stream is created, and replaced by a document without a target. -/
def emptiedStream : List RoutingCall :=
  let payload : StreamPayload :=
    { incomingPort := .of 9000, forwardingHost := .of "backend", forwardingPort := .of 9000 }
  [⟨none, id, .createStream 1 payload⟩,
    ⟨none, id, .replaceStream 1 { payload with forwardingHost := none }⟩]

/-- A hash that differs for different salts. -/
def saltedHash (salt : ℕ) (password : String) : String := "$2b$" ++ toString salt ++ password

lemma saltedHash_injective (password : String) :
    Function.Injective fun salt => saltedHash salt password := by
  intro salt salt' h
  have hsalt : "$2b$" ++ toString salt = "$2b$" ++ toString salt' := (String.append_left_inj _).mp h
  exact Numeral.toString_injective ((String.append_right_inj _).mp hsalt)

/-- Both calls are accepted, and nothing can be rendered behind them. -/
theorem emptiedStream_not_rendered : ¬ ∀ (bcryptHash : ℕ → String → String)
    (certificates : List ℕ) (calls : List RoutingCall),
    (∀ password, Function.Injective fun salt => bcryptHash salt password) →
      ∃ files, renderTables (routingRun bcryptHash certificates calls) = .ok files := by
  intro h
  obtain ⟨files, hfiles⟩ := h saltedHash [] emptiedStream saltedHash_injective
  have herror : renderTables (routingRun saltedHash [] emptiedStream) =
      .error (.domainValidationError "forwarding_host is required") := by
    decide
  rw [herror] at hfiles
  exact absurd hfiles (by simp)

end Portwyrm.Tables

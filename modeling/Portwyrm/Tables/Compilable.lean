import Portwyrm.Tables.Rendering

/-!
# Tables that can be rendered

What the operations check of every row they write, and what they do not check: the names of
access lists, the targets of streams, and whether the access lists that a proxy host selects agree
on the password of a user.  A render succeeds exactly when the latter are in order.
-/

namespace Portwyrm.Tables

open Base Portwyrm.Runtime Portwyrm.Quic

/-! ## Rows of hosts -/

/-- What holds of a stored host. -/
structure ValidHost (id : ℕ) (row : HostRow) : Prop where
  positive : 0 < id
  sources : canonicalDomains row.sources = .ok row.sources
  locations : ∀ l ∈ row.locations, validateRuntimeLocation l = .ok l
  paths : (row.locations.map LocationRow.path).Nodup
  accessListsPositive : 0 ∉ row.accessListIds
  accessListsNodup : row.accessListIds.Nodup
  kind : validateRuntimeKind row = .ok row.redirectTarget

/-- The row that shows a validated host. -/
def HostRow.shown (row : HostRow) : HostRow := row.withSsl row.ssl.normalized

lemma ValidHost.shown {id : ℕ} {row : HostRow} (h : ValidHost id row) : ValidHost id row.shown :=
  ⟨h.positive, h.sources, h.locations, h.paths, h.accessListsPositive, h.accessListsNodup, h.kind⟩

/-- A stored host passes the runtime schema. -/
lemma ValidHost.validateRuntimeHost {id : ℕ} {row : HostRow} (h : ValidHost id row) :
    validateRuntimeHost id row = .ok row.shown := by
  simp only [Tables.validateRuntimeHost, bind_eq_ok_iff, raiseIf_eq_ok_iff, not_not,
    pure_eq_ok_iff]
  exact ⟨row.sources, h.sources, row.locations, mapM_eq_ok_self h.locations, (), h.positive.ne',
    (), h.accessListsPositive, (), h.accessListsNodup, row.redirectTarget, h.kind, (), h.paths, rfl⟩

/-! ## Rows of streams -/

/-- What holds of a stored stream. -/
structure ValidStream (row : StreamRow) : Prop where
  incomingPort : 1 ≤ row.incomingPort ∧ row.incomingPort ≤ 65535
  targetPort : 1 ≤ row.targetPort ∧ row.targetPort ≤ 65535
  tls : ¬ (row.certificateId.getD 0 ≠ 0 ∧ row.protocol = .udp)

/-- A target that the runtime schema of streams accepts. -/
def StreamRow.Reachable (row : StreamRow) : Prop :=
  ∃ t, Tables.target row.target row.targetKind "forwarding_host" = .ok t

/-- A text that passes the check of targets is not blank. -/
lemma strip_of_target {value : String} {kind : TargetKind} {name t : String}
    (h : target value kind name = .ok t) : Text.strip value ≠ "" := by
  intro hblank
  unfold target at h
  dsimp only at h
  rw [if_pos hblank] at h
  exact absurd h throw_ne_ok

lemma validateRuntimeStream_eq_ok_iff {id : ℕ} {row row' : StreamRow} (h : ValidStream row) :
    validateRuntimeStream id row = .ok row' ↔
      ∃ t, target row.target row.targetKind "forwarding_host" = .ok t ∧
        { row with target := t } = row' := by
  simp only [validateRuntimeStream, bind_eq_ok_iff, raiseIf_eq_ok_iff, pure_eq_ok_iff]
  constructor
  · rintro ⟨incomingPort, hincoming, targetPort, hport, -, -, t, ht, -, -, rfl⟩
    obtain rfl := Except.ok.inj ((port_of_nat _ h.incomingPort).symm.trans hincoming)
    obtain rfl := Except.ok.inj ((port_of_nat _ h.targetPort).symm.trans hport)
    exact ⟨t, ht, rfl⟩
  · rintro ⟨t, ht, rfl⟩
    exact ⟨_, port_of_nat _ h.incomingPort, _, port_of_nat _ h.targetPort, (), strip_of_target ht,
      t, ht, (), h.tls, rfl⟩

/-- A validated stream passes the runtime schema again, unchanged. -/
lemma validateRuntimeStream_idem {id : ℕ} {row row' : StreamRow} (h : ValidStream row)
    (hrow : validateRuntimeStream id row = .ok row') : validateRuntimeStream id row' = .ok row' := by
  obtain ⟨t, ht, rfl⟩ := (validateRuntimeStream_eq_ok_iff h).mp hrow
  have hvalid : ValidStream { row with target := t } := ⟨h.incomingPort, h.targetPort, h.tls⟩
  exact (validateRuntimeStream_eq_ok_iff hvalid).mpr ⟨t, target_idem ht _, rfl⟩

/-! ## Access lists -/

/-- What holds of the stored access lists. -/
structure SoundAccess (t : AccessTables) : Prop where
  next : 0 < t.lists.next
  positive : ∀ id row, t.lists.get? id = some row → 0 < id
  rules : ∀ id, ∀ r ∈ t.rulesOf id, normalizeAddress r.address = .ok r.address
  credentials : ∀ id, ∀ r ∈ t.credentialsOf id,
    ∃ c, AccessCredential.validate r.username r.passwordHash = .ok c

section Access

variable {t : AccessTables}

lemma pair_of_validate {username passwordHash : String} {c : AccessCredential}
    (h : AccessCredential.validate username passwordHash = .ok c) :
    (username, passwordHash) = c.pair := by
  unfold AccessCredential.validate at h
  split at h
  · split at h
    · obtain rfl := pure_eq_ok_iff.mp h
      rfl
    · exact absurd h throw_ne_ok
  · exact absurd h throw_ne_ok

lemma validate_ok_of_normal {address : String} (directive : AccessDirective)
    (h : normalizeAddress address = .ok address) :
    ∃ c, AccessClient.validate address directive = .ok c :=
  ⟨⟨address, directive, h⟩, AccessClient.validate_self ⟨address, directive, h⟩⟩

/-- An access list is shown exactly when it has a name. -/
lemma runtimeProjection_ok_iff (ht : SoundAccess t) {id : ℕ} {row : AccessListRow}
    (hid : 0 < id) : (∃ l, runtimeProjection t id row = .ok l) ↔ Text.strip row.name ≠ "" := by
  obtain ⟨credentials, hcredentials⟩ := mapM_ok_iff.mpr (ht.credentials id)
  obtain ⟨clients, hclients⟩ := mapM_ok_iff.mpr
    fun r hr => validate_ok_of_normal r.directive (ht.rules id r hr)
  rw [runtimeProjection, hcredentials, ok_bind, hclients, ok_bind, AccessList.validate_ok_iff,
    and_iff_right hid]

/-- A shown access list has the stored names and hashes. -/
lemma pairs_runtimeProjection {id : ℕ} {row : AccessListRow} {l : AccessList}
    (h : runtimeProjection t id row = .ok l) :
    l.credentials.map AccessCredential.pair = t.pairsOf id := by
  simp only [runtimeProjection, bind_eq_ok_iff] at h
  obtain ⟨credentials, hcredentials, clients, -, h⟩ := h
  rw [(AccessList.validate_eq_ok h).2.1]
  exact (Numeral.map_eq_map
    ((mapM_eq_ok_iff.mp hcredentials).imp fun _ _ => pair_of_validate)).symm

lemma accessRuntimeList_ok_iff (ht : SoundAccess t) :
    (∃ lists, accessRuntimeList t = .ok lists) ↔
      ∀ id row, t.lists.get? id = some row → Text.strip row.name ≠ "" := by
  rw [accessRuntimeList, mapM_ok_iff]
  constructor
  · intro h id row hrow
    have hmem : (id, row) ∈ sortedBy natLe Prod.fst t.lists.rows.entries :=
      mem_sortedBy.mpr (Dict.mem_entries_iff.mpr hrow)
    exact (runtimeProjection_ok_iff ht (ht.positive id row hrow)).mp (h _ hmem)
  · rintro h ⟨id, row⟩ hmem
    have hrow : t.lists.get? id = some row := Dict.mem_entries_iff.mp (mem_sortedBy.mp hmem)
    exact (runtimeProjection_ok_iff ht (ht.positive id row hrow)).mpr (h id row hrow)

/-- The credentials of the access lists that are selected by their ids. -/
lemma pairs_selected {lists : List AccessList} (hread : accessRuntimeList t = .ok lists)
    {ids : List ℕ} (hids : ∀ i ∈ ids, ∃ row, t.lists.get? i = some row) :
    (((ids.filterMap (accessById lists).get?).flatMap AccessList.credentials).map
      AccessCredential.pair) = ids.flatMap t.pairsOf := by
  induction ids with
  | nil => rfl
  | cons i ids ih =>
    obtain ⟨row, hrow⟩ := hids i (by simp)
    obtain ⟨l, hget, hproj⟩ := get?_readAccessLists (readAccessLists_eq t ▸ hread) hrow
    rw [List.filterMap_cons_some hget, List.flatMap_cons, List.map_append, List.flatMap_cons,
      pairs_runtimeProjection hproj, ih fun i hi => hids i (by simp [hi])]

end Access

/-! ## The tables -/

/-- What the operations make sure of. -/
structure Sound (t : RoutingTables) : Prop where
  hosts : ∀ id row, t.hosts.get? id = some row → ValidHost id row
  selected : ∀ id row, t.hosts.get? id = some row →
    ∀ i ∈ row.accessListIds, ∃ l, t.access.lists.get? i = some l
  streams : ∀ id row, t.streams.get? id = some row → ValidStream row
  quicRoutes : Accepted t.quicRoutes
  access : SoundAccess t.access

/-- What a render asks for besides. -/
structure Compilable (t : RoutingTables) : Prop where
  names : ∀ id row, t.access.lists.get? id = some row → Text.strip row.name ≠ ""
  targets : ∀ id row, t.streams.get? id = some row → row.Reachable
  passwords : ∀ id row, t.hosts.get? id = some row → row.kind = .proxy →
    Dict.Functional (row.accessListIds.flatMap t.access.pairsOf)

section Render

variable {t : RoutingTables}

lemma validateRows_ok_iff {ρ : Type} {validate : ℕ → ρ → Result ρ} {rows : List (ℕ × ρ)} :
    (∃ rows', validateRows validate rows = .ok rows') ↔
      ∀ e ∈ rows, ∃ row, validate e.1 e.2 = .ok row := by
  rw [validateRows, mapM_ok_iff]
  refine forall₂_congr fun e _ => ?_
  cases validate e.1 e.2 <;> simp [Except.map]

lemma validateRows_eq_ok_iff {ρ : Type} {validate : ℕ → ρ → Result ρ} {rows rows' : List (ℕ × ρ)} :
    validateRows validate rows = .ok rows' ↔
      List.Forall₂ (fun e e' => e'.1 = e.1 ∧ validate e.1 e.2 = .ok e'.2) rows rows' := by
  rw [validateRows, mapM_eq_ok_iff]
  have hentry : ∀ e e' : ℕ × ρ, (validate e.1 e.2).map (fun row => (e.1, row)) = .ok e' ↔
      e'.1 = e.1 ∧ validate e.1 e.2 = .ok e'.2 := by
    rintro e ⟨id, row⟩
    cases validate e.1 e.2 <;> simp [Except.map, eq_comm]
  simp only [hentry]

/-- The stored hosts pass the runtime schema. -/
lemma validateRows_hosts {rows : List (ℕ × HostRow)} (h : ∀ e ∈ rows, ValidHost e.1 e.2) :
    validateRows validateRuntimeHost rows = .ok (rows.map fun e => (e.1, e.2.shown)) := by
  rw [validateRows_eq_ok_iff, List.forall₂_map_right_iff, List.forall₂_same]
  exact fun e he => ⟨rfl, (h e he).validateRuntimeHost⟩

/-- The stored routes pass the runtime schema. -/
lemma validateRoutes_self {routes : List QuicRoute} (h : ∀ route ∈ routes, ValidRoute route) :
    validateRoutes routes = .ok routes :=
  mapM_eq_ok_self fun route hroute => validateRoute_wireProjection (h route hroute)

lemma validateRows_streams_idem {rows rows' : List (ℕ × StreamRow)}
    (h : ∀ e ∈ rows, ValidStream e.2) (hrows : validateRows validateRuntimeStream rows = .ok rows') :
    validateRows validateRuntimeStream rows' = .ok rows' := by
  rw [validateRows_eq_ok_iff] at hrows ⊢
  rw [List.forall₂_same]
  intro e he
  obtain ⟨e₀, he₀, hid, hvalid⟩ := Numeral.exists_of_mem_right hrows he
  exact ⟨rfl, hid ▸ validateRuntimeStream_idem (h e₀ he₀) hvalid⟩

lemma selectedIds_runtimeHost (id : ℕ) (row : HostRow) :
    selectedIds (runtimeHost id row) = row.accessListIds := by
  unfold selectedIds runtimeHost
  cases row.accessListIds <;> simp

/-- A render of sound tables: only streams and access lists can be refused by their schemas. -/
lemma renderTables_eq_ok_iff (ht : Sound t) {files : Files} : renderTables t = .ok files ↔
    ∃ streams lists, validateRows validateRuntimeStream t.streams.sorted = .ok streams ∧
      accessRuntimeList t.access = .ok lists ∧
      render {} (renderInput (t.hosts.sorted.map fun e => (e.1, e.2.shown.shown)) streams
        (sortedBy natLe QuicRoute.id t.quicRoutes) lists) = .ok files := by
  have hhosts : ∀ e ∈ t.hosts.sorted, ValidHost e.1 e.2 := fun e he =>
    ht.hosts e.1 e.2 (Dict.mem_sorted.mp he)
  have hshown : ∀ e ∈ t.hosts.sorted.map fun e => (e.1, e.2.shown), ValidHost e.1 e.2 := by
    intro e he
    obtain ⟨e', he', rfl⟩ := List.mem_map.mp he
    exact (hhosts e' he').shown
  have hroutes : ∀ route ∈ sortedBy natLe QuicRoute.id t.quicRoutes, ValidRoute route :=
    fun route hroute => ht.quicRoutes.valid route (mem_sortedBy.mp hroute)
  have hstreams : ∀ e ∈ t.streams.sorted, ValidStream e.2 := fun e he =>
    ht.streams e.1 e.2 (Dict.mem_sorted.mp he)
  have hlists : ∀ lists : List AccessList, lists.mapM AccessList.revalidate = .ok lists :=
    fun lists => mapM_eq_ok_self fun l _ => l.revalidate_self
  have htwice : (t.hosts.sorted.map fun e => (e.1, e.2.shown)).map (fun e => (e.1, e.2.shown)) =
      t.hosts.sorted.map fun e => (e.1, e.2.shown.shown) := List.map_map
  simp only [renderTables, validateRows_hosts hhosts, validateRows_hosts hshown, htwice,
    validateRoutes_self hroutes, ok_bind, bind_eq_ok_iff, hlists]
  constructor
  · rintro ⟨streams, hfirst, lists, hread, streams', hsecond, hrender⟩
    obtain rfl := Except.ok.inj ((validateRows_streams_idem hstreams hfirst).symm.trans hsecond)
    exact ⟨streams, lists, hfirst, hread, hrender⟩
  · rintro ⟨streams, lists, hfirst, hread, hrender⟩
    exact ⟨streams, hfirst, lists, hread, streams, validateRows_streams_idem hstreams hfirst,
      hrender⟩

/-- The renderer succeeds on what sound tables show, when the selected access lists agree. -/
lemma render_input_ok_iff (ht : Sound t) {streams : List (ℕ × StreamRow)} {lists : List AccessList}
    {quicRoutes : List QuicRoute} (hread : accessRuntimeList t.access = .ok lists) :
    (∃ files, render {} (renderInput (t.hosts.sorted.map fun e => (e.1, e.2.shown.shown)) streams
      quicRoutes lists) = .ok files) ↔
      ∀ id row, t.hosts.get? id = some row → row.kind = .proxy →
        Dict.Functional (row.accessListIds.flatMap t.access.pairsOf) := by
  have hpolicy : ∀ id row, t.hosts.get? id = some row →
      ((∃ policy, effectivePolicy (accessById lists) (runtimeHost id row.shown.shown) =
        .ok policy) ↔ Dict.Functional (row.accessListIds.flatMap t.access.pairsOf)) := by
    intro id row hrow
    rw [effectivePolicy, mergeAccessLists_ok_iff, selectedLists, selectedIds_runtimeHost]
    exact iff_of_eq (congrArg Dict.Functional (pairs_selected hread (ht.selected id row hrow)))
  rw [render_ok_iff]
  constructor
  · intro h id row hrow hkind
    refine (hpolicy id row hrow).mp (h _ (List.mem_filter.mpr ⟨?_, decide_eq_true hkind⟩))
    refine List.mem_map.mpr ⟨(id, row.shown.shown), List.mem_map.mpr ⟨(id, row), ?_, rfl⟩, rfl⟩
    exact Dict.mem_sorted.mpr hrow
  · intro h host hhost
    obtain ⟨hmem, hkind⟩ := List.mem_filter.mp hhost
    obtain ⟨e, he, rfl⟩ := List.mem_map.mp hmem
    obtain ⟨⟨id, row⟩, hentry, rfl⟩ := List.mem_map.mp he
    have hrow := Dict.mem_sorted.mp hentry
    exact (hpolicy id row hrow).mpr (h id row hrow (of_decide_eq_true hkind))

/-- A render of sound tables succeeds exactly when they are compilable. -/
theorem renderTables_ok_iff (ht : Sound t) :
    (∃ files, renderTables t = .ok files) ↔ Compilable t := by
  have htargets : (∃ streams, validateRows validateRuntimeStream t.streams.sorted = .ok streams) ↔
      ∀ id row, t.streams.get? id = some row → row.Reachable := by
    rw [validateRows_ok_iff]
    have hentry : ∀ id row, t.streams.get? id = some row →
        ((∃ row', validateRuntimeStream id row = .ok row') ↔ row.Reachable) := by
      intro id row hrow
      simp only [validateRuntimeStream_eq_ok_iff (ht.streams id row hrow)]
      exact ⟨fun ⟨_, t, h, _⟩ => ⟨t, h⟩, fun ⟨t, h⟩ => ⟨_, t, h, rfl⟩⟩
    constructor
    · intro h id row hrow
      exact (hentry id row hrow).mp (h (id, row) (Dict.mem_sorted.mpr hrow))
    · rintro h ⟨id, row⟩ hmem
      have hrow := Dict.mem_sorted.mp hmem
      exact (hentry id row hrow).mpr (h id row hrow)
  constructor
  · rintro ⟨files, hfiles⟩
    obtain ⟨streams, lists, hstreams, hread, hrender⟩ := (renderTables_eq_ok_iff ht).mp hfiles
    exact
      { names := (accessRuntimeList_ok_iff ht.access).mp ⟨lists, hread⟩
        targets := htargets.mp ⟨streams, hstreams⟩
        passwords := (render_input_ok_iff ht hread).mp ⟨files, hrender⟩ }
  · intro h
    obtain ⟨streams, hstreams⟩ := htargets.mpr h.targets
    obtain ⟨lists, hread⟩ := (accessRuntimeList_ok_iff ht.access).mpr h.names
    obtain ⟨files, hrender⟩ := (render_input_ok_iff ht hread).mpr h.passwords
    exact ⟨files, (renderTables_eq_ok_iff ht).mpr ⟨streams, lists, hstreams, hread, hrender⟩⟩

end Render

end Portwyrm.Tables

import Portwyrm.Tables.Compilable
import Portwyrm.Tables.HostRewrite

/-!
# Writing and reading a host

What the projection of a host shows of the payload that it was written from, and what an update
without any member does to it.
-/

namespace Portwyrm.Tables

open Base Portwyrm.Runtime Portwyrm.Quic Portwyrm.Identity

/-! ## Domains of other hosts -/

section Domains

variable {rows : Dict ℕ HostRow} {id : ℕ} {domains : List String}

lemma mem_takenDomains_iff {d : String} : d ∈ takenDomains rows id ↔
    ∃ i row, i ≠ id ∧ rows.get? i = some row ∧ d ∈ row.sources := by
  simp only [takenDomains, List.mem_flatMap, List.mem_filter, decide_eq_true_eq, Prod.exists,
    Dict.mem_entries_iff]
  constructor
  · rintro ⟨i, row, ⟨hrow, hne⟩, hd⟩
    exact ⟨i, row, hne, hrow, hd⟩
  · rintro ⟨i, row, hne, hrow, hd⟩
    exact ⟨i, row, ⟨hrow, hne⟩, hd⟩

lemma claimedDomain_eq_none_iff {excludeId : Option ℕ} :
    claimedDomain rows domains excludeId = none ↔
      ∀ i row, rows.get? i = some row → excludeId ≠ some i → ∀ d ∈ row.sources, d ∉ domains := by
  rw [claimedDomain, List.findSome?_eq_none_iff]
  constructor
  · intro h i row hrow hne d hd hmem
    have hentry := h (i, row) (Dict.mem_entries_iff.mpr hrow)
    rw [if_neg hne, Option.map_eq_none_iff, List.find?_eq_none] at hentry
    exact hentry d hd (by simpa using hmem)
  · rintro h ⟨i, row⟩ hentry
    split
    · rfl
    · rename_i hne
      rw [Option.map_eq_none_iff, List.find?_eq_none]
      intro d hd
      simpa using h i row (Dict.mem_entries_iff.mp hentry) hne d hd

/-- Only other hosts take domains. -/
lemma claimedDomain_of_takenDomains (h : ∀ d ∈ domains, d ∉ takenDomains rows id) :
    claimedDomain rows domains (some id) = none := by
  rw [claimedDomain_eq_none_iff]
  intro i row hrow hne d hd hmem
  refine h d hmem (mem_takenDomains_iff.mpr ⟨i, row, fun heq => hne (heq ▸ rfl), hrow, hd⟩)

lemma takenDomains_set (rows : Dict ℕ HostRow) (id : ℕ) (row : HostRow) {d : String} :
    d ∈ takenDomains (rows.set id row) id ↔ d ∈ takenDomains rows id := by
  rw [mem_takenDomains_iff, mem_takenDomains_iff]
  refine exists_congr fun i => exists_congr fun row' => and_congr_right fun hne => ?_
  rw [Dict.get?_set_of_ne _ _ hne]

end Domains

/-! ## Updates without members -/

section Empty

variable {certificates accessLists certificates' accessLists' : List ℕ} {kind : HostKind} {id : ℕ}
  {row row' : HostRow} {rows rows' : Dict ℕ HostRow}

lemma over_empty (stored : HostPayload) : ({} : HostPayload).over stored = stored := rfl

/-- The references of a host that is written back are found. -/
lemma StoredHost.found (h : StoredHost certificates accessLists row)
    {owner : Option ℕ → Option ℕ} {excludeId : Option ℕ}
    (hwrite : writeHost certificates' accessLists' row.kind owner excludeId id (projectHost row)
      rows = .ok row') : StoredHost certificates' accessLists' row := by
  have hstored := (hostStored_of_writeHost hwrite).1
  obtain ⟨checked, columns, hchecked, -, -, hchildren⟩ := writeHost_eq_ok_iff.mp hwrite
  obtain rfl := Except.ok.inj ((validatePayload_projectHost h).symm.trans hchecked)
  have hlinked := (linked_of_replaceHostChildren hchildren).1
  have hids : row'.accessListIds = row.accessListIds :=
    accessListIds_kept (projectHost_accessListIds row) hlinked.accessListIds
  refine { h with certificate := ?_, linked := ?_ }
  · intro n hn
    have hne := (h.certificate n hn).1
    have hkept : (row'.certificateId.getD 0 : ℕ) = row.certificateId.getD 0 := by
      have := certificateId_kept rfl hstored.certificateId
      simpa [Member.of, Int.ofNat_inj] using this
    rw [hn, Option.getD_some] at hkept
    cases hrow : row'.certificateId with
    | none =>
      rw [hrow] at hkept
      exact absurd hkept.symm hne
    | some n' =>
      obtain rfl : n' = n := by simpa [hrow] using hkept
      exact certificate_of_certificateKey hstored.certificateId n' hrow
  · exact fun i hi => ⟨(h.linked i hi).1, hlinked.stored i (hids ▸ hi)⟩

/-- A host that is written back from its projection keeps everything but the scheme. -/
lemma rescheme_of_writeHost (h : StoredHost certificates accessLists row)
    {owner : Option ℕ → Option ℕ} {excludeId : Option ℕ}
    (hwrite : writeHost certificates' accessLists' row.kind owner excludeId id (projectHost row)
      rows = .ok row') :
    row' = { row.rescheme with ownerPrincipalId := owner row.ownerPrincipalId } := by
  have hfound := h.found hwrite
  have hsources : row'.sources = row.sources := by
    have := (hostStored_of_writeHost hwrite).1.sources
    exact (Except.ok.inj (h.sources.symm.trans this)).symm
  have htaken : ∀ d ∈ row.sources, d ∉ takenDomains rows id :=
    hsources ▸ (storedHost_of_writeHost hwrite).2
  have hfree : claimedDomain rows row.sources excludeId = none := by
    obtain ⟨checked, columns, hchecked, hcollisions, -, -⟩ := writeHost_eq_ok_iff.mp hwrite
    obtain rfl := Except.ok.inj ((validatePayload_projectHost h).symm.trans hchecked)
    change assertSourceCollisions rows row.sources excludeId = _ at hcollisions
    rw [assertSourceCollisions, h.sources, ok_bind] at hcollisions
    cases hclaimed : claimedDomain rows row.sources excludeId with
    | none => rfl
    | some claim =>
      rw [hclaimed] at hcollisions
      exact absurd hcollisions throw_ne_ok
  exact (Except.ok.inj ((writeHost_projectHost hfound hfree htaken).symm.trans hwrite)).symm

/-- An update without members changes at most the scheme of the host. -/
lemma rescheme_of_updateHost {actor : Actor} (h : StoredHost certificates accessLists row)
    (hget : getHost kind id rows = some row)
    (hupdate : updateHost certificates' accessLists' actor kind id {} rows = .ok rows') :
    rows' = rows.set id row.rescheme := by
  have hkind : row.kind = kind := by
    simpa using (Option.filter_eq_some_iff.mp hget).2
  rw [updateHost, hget] at hupdate
  obtain ⟨row', rfl, hwrite⟩ := storeHost_spec hupdate
  subst hkind
  rw [rescheme_of_writeHost h hwrite]
  rfl

/-- An update without members is accepted where the references of the host are there. -/
lemma updateHost_empty {p : SecurityPrincipal} (hp : p.isAdmin = true)
    (h : StoredHost certificates accessLists row) (hget : getHost kind id rows = some row)
    (htaken : ∀ d ∈ row.sources, d ∉ takenDomains rows id) :
    updateHost certificates accessLists (some p) kind id {} rows =
      .ok (rows.set id row.rescheme) := by
  have hkind : row.kind = kind := by
    simpa using (Option.filter_eq_some_iff.mp hget).2
  subst hkind
  have hfree : claimedDomain rows row.sources (some id) = none :=
    claimedDomain_of_takenDomains htaken
  have hwrite : writeHost certificates accessLists row.kind (fun owner => owner) (some id) id
      (projectHost row) rows = .ok row.rescheme := writeHost_projectHost h hfree htaken
  have hauthorized : enforceAuthorization (some p) (hostSection row.kind) .update = .ok () := by
    simp [enforceAuthorization, raiseIf, hp, pure, Except.pure]
  have howned : enforceOwnership (some p) row.ownerPrincipalId row.extensions = .ok () := by
    rw [enforceOwnership, if_pos (show isAdmin (some p) = true from hp)]
    rfl
  simp only [updateHost, hget, over_empty, storeHost, hauthorized, howned, hwrite, ok_bind]
  rfl

end Empty

/-! ## The render of a host -/

section Rendering

/-- A map that a partial map respects can be applied to the values. -/
lemma mapM_comp_of_commutes {α β : Type} {f : α → α} {f' : β → β} {g : α → Result β}
    (h : ∀ a, g (f a) = f' <$> g a) (l : List α) : (l.map f).mapM g = List.map f' <$> l.mapM g := by
  induction l with
  | nil => rfl
  | cons a l ih => simp [List.mapM_cons, h, ih]

/-- The entries with one host under the scheme that it shows. -/
def reschemed (id : ℕ) (e : ℕ × HostRow) : ℕ × HostRow :=
  if e.1 = id then (e.1, e.2.rescheme) else e

lemma fst_reschemed (id : ℕ) (e : ℕ × HostRow) : (reschemed id e).1 = e.1 := by
  unfold reschemed
  split <;> rfl

lemma validateRuntimeHost_rescheme (id : ℕ) (row : HostRow) :
    validateRuntimeHost id row.rescheme = HostRow.rescheme <$> validateRuntimeHost id row := by
  have hkind : validateRuntimeKind row.rescheme = validateRuntimeKind row := rfl
  simp only [validateRuntimeHost, hkind, map_bind, map_pure]
  rfl

lemma validateRows_reschemed (id : ℕ) (rows : List (ℕ × HostRow)) :
    validateRows validateRuntimeHost (rows.map (reschemed id)) =
      List.map (reschemed id) <$> validateRows validateRuntimeHost rows := by
  refine mapM_comp_of_commutes (fun e => ?_) rows
  unfold reschemed
  split
  · rename_i heq
    rw [validateRuntimeHost_rescheme]
    cases validateRuntimeHost e.1 e.2 with
    | error e => rfl
    | ok row => simp [Except.map, Functor.map, heq]
  · rename_i hne
    cases validateRuntimeHost e.1 e.2 with
    | error e => rfl
    | ok row => simp [Except.map, Functor.map, hne]

/-- The renderer reads the scheme that the row shows. -/
lemma runtimeHost_rescheme (id : ℕ) (row : HostRow) :
    runtimeHost id row.rescheme = runtimeHost id row := by
  have hscheme : (row.upstream.map UpstreamRow.protocol).getD row.shownScheme =
      row.shownScheme := by
    rw [HostRow.shownScheme]
    cases row.upstream <;> rfl
  unfold runtimeHost
  rw [show row.rescheme.redirectScheme.getD .http = row.shownScheme from rfl]
  change RuntimeHost.mk .. = RuntimeHost.mk ..
  simp only [HostRow.rescheme, hscheme]
  rfl

lemma renderInput_reschemed (id : ℕ) (hosts : List (ℕ × HostRow)) (streams : List (ℕ × StreamRow))
    (quicRoutes : List QuicRoute) (accessLists : List AccessList) :
    renderInput (hosts.map (reschemed id)) streams quicRoutes accessLists =
      renderInput hosts streams quicRoutes accessLists := by
  have hhosts : (hosts.map (reschemed id)).map (fun e => runtimeHost e.1 e.2) =
      hosts.map fun e => runtimeHost e.1 e.2 := by
    rw [List.map_map]
    refine List.map_congr_left fun e _ => ?_
    simp only [Function.comp_apply, reschemed]
    split
    · exact runtimeHost_rescheme e.1 e.2
    · rfl
  simp only [renderInput, hhosts]

/-- The generations before and after a host is given the scheme that it shows are the same. -/
lemma renderTables_rescheme (t : RoutingTables) {id : ℕ} {row : HostRow}
    (hget : t.hosts.get? id = some row) :
    renderTables { t with hosts := t.hosts.set id row.rescheme } = renderTables t := by
  have hsorted : (t.hosts.set id row.rescheme).sorted = t.hosts.sorted.map (reschemed id) := by
    refine Dict.eq_of_pairwise_of_mem_iff (Dict.pairwise_sorted _) ?_ fun e => ?_
    · refine List.pairwise_map.mpr (t.hosts.pairwise_sorted.imp fun hlt => ?_)
      simpa [fst_reschemed] using hlt
    · rw [Dict.mem_sorted, List.mem_map]
      constructor
      · intro he
        rw [Dict.get?_set] at he
        split at he
        · rename_i heq
          refine ⟨(id, row), Dict.mem_sorted.mpr hget, ?_⟩
          rw [reschemed, if_pos rfl]
          exact Prod.ext heq.symm (Option.some.inj he)
        · rename_i hne
          exact ⟨e, Dict.mem_sorted.mpr he, if_neg hne⟩
      · rintro ⟨e', he', rfl⟩
        have he' := Dict.mem_sorted.mp he'
        rw [Dict.get?_set, fst_reschemed]
        split
        · rename_i heq
          rw [heq, hget] at he'
          rw [reschemed, if_pos heq, Option.some.inj he']
        · rename_i hne
          rw [reschemed, if_neg hne, he']
  simp only [renderTables, hsorted, validateRows_reschemed, bind_map_left, renderInput_reschemed]

end Rendering

/-! ## Writing and reading -/

/-- A call that writes a host of one kind. -/
inductive HostCall
  | create (id : ℕ) (payload : HostPayload)
  | update (id : ℕ) (payload : HostPayload)
  | replace (id : ℕ) (payload : HostPayload)

namespace HostCall

/-- The id of the host that a call writes. -/
def id : HostCall → ℕ
  | create id _ | update id _ | replace id _ => id

/-- The payload that the validator reads: an update is laid over the projection. -/
def validated (kind : HostKind) (rows : Dict ℕ HostRow) : HostCall → HostPayload
  | create _ payload | replace _ payload => payload
  | update id payload =>
    ((getHost kind id rows).map fun stored => payload.over (projectHost stored)).getD payload

/-- `create_resource`, `update_resource` and `replace_resource`. -/
def run (certificates accessLists : List ℕ) (actor : Actor) (kind : HostKind)
    (rows : Dict ℕ HostRow) : HostCall → Result (Dict ℕ HostRow)
  | create id payload => createHost certificates accessLists actor kind id payload rows
  | update id payload => updateHost certificates accessLists actor kind id payload rows
  | replace id payload => replaceHost certificates accessLists actor kind id payload rows

end HostCall

/-- A projection shows what the validator used of a payload: what is given, or its own default.
The members that it does not read are shown as they are given. -/
structure ShowsValidated (kind : HostKind) (payload shown : HostPayload) : Prop where
  domainNames : ∃ domains, canonicalDomains (payload.domainNames.get.getD []) = .ok domains ∧
    shown.domainNames = .of domains
  certificateId : shown.certificateId = .of (intOr payload.certificateId.get 0)
  sslForced : shown.sslForced = .of payload.forcesSsl
  hstsEnabled : shown.hstsEnabled = .of (payload.hstsEnabled.truthy false)
  hstsSubdomains : shown.hstsSubdomains = .of (payload.hstsSubdomains.truthy false)
  accessListIds : shown.accessListIds = .of (payload.accessListIds.get.getD [])
  locations : ∃ locations, (payload.locations.get.getD []).mapM storedLocation = .ok locations ∧
    shown.locations = .of (locations.map projectLocation)
  proxied : kind = .proxy →
    shown.forwardScheme = .of (textOr payload.forwardScheme.get "http") ∧
    shown.targetKind = .of (textOr payload.targetKind.get "dns") ∧
    (∃ forwardHost, checkedHost .proxy payload = .ok forwardHost ∧
      shown.forwardHost = .of forwardHost) ∧
    shown.forwardPort = .of (intOr payload.forwardPort.get 0)
  redirected : kind = .redirect →
    shown.forwardScheme = .of (textOr payload.forwardScheme.get "auto") ∧
    (∃ domain, canonicalDomain (textOr payload.forwardDomainName.get "") = .ok domain ∧
      shown.forwardDomainName = .of domain) ∧
    shown.forwardHttpCode = .of (intOr payload.forwardHttpCode.get 301)
  enabled : shown.enabled = .of (payload.enabled.truthy true)
  http2Support : shown.http2Support = .of (payload.http2Support.truthy false)
  trustForwardedProto : shown.trustForwardedProto =
    .of (payload.forcesSsl && payload.trustForwardedProto.truthy false)
  allowWebsocketUpgrade : shown.allowWebsocketUpgrade =
    .of (payload.allowWebsocketUpgrade.truthy false)
  cachingEnabled : shown.cachingEnabled = .of (payload.cachingEnabled.truthy false)
  blockExploits : shown.blockExploits = .of (payload.blockExploits.truthy false)
  preservePath : shown.preservePath = .of (payload.preservePath.truthy false)
  advancedConfig : shown.advancedConfig = .of (textOr payload.advancedConfig.get "")
  extensions : shown.extensions = payload.extensions

/-- An accepted update without members changes no stored host and no generation. -/
def EmptyUpdateKeeps (kind : HostKind) (id : ℕ) (rows : Dict ℕ HostRow) : Prop :=
  ∀ certificates accessLists actor rows',
    updateHost certificates accessLists actor kind id {} rows = .ok rows' →
      (∀ i, rows'.get? i = rows.get? i) ∧
        ∀ t : RoutingTables, t.hosts = rows →
          renderTables { t with hosts := rows' } = renderTables t

/-- A payload gives a scheme, and the code of a redirection, and it gives access lists and locations
by their canonical members. -/
structure Explicit (kind : HostKind) (payload : HostPayload) : Prop where
  scheme : payload.forwardScheme.get ≠ none
  code : kind = .redirect → payload.forwardHttpCode.get ≠ none
  accessLists : payload.accessListIds.get = none → payload.accessListId.get.getD 0 = 0
  locations : payload.locations = none → payload.customLocations.get.getD [] = []

section Agreement

variable {certificates accessLists : List ℕ} {actor : Actor} {kind : HostKind} {call : HostCall}
  {payload : HostPayload} {row : HostRow} {rows rows' : Dict ℕ HostRow} {id : ℕ}

/-- The payload of a call is written into the row. -/
lemma writeHost_of_run (h : call.run certificates accessLists actor kind rows = .ok rows')
    (hrow : getHost kind call.id rows' = some row) :
    ∃ owner excludeId, writeHost certificates accessLists kind owner excludeId call.id
      (call.validated kind rows) rows = .ok row ∧ rows' = rows.set call.id row := by
  have hset : ∀ {id : ℕ} {row' : HostRow}, getHost kind id (rows.set id row') = some row →
      row' = row := by
    intro id row' hget
    have hget := getHost_eq_some hget
    rw [Dict.get?_set_self] at hget
    exact Option.some.inj hget
  cases call with
  | create id payload =>
    obtain ⟨row', rfl, -, hwrite⟩ := createHost_spec h
    obtain rfl := hset hrow
    exact ⟨_, _, hwrite, rfl⟩
  | update id payload =>
    rcases updateHost_cases h with ⟨rfl, hnone⟩ | ⟨stored, row', hstored, rfl, hwrite⟩
    · exact absurd (hnone.symm.trans hrow) (by simp)
    · obtain rfl := hset hrow
      refine ⟨fun owner => owner, some id, ?_, rfl⟩
      rw [HostCall.validated, hstored]
      exact hwrite
  | replace id payload =>
    rcases replaceHost_cases h with ⟨rfl, hnone⟩ | ⟨stored, row', -, rfl, hwrite⟩
    · exact absurd (hnone.symm.trans hrow) (by simp)
    · obtain rfl := hset hrow
      exact ⟨_, _, hwrite, rfl⟩

/-- A row has its own scheme when its payload gives one. -/
lemma redirectScheme_isSome (h : HostStored certificates accessLists kind payload row) :
    row.redirectScheme.isSome = true ↔ payload.forwardScheme.get ≠ none := by
  rw [redirectScheme_of_column h.redirectScheme]
  cases row.redirectScheme <;> simp

lemma emptyUpdateKeeps_iff (hstored : StoredHost certificates accessLists row)
    (hrow : getHost kind id rows = some row)
    (htaken : ∀ d ∈ row.sources, d ∉ takenDomains rows id) :
    EmptyUpdateKeeps kind id rows ↔ row.redirectScheme.isSome = true := by
  have hget := getHost_eq_some hrow
  constructor
  · intro h
    have hupdate := updateHost_empty (p := { userId := 1, identity := "", isAdmin := true }) rfl
      hstored hrow htaken
    have hkept := (h _ _ _ _ hupdate).1 id
    rw [Dict.get?_set_self, hget, Option.some.injEq] at hkept
    rw [← hkept]
    rfl
  · intro hscheme certificates' accessLists' actor' rows'' hupdate
    obtain ⟨scheme, hscheme⟩ := Option.isSome_iff_exists.mp hscheme
    have hsame : row.rescheme = row := by
      rw [HostRow.rescheme, hstored.scheme scheme hscheme, ← hscheme]
    have hrows := rescheme_of_updateHost hstored hrow hupdate
    refine ⟨fun i => ?_, fun t ht => ?_⟩
    · rw [hrows, hsame, Dict.get?_set]
      split
      · rename_i heq
        rw [heq, hget]
      · rfl
    · subst ht
      rw [hrows]
      exact renderTables_rescheme t hget

/-- The certificate that a payload names is the one of the row. -/
lemma certificateId_shown {given : Option ℤ} {certificateId : Option ℕ}
    (h : certificateKey certificates (given.filter (· ≠ 0)) = .ok certificateId) :
    ((certificateId.getD 0 : ℕ) : ℤ) = intOr given 0 := by
  unfold intOr
  cases hfilter : given.filter (· ≠ 0) with
  | none =>
    rw [hfilter] at h
    obtain rfl := pure_eq_ok_iff.mp h
    rfl
  | some z =>
    rw [hfilter] at h
    obtain ⟨certificate, -, rfl, rfl⟩ := certificateKey_some_eq_ok_iff.mp h
    rfl

lemma intOr_of_given {given : Option ℤ} {default : ℤ} (h : intOr given 0 ≠ 0) :
    intOr given default = intOr given 0 := by
  unfold intOr at h ⊢
  cases hfilter : given.filter (· ≠ 0) with
  | none => exact absurd (by rw [hfilter]; rfl) h
  | some z => rfl

/-- The upstream of a proxy host shows what the validator used. -/
lemma proxied_shown (h : HostStored certificates accessLists .proxy payload row)
    (hport₀ : intOr payload.forwardPort.get 0 ≠ 0) :
    (projectHost row).forwardScheme = .of (textOr payload.forwardScheme.get "http") ∧
      (projectHost row).targetKind = .of (textOr payload.targetKind.get "dns") ∧
      (∃ forwardHost, checkedHost .proxy payload = .ok forwardHost ∧
        (projectHost row).forwardHost = .of forwardHost) ∧
      (projectHost row).forwardPort = .of (intOr payload.forwardPort.get 0) := by
  obtain ⟨forwardHost, hchecked, hstored⟩ := h.forwardHost
  have hne : forwardHost ≠ "" := by
    rintro rfl
    simp only [checkedHost, bind_eq_ok_iff] at hchecked
    obtain ⟨_, -, htarget⟩ := hchecked
    exact strip_target htarget rfl
  rcases storedUpstream_cases hstored with ⟨hempty, -⟩ |
    ⟨-, u, hu, htarget, hprotocol, hkind, hport⟩
  · rw [Member.get_of, textOr_empty] at hempty
    exact absurd hempty hne
  · rw [Member.get_of, textOr_empty] at htarget
    have hkind' : u.targetKind.value = textOr payload.targetKind.get "dns" :=
      value_of_parseTargetKind hkind
    refine ⟨?_, ?_, ⟨forwardHost, hchecked, ?_⟩, ?_⟩
    · simp only [projectHost, hu, hprotocol]
    · simp only [projectHost, hu, Option.map_some, hkind']
      rfl
    · simp only [projectHost, hu, Option.map_some, htarget]
      rfl
    · have hport' : (u.port : ℤ) = intOr payload.forwardPort.get 0 := by
        have hgiven : intOr payload.forwardPort.get 80 = intOr payload.forwardPort.get 0 :=
          intOr_of_given hport₀
        have hpos := (port_eq_ok hport).1
        have hnat : u.port = (intOr payload.forwardPort.get 80).toNat := port_eq_ok_toNat hport
        rw [← hgiven]
        omega
      simp only [projectHost, hu, Option.map_some, hport']
      rfl

/-- A row without a scheme of its own shows the default of the projection. -/
lemma shownScheme_of_none (h : HostStored certificates accessLists kind payload row)
    (hnone : row.redirectScheme = none) : row.shownScheme.value = "http" := by
  have hgiven := redirectScheme_of_column h.redirectScheme
  obtain ⟨forwardHost, -, hstored⟩ := h.forwardHost
  rw [hnone, Option.map_none] at hgiven
  unfold HostRow.shownScheme
  rcases storedUpstream_cases hstored with ⟨-, hupstream⟩ | ⟨-, u, hupstream, -, hprotocol, -⟩
  · rw [hupstream, hnone]
    rfl
  · rw [hgiven] at hprotocol
    rw [hupstream]
    exact hprotocol

/-- A redirection shows what the validator used when it is given a scheme and a code. -/
lemma redirected_shown_iff (h : HostStored certificates accessLists .redirect payload row) :
    (projectHost row).forwardScheme = .of (textOr payload.forwardScheme.get "auto") ∧
      (∃ domain, canonicalDomain (textOr payload.forwardDomainName.get "") = .ok domain ∧
        (projectHost row).forwardDomainName = .of domain) ∧
      (projectHost row).forwardHttpCode = .of (intOr payload.forwardHttpCode.get 301) ↔
    payload.forwardScheme.get ≠ none ∧ payload.forwardHttpCode.get ≠ none := by
  have hscheme : (projectHost row).forwardScheme = .of (textOr payload.forwardScheme.get "auto") ↔
      payload.forwardScheme.get ≠ none := by
    rw [projectHost_forwardScheme, redirectScheme_of_column h.redirectScheme]
    cases hrow : row.redirectScheme with
    | none =>
      refine iff_of_false (fun heq => ?_) (fun hne => hne rfl)
      rw [Option.map_none, shownScheme_of_none h hrow] at heq
      exact absurd heq (by decide)
    | some s =>
      have hne : s.value ≠ "" := by
        cases s <;> decide
      refine iff_of_true ?_ (by rintro ⟨⟩)
      rw [scheme_of_hostStored h s hrow, Option.map_some, textOr_of_ne hne]
  have hcode : (projectHost row).forwardHttpCode = .of (intOr payload.forwardHttpCode.get 301) ↔
      payload.forwardHttpCode.get ≠ none := by
    have hcolumn := h.redirectCode
    rw [projectHost_forwardHttpCode]
    cases hgiven : payload.forwardHttpCode.get with
    | none =>
      rw [hgiven] at hcolumn
      rw [← pure_eq_ok_iff.mp hcolumn]
      exact iff_of_false (by rintro ⟨⟩) (fun hne => hne rfl)
    | some z =>
      rw [hgiven, redirectCodeColumn] at hcolumn
      split at hcolumn
      · rename_i hmem
        have hpositive : 0 < z := by
          simp only [redirectCodes, List.mem_cons, List.not_mem_nil, or_false] at hmem
          omega
        rw [← pure_eq_ok_iff.mp hcolumn, intOr_of_ne hpositive.ne']
        refine iff_of_true ?_ (by rintro ⟨⟩)
        change some (some ((z.toNat : ℕ) : ℤ)) = some (some z)
        rw [Int.toNat_of_nonneg hpositive.le]
      · exact absurd hcolumn throw_ne_ok
  have hdomain : ∃ domain, canonicalDomain (textOr payload.forwardDomainName.get "") = .ok domain ∧
      (projectHost row).forwardDomainName = .of domain := by
    have hdomain := h.forwardDomainName
    rw [if_pos rfl] at hdomain
    obtain ⟨hcanonical, hsome⟩ := hdomain
    obtain ⟨domain, hrow⟩ := Option.isSome_iff_exists.mp hsome
    rw [hrow, Option.getD_some] at hcanonical
    refine ⟨domain, hcanonical, ?_⟩
    simp only [projectHost, hrow]
    rfl
  rw [hscheme, hcode, and_iff_right hdomain]

/-- The access lists of a row are those that the validator checked, unless one is given under the
alias alone. -/
lemma accessListIds_shown_iff (h : HostStored certificates accessLists kind payload row)
    (hnonneg : ∀ z ∈ payload.selectedAccessLists, 0 ≤ z) :
    (projectHost row).accessListIds = .of (payload.accessListIds.get.getD []) ↔
      (payload.accessListIds.get = none → payload.accessListId.get.getD 0 = 0) := by
  have hids : (row.accessListIds.map fun id : ℕ => (id : ℤ)) = payload.selectedAccessLists := by
    rw [h.accessListIds, List.map_map]
    calc payload.selectedAccessLists.map _ = payload.selectedAccessLists.map (fun z => z) :=
          List.map_congr_left fun z hz => Int.toNat_of_nonneg (hnonneg z hz)
      _ = payload.selectedAccessLists := List.map_id' _
  rw [projectHost_accessListIds, hids, HostPayload.selectedAccessLists]
  cases payload.accessListIds.get with
  | some ids => exact iff_of_true rfl (by rintro ⟨⟩)
  | none =>
    simp only [Member.of, Option.getD_none, Option.some.injEq, forall_const]
    cases payload.accessListId.get with
    | none => simp
    | some z => by_cases hzero : z = 0 <;> simp [Option.filter, hzero]

/-- The locations of a row are those that the validator checked, unless some are given under the
alias alone. -/
lemma locations_shown_iff (h : HostStored certificates accessLists kind payload row) :
    (∃ locations, (payload.locations.get.getD []).mapM storedLocation = .ok locations ∧
      (projectHost row).locations = .of (locations.map projectLocation)) ↔
      (payload.locations = none → payload.customLocations.get.getD [] = []) := by
  have hlocations := h.locations
  unfold HostPayload.locationList at hlocations
  cases hgiven : payload.locations with
  | some locations =>
    rw [hgiven] at hlocations
    exact iff_of_true ⟨row.locations, hlocations, rfl⟩ nofun
  | none =>
    rw [hgiven] at hlocations
    have hlength := (mapM_eq_ok_iff.mp hlocations).length_eq
    have hempty : row.locations = [] ↔ payload.customLocations.get.getD [] = [] := by
      rw [← List.length_eq_zero_iff, ← List.length_eq_zero_iff, ← hlength]
    rw [← hempty]
    constructor
    · rintro ⟨locations, hnone, hshown⟩ -
      obtain rfl : [] = locations := pure_eq_ok_iff.mp hnone
      have hmap : row.locations.map projectLocation = [] := by
        simpa [projectHost, Member.of] using hshown
      exact List.map_eq_nil_iff.mp hmap
    · intro hnone
      refine ⟨[], rfl, ?_⟩
      simp only [projectHost, hnone rfl]

/-- The port that the validator used is no default. -/
lemma forwardPort_given {owner : Option ℕ → Option ℕ} {excludeId : Option ℕ}
    (h : writeHost certificates accessLists .proxy owner excludeId id payload rows = .ok row) :
    intOr payload.forwardPort.get 0 ≠ 0 := by
  obtain ⟨checked, columns, hchecked, -, -, -⟩ := writeHost_eq_ok_iff.mp h
  obtain ⟨domains, -, hkind, -⟩ := validatePayload_eq_ok_iff.mp hchecked
  simp only [validateKind, bind_eq_ok_iff] at hkind
  obtain ⟨-, -, -, -, -, -, p, hport, -⟩ := hkind
  intro hzero
  change port (intOr payload.forwardPort.get 0) "forward_port" = .ok p at hport
  have hpositive := (port_eq_ok hport).1
  rw [port_eq_ok_toNat hport, hzero] at hpositive
  exact absurd hpositive (by decide)

/-- What the projection of a written host shows. -/
lemma showsValidated_iff {owner : Option ℕ → Option ℕ} {excludeId : Option ℕ}
    (h : writeHost certificates accessLists kind owner excludeId id payload rows = .ok row) :
    ShowsValidated kind payload (projectHost row) ↔
      (kind = .redirect → payload.forwardScheme.get ≠ none ∧ payload.forwardHttpCode.get ≠ none) ∧
        (payload.accessListIds.get = none → payload.accessListId.get.getD 0 = 0) ∧
        (payload.locations = none → payload.customLocations.get.getD [] = []) := by
  obtain ⟨hstored, henabled, -⟩ := hostStored_of_writeHost h
  have hnonneg := selected_of_writeHost h
  constructor
  · intro hshows
    refine ⟨fun hkind => ?_, (accessListIds_shown_iff hstored hnonneg).mp hshows.accessListIds,
      (locations_shown_iff hstored).mp hshows.locations⟩
    subst hkind
    exact (redirected_shown_iff hstored).mp (hshows.redirected rfl)
  · rintro ⟨hredirect, haccess, hlocations⟩
    exact
      { domainNames := ⟨row.sources, hstored.sources, rfl⟩
        certificateId := congrArg Member.of (certificateId_shown hstored.certificateId)
        sslForced := congrArg Member.of hstored.forceSsl
        hstsEnabled := congrArg Member.of hstored.hstsEnabled
        hstsSubdomains := congrArg Member.of hstored.hstsSubdomains
        accessListIds := (accessListIds_shown_iff hstored hnonneg).mpr haccess
        locations := (locations_shown_iff hstored).mpr hlocations
        proxied := fun hkind => by
          subst hkind
          exact proxied_shown hstored (forwardPort_given h)
        redirected := fun hkind => by
          subst hkind
          exact (redirected_shown_iff hstored).mpr (hredirect rfl)
        enabled := congrArg Member.of henabled
        http2Support := congrArg Member.of hstored.http2Enabled
        trustForwardedProto := congrArg Member.of hstored.trustForwardedProto
        allowWebsocketUpgrade := congrArg Member.of hstored.websocketEnabled
        cachingEnabled := congrArg Member.of hstored.cacheEnabled
        blockExploits := congrArg Member.of hstored.blockExploits
        preservePath := congrArg Member.of hstored.preservePath
        advancedConfig := congrArg Member.of hstored.advancedConfig
        extensions := hstored.extensions }

/-- An accepted payload is read back as the validator used it, and is kept by an update without
members, exactly when it names its scheme, its code, its access lists and its locations. -/
theorem writeRead_iff (h : call.run certificates accessLists actor kind rows = .ok rows')
    (hrow : getHost kind call.id rows' = some row) :
    ShowsValidated kind (call.validated kind rows) (projectHost row) ∧
        EmptyUpdateKeeps kind call.id rows' ↔
      Explicit kind (call.validated kind rows) := by
  obtain ⟨owner, excludeId, hwrite, rfl⟩ := writeHost_of_run h hrow
  obtain ⟨hstored, htaken⟩ := storedHost_of_writeHost hwrite
  have htaken' : ∀ d ∈ row.sources, d ∉ takenDomains (rows.set call.id row) call.id :=
    fun d hd hmem => htaken d hd ((takenDomains_set rows call.id row).mp hmem)
  rw [showsValidated_iff hwrite, emptyUpdateKeeps_iff hstored hrow htaken',
    redirectScheme_isSome (hostStored_of_writeHost hwrite).1]
  constructor
  · rintro ⟨⟨hredirect, haccess, hlocations⟩, hscheme⟩
    exact ⟨hscheme, fun hkind => (hredirect hkind).2, haccess, hlocations⟩
  · rintro ⟨hscheme, hcode, haccess, hlocations⟩
    exact ⟨⟨fun hkind => ⟨hscheme, hcode hkind⟩, haccess, hlocations⟩, hscheme⟩

end Agreement

/-- A redirection, with a scheme and a code or without them. -/
def redirection (forwardScheme : Member String) (forwardHttpCode : Member ℤ) : HostPayload where
  domainNames := .of ["old.example"]
  forwardDomainName := .of "new.example"
  forwardScheme := forwardScheme
  forwardHttpCode := forwardHttpCode

/-- The hosts after a redirection is created. -/
def redirections (forwardScheme : Member String) (forwardHttpCode : Member ℤ) : Dict ℕ HostRow :=
  ((HostCall.create 1 (redirection forwardScheme forwardHttpCode)).run [] [] none .redirect
    Dict.empty).toOption.getD Dict.empty

/-- A redirection with a scheme and a code is read back as it was validated. -/
theorem writeRead_iff_explicit :
    ∃ row, getHost .redirect 1 (redirections (.of "auto") (.of 302)) = some row ∧
      (ShowsValidated .redirect (redirection (.of "auto") (.of 302)) (projectHost row) ∧
        EmptyUpdateKeeps .redirect 1 (redirections (.of "auto") (.of 302)) ↔
          Explicit .redirect (redirection (.of "auto") (.of 302))) := by
  obtain ⟨row, hrow⟩ := Option.isSome_iff_exists.mp
    (show (getHost .redirect 1 (redirections (.of "auto") (.of 302))).isSome = true by
      decide)
  have hrun : (HostCall.create 1 (redirection (.of "auto") (.of 302))).run [] [] none .redirect
      Dict.empty = .ok (redirections (.of "auto") (.of 302)) :=
    eq_getD_of_isSome (by decide)
  exact ⟨row, hrow, writeRead_iff hrun hrow⟩

/-- A redirection without a scheme and a code, which is validated as `auto` and 301, shows `http`
and no code. -/
theorem redirection_unlike :
    (HostCall.create 1 (redirection none none)).run [] [] none .redirect Dict.empty =
        .ok (redirections none none) ∧
      ∃ row, getHost .redirect 1 (redirections none none) = some row ∧
        (projectHost row).forwardScheme.get = some "http" ∧
        (projectHost row).forwardHttpCode.get = none ∧
        ¬ ShowsValidated .redirect (redirection none none) (projectHost row) := by
  obtain ⟨row, hrow⟩ := Option.isSome_iff_exists.mp
    (show (getHost .redirect 1 (redirections none none)).isSome = true by decide)
  have hshown : ((getHost .redirect 1 (redirections none none)).map fun row =>
      ((projectHost row).forwardScheme.get, (projectHost row).forwardHttpCode.get)) =
        some (some "http", none) := by decide
  rw [hrow, Option.map_some, Option.some.injEq, Prod.mk.injEq] at hshown
  refine ⟨eq_getD_of_isSome (by decide), row, hrow, hshown.1, hshown.2, fun hshows => ?_⟩
  have hscheme := congrArg Member.get (hshows.redirected rfl).1
  rw [hshown.1] at hscheme
  exact absurd hscheme (by decide)

end Portwyrm.Tables

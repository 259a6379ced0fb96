import Portwyrm.Runtime.Deployment
import Portwyrm.Runtime.RenderOrder
import Portwyrm.Tables.RoutingRuns

/-!
# Previews

`RoutingHostStore.preview`: the configuration of one host, made without the rest of the generation.
The access lists that the host selects are read in the order of the database, of hosts of every
kind, and merged; what the preview shows is the file that a render makes of the host.
-/

namespace Portwyrm.Tables

open Base Portwyrm.Runtime Portwyrm.Quic

/-! ## The operation -/

/-- What `preview` returns. -/
structure Preview where
  path : String
  config : String
  digest : String
  warnings : List String

/-- The file of a host, with the policy and the password file of a proxy host. -/
def shownFile (host : RuntimeHost) (effective : Option AccessList) (passwordFile : Option String) :
    String × String :=
  match host.kind with
  | .proxy => (proxyName host, renderProxy {} host effective passwordFile)
  | .redirect => redirectionFile {} host
  | .dead => deadFile {} host

section Preview

-- the order in which the database returns rows
variable (sha256 : List UInt8 → HexDigest)
  (order : List (ℕ × AccessListRow) → List (ℕ × AccessListRow))

/-- The rows with an id among those that are selected. -/
def selectRows (ids : List ℕ) (t : AccessTables) : List (ℕ × AccessListRow) :=
  if ids = [] then [] else order (t.lists.rows.entries.filter fun e => e.1 ∈ ids)

/-- `preview`. -/
def previewHost (id : ℕ) (t : RoutingTables) : Result Preview :=
  match t.hosts.get? id with
  | none => throw (.valueError "routing host not found")
  | some row => do
    let host := runtimeHost id (← validateRuntimeHost id row)
    let accessRows := selectRows order (selectedIds host) t.access
    let accessLists ← accessRows.mapM fun e => runtimeProjection t.access e.1 e.2
    let effective ← mergeAccessLists accessLists
    let (path, config) := shownFile host effective (passwordFile host accessLists)
    let missing := (selectedIds host).filter fun i => i ∉ accessLists.map AccessList.id
    pure
      { path := path
        config := config
        digest := configDigest sha256 config
        warnings := (sortedBy natLe id missing.dedup).map fun item =>
          s!"access list {item} was not found" }

end Preview

/-! ## Files of a render -/

section Files

variable {platform : PlatformConfig} {input : RenderInput} {files : Files}

/-- A name with a number in it tells the number. -/
lemma number_of_confName {start : String} {a b : ℕ}
    (h : start ++ toString a ++ ".conf" = start ++ toString b ++ ".conf") : a = b := by
  have hnumber : start ++ toString a = start ++ toString b := (String.append_left_inj _).mp h
  exact Numeral.toString_injective ((String.append_right_inj _).mp hnumber)

/-- Names that start differently differ. -/
lemma confName_ne_confName {start start' middle middle' : String}
    (h : ¬ start.toList <+: start'.toList) (h' : ¬ start'.toList <+: start.toList) :
    start ++ middle ++ ".conf" ≠ start' ++ middle' ++ ".conf" := by
  rw [String.append_assoc, String.append_assoc]
  exact append_ne_append h h'

/-- A custom include has another name. -/
lemma ne_of_mem_custom {custom includes : List (String × String)}
    (hcustom : includes.mapM customFile = .ok custom) {e : String × String} (h : e ∈ custom)
    {start middle : String} (hstart : ¬ "custom/".toList <+: start.toList)
    (hstart' : ¬ start.toList <+: "custom/".toList) : e.1 ≠ start ++ middle ++ ".conf" := by
  obtain ⟨e', -, he'⟩ := Numeral.exists_of_mem_right (mapM_eq_ok_iff.mp hcustom) h
  simp only [customFile, bind_eq_ok_iff, pure_eq_ok_iff] at he'
  obtain ⟨_, -, rfl⟩ := he'
  exact confName_ne_confName hstart hstart'

/-- The file of a redirection is among those of a render. -/
lemma get?_render_redirection (h : render platform input = .ok files)
    (hnodup : (input.redirectionHosts.map RuntimeHost.id).Nodup) {host : RuntimeHost}
    (hhost : host ∈ input.redirectionHosts) :
    files.get? (redirectionFile platform host).1 = some (redirectionFile platform host).2 := by
  obtain ⟨proxies, custom, hcustom, -, rfl⟩ := render_eq_ok h
  refine get?_addFiles_of_mem ?_ fun e he hname => ?_
  · simp only [laterFiles, List.mem_append]
    exact .inl (.inl (.inl (List.mem_map_of_mem (mem_sortedBy.mpr hhost))))
  · simp only [laterFiles, List.mem_append, List.mem_map] at he
    rcases he with ((⟨host', hhost', rfl⟩ | ⟨host', -, rfl⟩) | ⟨stream, -, rfl⟩) | he
    · obtain rfl := List.inj_on_of_nodup_map hnodup (mem_sortedBy.mp hhost') hhost
        (number_of_confName hname)
      rfl
    · exact absurd hname (confName_ne_confName (by decide) (by decide))
    · exact absurd hname (confName_ne_confName (by decide) (by decide))
    · exact absurd hname (ne_of_mem_custom hcustom he (by decide) (by decide))

/-- The file of a dead host is among those of a render. -/
lemma get?_render_dead (h : render platform input = .ok files)
    (hnodup : (input.deadHosts.map RuntimeHost.id).Nodup) {host : RuntimeHost}
    (hhost : host ∈ input.deadHosts) :
    files.get? (deadFile platform host).1 = some (deadFile platform host).2 := by
  obtain ⟨proxies, custom, hcustom, -, rfl⟩ := render_eq_ok h
  refine get?_addFiles_of_mem ?_ fun e he hname => ?_
  · simp only [laterFiles, List.mem_append]
    exact .inl (.inl (.inr (List.mem_map_of_mem (mem_sortedBy.mpr hhost))))
  · simp only [laterFiles, List.mem_append, List.mem_map] at he
    rcases he with ((⟨host', -, rfl⟩ | ⟨host', hhost', rfl⟩) | ⟨stream, -, rfl⟩) | he
    · exact absurd hname (confName_ne_confName (by decide) (by decide))
    · obtain rfl := List.inj_on_of_nodup_map hnodup (mem_sortedBy.mp hhost') hhost
        (number_of_confName hname)
      rfl
    · exact absurd hname (confName_ne_confName (by decide) (by decide))
    · exact absurd hname (ne_of_mem_custom hcustom he (by decide) (by decide))

end Files

/-! ## The access lists of a host -/

section Selected

variable {t : RoutingTables} {order : List (ℕ × AccessListRow) → List (ℕ × AccessListRow)}

/-- TLS settings are normalised once. -/
lemma normalized_normalized (ssl : SSLSettings) : ssl.normalized.normalized = ssl.normalized := by
  unfold SSLSettings.normalized
  by_cases h : ssl.certificateId = 0
  · simp [h]
  · cases ssl.forced <;> cases ssl.hsts <;> simp [h]

lemma ssl_shown (row : HostRow) : row.shown.ssl = row.ssl.normalized := by
  have hid : (some row.ssl.normalized.certificateId |>.filter (· ≠ 0)).getD 0 =
      row.ssl.normalized.certificateId := by
    by_cases h : row.ssl.normalized.certificateId = 0 <;> simp [Option.filter, h]
  show (⟨(some row.ssl.normalized.certificateId |>.filter (· ≠ 0)).getD 0, _, _, _, _, _⟩ :
    SSLSettings) = _
  rw [hid]
  rfl

/-- What is shown of a row that is shown is the same. -/
lemma shown_shown (row : HostRow) : row.shown.shown = row.shown := by
  show row.shown.withSsl row.shown.ssl.normalized = row.shown
  rw [ssl_shown, normalized_normalized]
  rfl

/-- The rows that a preview reads are those of the ids that the host selects. -/
lemma perm_previewRows (horder : ∀ rows, (order rows).Perm rows) {ids : List ℕ}
    (hnodup : ids.Nodup) (hstored : ∀ i ∈ ids, ∃ l, t.access.lists.get? i = some l) :
    ((selectRows order ids t.access).map Prod.fst).Perm ids := by
  have hrows : (selectRows order ids t.access).Perm
      (t.access.lists.rows.entries.filter fun e => e.1 ∈ ids) := by
    unfold selectRows
    split
    · rename_i hnil
      simp [hnil]
    · exact horder _
  refine (hrows.map Prod.fst).trans ?_
  have hkeys : ((t.access.lists.rows.entries.filter fun e => e.1 ∈ ids).map Prod.fst).Nodup :=
    t.access.lists.rows.nodup.sublist (List.filter_sublist.map _)
  refine (List.perm_ext_iff_of_nodup hkeys hnodup).mpr fun i => ?_
  rw [List.mem_map]
  constructor
  · rintro ⟨e, he, rfl⟩
    simpa using (List.mem_filter.mp he).2
  · intro hi
    obtain ⟨l, hl⟩ := hstored i hi
    refine ⟨(i, l), List.mem_filter.mpr ⟨Dict.mem_entries_iff.mpr hl, ?_⟩, rfl⟩
    simpa using hi

lemma get?_of_mem_selectRows (horder : ∀ rows, (order rows).Perm rows) {ids : List ℕ}
    {e : ℕ × AccessListRow} (h : e ∈ selectRows order ids t.access) :
    t.access.lists.get? e.1 = some e.2 := by
  unfold selectRows at h
  split at h
  · exact absurd h List.not_mem_nil
  · exact Dict.mem_entries_iff.mp (List.mem_filter.mp ((horder _).mem_iff.mp h)).1

/-- Access lists that are shown of rows have the ids of the rows, and their names and hashes. -/
lemma accessLists_of_rows {rows : List (ℕ × AccessListRow)} {lists : List AccessList}
    (h : rows.mapM (fun e => runtimeProjection t.access e.1 e.2) = .ok lists) :
    lists.map AccessList.id = rows.map Prod.fst ∧
      (lists.flatMap AccessList.credentials).map AccessCredential.pair =
        (rows.map Prod.fst).flatMap t.access.pairsOf := by
  have hrows := mapM_eq_ok_iff.mp h
  refine ⟨(Numeral.map_eq_map (hrows.imp fun _ _ he => (runtimeProjection_id he).symm)).symm, ?_⟩
  clear h
  induction hrows with
  | nil => rfl
  | cons he _ ih =>
    rw [List.flatMap_cons, List.map_append, List.map_cons, List.flatMap_cons,
      pairs_runtimeProjection he, ih]

/-- A host's access lists are merged when they agree on passwords. -/
lemma merges_previewRows {rows : List (ℕ × AccessListRow)} {lists : List AccessList} {ids : List ℕ}
    (h : rows.mapM (fun e => runtimeProjection t.access e.1 e.2) = .ok lists)
    (hperm : (rows.map Prod.fst).Perm ids) : (∃ policy, mergeAccessLists lists = .ok policy) ↔
      Dict.Functional (ids.flatMap t.access.pairsOf) := by
  rw [mergeAccessLists_ok_iff, (accessLists_of_rows h).2]
  have hpairs := hperm.flatMap_right t.access.pairsOf
  exact ⟨fun h => h.subset hpairs.symm.subset, fun h => h.subset hpairs.subset⟩

/-- A preview reads the access lists that a render selects for the host. -/
lemma perm_selectedLists {lists selected : List AccessList} {id : ℕ} {row : HostRow}
    (hread : accessRuntimeList t.access = .ok lists)
    (horder : ∀ rows, (order rows).Perm rows) (hnodup : row.accessListIds.Nodup)
    (hstored : ∀ i ∈ row.accessListIds, ∃ l, t.access.lists.get? i = some l)
    (h : (selectRows order row.accessListIds t.access).mapM
      (fun e => runtimeProjection t.access e.1 e.2) = .ok selected) :
    selected.Perm (selectedLists (accessById lists) (runtimeHost id row)) := by
  have hids : selected.map AccessList.id = (selectRows order row.accessListIds t.access).map
    Prod.fst := (accessLists_of_rows h).1
  have hperm := perm_previewRows (t := t) horder hnodup hstored
  have hshown : ∀ l ∈ selected, (accessById lists).get? l.id = some l := by
    intro l hl
    obtain ⟨e, he, hproj⟩ := Numeral.exists_of_mem_right (mapM_eq_ok_iff.mp h) hl
    obtain ⟨l', hget, hproj'⟩ := get?_readAccessLists (readAccessLists_eq t.access ▸ hread)
      (get?_of_mem_selectRows horder he)
    obtain rfl := Except.ok.inj (hproj.symm.trans hproj')
    rwa [runtimeProjection_id hproj]
  have hselected : selected = (selected.map AccessList.id).filterMap (accessById lists).get? := by
    rw [List.filterMap_map]
    exact ((List.filterMap_congr hshown).trans List.filterMap_some).symm
  rw [hselected, hids, selectedLists, selectedIds_runtimeHost]
  exact hperm.filterMap _

end Selected

/-! ## Previews and renders -/

section Exact

variable {bcryptHash : ℕ → String → String} {sha256 : List UInt8 → HexDigest}
  {order : List (ℕ × AccessListRow) → List (ℕ × AccessListRow)} {t : RoutingTables} {id : ℕ}
  {row : HostRow} {p : Preview}

/-- A preview of a stored host: the access lists that are read and their merged policy. -/
lemma previewHost_eq_ok_iff (ht : Sound t) (hrow : t.hosts.get? id = some row)
    (horder : ∀ rows, (order rows).Perm rows) : previewHost sha256 order id t = .ok p ↔
    ∃ lists policy, (selectRows order row.accessListIds t.access).mapM
        (fun e => runtimeProjection t.access e.1 e.2) = .ok lists ∧
      mergeAccessLists lists = .ok policy ∧
      let host := runtimeHost id row.shown
      let file := shownFile host policy (passwordFile host lists)
      p = ⟨file.1, file.2, configDigest sha256 file.2, []⟩ := by
  have hids : selectedIds (runtimeHost id row.shown) = row.accessListIds :=
    selectedIds_runtimeHost id row.shown
  simp only [previewHost, hrow, (ht.hosts id row hrow).validateRuntimeHost, ok_bind, hids,
    bind_eq_ok_iff, pure_eq_ok_iff]
  refine exists_congr fun lists => ?_
  rw [← exists_and_left]
  refine exists_congr fun policy => and_congr_right fun hlists => and_congr_right fun _ => ?_
  -- every access list that is selected is there
  have hnone : (row.accessListIds.filter fun i => decide (i ∉ lists.map AccessList.id)) = [] := by
    rw [List.filter_eq_nil_iff]
    intro i hi
    have hmem : i ∈ lists.map AccessList.id := by
      rw [(accessLists_of_rows hlists).1]
      exact (perm_previewRows horder (ht.hosts id row hrow).accessListsNodup
        (ht.selected id row hrow)).mem_iff.mpr hi
    simpa using List.mem_map.mp hmem
  rw [hnone]
  exact eq_comm

/-- The hosts that a render of sound tables reads, under different ids. -/
lemma nodup_renderHosts (t : RoutingTables) (p : RuntimeHost → Bool) :
    ((((t.hosts.sorted.map fun e => (e.1, e.2.shown.shown)).map fun e =>
      runtimeHost e.1 e.2).filter p).map RuntimeHost.id).Nodup := by
  have hids : (((t.hosts.sorted.map fun e => (e.1, e.2.shown.shown)).map fun e =>
      runtimeHost e.1 e.2).map RuntimeHost.id) = t.hosts.sorted.map Prod.fst := by
    simp only [List.map_map]
    rfl
  have hnodup : (t.hosts.sorted.map Prod.fst).Nodup :=
    List.pairwise_map.mpr (t.hosts.pairwise_sorted.imp fun h => h.ne)
  exact (hids ▸ hnodup).sublist (List.filter_sublist.map _)

lemma mem_renderHosts (hrow : t.hosts.get? id = some row) :
    runtimeHost id row.shown ∈ (t.hosts.sorted.map fun e => (e.1, e.2.shown.shown)).map fun e =>
      runtimeHost e.1 e.2 := by
  refine List.mem_map.mpr ⟨(id, row.shown.shown), List.mem_map.mpr ⟨(id, row), ?_, rfl⟩, ?_⟩
  · exact Dict.mem_sorted.mpr hrow
  · show runtimeHost id row.shown.shown = runtimeHost id row.shown
    rw [shown_shown]

/-- A render stores what a preview shows. -/
lemma get?_render_preview (ht : Sound t) (hrow : t.hosts.get? id = some row)
    (horder : ∀ rows, (order rows).Perm rows) (h : previewHost sha256 order id t = .ok p)
    {files : Files} (hfiles : renderTables t = .ok files) :
    files.get? p.path = some p.config := by
  obtain ⟨selected, policy, hselected, hpolicy, rfl⟩ := (previewHost_eq_ok_iff ht hrow horder).mp h
  obtain ⟨streams, lists, -, hread, hrender⟩ := (renderTables_eq_ok_iff ht).mp hfiles
  have hmem := mem_renderHosts hrow
  have hkindEq : (runtimeHost id row.shown).kind = row.kind := rfl
  unfold shownFile
  rw [hkindEq]
  cases hkind : row.kind with
  | proxy =>
    have hhost := (List.mem_filter (p := fun host : RuntimeHost => decide (host.kind = .proxy))).mpr
      ⟨hmem, decide_eq_true (hkindEq.trans hkind)⟩
    obtain ⟨effective, heffective, hget⟩ := get?_render hrender (nodup_renderHosts t _) hhost
    have hperm : selected.Perm (selectedLists (accessById lists) (runtimeHost id row.shown)) :=
      perm_selectedLists hread horder (ht.hosts id row hrow).accessListsNodup
        (ht.selected id row hrow) hselected
    have hids : ∀ a ∈ selected, ∀ b ∈ selected, a.id = b.id → a = b := by
      have hnodup : (selected.map AccessList.id).Nodup := by
        rw [(accessLists_of_rows hselected).1]
        exact (perm_previewRows horder (ht.hosts id row hrow).accessListsNodup
          (ht.selected id row hrow)).nodup_iff.mpr (ht.hosts id row hrow).accessListsNodup
      exact fun a ha b hb => List.inj_on_of_nodup_map hnodup ha hb
    obtain rfl : effective = policy := by
      have hsame := mergeAccessLists_eq_of_perm hperm hids
      exact Except.ok.inj (heffective.symm.trans (hsame.symm.trans hpolicy))
    have hfile : passwordFile (runtimeHost id row.shown) selected = passwordFile
        (runtimeHost id row.shown) (selectedLists (accessById lists) (runtimeHost id row.shown)) := by
      rw [passwordFile, passwordFile, hperm.length_eq]
    simp only [hfile]
    exact hget
  | redirect =>
    exact get?_render_redirection hrender (nodup_renderHosts t _)
      (List.mem_filter.mpr ⟨hmem, decide_eq_true (hkindEq.trans hkind)⟩)
  | dead =>
    exact get?_render_dead hrender (nodup_renderHosts t _)
      (List.mem_filter.mpr ⟨hmem, decide_eq_true (hkindEq.trans hkind)⟩)

/-- The path of a preview names its host. -/
lemma hostOfPath_preview (ht : Sound t) (hrow : t.hosts.get? id = some row)
    (horder : ∀ rows, (order rows).Perm rows) (h : previewHost sha256 order id t = .ok p) :
    hostOfPath p.path = some id := by
  obtain ⟨lists, policy, -, -, rfl⟩ := (previewHost_eq_ok_iff ht hrow horder).mp h
  have hkindEq : (runtimeHost id row.shown).kind = row.kind := rfl
  unfold shownFile
  rw [hkindEq]
  cases row.kind with
  | proxy => exact hostOfPath_hostFile (show "proxy" ∈ hostFamilies by decide) id
  | redirect => exact hostOfPath_hostFile (show "redirection" ∈ hostFamilies by decide) id
  | dead => exact hostOfPath_hostFile (show "dead" ∈ hostFamilies by decide) id

/-- In tables that calls make, a preview is refused for three reasons: the host is not there, an
access list that it selects has no name, or these access lists disagree on the password of a user.
What it shows is the file of the host in every render of the tables, under the digest that the
controller records for it, and without a warning; and where a render succeeds, so does the preview
of every proxy host. -/
theorem preview_exact (h : RoutingReached bcryptHash t) (horder : ∀ rows, (order rows).Perm rows)
    (id : ℕ) :
    ((∃ p, previewHost sha256 order id t = .ok p) ↔ ∃ row, t.hosts.get? id = some row ∧
      (∀ i ∈ row.accessListIds, ∀ l, t.access.lists.get? i = some l → Text.strip l.name ≠ "") ∧
      Dict.Functional (row.accessListIds.flatMap t.access.pairsOf)) ∧
    (∀ p, previewHost sha256 order id t = .ok p → p.warnings = [] ∧ hostOfPath p.path = some id ∧
      p.digest = configDigest sha256 p.config ∧
      ∀ files, renderTables t = .ok files → files.get? p.path = some p.config) ∧
    ∀ files, renderTables t = .ok files → ∀ row, t.hosts.get? id = some row → row.kind = .proxy →
      ∃ p, previewHost sha256 order id t = .ok p := by
  have ht : Sound t := h.sound
  have hiff : ∀ row, t.hosts.get? id = some row → ((∃ p, previewHost sha256 order id t = .ok p) ↔
      (∀ i ∈ row.accessListIds, ∀ l, t.access.lists.get? i = some l → Text.strip l.name ≠ "") ∧
        Dict.Functional (row.accessListIds.flatMap t.access.pairsOf)) := by
    intro row hrow
    have hperm := perm_previewRows (t := t) horder (ht.hosts id row hrow).accessListsNodup
      (ht.selected id row hrow)
    have hnames : (∃ lists, (selectRows order row.accessListIds t.access).mapM
        (fun e => runtimeProjection t.access e.1 e.2) = .ok lists) ↔
        ∀ i ∈ row.accessListIds, ∀ l, t.access.lists.get? i = some l → Text.strip l.name ≠ "" := by
      rw [mapM_ok_iff]
      constructor
      · intro hlists i hi l hl
        obtain ⟨e, he, rfl⟩ := List.mem_map.mp (hperm.mem_iff.mpr hi)
        have hget := get?_of_mem_selectRows horder he
        obtain rfl := Option.some.inj (hget.symm.trans hl)
        exact (runtimeProjection_ok_iff ht.access (ht.access.positive _ _ hget)).mp (hlists e he)
      · intro hlists e he
        have hget := get?_of_mem_selectRows horder he
        refine (runtimeProjection_ok_iff ht.access (ht.access.positive _ _ hget)).mpr ?_
        exact hlists e.1 (hperm.mem_iff.mp (List.mem_map_of_mem he)) e.2 hget
    rw [← hnames]
    constructor
    · rintro ⟨p, hp⟩
      obtain ⟨lists, policy, hlists, hpolicy, -⟩ := (previewHost_eq_ok_iff ht hrow horder).mp hp
      exact ⟨⟨lists, hlists⟩, (merges_previewRows hlists hperm).mp ⟨policy, hpolicy⟩⟩
    · rintro ⟨⟨lists, hlists⟩, hfunctional⟩
      obtain ⟨policy, hpolicy⟩ := (merges_previewRows hlists hperm).mpr hfunctional
      exact ⟨_, (previewHost_eq_ok_iff ht hrow horder).mpr ⟨lists, policy, hlists, hpolicy, rfl⟩⟩
  have hstored : ∀ p, previewHost sha256 order id t = .ok p →
      ∃ row, t.hosts.get? id = some row := by
    intro p hp
    cases hrow : t.hosts.get? id with
    | none =>
      simp only [previewHost, hrow] at hp
      exact absurd hp throw_ne_ok
    | some row => exact ⟨row, rfl⟩
  refine ⟨⟨?_, ?_⟩, ?_, ?_⟩
  · rintro ⟨p, hp⟩
    obtain ⟨row, hrow⟩ := hstored p hp
    exact ⟨row, hrow, (hiff row hrow).mp ⟨p, hp⟩⟩
  · rintro ⟨row, hrow, hrest⟩
    exact (hiff row hrow).mpr hrest
  · intro p hp
    obtain ⟨row, hrow⟩ := hstored p hp
    obtain ⟨lists, policy, -, -, heq⟩ := (previewHost_eq_ok_iff ht hrow horder).mp hp
    refine ⟨by rw [heq], hostOfPath_preview ht hrow horder hp, by rw [heq], fun files hfiles => ?_⟩
    exact get?_render_preview ht hrow horder hp hfiles
  · intro files hfiles row hrow hkind
    have hcompilable := (renderTables_ok_iff ht).mp ⟨files, hfiles⟩
    refine (hiff row hrow).mpr ⟨fun i _ l hl => hcompilable.names i l hl, ?_⟩
    exact hcompilable.passwords id row hrow hkind

end Exact

/-- The tables after the creation of a dead host. -/
def oneDeadHost : RoutingTables :=
  (applyRoutingOp saltedHash [] {}
    ⟨none, id, .createHost .dead ⟨1, Nat.one_pos⟩
      { domainNames := .of ["app.example"] }⟩).toOption.getD {}

lemma reached_oneDeadHost : RoutingReached saltedHash oneDeadHost :=
  .call [] _ .empty (eq_getD_of_isSome (by decide))

/-- The host is previewed, whatever the order of the database. -/
theorem preview_exact_oneDeadHost :
    ∃ p, previewHost sumHash List.reverse 1 oneDeadHost = .ok p := by
  have hids : (oneDeadHost.hosts.get? 1).map HostRow.accessListIds = some [] := by decide
  obtain ⟨row, hrow, hnone⟩ := Option.map_eq_some_iff.mp hids
  refine (preview_exact reached_oneDeadHost List.reverse_perm 1).1.mpr ⟨row, hrow, ?_, ?_⟩
  · rw [hnone]
    exact fun _ hi => absurd hi List.not_mem_nil
  · rw [hnone]
    exact fun _ h => absurd h List.not_mem_nil

end Portwyrm.Tables

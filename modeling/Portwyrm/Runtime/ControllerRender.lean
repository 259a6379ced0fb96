import Portwyrm.Runtime.AccessPolicy

/-!
# Rendering what the controller reads

`TableRuntimeController.render`: the four reads of the tables, and what a proxy host is
rendered with.  The reads happen in separate transactions, so each of them may show the tables
of another moment.
-/

namespace Portwyrm.Runtime

open Base

/-! ## Reads -/

/-- What one read of a table yields: rows with different primary keys. -/
structure Rows (α : Type) (key : α → ℕ) where
  rows : List α
  nodup : (rows.map key).Nodup

/-- The rows of a table without rows. -/
def Rows.empty {α : Type} {key : α → ℕ} : Rows α key := ⟨[], List.nodup_nil⟩

/-- The four reads of one render. -/
structure TableReads where
  hosts : Rows RuntimeHost RuntimeHost.id := .empty
  streams : Rows Stream Stream.id := .empty
  quicRoutes : Rows QuicRoute QuicRoute.id := .empty
  accessLists : Rows AccessList AccessList.id := .empty

/-- The hosts of one kind. -/
def TableReads.hostsOf (reads : TableReads) (kind : HostKind) : List RuntimeHost :=
  reads.hosts.rows.filter fun host => host.kind = kind

/-- `TableRuntimeController.render` behind its reads. -/
def renderReads (reads : TableReads) : Result Files := do
  let accessLists ← reads.accessLists.rows.mapM AccessList.revalidate
  render {}
    { proxyHosts := reads.hostsOf .proxy
      redirectionHosts := reads.hostsOf .redirect
      deadHosts := reads.hostsOf .dead
      streams := reads.streams.rows
      quicPassthroughHosts := reads.quicRoutes.rows
      accessLists := accessLists }

/-! ## Files -/

variable {files : Files} {added : List (String × String)} {k v : String}

lemma addFiles_append {added' : List (String × String)} :
    addFiles files (added ++ added') = addFiles (addFiles files added) added' :=
  List.foldl_append

lemma get?_addFiles_of_not_mem (h : ∀ e ∈ added, e.1 ≠ k) :
    (addFiles files added).get? k = files.get? k := by
  induction added generalizing files with
  | nil => rfl
  | cons e added ih =>
    rw [addFiles, List.foldl_cons, ← addFiles, ih fun e' he' => h e' (by simp [he']),
      Dict.get?_set_of_ne _ _ (h e (by simp)).symm]

/-- A file that is stored with one content only. -/
lemma get?_addFiles_of_mem (hmem : (k, v) ∈ added) (h : ∀ e ∈ added, e.1 = k → e.2 = v) :
    (addFiles files added).get? k = some v := by
  induction added using List.reverseRecOn with
  | nil => simp at hmem
  | append_singleton added e ih =>
    have happend : addFiles files (added ++ [e]) = (addFiles files added).set e.1 e.2 := by
      simp [addFiles]
    rw [happend, Dict.get?_set]
    split
    · rename_i hk
      exact congrArg some (h e (by simp) hk.symm)
    · rename_i hk
      refine ih ?_ fun e' he' => h e' (by simp [he'])
      rcases List.mem_append.mp hmem with hmem | hmem
      · exact hmem
      · exact absurd (congrArg Prod.fst (List.mem_singleton.mp hmem)) hk

/-- Texts with different starts differ. -/
lemma append_ne_append {a b x y : String} (h : ¬ a.toList <+: b.toList)
    (h' : ¬ b.toList <+: a.toList) : a ++ x ≠ b ++ y := by
  intro heq
  have hlist := congrArg String.toList heq
  rw [String.toList_append, String.toList_append] at hlist
  rcases List.prefix_or_prefix_of_prefix (List.prefix_append a.toList x.toList)
    (hlist ▸ List.prefix_append b.toList y.toList) with hp | hp
  · exact h hp
  · exact h' hp

lemma proxyName_injective {host host' : RuntimeHost} (h : proxyName host = proxyName host') :
    host.id = host'.id := by
  have hid : "http/proxy-" ++ toString host.id = "http/proxy-" ++ toString host'.id :=
    (String.append_left_inj _).mp h
  exact Numeral.toString_injective ((String.append_right_inj _).mp hid)

/-- The names of the other files do not start like the name of a proxy host. -/
lemma proxyName_ne {host : RuntimeHost} {start rest : String}
    (h : ¬ start.toList <+: "http/proxy-".toList) (h' : ¬ "http/proxy-".toList <+: start.toList) :
    start ++ rest ≠ proxyName host := by
  have happend : proxyName host = "http/proxy-" ++ (toString host.id ++ ".conf") :=
    String.append_assoc
  rw [happend]
  exact append_ne_append h h'

lemma confName_ne {host : RuntimeHost} {start middle : String}
    (h : ¬ start.toList <+: "http/proxy-".toList) (h' : ¬ "http/proxy-".toList <+: start.toList) :
    start ++ middle ++ ".conf" ≠ proxyName host := by
  rw [String.append_assoc]
  exact proxyName_ne h h'

variable {platform : PlatformConfig} {input : RenderInput} {byId : Dict ℕ AccessList}
  {host : RuntimeHost}

lemma proxyFiles_eq_ok {l : List (String × String)} :
    proxyFiles platform byId host = .ok l ↔ ∃ effective, effectivePolicy byId host = .ok effective ∧
      mergedFiles (passwordFile host (selectedLists byId host)) effective ++
        [(proxyName host, renderProxy platform host effective
          (passwordFile host (selectedLists byId host)))] = l := by
  simp only [proxyFiles, bind_eq_ok_iff, pure_eq_ok_iff]

lemma mem_mergedFiles_ne {file : Option String} {effective : Option AccessList}
    {e : String × String} (h : e ∈ mergedFiles file effective) : e.1 ≠ proxyName host := by
  cases file with
  | none => simp [mergedFiles] at h
  | some file =>
    cases effective with
    | none => simp [mergedFiles] at h
    | some effective =>
      rw [mergedFiles, List.mem_singleton] at h
      subst h
      exact proxyName_ne (by decide) (by decide)

/-- The files that `render` stores before those of the proxy hosts. -/
def earlierFiles (platform : PlatformConfig) (input : RenderInput) : Files :=
  addFiles (addFiles Dict.empty (platformFiles platform input.quicPassthroughHosts))
    ((sortedBy natLe AccessList.id input.accessLists).map accessFile)

/-- The files that `render` stores behind those of the proxy hosts. -/
def laterFiles (platform : PlatformConfig) (input : RenderInput)
    (custom : List (String × String)) : List (String × String) :=
  (sortedBy natLe RuntimeHost.id input.redirectionHosts).map (redirectionFile platform) ++
  (sortedBy natLe RuntimeHost.id input.deadHosts).map (deadFile platform) ++
  (sortedBy natLe Stream.id input.streams).map (streamFile platform) ++ custom

/-- None of them is the file of a proxy host. -/
lemma mem_laterFiles_ne {custom : List (String × String)} {includes : List (String × String)}
    (hcustom : includes.mapM customFile = .ok custom) {e : String × String}
    (h : e ∈ laterFiles platform input custom) : e.1 ≠ proxyName host := by
  simp only [laterFiles, List.mem_append, List.mem_map] at h
  rcases h with ((⟨host', -, rfl⟩ | ⟨host', -, rfl⟩) | ⟨stream, -, rfl⟩) | h
  · show "http/redirection-" ++ toString host'.id ++ ".conf" ≠ proxyName host
    exact confName_ne (by decide) (by decide)
  · show "http/dead-" ++ toString host'.id ++ ".conf" ≠ proxyName host
    exact confName_ne (by decide) (by decide)
  · show "stream/stream-" ++ toString stream.id ++ ".conf" ≠ proxyName host
    exact confName_ne (by decide) (by decide)
  · obtain ⟨e', -, he'⟩ := Numeral.exists_of_mem_right (mapM_eq_ok_iff.mp hcustom) h
    simp only [customFile, bind_eq_ok_iff, pure_eq_ok_iff] at he'
    obtain ⟨-, -, rfl⟩ := he'
    show "custom/" ++ e'.1 ++ ".conf" ≠ proxyName host
    exact confName_ne (by decide) (by decide)

/-- The files that `render` stores: those of the proxy hosts stand between others. -/
lemma render_eq_ok {files : Files} (h : render platform input = .ok files) :
    ∃ proxies custom,
      (sortedBy textLe Prod.fst platform.customIncludes.entries).mapM customFile = .ok custom ∧
      (sortedBy natLe RuntimeHost.id input.proxyHosts).mapM
        (proxyFiles platform (accessById input.accessLists)) = .ok proxies ∧
      addFiles (addFiles (earlierFiles platform input) proxies.flatten)
        (laterFiles platform input custom) = files := by
  simp only [render, bind_eq_ok_iff, pure_eq_ok_iff] at h
  obtain ⟨proxies, hproxies, custom, hcustom, rfl⟩ := h
  refine ⟨proxies, custom, hcustom, hproxies, ?_⟩
  simp only [laterFiles, earlierFiles, addFiles_append]

/-- The file of a proxy host is the server block for its effective policy. -/
lemma get?_render {files : Files} (h : render platform input = .ok files)
    (hnodup : (input.proxyHosts.map RuntimeHost.id).Nodup) (hhost : host ∈ input.proxyHosts) :
    ∃ effective, effectivePolicy (accessById input.accessLists) host = .ok effective ∧
      files.get? (proxyName host) = some (renderProxy platform host effective
        (passwordFile host (selectedLists (accessById input.accessLists) host))) := by
  obtain ⟨proxies, custom, hcustom, hproxies, rfl⟩ := render_eq_ok h
  have hforall := mapM_eq_ok_iff.mp hproxies
  obtain ⟨l, hl, hfiles⟩ := Numeral.exists_of_mem_left hforall (mem_sortedBy.mpr hhost)
  obtain ⟨effective, heffective, rfl⟩ := proxyFiles_eq_ok.mp hfiles
  refine ⟨effective, heffective, ?_⟩
  rw [get?_addFiles_of_not_mem fun e he => mem_laterFiles_ne hcustom he]
  refine get?_addFiles_of_mem (List.mem_flatten.mpr ⟨_, hl, by simp⟩) ?_
  intro e he hname
  obtain ⟨l', hl', he⟩ := List.mem_flatten.mp he
  obtain ⟨host', hhost', hfiles'⟩ := Numeral.exists_of_mem_right hforall hl'
  obtain ⟨effective', heffective', rfl⟩ := proxyFiles_eq_ok.mp hfiles'
  rcases List.mem_append.mp he with he | he
  · exact absurd hname (mem_mergedFiles_ne he)
  · -- the same name means the same host, since ids are different
    obtain rfl := List.mem_singleton.mp he
    obtain rfl := List.inj_on_of_nodup_map hnodup (mem_sortedBy.mp hhost') hhost
      (proxyName_injective hname)
    obtain rfl := Except.ok.inj (heffective'.symm.trans heffective)
    rfl

/-! ## The policy of a host -/

variable {reads : TableReads}

lemma renderReads_eq (reads : TableReads) :
    renderReads reads = render {}
      { proxyHosts := reads.hostsOf .proxy
        redirectionHosts := reads.hostsOf .redirect
        deadHosts := reads.hostsOf .dead
        streams := reads.streams.rows
        quicPassthroughHosts := reads.quicRoutes.rows
        accessLists := reads.accessLists.rows } := by
  rw [renderReads, mapM_eq_ok_self fun l _ => l.revalidate_self]
  rfl

/-- The policy contributes the credentials and rules of an access list. -/
def Contributes (l : AccessList) (policy : Option AccessList) : Prop :=
  ∃ p, policy = some p ∧ (∀ c ∈ l.credentials, c ∈ p.credentials) ∧ ∀ c ∈ l.clients, c ∈ p.clients

lemma mem_selectedLists {lists : List AccessList} (hnodup : (lists.map AccessList.id).Nodup)
    {l : AccessList} : l ∈ selectedLists (accessById lists) host ↔
      l ∈ lists ∧ l.id ∈ selectedIds host := by
  simp only [selectedLists, List.mem_filterMap, get?_accessById hnodup]
  constructor
  · rintro ⟨i, hi, hl, rfl⟩
    exact ⟨hl, hi⟩
  · rintro ⟨hl, hi⟩
    exact ⟨l.id, hi, hl, rfl⟩

/-- Each selected access list that was read contributes to the policy; there is no policy
exactly when none of them was read. -/
lemma effectivePolicy_spec {lists : List AccessList} (hnodup : (lists.map AccessList.id).Nodup)
    {policy : Option AccessList} (h : effectivePolicy (accessById lists) host = .ok policy) :
    (policy = none ↔ ∀ l ∈ lists, l.id ∉ selectedIds host) ∧
      ∀ l ∈ lists, l.id ∈ selectedIds host → Contributes l policy := by
  have hempty : selectedLists (accessById lists) host = [] ↔
      ∀ l ∈ lists, l.id ∉ selectedIds host := by
    simp only [List.eq_nil_iff_forall_not_mem, mem_selectedLists hnodup, not_and]
  constructor
  · rw [← hempty]
    constructor
    · rintro rfl
      exact mergeAccessLists_eq_none.mp h
    · intro hnil
      rw [effectivePolicy, mergeAccessLists_eq_none.mpr hnil] at h
      exact (Except.ok.inj h).symm
  · intro l hl hi
    have hselected : l ∈ selectedLists (accessById lists) host :=
      (mem_selectedLists hnodup).mpr ⟨hl, hi⟩
    cases policy with
    | none =>
      rw [mergeAccessLists_eq_none.mp h] at hselected
      exact absurd hselected (by simp)
    | some p =>
      obtain ⟨hcredentials, hclients⟩ := mergeAccessLists_eq_some h
      refine ⟨p, rfl, hcredentials l hselected, fun c hc => ?_⟩
      rw [hclients, mem_orderedClients, List.mem_flatMap]
      exact ⟨l, mem_sortedBy.mpr hselected, hc⟩

/-- What a proxy host is rendered with: each selected access list that was read contributes
its credentials and rules, and the host has no policy exactly when none of them was read. -/
theorem rendered_policy {files : Files} (h : renderReads reads = .ok files)
    (hhost : host ∈ reads.hosts.rows) (hkind : host.kind = .proxy) :
    ∃ policy file, files.get? (proxyName host) = some (renderProxy {} host policy file) ∧
      (policy = none ↔ ∀ l ∈ reads.accessLists.rows, l.id ∉ selectedIds host) ∧
      ∀ l ∈ reads.accessLists.rows, l.id ∈ selectedIds host → Contributes l policy := by
  rw [renderReads_eq] at h
  have hnodup : ((reads.hostsOf .proxy).map RuntimeHost.id).Nodup :=
    reads.hosts.nodup.sublist (List.Sublist.map _ List.filter_sublist)
  obtain ⟨policy, hpolicy, hget⟩ := get?_render h hnodup
    (List.mem_filter.mpr ⟨hhost, by simpa using hkind⟩)
  exact ⟨policy, _, hget, effectivePolicy_spec reads.accessLists.nodup hpolicy⟩

/-! ### A torn read -/

/-- A host that selects one access list. -/
def protectedHost : RuntimeHost := { overlapHost with accessListIds := [1] }

/-- The tables in which the host selects the list. -/
def protectedTables : TableReads where
  hosts := ⟨[protectedHost], by decide⟩
  accessLists := ⟨[overlapList], by decide⟩

/-- The tables after the host has dropped the list and the list has been deleted. -/
def releasedTables : TableReads where
  hosts := ⟨[{ protectedHost with accessListIds := [] }], by decide⟩

/-- A render that reads the hosts before and the access lists after the two mutations. -/
def tornReads : TableReads := { protectedTables with accessLists := releasedTables.accessLists }

lemma renderReads_tornReads : ∃ files, renderReads tornReads = .ok files := by
  have hproxies : (sortedBy natLe RuntimeHost.id (tornReads.hostsOf .proxy)).mapM
      (proxyFiles {} (accessById [])) =
      .ok [[(proxyName protectedHost, renderProxy {} protectedHost none none)]] := rfl
  have haccess : tornReads.accessLists.rows = [] := rfl
  rw [renderReads_eq, haccess, render, hproxies]
  exact ⟨_, rfl⟩

/-- The torn render writes the host without its policy. -/
theorem tornReads_unprotected : ∃ files, renderReads tornReads = .ok files ∧
    protectedHost ∈ tornReads.hosts.rows ∧ selectedIds protectedHost = [1] ∧
    files.get? (proxyName protectedHost) = some (renderProxy {} protectedHost none none) := by
  obtain ⟨files, hfiles⟩ := renderReads_tornReads
  have hrender := renderReads_eq tornReads ▸ hfiles
  have hmem : protectedHost ∈ tornReads.hostsOf .proxy := by decide
  obtain ⟨policy, hpolicy, hget⟩ := get?_render hrender (by decide) hmem
  obtain rfl : none = policy := Except.ok.inj hpolicy
  exact ⟨files, hfiles, by decide, rfl, hget⟩

/-- The policy that the list makes. -/
def overlapPolicy : AccessList := { overlapList with clients := overlapList.clients.reverse }

lemma renderReads_protectedTables : ∃ files, renderReads protectedTables = .ok files := by
  have hpolicy : effectivePolicy (accessById [overlapList]) protectedHost =
      .ok (some overlapPolicy) := by decide
  have hproxies : (sortedBy natLe RuntimeHost.id (protectedTables.hostsOf .proxy)).mapM
      (proxyFiles {} (accessById [overlapList])) =
      .ok [[(proxyName protectedHost, renderProxy {} protectedHost (some overlapPolicy) none)]] := by
    have hsorted : sortedBy natLe RuntimeHost.id (protectedTables.hostsOf .proxy) =
        [protectedHost] := by decide
    rw [hsorted, List.mapM_cons, List.mapM_nil, proxyFiles_eq_ok.mpr ⟨_, hpolicy, rfl⟩]
    rfl
  have haccess : protectedTables.accessLists.rows = [overlapList] := rfl
  rw [renderReads_eq, haccess, render, hproxies]
  exact ⟨_, rfl⟩

/-- The untorn render keeps the policy. -/
theorem rendered_policy_protected : ∃ files policy file,
    renderReads protectedTables = .ok files ∧
    files.get? (proxyName protectedHost) = some (renderProxy {} protectedHost policy file) ∧
    (policy = none ↔ ∀ l ∈ protectedTables.accessLists.rows, l.id ∉ selectedIds protectedHost) ∧
    ∀ l ∈ protectedTables.accessLists.rows, l.id ∈ selectedIds protectedHost →
      Contributes l policy := by
  obtain ⟨files, hfiles⟩ := renderReads_protectedTables
  have hhost : protectedHost ∈ protectedTables.hosts.rows := by decide
  obtain ⟨policy, file, h⟩ := rendered_policy hfiles hhost rfl
  exact ⟨files, policy, file, hfiles, h⟩

end Portwyrm.Runtime

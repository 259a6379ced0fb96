import Portwyrm.Runtime.ServerNames
import Portwyrm.Tables.Preview
import Portwyrm.Tables.RawNginx

/-!
# Names that are served

Nginx chooses the server block of a request by its name: the block that names it, else the block of
its longest wildcard.  In a generation that is rendered from the tables, this is the file of the
host that claims the name, or the wildcard, as one of its domains.
-/

namespace Portwyrm.Tables

open Base Base.Tokens Portwyrm.Runtime Portwyrm.Quic

/-! ## Nginx -/

/-- The wildcards that cover a name, the longest first. -/
def wildcards : List Char → List (List Char)
  | [] => []
  | c :: rest => if c = '.' then ('*' :: '.' :: rest) :: wildcards rest else wildcards rest

/-- What a name is looked up as: itself, and the wildcards that cover it. -/
def candidates (name : String) : List String :=
  name :: (wildcards name.toList).map String.ofList

/-- The server blocks of a generation on a port, with their names. -/
def servers (port : ℕ) (files : Files) : List (String × List String) :=
  (files.entries.filter fun e => "http/".toList.isPrefixOf e.1.toList && listensOn port e.2).map
    fun e => (e.1, serverNames e.2)

/-- The file that serves the requests of a port for a name; none of those that name it, where the
default server answers. -/
def servedBy (port : ℕ) (files : Files) (name : String) : Option String :=
  (candidates name).findSome? fun candidate =>
    ((servers port files).find? fun server => candidate ∈ server.2).map Prod.fst

/-! ## The tables -/

/-- The host, of those that meet a condition, that claims a name or its longest wildcard. -/
def claimant (p : HostRow → Bool) (rows : Dict ℕ HostRow) (name : String) :
    Option (ℕ × HostRow) :=
  (candidates name).findSome? fun candidate =>
    rows.entries.find? fun e => p e.2 && decide (candidate ∈ e.2.sources)

/-- The file of a host. -/
def hostPath (id : ℕ) : HostKind → String
  | .proxy => s!"http/proxy-{id}.conf"
  | .redirect => s!"http/redirection-{id}.conf"
  | .dead => s!"http/dead-{id}.conf"

/-- The host has a certificate, so that Nginx listens on port 443 for it. -/
def HostRow.hasCertificate (row : HostRow) : Bool := decide (row.certificateId.getD 0 ≠ 0)

/-- No text of a host ends a line that it is written into, and no raw configuration is given. -/
structure UnbrokenTexts (t : RoutingTables) : Prop where
  hosts : ∀ id row, t.hosts.get? id = some row → (runtimeHost id row).Unbroken
  rules : ∀ id, ∀ r ∈ t.access.rulesOf id, '\n' ∉ r.address.toList

/-! ## Searches -/

section Search

variable {α β γ : Type}

/-- Two searches that find the same, when at most one answer is right. -/
lemma find?_map_eq {l : List α} {l' : List β} {p : α → Bool} {q : β → Bool} {f : α → γ} {g : β → γ}
    (h : ∀ a ∈ l, p a = true → ∃ b ∈ l', q b = true ∧ f a = g b)
    (h' : ∀ b ∈ l', q b = true → ∃ a ∈ l, p a = true)
    (hunique : ∀ b ∈ l', ∀ b' ∈ l', q b = true → q b' = true → b = b') :
    (l.find? p).map f = (l'.find? q).map g := by
  cases hfound : l'.find? q with
  | none =>
    have hnone : l.find? p = none := by
      rw [List.find?_eq_none]
      intro a ha hp
      obtain ⟨b, hb, hq, -⟩ := h a ha hp
      exact List.find?_eq_none.mp hfound b hb hq
    rw [hnone]
    rfl
  | some b =>
    have hb := List.mem_of_find?_eq_some hfound
    have hq := List.find?_some hfound
    obtain ⟨a, ha, hp⟩ := h' b hb hq
    cases hsearch : l.find? p with
    | none => exact absurd hp (List.find?_eq_none.mp hsearch a ha)
    | some a' =>
      obtain ⟨b', hb', hq', heq⟩ :=
        h a' (List.mem_of_find?_eq_some hsearch) (List.find?_some hsearch)
      rw [hunique b' hb' b hb hq' hq] at heq
      exact congrArg some heq

/-- The first of several searches that finds something. -/
lemma findSome?_map_eq {l : List α} {f : α → Option γ} {g : α → Option β} {k : β → γ}
    (h : ∀ a ∈ l, f a = (g a).map k) : l.findSome? f = (l.findSome? g).map k := by
  induction l with
  | nil => rfl
  | cons a l ih =>
    rw [List.findSome?_cons, List.findSome?_cons, h a List.mem_cons_self]
    cases g a with
    | none => exact ih fun a ha => h a (List.mem_cons_of_mem _ ha)
    | some b => rfl

end Search

/-! ## The files under `http/` -/

section Files

variable {files : Files} {added : List (String × String)} {k v : String} {input : RenderInput}

lemma mem_of_get?_addFiles (h : (addFiles files added).get? k = some v) :
    (k, v) ∈ added ∨ files.get? k = some v := by
  induction added using List.reverseRecOn with
  | nil => exact .inr h
  | append_singleton added e ih =>
    have happend : addFiles files (added ++ [e]) = (addFiles files added).set e.1 e.2 := by
      simp [addFiles]
    rw [happend, Dict.get?_set] at h
    split at h
    · rename_i hk
      obtain rfl := Option.some.inj h
      rw [hk]
      exact .inl (List.mem_append_right _ List.mem_cons_self)
    · exact (ih h).imp (List.mem_append_left _) id

/-- A path in another directory. -/
lemma not_prefix_append {a b : String} (h : ¬ a.toList <+: b.toList) (h' : ¬ b.toList <+: a.toList)
    (rest : String) : ¬ a.toList <+: (b ++ rest).toList := by
  intro hinitial
  rw [String.toList_append] at hinitial
  rcases List.prefix_or_prefix_of_prefix hinitial (List.prefix_append _ _) with hp | hp
  · exact h hp
  · exact h' hp

/-- The files under `http/` are those of the hosts and two of the platform. -/
lemma http_file (h : render {} input = .ok files) (hget : files.get? k = some v)
    (hhttp : "http/".toList <+: k.toList) :
    v = renderDefaultSite {} ∨ v = renderStatusSite ∨
    (∃ host ∈ input.proxyHosts, ∃ effective,
      effectivePolicy (accessById input.accessLists) host = .ok effective ∧ k = proxyName host ∧
      v = renderProxy {} host effective
        (passwordFile host (selectedLists (accessById input.accessLists) host))) ∨
    (∃ host ∈ input.redirectionHosts, redirectionFile {} host = (k, v)) ∨
    ∃ host ∈ input.deadHosts, deadFile {} host = (k, v) := by
  obtain ⟨proxies, custom, hcustom, hproxies, rfl⟩ := render_eq_ok h
  rcases mem_of_get?_addFiles hget with hmem | hget
  · simp only [laterFiles, List.mem_append, List.mem_map, mem_sortedBy] at hmem
    rcases hmem with ((hmem | hmem) | ⟨stream, -, heq⟩) | hmem
    · exact .inr (.inr (.inr (.inl hmem)))
    · exact .inr (.inr (.inr (.inr hmem)))
    · have hpath := (Prod.mk.inj heq).1
      rw [← hpath, String.append_assoc] at hhttp
      exact absurd hhttp (not_prefix_append (by decide) (by decide) _)
    · obtain rfl : custom = [] := Except.ok.inj hcustom.symm
      exact absurd hmem List.not_mem_nil
  · rcases mem_of_get?_addFiles hget with hmem | hget
    · obtain ⟨l, hl, hmem⟩ := List.mem_flatten.mp hmem
      obtain ⟨host, hhost, hfiles⟩ :=
        Numeral.exists_of_mem_right (mapM_eq_ok_iff.mp hproxies) hl
      obtain ⟨effective, heffective, rfl⟩ := proxyFiles_eq_ok.mp hfiles
      rcases List.mem_append.mp hmem with hmem | hmem
      · -- the password file of a merged policy
        obtain ⟨name, hname⟩ : ∃ name, k = "access/" ++ name := by
          unfold mergedFiles at hmem
          split at hmem
          · exact ⟨_, (Prod.mk.inj (List.mem_singleton.mp hmem)).1⟩
          · exact absurd hmem List.not_mem_nil
        rw [hname] at hhttp
        exact absurd hhttp (not_prefix_append (by decide) (by decide) _)
      · obtain ⟨hk, hv⟩ := Prod.mk.inj (List.mem_singleton.mp hmem)
        exact .inr (.inr (.inl ⟨host, mem_sortedBy.mp hhost, effective, heffective, hk, hv⟩))
    · rcases mem_of_get?_addFiles hget with hmem | hget
      · obtain ⟨l, -, heq⟩ := List.mem_map.mp hmem
        have hpath := (Prod.mk.inj heq).1
        rw [← hpath] at hhttp
        exact absurd hhttp (not_prefix_append (by decide) (by decide) _)
      · rcases mem_of_get?_addFiles hget with hmem | hget
        · have hdefault : ({} : PlatformConfig).defaultSite ≠ .html := by decide
          simp only [platformFiles, if_neg hdefault, List.append_nil, List.mem_append,
            List.mem_cons, List.not_mem_nil, or_false, List.mem_map, Prod.mk.injEq] at hmem
          rcases hmem with (⟨rfl, -⟩ | ⟨rfl, hv⟩ | ⟨rfl, hv⟩ | ⟨rfl, -⟩ | ⟨rfl, -⟩ | ⟨rfl, -⟩ |
            ⟨rfl, -⟩) | ⟨name, -, hname, -⟩
          · exact absurd hhttp (by decide)
          · exact .inl hv
          · exact .inr (.inl hv)
          · exact absurd hhttp (by decide)
          · exact absurd hhttp (by decide)
          · exact absurd hhttp (by decide)
          · exact absurd hhttp (by decide)
          · rw [← hname, String.append_assoc] at hhttp
            exact absurd hhttp (not_prefix_append (by decide) (by decide) _)
        · exact absurd hget (by simp)

end Files

/-! ## The hosts of sound tables -/

section Hosts

variable {t : RoutingTables} {id : ℕ} {row : HostRow} {lists : List AccessList}

lemma isDomain_sources (h : ValidHost id row) : ∀ d ∈ row.sources, IsDomain d.toList := by
  have hsources := h.sources
  simp only [canonicalDomains, bind_eq_ok_iff, raiseIf_eq_ok_iff, pure_eq_ok_iff] at hsources
  obtain ⟨collected, hcollected, -, -, heq⟩ := hsources
  exact heq ▸ isDomain_of_collectDomains (by simp) hcollected

lemma sources_ne_nil (h : ValidHost id row) : row.sources ≠ [] := by
  intro hnil
  have hsources := h.sources
  rw [hnil] at hsources
  simp only [canonicalDomains, bind_eq_ok_iff, raiseIf_eq_ok_iff, pure_eq_ok_iff] at hsources
  obtain ⟨collected, hcollected, -, hcount, rfl⟩ := hsources
  exact hcount (by simp)

/-- The access lists of unbroken tables are unbroken. -/
lemma unbroken_accessRuntimeList (ht : SoundAccess t.access) (hrules : ∀ id, ∀ r ∈
    t.access.rulesOf id, '\n' ∉ r.address.toList) (hread : accessRuntimeList t.access = .ok lists) :
    ∀ l ∈ lists, l.Unbroken := by
  intro l hl c hc
  rw [accessRuntimeList, mapM_eq_ok_iff] at hread
  obtain ⟨e, -, hproj⟩ := Numeral.exists_of_mem_right hread hl
  simp only [runtimeProjection, bind_eq_ok_iff] at hproj
  obtain ⟨credentials, -, clients, hclients, hproj⟩ := hproj
  rw [(AccessList.validate_eq_ok hproj).2.2] at hc
  obtain ⟨r, hr, hvalid⟩ := Numeral.exists_of_mem_right (mapM_eq_ok_iff.mp hclients) hc
  obtain ⟨hnormal, -⟩ := AccessClient.validate_eq_ok hvalid
  have haddress : c.address = r.address :=
    Except.ok.inj (hnormal.symm.trans (ht.rules e.1 r hr))
  rw [haddress]
  exact hrules e.1 r hr

/-- The policy of a host is unbroken. -/
lemma unbroken_effectivePolicy {host : RuntimeHost} {policy : Option AccessList}
    (hnodup : (lists.map AccessList.id).Nodup) (hlists : ∀ l ∈ lists, l.Unbroken)
    (h : effectivePolicy (accessById lists) host = .ok policy) : ∀ p ∈ policy, p.Unbroken := by
  rintro p hp c hc
  obtain rfl := Option.mem_def.mp hp
  rw [(merged_of_mergeAccessLists h).clients, mem_orderedClients, List.mem_flatMap] at hc
  obtain ⟨l, hl, hc⟩ := hc
  exact hlists l ((mem_selectedLists hnodup).mp (mem_sortedBy.mp hl)).1 c hc

lemma newline_not_mem_passwordFile (host : RuntimeHost) (selected : List AccessList) :
    ∀ file ∈ passwordFile host selected, '\n' ∉ file.toList := fun file hfile hmem =>
  ne_newline_of_isPlain ((isField_passwordFile host selected file hfile).2 _ hmem) rfl

/-- What a render writes for a host of unbroken tables serves its domains. -/
structure ServesHost (lists : List AccessList) (id : ℕ) (row : HostRow) : Prop where
  proxy : ∀ effective, effectivePolicy (accessById lists) (runtimeHost id row.shown) =
    .ok effective → Serves (runtimeHost id row.shown) (renderProxy {} (runtimeHost id row.shown)
      effective (passwordFile (runtimeHost id row.shown)
        (selectedLists (accessById lists) (runtimeHost id row.shown))))
  redirect : row.kind = .redirect → Serves (runtimeHost id row.shown)
    (renderRedirection {} (runtimeHost id row.shown))
  dead : Serves (runtimeHost id row.shown) (renderDead {} (runtimeHost id row.shown))

lemma servesHost (ht : Sound t) (hunbroken : UnbrokenTexts t)
    (hread : accessRuntimeList t.access = .ok lists) (hrow : t.hosts.get? id = some row) :
    ServesHost lists id row := by
  have hvalid := ht.hosts id row hrow
  have hne : (runtimeHost id row.shown).domainNames ≠ [] := sources_ne_nil hvalid.shown
  have hnames : ∀ name ∈ (runtimeHost id row.shown).domainNames, IsField name := fun name hname =>
    isField_of_isDomain (isDomain_sources hvalid.shown name hname)
  have hstored := hunbroken.hosts id row hrow
  have hhost : (runtimeHost id row.shown).Unbroken :=
    ⟨hstored.target, hstored.locations, hstored.advancedConfig⟩
  have hnodup : (lists.map AccessList.id).Nodup :=
    nodup_readAccessLists ((readAccessLists_eq t.access).trans hread)
  exact
    { proxy := fun effective heffective =>
        serves_renderProxy hne hnames hhost
          (unbroken_effectivePolicy hnodup
            (unbroken_accessRuntimeList ht.access hunbroken.rules hread) heffective)
          (newline_not_mem_passwordFile _ _)
      redirect := by
        intro hkind
        -- the target of a redirection is a domain
        have htarget := hvalid.kind
        simp only [validateRuntimeKind, hkind, bind_eq_ok_iff, raiseIf_eq_ok_iff, not_not,
          pure_eq_ok_iff] at htarget
        obtain ⟨_, hdomain, _, -, hsame⟩ := htarget
        have hname : (runtimeHost id row.shown).forwardDomainName = row.redirectTarget := rfl
        refine serves_renderRedirection hne hnames ?_ hhost.advancedConfig
        rw [hname, ← hsame]
        exact fun hmem => ne_newline_of_isPlain ((isField_of_isDomain hdomain).2 _ hmem) rfl
      dead := serves_renderDead hne hnames hhost.advancedConfig }

end Hosts

/-! ## Generations -/

section Generations

variable {t : RoutingTables} {files : Files}

/-- A file of a host. -/
def IsHostFile (t : RoutingTables) (path text : String) (id : ℕ) (row : HostRow) : Prop :=
  t.hosts.get? id = some row ∧ path = hostPath id row.kind ∧ Serves (runtimeHost id row.shown) text

lemma spelled_append {a b : String} {l m : List Char} (ha : a.toList = l) (hb : b.toList = m) :
    (a ++ b).toList = l ++ m := by
  rw [String.toList_append, ha, hb]

/-- The names of a text whose characters are given. -/
lemma serverNames_of_spelled {text : String} {l : List Char} {names : List String}
    (h : text.toList = l) (hnames : (((l.splitOn '\n').filterMap
      (lineArguments "server_name".toList)).map fun arguments =>
        arguments.map String.ofList).flatten = names) : serverNames text = names := by
  rw [serverNames, directives, h, hnames]

lemma serverNames_renderStatusSite : serverNames renderStatusSite = ["_"] := by
  unfold renderStatusSite
  apply serverNames_of_spelled
  · repeat' first | with_reducible apply spelled_append | exact String.toList_ofList
  · decide +kernel

lemma serverNames_renderDefaultSite : serverNames (renderDefaultSite {}) = ["_"] := by
  show serverNames (_ ++ _ ++ _ ++ _ ++ _ ++ _ ++ _ ++ _ ++ _ ++ _ ++ _ ++ _ ++ _ ++ _) = _
  apply serverNames_of_spelled
  · repeat' first | with_reducible apply spelled_append | exact String.toList_ofList
  · decide +kernel

/-- Every file under `http/` is that of a host, or has the name that stands for none. -/
lemma hostFile_of_http (ht : Sound t) (hunbroken : UnbrokenTexts t)
    (hfiles : renderTables t = .ok files) {path text : String} (hget : files.get? path = some text)
    (hhttp : "http/".toList <+: path.toList) :
    serverNames text = ["_"] ∨ ∃ id row, IsHostFile t path text id row := by
  obtain ⟨streams, lists, -, hread, hrender⟩ := (renderTables_eq_ok_iff ht).mp hfiles
  have hhosts : ∀ host ∈ (t.hosts.sorted.map fun e => (e.1, e.2.shown.shown)).map (fun e =>
      runtimeHost e.1 e.2), ∃ id row, t.hosts.get? id = some row ∧
        host = runtimeHost id row.shown := by
    intro host hhost
    obtain ⟨e, he, rfl⟩ := List.mem_map.mp hhost
    obtain ⟨⟨id, row⟩, hentry, rfl⟩ := List.mem_map.mp he
    exact ⟨id, row, Dict.mem_sorted.mp hentry, by rw [shown_shown]⟩
  rcases http_file hrender hget hhttp with rfl | rfl | ⟨host, hhost, effective, heffective, rfl, rfl⟩ |
    ⟨host, hhost, heq⟩ | ⟨host, hhost, heq⟩
  · exact .inl serverNames_renderDefaultSite
  · exact .inl serverNames_renderStatusSite
  · obtain ⟨hmem, hkind⟩ := List.mem_filter.mp hhost
    obtain ⟨id, row, hrow, rfl⟩ := hhosts host hmem
    refine .inr ⟨id, row, hrow, ?_, (servesHost ht hunbroken hread hrow).proxy effective heffective⟩
    have hproxy : row.kind = .proxy := of_decide_eq_true hkind
    rw [hproxy]
    rfl
  · obtain ⟨hmem, hkind⟩ := List.mem_filter.mp hhost
    obtain ⟨id, row, hrow, rfl⟩ := hhosts host hmem
    have hredirect : row.kind = .redirect := of_decide_eq_true hkind
    obtain ⟨rfl, rfl⟩ := Prod.mk.inj heq
    refine .inr ⟨id, row, hrow, ?_, (servesHost ht hunbroken hread hrow).redirect hredirect⟩
    rw [hredirect]
    rfl
  · obtain ⟨hmem, hkind⟩ := List.mem_filter.mp hhost
    obtain ⟨id, row, hrow, rfl⟩ := hhosts host hmem
    have hdead : row.kind = .dead := of_decide_eq_true hkind
    obtain ⟨rfl, rfl⟩ := Prod.mk.inj heq
    refine .inr ⟨id, row, hrow, ?_, (servesHost ht hunbroken hread hrow).dead⟩
    rw [hdead]
    rfl

/-- Every host has its file. -/
lemma exists_hostFile (ht : Sound t) (hunbroken : UnbrokenTexts t)
    (hfiles : renderTables t = .ok files) {id : ℕ} {row : HostRow}
    (hrow : t.hosts.get? id = some row) : ∃ text, files.get? (hostPath id row.kind) = some text ∧
      Serves (runtimeHost id row.shown) text := by
  obtain ⟨streams, lists, -, hread, hrender⟩ := (renderTables_eq_ok_iff ht).mp hfiles
  have hserves := servesHost ht hunbroken hread hrow
  have hmem := mem_renderHosts hrow
  have hkindEq : (runtimeHost id row.shown).kind = row.kind := rfl
  cases hkind : row.kind with
  | proxy =>
    have hhost := (List.mem_filter (p := fun host : RuntimeHost => decide (host.kind = .proxy))).mpr
      ⟨hmem, decide_eq_true (hkindEq.trans hkind)⟩
    obtain ⟨effective, heffective, hget⟩ := get?_render hrender (nodup_renderHosts t _) hhost
    exact ⟨_, hget, hserves.proxy effective heffective⟩
  | redirect =>
    have hhost := (List.mem_filter
      (p := fun host : RuntimeHost => decide (host.kind = .redirect))).mpr
      ⟨hmem, decide_eq_true (hkindEq.trans hkind)⟩
    have hget := get?_render_redirection hrender (nodup_renderHosts t _) hhost
    exact ⟨renderRedirection {} (runtimeHost id row.shown), hget, hserves.redirect hkind⟩
  | dead =>
    have hhost := (List.mem_filter (p := fun host : RuntimeHost => decide (host.kind = .dead))).mpr
      ⟨hmem, decide_eq_true (hkindEq.trans hkind)⟩
    have hget := get?_render_dead hrender (nodup_renderHosts t _) hhost
    exact ⟨renderDead {} (runtimeHost id row.shown), hget, hserves.dead⟩

lemma http_hostPath (id : ℕ) (kind : HostKind) : "http/".toList <+: (hostPath id kind).toList := by
  have hinitial : ∀ start rest : String, "http/".toList <+: start.toList →
      "http/".toList <+: (start ++ rest).toList := by
    intro start rest h
    rw [String.toList_append]
    exact h.trans (List.prefix_append _ _)
  cases kind
  case proxy => exact hinitial _ _ (hinitial "http/proxy-" _ (by decide))
  case redirect => exact hinitial _ _ (hinitial "http/redirection-" _ (by decide))
  case dead => exact hinitial _ _ (hinitial "http/dead-" _ (by decide))

lemma mem_servers {port : ℕ} {server : String × List String} : server ∈ servers port files ↔
    ∃ text, files.get? server.1 = some text ∧ "http/".toList <+: server.1.toList ∧
      listensOn port text = true ∧ serverNames text = server.2 := by
  obtain ⟨path, names⟩ := server
  simp only [servers, List.mem_map, List.mem_filter, Bool.and_eq_true, List.isPrefixOf_iff_prefix,
    Prod.exists, Prod.mk.injEq, Dict.mem_entries_iff]
  constructor
  · rintro ⟨path, text, ⟨hget, hhttp, hport⟩, rfl, hnames⟩
    exact ⟨text, hget, hhttp, hport, hnames⟩
  · rintro ⟨text, hget, hhttp, hport, hnames⟩
    exact ⟨path, text, ⟨hget, hhttp, hport⟩, rfl, hnames⟩

/-- One candidate is found among the server blocks where it is found among the hosts. -/
lemma found_eq (ht : Sound t) (hdomains : Exclusive HostRow.sources t.hosts)
    (hunbroken : UnbrokenTexts t) (hfiles : renderTables t = .ok files) {port : ℕ}
    {p : HostRow → Bool} (hport : ∀ (id : ℕ) (row : HostRow) (text : String),
      Serves (runtimeHost id row.shown) text → listensOn port text = p row)
    {candidate : String} (hname : candidate ≠ "_") :
    ((servers port files).find? fun server => candidate ∈ server.2).map Prod.fst =
      (t.hosts.entries.find? fun e => p e.2 && decide (candidate ∈ e.2.sources)).map
        fun e => hostPath e.1 e.2.kind := by
  refine find?_map_eq ?_ ?_ ?_
  · intro server hserver hmem
    obtain ⟨text, hget, hhttp, hlistens, hnames⟩ := mem_servers.mp hserver
    have hin : candidate ∈ serverNames text := hnames ▸ of_decide_eq_true hmem
    rcases hostFile_of_http ht hunbroken hfiles hget hhttp with hdefault | ⟨id, row, hhost⟩
    · rw [hdefault] at hin
      exact absurd (List.mem_singleton.mp hin) hname
    · obtain ⟨hrow, hpath, hserves⟩ := hhost
      refine ⟨(id, row), Dict.mem_entries_iff.mpr hrow, ?_, hpath⟩
      rw [hserves.1] at hin
      have hsources : candidate ∈ row.sources := hin
      rw [← hport id row text hserves, hlistens, Bool.true_and]
      exact decide_eq_true hsources
  · intro e he hq
    obtain ⟨hp, hsources⟩ := Bool.and_eq_true_iff.mp hq
    have hrow := Dict.mem_entries_iff.mp he
    obtain ⟨text, hget, hserves⟩ := exists_hostFile ht hunbroken hfiles hrow
    refine ⟨(hostPath e.1 e.2.kind, serverNames text), mem_servers.mpr
      ⟨text, hget, http_hostPath _ _, (hport e.1 e.2 text hserves).trans hp, rfl⟩, ?_⟩
    rw [hserves.1]
    exact hsources
  · intro e he e' he' hq hq'
    have hsources := of_decide_eq_true (Bool.and_eq_true_iff.mp hq).2
    have hsources' := of_decide_eq_true (Bool.and_eq_true_iff.mp hq').2
    have hget := Dict.mem_entries_iff.mp he
    have hget' := Dict.mem_entries_iff.mp he'
    by_cases hid : e.1 = e'.1
    · refine Prod.ext hid ?_
      rw [← hid] at hget'
      exact Option.some.inj (hget.symm.trans hget')
    · exact absurd hsources' (hdomains hget hget' hid hsources)

lemma mem_wildcards {name w : List Char} (h : w ∈ wildcards name) : w.head? = some '*' := by
  induction name with
  | nil => exact absurd h List.not_mem_nil
  | cons c rest ih =>
    unfold wildcards at h
    split at h
    · rcases List.mem_cons.mp h with rfl | h
      · rfl
      · exact ih h
    · exact ih h

lemma servedBy_eq (ht : Sound t) (hdomains : Exclusive HostRow.sources t.hosts)
    (hunbroken : UnbrokenTexts t) (hfiles : renderTables t = .ok files) {port : ℕ}
    {p : HostRow → Bool} (hport : ∀ (id : ℕ) (row : HostRow) (text : String),
      Serves (runtimeHost id row.shown) text → listensOn port text = p row)
    {name : String} (hname : name ≠ "_") :
    servedBy port files name =
      (claimant p t.hosts name).map fun e => hostPath e.1 e.2.kind := by
  refine findSome?_map_eq fun candidate hcandidate => ?_
  refine found_eq ht hdomains hunbroken hfiles hport ?_
  rcases List.mem_cons.mp hcandidate with rfl | hwild
  · exact hname
  · obtain ⟨w, hw, rfl⟩ := List.mem_map.mp hwild
    intro heq
    have hlist := congrArg String.toList heq
    rw [String.toList_ofList] at hlist
    have hhead := mem_wildcards hw
    rw [hlist] at hhead
    exact absurd hhead (by decide)

/-- Port 443 is served by the hosts with a certificate. -/
lemma listensOn_443 {id : ℕ} {row : HostRow} {text : String}
    (h : Serves (runtimeHost id row.shown) text) : listensOn 443 text = row.hasCertificate := by
  have hcertificate : (runtimeHost id row.shown).ssl.certificateId = row.certificateId.getD 0 := by
    show row.shown.ssl.certificateId = row.certificateId.getD 0
    rw [ssl_shown, certificateId_normalized]
    rfl
  rw [h.2.2, hcertificate]
  rfl

end Generations

/-- A generation that is rendered from tables that calls make serves every name by the file of the
host that claims it, or else its longest wildcard: on port 80 among all hosts, on port 443 among
those with a certificate.  No host gives raw configuration, and no text ends the line that it is
written into. -/
theorem served_exact {bcryptHash : ℕ → String → String} {t : RoutingTables} {files : Files}
    (h : RoutingReached bcryptHash t) (hunbroken : UnbrokenTexts t)
    (hfiles : renderTables t = .ok files) {name : String} (hname : name ≠ "_") :
    servedBy 80 files name =
        (claimant (fun _ => true) t.hosts name).map (fun e => hostPath e.1 e.2.kind) ∧
      servedBy 443 files name =
        (claimant HostRow.hasCertificate t.hosts name).map fun e => hostPath e.1 e.2.kind := by
  exact ⟨servedBy_eq h.sound h.domains hunbroken hfiles (fun _ _ _ hserves => hserves.2.1) hname,
    servedBy_eq h.sound h.domains hunbroken hfiles (fun _ _ _ => listensOn_443) hname⟩

lemma unbroken_oneDeadHost : UnbrokenTexts oneDeadHost where
  hosts id row hrow := by
    have hall : ∀ e ∈ oneDeadHost.hosts.entries, e.2.upstream = none ∧ e.2.locations = [] ∧
        e.2.advancedConfig = "" := by
      decide
    obtain ⟨hupstream, hlocations, hconfig⟩ := hall (id, row) (Dict.mem_entries_iff.mpr hrow)
    refine ⟨?_, fun l hl => ?_, hconfig⟩
    · show '\n' ∉ (orNone (row.upstream.map UpstreamRow.target)).toList
      rw [hupstream]
      decide
    · have hnone : (runtimeHost id row).locations = [] := by
        show row.locations.map runtimeLocation = []
        rw [hlocations]
        rfl
      rw [hnone] at hl
      exact absurd hl List.not_mem_nil
  rules id r hr := absurd (mem_sortedBy.mp hr) List.not_mem_nil

/-- The dead host serves its domain, on port 80 only. -/
theorem served_exact_oneDeadHost : ∃ files, renderTables oneDeadHost = .ok files ∧
    servedBy 80 files "app.example" = some "http/dead-1.conf" ∧
    servedBy 443 files "app.example" = none := by
  have hcompilable : Compilable oneDeadHost :=
    { names := fun id row hrow => absurd (Dict.mem_entries_iff.mpr hrow) List.not_mem_nil
      targets := fun id row hrow => absurd (Dict.mem_entries_iff.mpr hrow) List.not_mem_nil
      passwords := by
        intro id row hrow hkind
        have hall : ∀ e ∈ oneDeadHost.hosts.entries, e.2.kind = .dead := by decide
        have hdead := hall (id, row) (Dict.mem_entries_iff.mpr hrow)
        exact absurd (hkind.symm.trans hdead) (by decide) }
  obtain ⟨files, hfiles⟩ := (renderTables_ok_iff reached_oneDeadHost.sound).mpr hcompilable
  obtain ⟨hplain, htls⟩ := served_exact reached_oneDeadHost unbroken_oneDeadHost hfiles
    (show "app.example" ≠ "_" by decide)
  refine ⟨files, hfiles, hplain.trans ?_, htls.trans ?_⟩
  · decide
  · decide

end Portwyrm.Tables

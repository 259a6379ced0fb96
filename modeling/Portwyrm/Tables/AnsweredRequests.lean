import Portwyrm.Runtime.HostAnswers
import Portwyrm.Tables.ServedNames

/-!
# Requests that are answered

A request that reaches Nginx under a name is answered by the server block that it chooses for the
name.  In a generation that is rendered from the tables, the answer is what the fields of the host
say that claims the name.
-/

namespace Portwyrm.Tables

open Base Base.Tokens Base.Directives Base.Serving Portwyrm.Runtime Portwyrm.Quic

/-! ## Answers -/

/-- The answer of a generation to a request for a name on a port. -/
def generationAnswer (accepts : Bool → List Char → List Char → Bool) (port : ℕ) (files : Files)
    (name : String) (request : HttpRequest) : Option Answer :=
  (servedBy port files name).bind fun path =>
    (files.get? path).bind fun text => answerOf accepts files.get? text request

/-- The policy of a host, and the name of its password file. -/
def policyOf (t : RoutingTables) (host : RuntimeHost) : Option AccessList × Option String :=
  let byId := accessById ((accessRuntimeList t.access).toOption.getD [])
  ((effectivePolicy byId host).toOption.join, passwordFile host (selectedLists byId host))

/-- What a host says about a request. -/
def hostAnswer (t : RoutingTables) (accepts : Bool → List Char → List Char → Bool)
    (request : HttpRequest) (e : ℕ × HostRow) : Answer :=
  let host := runtimeHost e.1 e.2.shown
  host.answer (policyOf t host).1 (policyOf t host).2 accepts request

/-- The texts of the hosts and policies are words, no raw configuration is given, and only paths
have slashes; no location has the path of the challenges. -/
structure PlainTexts (t : RoutingTables) : Prop extends UnbrokenTexts t where
  targets : ∀ id row, t.hosts.get? id = some row → row.kind = .proxy →
    IsField (orNone (row.upstream.map UpstreamRow.target)) ∧
      '/' ∉ (orNone (row.upstream.map UpstreamRow.target)).toList
  locations : ∀ id row, t.hosts.get? id = some row → ∀ l ∈ row.locations,
    IsField l.path ∧ IsField (runtimeLocation l).passTarget ∧ '/' ∉ l.target.toList ∧
      l.path.toList ≠ challengePath
  addresses : ∀ id, ∀ r ∈ t.access.rulesOf id, IsField r.address

/-! ## Files that are included -/

section Files

variable {files : Files} {input : RenderInput}

/-- A file of the platform that has the name of no other file. -/
lemma get?_render_platform (h : render {} input = .ok files) {path text : String}
    (hmem : (path, text) ∈ platformFiles {} input.quicPassthroughHosts)
    (hunique : ∀ e ∈ platformFiles {} input.quicPassthroughHosts, e.1 = path → e.2 = text)
    (hpath : path.toList.head? = some 'c') : files.get? path = some text := by
  obtain ⟨proxies, custom, hcustom, hproxies, rfl⟩ := render_eq_ok h
  have hother : ∀ {start rest : String}, start.toList.head? ≠ some 'c' → start ≠ "" →
      start ++ rest ≠ path := by
    rintro start rest hstart hne rfl
    refine hstart ?_
    rw [String.toList_append] at hpath
    cases hlist : start.toList with
    | nil => exact absurd (String.toList_injective hlist) hne
    | cons c l =>
      rw [hlist, List.cons_append] at hpath
      exact hpath
  have hlater : ∀ e ∈ laterFiles {} input custom, e.1 ≠ path := by
    intro e he
    simp only [laterFiles, List.mem_append, List.mem_map] at he
    rcases he with ((⟨host, -, rfl⟩ | ⟨host, -, rfl⟩) | ⟨stream, -, rfl⟩) | he
    · show "http/redirection-" ++ toString host.id ++ ".conf" ≠ path
      rw [String.append_assoc]
      exact hother (by decide) (by decide)
    · show "http/dead-" ++ toString host.id ++ ".conf" ≠ path
      rw [String.append_assoc]
      exact hother (by decide) (by decide)
    · show "stream/stream-" ++ toString stream.id ++ ".conf" ≠ path
      rw [String.append_assoc]
      exact hother (by decide) (by decide)
    · obtain rfl : custom = [] := Except.ok.inj hcustom.symm
      exact absurd he List.not_mem_nil
  have hhosts : ∀ e ∈ proxies.flatten, e.1 ≠ path := by
    intro e he
    obtain ⟨l, hl, he⟩ := List.mem_flatten.mp he
    obtain ⟨host, -, hfiles⟩ := Numeral.exists_of_mem_right (mapM_eq_ok_iff.mp hproxies) hl
    obtain ⟨effective, -, rfl⟩ := proxyFiles_eq_ok.mp hfiles
    rcases List.mem_append.mp he with he | he
    · unfold mergedFiles at he
      split at he
      · rw [List.mem_singleton.mp he]
        exact hother (by decide) (by decide)
      · exact absurd he List.not_mem_nil
    · rw [List.mem_singleton.mp he]
      show "http/proxy-" ++ toString host.id ++ ".conf" ≠ path
      rw [String.append_assoc]
      exact hother (by decide) (by decide)
  have haccess : ∀ e ∈ (sortedBy natLe AccessList.id input.accessLists).map accessFile,
      e.1 ≠ path := by
    intro e he
    obtain ⟨l, -, rfl⟩ := List.mem_map.mp he
    exact hother (by decide) (by decide)
  rw [get?_addFiles_of_not_mem hlater, get?_addFiles_of_not_mem hhosts, earlierFiles,
    get?_addFiles_of_not_mem haccess]
  exact get?_addFiles_of_mem hmem hunique

/-- The files that the server blocks of hosts include are those of the platform. -/
lemma included_render (h : render {} input = .ok files) : Included files.get? := by
  have hnodup : ((platformFiles {} input.quicPassthroughHosts).map Prod.fst).Nodup := by
    have hnames : (platformFiles {} input.quicPassthroughHosts).map Prod.fst =
        (platformFiles {} []).map Prod.fst := by
      simp only [platformFiles, List.map_append, List.map_cons, List.map_nil]
    rw [hnames]
    decide +kernel
  have hone : ∀ {path text : String},
      (path, text) ∈ platformFiles {} input.quicPassthroughHosts → path.toList.head? = some 'c' →
      files.get? path = some text := fun hmem hpath =>
    get?_render_platform h hmem (fun e he heq =>
      congrArg Prod.snd (List.inj_on_of_nodup_map hnodup he hmem heq)) hpath
  have hcustom : ∀ {path : String},
      path ∈ customIncludeNames.map (fun name => "custom/" ++ name ++ ".conf") →
      (path, "") ∈ platformFiles {} input.quicPassthroughHosts := by
    intro path hpath
    obtain ⟨name, hname, rfl⟩ := List.mem_map.mp hpath
    exact List.mem_append_left _ (List.mem_append_right _ (List.mem_map.mpr ⟨name, hname, rfl⟩))
  exact
    { proxy := hone (by simp [platformFiles]) (by decide)
      exploits := hone (by simp [platformFiles]) (by decide)
      serverProxy := hone (hcustom (by decide +kernel)) (by decide)
      serverRedirect := hone (hcustom (by decide +kernel)) (by decide)
      serverDead := hone (hcustom (by decide +kernel)) (by decide) }

end Files

/-! ## The texts of hosts -/

/-- The paths of a stored location start with slashes. -/
lemma slashes_of_validate {l : LocationRow} (h : validateRuntimeLocation l = .ok l) :
    l.path.toList.head? = some '/' ∧ ∀ c ∈ l.forwardPath.toList.head?, c = '/' := by
  simp only [validateRuntimeLocation, validateLocation, bind_eq_ok_iff, raiseIf_eq_ok_iff,
    not_not] at h
  obtain ⟨_, -, _, -, _, hpath, _, -, _, -, _, -, _, hforward, -⟩ := h
  refine ⟨hpath, fun c hc => ?_⟩
  have hne : l.forwardPath ≠ "" := by
    intro hnil
    rw [hnil] at hc
    cases hc
  have hslash : l.forwardPath.toList.head? = some '/' := not_not.mp fun h => hforward ⟨hne, h⟩
  rw [Option.mem_def, hslash] at hc
  exact (Option.some.inj hc).symm

section Hosts

variable {t : RoutingTables} {files : Files} {id : ℕ} {row : HostRow}

/-- The file of a host is its server block, for its policy. -/
lemma get?_hostPath (ht : Sound t) (hfiles : renderTables t = .ok files)
    (hrow : t.hosts.get? id = some row) :
    files.get? (hostPath id row.kind) = some (serverBlock {} (runtimeHost id row.shown)
      (policyOf t (runtimeHost id row.shown)).1 (policyOf t (runtimeHost id row.shown)).2) := by
  obtain ⟨streams, lists, -, hread, hrender⟩ := (renderTables_eq_ok_iff ht).mp hfiles
  have hmem := mem_renderHosts hrow
  have hkindEq : (runtimeHost id row.shown).kind = row.kind := rfl
  have hlists : (accessRuntimeList t.access).toOption.getD [] = lists := by
    rw [hread]
    rfl
  rw [serverBlock, hkindEq]
  cases hkind : row.kind with
  | proxy =>
    have hhost := (List.mem_filter (p := fun host : RuntimeHost => decide (host.kind = .proxy))).mpr
      ⟨hmem, decide_eq_true (hkindEq.trans hkind)⟩
    obtain ⟨effective, heffective, hget⟩ := get?_render hrender (nodup_renderHosts t _) hhost
    have heffective : effectivePolicy (accessById lists) (runtimeHost id row.shown) =
        .ok effective := heffective
    have hpolicy : policyOf t (runtimeHost id row.shown) = (effective,
        passwordFile (runtimeHost id row.shown)
          (selectedLists (accessById lists) (runtimeHost id row.shown))) := by
      rw [policyOf, hlists, heffective]
      rfl
    rw [hpolicy]
    exact hget
  | redirect =>
    have hhost := (List.mem_filter
      (p := fun host : RuntimeHost => decide (host.kind = .redirect))).mpr
      ⟨hmem, decide_eq_true (hkindEq.trans hkind)⟩
    have hget := get?_render_redirection hrender (nodup_renderHosts t _) hhost
    show files.get? (hostPath id .redirect) = some (renderRedirection {} (runtimeHost id row.shown))
    exact hget
  | dead =>
    have hhost := (List.mem_filter (p := fun host : RuntimeHost => decide (host.kind = .dead))).mpr
      ⟨hmem, decide_eq_true (hkindEq.trans hkind)⟩
    have hget := get?_render_dead hrender (nodup_renderHosts t _) hhost
    show files.get? (hostPath id .dead) = some (renderDead {} (runtimeHost id row.shown))
    exact hget

/-- The texts of a stored host are in their places. -/
lemma answering_runtimeHost (ht : Sound t) (hplain : PlainTexts t)
    (hrow : t.hosts.get? id = some row) : (runtimeHost id row.shown).Answering := by
  have hvalid := ht.hosts id row hrow
  have hlocations : ∀ l ∈ (runtimeHost id row.shown).locations,
      ∃ stored ∈ row.locations, runtimeLocation stored = l := by
    intro l hl
    exact List.mem_map.mp hl
  exact
    { plain :=
        { domainNames := fun name hname =>
            isField_of_isDomain (isDomain_sources hvalid.shown name hname)
          forwardHost := fun hkind => (hplain.targets id row hrow hkind).1
          forwardDomainName := by
            intro hkind
            have hredirect : row.kind = .redirect := hkind
            have htarget := hvalid.kind
            simp only [validateRuntimeKind, hredirect, bind_eq_ok_iff, raiseIf_eq_ok_iff, not_not,
              pure_eq_ok_iff] at htarget
            obtain ⟨_, hdomain, _, -, hsame⟩ := htarget
            have hname : (runtimeHost id row.shown).forwardDomainName = row.redirectTarget := rfl
            rw [hname, ← hsame]
            exact isField_of_isDomain hdomain
          locations := by
            intro l hl
            obtain ⟨stored, hstored, rfl⟩ := hlocations l hl
            obtain ⟨hpath, htarget, -⟩ := hplain.locations id row hrow stored hstored
            exact ⟨hpath, htarget, ((hplain.hosts id row hrow).locations _
              (List.mem_map.mpr ⟨stored, hstored, rfl⟩)).2.2⟩
          advancedConfig := (hplain.hosts id row hrow).advancedConfig }
      paths := by
        have hmap : (runtimeHost id row.shown).locations.map ProxyLocation.path =
            row.locations.map LocationRow.path := by
          show (row.locations.map runtimeLocation).map ProxyLocation.path = _
          rw [List.map_map]
          rfl
        rw [hmap]
        exact hvalid.paths
      slashes := by
        intro l hl
        obtain ⟨stored, hstored, rfl⟩ := hlocations l hl
        exact (slashes_of_validate (hvalid.locations stored hstored)).1
      unchallenged := by
        intro l hl
        obtain ⟨stored, hstored, rfl⟩ := hlocations l hl
        exact (hplain.locations id row hrow stored hstored).2.2.2
      server := fun hkind => (hplain.targets id row hrow hkind).2
      servers := by
        intro l hl
        obtain ⟨stored, hstored, rfl⟩ := hlocations l hl
        exact ⟨(hplain.locations id row hrow stored hstored).2.2.1,
          (slashes_of_validate (hvalid.locations stored hstored)).2⟩ }

/-- The addresses of a policy are words. -/
lemma plain_policyOf (ht : Sound t) (hplain : PlainTexts t) (hfiles : renderTables t = .ok files)
    (host : RuntimeHost) : ∀ l ∈ (policyOf t host).1, l.Plain := by
  obtain ⟨-, lists, -, hread, -⟩ := (renderTables_eq_ok_iff ht).mp hfiles
  have hlists : (accessRuntimeList t.access).toOption.getD [] = lists := by
    rw [hread]
    rfl
  have hnodup : (lists.map AccessList.id).Nodup :=
    nodup_readAccessLists ((readAccessLists_eq t.access).trans hread)
  intro p hp c hc
  rw [policyOf, hlists] at hp
  cases hmerge : effectivePolicy (accessById lists) host with
  | error e =>
    rw [hmerge] at hp
    cases hp
  | ok policy =>
    rw [hmerge] at hp
    obtain rfl : policy = some p := hp
    rw [(merged_of_mergeAccessLists hmerge).clients, mem_orderedClients, List.mem_flatMap] at hc
    obtain ⟨l, hl, hc⟩ := hc
    have hmem := ((mem_selectedLists hnodup).mp (mem_sortedBy.mp hl)).1
    rw [accessRuntimeList, mapM_eq_ok_iff] at hread
    obtain ⟨e, -, hproj⟩ := Numeral.exists_of_mem_right hread hmem
    simp only [runtimeProjection, bind_eq_ok_iff] at hproj
    obtain ⟨credentials, -, clients, hclients, hproj⟩ := hproj
    rw [(AccessList.validate_eq_ok hproj).2.2] at hc
    obtain ⟨r, hr, hvalid⟩ := Numeral.exists_of_mem_right (mapM_eq_ok_iff.mp hclients) hc
    have haddress : c.address = r.address :=
      Except.ok.inj ((AccessClient.validate_eq_ok hvalid).1.symm.trans (ht.access.rules e.1 r hr))
    rw [haddress]
    exact hplain.addresses e.1 r hr

lemma isField_policyOf (host : RuntimeHost) : ∀ file ∈ (policyOf t host).2, IsField file :=
  isField_passwordFile host _

/-- The file of a host answers as the host says. -/
lemma answerOf_hostPath (ht : Sound t) (hplain : PlainTexts t) (hfiles : renderTables t = .ok files)
    (hrow : t.hosts.get? id = some row) {accepts : Bool → List Char → List Char → Bool}
    {request : HttpRequest} :
    ((files.get? (hostPath id row.kind)).bind fun text =>
      answerOf accepts files.get? text request) = some (hostAnswer t accepts request (id, row)) := by
  obtain ⟨streams, lists, -, -, hrender⟩ := (renderTables_eq_ok_iff ht).mp hfiles
  rw [get?_hostPath ht hfiles hrow, Option.bind_some]
  exact answer_serverBlock (included_render hrender) (answering_runtimeHost ht hplain hrow)
    (plain_policyOf ht hplain hfiles _) (isField_policyOf _)

end Hosts

lemma mem_of_claimant {p : HostRow → Bool} {rows : Dict ℕ HostRow} {name : String}
    {e : ℕ × HostRow} (h : claimant p rows name = some e) : rows.get? e.1 = some e.2 := by
  obtain ⟨candidate, -, hfound⟩ := List.exists_of_findSome?_eq_some h
  exact Dict.mem_entries_iff.mp (List.mem_of_find?_eq_some hfound)

lemma generationAnswer_eq {t : RoutingTables} {files : Files} (ht : Sound t)
    (hplain : PlainTexts t) (hfiles : renderTables t = .ok files) {port : ℕ} {name : String}
    {p : HostRow → Bool} (hserved : servedBy port files name =
      (claimant p t.hosts name).map fun e => hostPath e.1 e.2.kind)
    (accepts : Bool → List Char → List Char → Bool) (request : HttpRequest) :
    generationAnswer accepts port files name request =
      (claimant p t.hosts name).map (hostAnswer t accepts request) := by
  rw [generationAnswer, hserved]
  cases hclaimant : claimant p t.hosts name with
  | none => rfl
  | some e => exact answerOf_hostPath ht hplain hfiles (mem_of_claimant hclaimant)

/-- In a generation that is rendered from tables that calls make, every request for a name on port 80
or 443 is answered as the host says that claims the name there: unavailable when it is disabled,
sent to HTTPS when it forces it, a challenge, a blocked path, a redirection, not found, or forwarded
to the server of the longest location under the policy of the host, and assets, when they are
cached, to the server of the host under none. -/
theorem answered_exact {bcryptHash : ℕ → String → String} {t : RoutingTables} {files : Files}
    (h : RoutingReached bcryptHash t) (hplain : PlainTexts t) (hfiles : renderTables t = .ok files)
    {name : String} (hname : name ≠ "_") (accepts : Bool → List Char → List Char → Bool)
    (request : HttpRequest) :
    generationAnswer accepts 80 files name request =
        (claimant (fun _ => true) t.hosts name).map (hostAnswer t accepts request) ∧
      generationAnswer accepts 443 files name request =
        (claimant HostRow.hasCertificate t.hosts name).map (hostAnswer t accepts request) := by
  have hunbroken := hplain.toUnbrokenTexts
  have hplainPort := servedBy_eq h.sound h.domains hunbroken hfiles
    (fun _ _ _ hserves => hserves.2.1) hname
  have htlsPort := servedBy_eq h.sound h.domains hunbroken hfiles (fun _ _ _ => listensOn_443) hname
  exact ⟨generationAnswer_eq h.sound hplain hfiles hplainPort accepts request,
    generationAnswer_eq h.sound hplain hfiles htlsPort accepts request⟩

/-- The tables after the creation of a proxy host that caches assets and has a location. -/
def oneProxyHost : RoutingTables :=
  (applyRoutingOp saltedHash [] {}
    ⟨none, id, .createHost .proxy ⟨1, Nat.one_pos⟩
      { domainNames := .of ["app.example"]
        forwardHost := .of "backend"
        forwardPort := .of 8080
        cachingEnabled := .of true
        locations := .of [
          { path := some "/api"
            forwardHost := some "service"
            forwardPort := some 9000
            forwardPath := some "/v1" }] }⟩).toOption.getD {}

lemma reached_oneProxyHost : RoutingReached saltedHash oneProxyHost :=
  .call [] _ .empty (eq_getD_of_isSome (by decide +kernel))

lemma plain_oneProxyHost : PlainTexts oneProxyHost where
  hosts id row hrow := by
    have hall : ∀ e ∈ oneProxyHost.hosts.entries,
        '\n' ∉ (orNone (e.2.upstream.map UpstreamRow.target)).toList ∧
        (∀ l ∈ e.2.locations, '\n' ∉ l.path.toList ∧
          '\n' ∉ (runtimeLocation l).passTarget.toList ∧ l.advancedConfig = "") ∧
        e.2.advancedConfig = "" := by
      decide +kernel
    obtain ⟨htarget, hlocations, hconfig⟩ := hall (id, row) (Dict.mem_entries_iff.mpr hrow)
    refine ⟨htarget, fun l hl => ?_, hconfig⟩
    obtain ⟨stored, hstored, rfl⟩ := List.mem_map.mp hl
    exact hlocations stored hstored
  rules id r hr := absurd (mem_sortedBy.mp hr) List.not_mem_nil
  targets id row hrow hkind := by
    have hall : ∀ e ∈ oneProxyHost.hosts.entries,
        IsField (orNone (e.2.upstream.map UpstreamRow.target)) ∧
          '/' ∉ (orNone (e.2.upstream.map UpstreamRow.target)).toList := by
      decide +kernel
    exact hall (id, row) (Dict.mem_entries_iff.mpr hrow)
  locations id row hrow := by
    have hall : ∀ e ∈ oneProxyHost.hosts.entries, ∀ l ∈ e.2.locations,
        IsField l.path ∧ IsField (runtimeLocation l).passTarget ∧ '/' ∉ l.target.toList ∧
          l.path.toList ≠ challengePath := by
      decide +kernel
    exact hall (id, row) (Dict.mem_entries_iff.mpr hrow)
  addresses id r hr := absurd (mem_sortedBy.mp hr) List.not_mem_nil

/-- A request for a path. -/
def requestFor (path : List Char) : HttpRequest where
  scheme := "http"
  forwardedProto := ""
  host := "app.example"
  uri := String.ofList ('/' :: path)
  path := '/' :: path
  slash := rfl

/-- The expressions, for paths of style sheets. -/
def acceptsStyles (_ : Bool) (pattern path : List Char) : Bool :=
  pattern = assetPattern.toList && ".css".toList.isSuffixOf path

/-- The location takes its paths, and the host its assets. -/
theorem answered_exact_oneProxyHost : ∃ files, renderTables oneProxyHost = .ok files ∧
    generationAnswer acceptsStyles 80 files "app.example" (requestFor "api/users".toList) =
      some (.handled [] (.passed "http://service:9000" "/v1/users".toList)) ∧
    generationAnswer acceptsStyles 80 files "app.example" (requestFor "api/site.css".toList) =
      some (.handled [] (.passed "http://backend:8080" "/api/site.css".toList)) := by
  have hcompilable : Compilable oneProxyHost :=
    { names := fun id row hrow => absurd (Dict.mem_entries_iff.mpr hrow) List.not_mem_nil
      targets := fun id row hrow => absurd (Dict.mem_entries_iff.mpr hrow) List.not_mem_nil
      passwords := by
        intro id row hrow _
        have hall : ∀ e ∈ oneProxyHost.hosts.entries, e.2.accessListIds = [] := by
          decide +kernel
        rw [hall (id, row) (Dict.mem_entries_iff.mpr hrow)]
        rintro a b c hb
        cases hb }
  obtain ⟨files, hfiles⟩ := (renderTables_ok_iff reached_oneProxyHost.sound).mpr hcompilable
  have hname : "app.example" ≠ "_" := by decide
  have hlocation := (answered_exact reached_oneProxyHost plain_oneProxyHost hfiles hname
    acceptsStyles (requestFor "api/users".toList)).1
  have hasset := (answered_exact reached_oneProxyHost plain_oneProxyHost hfiles hname
    acceptsStyles (requestFor "api/site.css".toList)).1
  refine ⟨files, hfiles, hlocation.trans ?_, hasset.trans ?_⟩
  · rfl
  · rfl

end Portwyrm.Tables

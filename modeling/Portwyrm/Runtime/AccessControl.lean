import Portwyrm.Runtime.NginxHttp

/-!
# Which locations carry the access control

A server block of a proxy host as a list of sections, some of them location blocks.  The
access lines of a host stand in its default location and in each custom location; the asset
location that caching adds forwards to the upstream without them.
-/

namespace Portwyrm.Runtime

open Base

/-! ## Sections -/

/-- A part of a server block. -/
inductive Section
  /-- Directives of the server. -/
  | directives (lines : List String)
  /-- A location block. -/
  | location (lines : List String)

/-- The lines of a section. -/
def Section.lines : Section → List String
  | .directives lines => lines
  | .location lines => lines

/-- The lines of a location block. -/
def Section.location? : Section → Option (List String)
  | .directives _ => none
  | .location lines => some lines

@[simp] lemma location?_directives (lines : List String) :
    (Section.directives lines).location? = none := rfl

@[simp] lemma location?_location (lines : List String) :
    (Section.location lines).location? = some lines := rfl

section ProxySections

variable (platform : PlatformConfig) (host : RuntimeHost) (accessList : Option AccessList)
  (passwordFile : Option String)

/-- The sections of the server block of a proxy host. -/
def proxySections : List Section :=
  [ .directives (serverStart platform host),
    .location acmeChallengeLocation,
    .directives (proxyVariables host ++ hostIncludes host) ] ++
  (if host.cachingEnabled then [.location assetLocation] else []) ++
  (sortedBy textLe ProxyLocation.path host.locations).map (fun location =>
    .location (renderLocation location host accessList passwordFile)) ++
  (if hasDefaultLocation host then
    [.location (renderDefaultProxyLocation host accessList passwordFile)]
  else []) ++
  [.directives ["  include custom/server_proxy.conf;", "\x7d"]]

lemma proxyLines_eq_sections :
    proxyLines platform host accessList passwordFile =
      (proxySections platform host accessList passwordFile).flatMap Section.lines := by
  unfold proxyLines proxySections
  cases host.cachingEnabled <;> cases hasDefaultLocation host <;>
    simp [Section.lines, List.flatMap_map, List.append_assoc]

/-- `render_proxy` of an enabled host writes its sections, line by line. -/
theorem renderProxy_eq_sections (h : host.enabled = true) :
    renderProxy platform host accessList passwordFile =
      Text.joinLines ((proxySections platform host accessList passwordFile).flatMap
        Section.lines) ++ "\n" := by
  rw [renderProxy, if_neg (by simp [h]), proxyLines_eq_sections]

/-- The location blocks that `render_proxy` writes; a disabled host has none. -/
def locationBlocks : List (List String) :=
  if host.enabled = false then []
  else (proxySections platform host accessList passwordFile).filterMap Section.location?

end ProxySections

/-- The block forwards to the upstream: it has a `proxy_pass` or includes the shared one. -/
def ForwardsUpstream (block : List String) : Prop :=
  ∃ line ∈ block, Text.Contains line "proxy_pass" ∨
    Text.Contains line "include conf.d/include/proxy.conf;"

/-- The block has a line, indented. -/
def ContainsLine (block : List String) (line : String) : Prop :=
  ∃ k, blanks k ++ line ∈ block

/-- Every location block that forwards to the upstream has all access lines. -/
def AccessCovered (platform : PlatformConfig) (host : RuntimeHost) (accessList : AccessList)
    (passwordFile : Option String) : Prop :=
  ∀ block ∈ locationBlocks platform host (some accessList) passwordFile, ForwardsUpstream block →
    ∀ line ∈ accessLines (some accessList) passwordFile, ContainsLine block line

/-! ## The fragments -/

variable {platform : PlatformConfig} {host : RuntimeHost} {accessList : AccessList}
  {passwordFile : Option String} {location : ProxyLocation} {line : String}

lemma locationBlocks_eq (h : host.enabled = true) :
    locationBlocks platform host (some accessList) passwordFile =
      acmeChallengeLocation :: ((if host.cachingEnabled then [assetLocation] else []) ++
        ((sortedBy textLe ProxyLocation.path host.locations).map fun location =>
          renderLocation location host (some accessList) passwordFile) ++
        (if hasDefaultLocation host then
          [renderDefaultProxyLocation host (some accessList) passwordFile]
        else [])) := by
  rw [locationBlocks, if_neg (by simp [h]), proxySections]
  simp only [List.filterMap_append]
  cases host.cachingEnabled <;> cases hasDefaultLocation host <;>
    simp [List.filterMap_cons, List.filterMap_map, Function.comp_def]

/-- The location blocks of a server block, by the fragment that writes them. -/
lemma mem_locationBlocks (h : host.enabled = true) {block : List String} :
    block ∈ locationBlocks platform host (some accessList) passwordFile ↔
      block = acmeChallengeLocation ∨
      (host.cachingEnabled = true ∧ block = assetLocation) ∨
      (∃ location ∈ host.locations,
        block = renderLocation location host (some accessList) passwordFile) ∨
      (hasDefaultLocation host = true ∧
        block = renderDefaultProxyLocation host (some accessList) passwordFile) := by
  rw [locationBlocks_eq h]
  cases host.cachingEnabled <;> cases hasDefaultLocation host <;>
    simp [eq_comm (b := block)]

/-- The challenge location forwards nothing: it has no `x`. -/
lemma not_forwardsUpstream_acme : ¬ ForwardsUpstream acmeChallengeLocation := by
  have hall : (acmeChallengeLocation.all fun line => 'x' ∉ line.toList) = true := by decide
  rintro ⟨line, hline, h⟩
  have hx : 'x' ∉ line.toList := by simpa using List.all_eq_true.mp hall line hline
  rcases h with h | h
  · exact hx (h.subset (by decide))
  · exact hx (h.subset (by decide))

lemma containsLine_default (h : line ∈ accessLines (some accessList) passwordFile) :
    ContainsLine (renderDefaultProxyLocation host (some accessList) passwordFile) line := by
  refine ⟨4, ?_⟩
  have hmem : s!"    {line}" ∈
      (accessLines (some accessList) passwordFile).map fun line => s!"    {line}" :=
    List.mem_map.mpr ⟨line, h, rfl⟩
  unfold renderDefaultProxyLocation
  exact List.mem_append_left _ (List.mem_append_left _ (List.mem_append_right _ hmem))

lemma containsLine_location (h : line ∈ accessLines (some accessList) passwordFile) :
    ContainsLine (renderLocation location host (some accessList) passwordFile) line := by
  refine ⟨4, ?_⟩
  have hmem : s!"    {line}" ∈
      (accessLines (some accessList) passwordFile).map fun line => s!"    {line}" :=
    List.mem_map.mpr ⟨line, h, rfl⟩
  unfold renderLocation
  exact List.mem_append_left _ (List.mem_append_left _ (List.mem_append_right _ hmem))

/-! ## The asset location -/

/-- The first character of a line behind its blanks. -/
def lead (line : String) : Option Char := (line.toList.dropWhile (· = ' ')).head?

lemma lead_blanks (k : ℕ) (line : String) : lead (blanks k ++ line) = lead line := by
  have hblank : ∀ c ∈ List.replicate k ' ', decide (c = ' ') = true := by
    intro c hc
    simpa using List.eq_of_mem_replicate hc
  rw [lead, lead, blanks, String.toList_append, String.toList_ofList,
    List.dropWhile_append_of_pos hblank]

/-- A line with its characters spelled out. -/
lemma plainLine_ofList {l : List Char} (h : l ≠ [] ∧ (∀ c ∈ l, Text.isLineBreak c = false) ∧
    (l.dropWhile (· = ' ')).head? ≠ some 's') :
    String.ofList l ≠ "" ∧ (∀ c ∈ (String.ofList l).toList, Text.isLineBreak c = false) ∧
      lead (String.ofList l) ≠ some 's' := by
  obtain ⟨hne, hbreak, hlead⟩ := h
  rw [lead, String.toList_ofList]
  exact ⟨by simpa using hne, hbreak, hlead⟩

/-- The asset lines are single lines, and none of them starts with an `s`. -/
lemma assetCacheLines_spec : ∀ line ∈ assetCacheLines, line ≠ "" ∧
    (∀ c ∈ line.toList, Text.isLineBreak c = false) ∧ lead line ≠ some 's' := by
  unfold assetCacheLines
  repeat
    refine List.forall_mem_cons.mpr ⟨plainLine_ofList (by decide), ?_⟩
  exact List.forall_mem_nil _

lemma mem_assetLocation {line : String} :
    line ∈ assetLocation ↔ ∃ source ∈ assetCacheLines, line = blanks 2 ++ source := by
  rw [assetLocation, List.mem_map]
  constructor
  · rintro ⟨source, hsource, rfl⟩
    obtain ⟨hne, hbreak, -⟩ := assetCacheLines_spec source hsource
    exact ⟨source, hsource, indented_line hne hbreak 2⟩
  · rintro ⟨source, hsource, rfl⟩
    obtain ⟨hne, hbreak, -⟩ := assetCacheLines_spec source hsource
    exact ⟨source, hsource, indented_line hne hbreak 2⟩

/-- The asset location includes the shared `proxy_pass`. -/
lemma forwardsUpstream_asset : ForwardsUpstream assetLocation := by
  have hindent : "  include conf.d/include/proxy.conf;" =
      "  " ++ "include conf.d/include/proxy.conf;" := by decide
  refine ⟨blanks 2 ++ "  include conf.d/include/proxy.conf;", ?_, .inr ?_⟩
  · exact mem_assetLocation.mpr ⟨_, by simp [assetCacheLines], rfl⟩
  · rw [hindent]
    exact ⟨(blanks 2).toList ++ "  ".toList, [], by simp only [String.toList_append,
      List.append_nil, List.append_assoc]⟩

/-- The `satisfy` line is not among the lines of the asset location. -/
lemma not_containsLine_asset {line : String} (h : lead line = some 's') :
    ¬ ContainsLine assetLocation line := by
  rintro ⟨k, hk⟩
  obtain ⟨source, hsource, heq⟩ := mem_assetLocation.mp hk
  refine (assetCacheLines_spec source hsource).2.2 ?_
  rw [← lead_blanks 2 source, ← heq, lead_blanks, h]

/-- A policy with a credential or a rule ends with a `satisfy` line. -/
lemma exists_satisfy_line (h : accessList.credentials ≠ [] ∨ accessList.clients ≠ []) :
    ∃ line ∈ accessLines (some accessList) passwordFile, lead line = some 's' := by
  refine ⟨if accessList.satisfyAny then "satisfy any;" else "satisfy all;", ?_, ?_⟩
  · simp only [accessLines, if_pos h]
    exact List.mem_append_right _ (by simp)
  · cases accessList.satisfyAny <;> decide

/-! ## Coverage -/

/-- With caching, the asset location lacks the access lines. -/
lemma not_accessCovered_of_caching (henabled : host.enabled = true)
    (hcaching : host.cachingEnabled = true)
    (hpolicy : accessList.credentials ≠ [] ∨ accessList.clients ≠ []) :
    ¬ AccessCovered platform host accessList passwordFile := by
  intro hcovered
  have hasset : assetLocation ∈ locationBlocks platform host (some accessList) passwordFile :=
    (mem_locationBlocks henabled).mpr (.inr (.inl ⟨hcaching, rfl⟩))
  obtain ⟨line, hline, hlead⟩ := exists_satisfy_line hpolicy
  exact not_containsLine_asset hlead (hcovered _ hasset forwardsUpstream_asset line hline)

/-- Every location of an enabled host that forwards to the upstream has the access lines
exactly when the host does not cache. -/
theorem accessCovered_iff (henabled : host.enabled = true)
    (hpolicy : accessList.credentials ≠ [] ∨ accessList.clients ≠ []) :
    AccessCovered platform host accessList passwordFile ↔ host.cachingEnabled = false := by
  constructor
  · intro hcovered
    by_contra hcaching
    exact not_accessCovered_of_caching henabled (by simpa using hcaching) hpolicy hcovered
  · intro hcaching block hblock hforwards line hline
    rcases (mem_locationBlocks henabled).mp hblock with
      rfl | ⟨h, -⟩ | ⟨location, -, rfl⟩ | ⟨-, rfl⟩
    · exact absurd hforwards not_forwardsUpstream_acme
    · exact absurd (hcaching.symm.trans h) (by simp)
    · exact containsLine_location hline
    · exact containsLine_default hline

/-- A rule that admits one network. -/
def officeRule : AccessClient := ⟨"10.0.0.0/8", .allow, normalizeAddress_ten⟩

/-- An access list with that rule. -/
def officeList : AccessList :=
  ⟨1, "office", [], [officeRule], false, false, Nat.one_pos, strip_office⟩

/-- A proxy host that caches and selects the list. -/
def cachingHost : RuntimeHost where
  id := 1
  kind := .proxy
  domainNames := ["app.example.test"]
  forwardHost := some "app"
  forwardPort := some 8080
  accessListId := 1
  cachingEnabled := true

/-- The assets of a caching host are served to every client. -/
theorem cachingHost_not_covered : ¬ AccessCovered {} cachingHost officeList none :=
  not_accessCovered_of_caching rfl rfl (.inr (by simp [officeList]))

/-- The same host without caching is covered. -/
theorem accessCovered_iff_uncached :
    AccessCovered {} { cachingHost with cachingEnabled := false } officeList none ↔
      false = false :=
  accessCovered_iff rfl (.inr (by simp [officeList]))

end Portwyrm.Runtime

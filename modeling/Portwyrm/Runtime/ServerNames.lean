import Portwyrm.Base.Frames
import Portwyrm.Base.Splitting
import Portwyrm.Runtime.BlockStructure

/-!
# The names of server blocks

What Nginx reads of the file of a host before it chooses a server block for a request: the ports
that it listens on and its server names.  The directives are read back from the text, a line each,
and are those of the host as long as no other text of the host starts a line.
-/

namespace Portwyrm.Runtime

open Base Base.Tokens

/-! ## Directives in lines -/

/-- The arguments of a directive, in a line that starts with it. -/
def lineArguments (word line : List Char) : Option (List (List Char)) :=
  let body := line.dropWhile (· = ' ')
  if word ++ [' '] <+: body then
    some (((body.drop (word.length + 1)).takeWhile (· ≠ ';')).splitOn ' ')
  else none

/-- The arguments of all directives of one name in a text. -/
def directives (word : String) (text : String) : List (List String) :=
  ((text.toList.splitOn '\n').filterMap (lineArguments word.toList)).map
    fun arguments => arguments.map String.ofList

/-- The names under which Nginx serves a file. -/
def serverNames (text : String) : List String := (directives "server_name" text).flatten

/-- The arguments of `listen` name a port of all addresses. -/
def namesPort (port : ℕ) (arguments : List String) : Bool :=
  arguments.head? = some (toString port) || arguments.head? = some s!"[::]:{port}"

/-- Nginx listens on a port for a file. -/
def listensOn (port : ℕ) (text : String) : Bool := (directives "listen" text).any (namesPort port)

section Lines

variable {word : String} {line start rest : String} {lines : List String}

/-- The directives of a text are those of its lines. -/
lemma directives_text (hlines : ∀ line ∈ lines, '\n' ∉ line.toList) (hne : lines ≠ []) :
    directives word (Text.joinLines lines ++ "\n") =
      (lines.filterMap fun line => lineArguments word.toList line.toList).map
        fun arguments => arguments.map String.ofList := by
  have hsplit : (Text.joinLines lines ++ "\n").toList.splitOn '\n' =
      lines.map String.toList ++ [[]] := by
    have hframed : text lines = Frames.framed '\n' (lines.map String.toList) := by
      rw [text, Frames.framed, List.flatMap_map]
    rw [toList_joinLines hne, hframed, Frames.splitOn_framed, Frames.pieces_of_not_mem]
    simpa using hlines
  have hlast : lineArguments word.toList [] = none := by
    have hnot : ¬ word.toList ++ [' '] <+: [] := by simp
    exact if_neg hnot
  rw [directives, hsplit, List.filterMap_append, List.filterMap_map]
  simp only [List.filterMap_cons, hlast, List.filterMap_nil, List.append_nil]
  rfl

/-- A start of lines that tells them from a directive. -/
def Other (word start : String) : Prop :=
  let body := start.toList.dropWhile (· = ' ')
  ¬ word.toList ++ [' '] <+: body ∧ ¬ body <+: word.toList ++ [' ']

instance (word start : String) : Decidable (Other word start) :=
  inferInstanceAs (Decidable (_ ∧ _))

lemma Other.append (h : Other word start) (rest : String) : Other word (start ++ rest) := by
  obtain ⟨hword, hbody⟩ := h
  have hne : start.toList.dropWhile (· = ' ') ≠ [] := by
    intro hnil
    rw [hnil] at hbody
    exact hbody List.nil_prefix
  have hdrop : (start ++ rest).toList.dropWhile (· = ' ') =
      start.toList.dropWhile (· = ' ') ++ rest.toList := by
    rw [String.toList_append, List.dropWhile_append, if_neg (by simpa using hne)]
  rw [Other, hdrop]
  refine ⟨fun hprefix => ?_, fun hprefix => hbody ((List.prefix_append _ _).trans hprefix)⟩
  rcases List.prefix_or_prefix_of_prefix hprefix (List.prefix_append _ _) with h | h
  · exact hword h
  · exact hbody h

/-- A line, or the start of one, that holds neither a name nor a port. -/
def Quiet (line : String) : Prop :=
  '\n' ∉ line.toList ∧ Other "server_name" line ∧ Other "listen" line

instance (line : String) : Decidable (Quiet line) :=
  inferInstanceAs (Decidable (_ ∧ _))

lemma newline_not_mem_append {a b : String} (ha : '\n' ∉ a.toList) (hb : '\n' ∉ b.toList) :
    '\n' ∉ (a ++ b).toList := by
  rw [String.toList_append, List.mem_append]
  exact fun h => h.elim ha hb

lemma Quiet.append (h : Quiet start) (hrest : '\n' ∉ rest.toList) : Quiet (start ++ rest) :=
  ⟨newline_not_mem_append h.1 hrest, h.2.1.append rest, h.2.2.append rest⟩

/-- Blanks before a line. -/
lemma Quiet.pad (h : Quiet line) {pad : String} (hpad : ∀ c ∈ pad.toList, c = ' ') :
    Quiet (pad ++ line) := by
  have hdrop : (pad ++ line).toList.dropWhile (· = ' ') = line.toList.dropWhile (· = ' ') := by
    have hnone : pad.toList.dropWhile (· = ' ') = [] :=
      List.dropWhile_eq_nil_iff.mpr fun c hc => decide_eq_true (hpad c hc)
    rw [String.toList_append, List.dropWhile_append, hnone, List.isEmpty_nil, if_pos rfl]
  have hbreak : '\n' ∉ pad.toList := fun hmem => absurd (hpad _ hmem) (by decide)
  refine ⟨newline_not_mem_append hbreak h.1, ?_, ?_⟩
  · rw [Other, hdrop]
    exact h.2.1
  · rw [Other, hdrop]
    exact h.2.2

end Lines

/-! ## The lines of a host -/

section Hosts

variable {platform : PlatformConfig} {host : RuntimeHost} {accessList : Option AccessList}
  {passwordFile : Option String}

/-- The texts of a proxy host end none of the lines that they are written into, and no raw
configuration is given. -/
structure RuntimeHost.Unbroken (host : RuntimeHost) : Prop where
  target : '\n' ∉ (orNone host.forwardHost).toList
  locations : ∀ l ∈ host.locations,
    '\n' ∉ l.path.toList ∧ '\n' ∉ l.passTarget.toList ∧ l.advancedConfig = ""
  advancedConfig : host.advancedConfig = ""

/-- The texts of a policy end none of its lines. -/
def AccessList.Unbroken (l : AccessList) : Prop := ∀ c ∈ l.clients, '\n' ∉ c.address.toList

lemma newline_not_mem_toString (n : ℕ) : '\n' ∉ (toString n).toList := by
  exact fun h => ne_newline_of_isPlain ((isField_toString n).2 _ h) rfl

lemma quiet_sslLines (ssl : SSLSettings) : ∀ line ∈ sslLines ssl, Quiet line := by
  intro line hline
  unfold sslLines at hline
  split at hline
  · exact absurd hline List.not_mem_nil
  · have hdir : '\n' ∉ (s!"/etc/letsencrypt/live/npm-{ssl.certificateId}").toList :=
      newline_not_mem_append (by decide) (newline_not_mem_toString _)
    simp only [List.mem_append, List.mem_cons, List.not_mem_nil, or_false] at hline
    rcases hline with (rfl | rfl | rfl) | hline
    · exact Quiet.append (Quiet.append (by decide) hdir) (by decide)
    · exact Quiet.append (Quiet.append (by decide) hdir) (by decide)
    · decide
    · split at hline
      · rw [List.mem_singleton.mp hline]
        refine Quiet.append (Quiet.append (by decide) ?_) (by decide)
        split <;> decide
      · exact absurd hline List.not_mem_nil

lemma quiet_forceSslLines (ssl : SSLSettings) : ∀ line ∈ forceSslLines ssl, Quiet line := by
  intro line hline
  unfold forceSslLines at hline
  split at hline
  · exact absurd hline List.not_mem_nil
  · simp only [List.mem_cons, List.not_mem_nil, or_false] at hline
    rcases hline with rfl | rfl | rfl
    · refine Quiet.append (Quiet.append (by decide) ?_) (by decide)
      split <;> decide
    · decide
    · decide

lemma quiet_hostIncludes (h : host.advancedConfig = "") :
    ∀ line ∈ hostIncludes host, Quiet line := by
  intro line hline
  simp only [hostIncludes, h, ne_eq, not_true_eq_false, if_false, List.append_nil] at hline
  split at hline
  · rw [List.mem_singleton.mp hline]
    decide
  · exact absurd hline List.not_mem_nil

lemma quiet_proxyVariables (h : host.Unbroken) : ∀ line ∈ proxyVariables host, Quiet line := by
  intro line hline
  simp only [proxyVariables, List.mem_cons, List.not_mem_nil, or_false] at hline
  have hport : '\n' ∉ (orNone (host.forwardPort.map toString)).toList := by
    cases host.forwardPort with
    | none => decide
    | some port => exact newline_not_mem_toString port
  rcases hline with rfl | rfl | rfl | rfl | rfl
  · refine Quiet.append (Quiet.append (by decide) ?_) (by decide)
    cases host.forwardScheme <;> decide
  · exact Quiet.append (Quiet.append (by decide) h.target) (by decide)
  · exact Quiet.append (Quiet.append (by decide) hport) (by decide)
  · exact Quiet.append (Quiet.append (by decide) (newline_not_mem_toString _)) (by decide)
  · exact Quiet.append (Quiet.append (by decide) (newline_not_mem_toString _)) (by decide)

/-- The lines of a policy. -/
lemma quiet_accessLines (hpolicy : ∀ l ∈ accessList, l.Unbroken)
    (hfile : ∀ file ∈ passwordFile, '\n' ∉ file.toList) :
    ∀ line ∈ accessLines accessList passwordFile, Quiet line := by
  intro line hline
  cases accessList with
  | none => exact absurd hline List.not_mem_nil
  | some l =>
    have huser : '\n' ∉ (userFile l passwordFile).toList := by
      unfold userFile
      cases hgiven : passwordFile.filter (· ≠ "") with
      | none => exact newline_not_mem_toString l.id
      | some file => exact hfile file (Option.filter_eq_some_iff.mp hgiven).1
    simp only [accessLines, List.mem_append] at hline
    rcases hline with (hline | hline) | hline
    · split at hline
      · rcases List.mem_append.mp hline with hline | hline
        · simp only [List.mem_cons, List.not_mem_nil, or_false] at hline
          rcases hline with rfl | rfl
          · decide
          · exact Quiet.append (Quiet.append (by decide) huser) (by decide)
        · split at hline
          · rw [List.mem_singleton.mp hline]
            decide
          · exact absurd hline List.not_mem_nil
      · exact absurd hline List.not_mem_nil
    · split at hline
      · rcases List.mem_append.mp hline with hline | hline
        · obtain ⟨c, hc, rfl⟩ := List.mem_map.mp hline
          refine Quiet.append (Quiet.append ?_ (hpolicy l rfl c hc)) (by decide)
          cases c.directive <;> decide
        · rw [List.mem_singleton.mp hline]
          decide
      · exact absurd hline List.not_mem_nil
    · split at hline
      · rw [List.mem_singleton.mp hline]
        split <;> decide
      · exact absurd hline List.not_mem_nil

lemma quiet_websocketLines (host : RuntimeHost) : ∀ line ∈ websocketLines host, Quiet line := by
  intro line hline
  unfold websocketLines at hline
  split at hline
  · have hall : ∀ line ∈ [ "    proxy_set_header Upgrade $http_upgrade;",
      "    proxy_set_header Connection $http_connection;", "    proxy_http_version 1.1;" ],
        Quiet line := by
      decide
    exact hall line hline
  · exact absurd hline List.not_mem_nil

lemma quiet_renderDefaultProxyLocation (hpolicy : ∀ l ∈ accessList, l.Unbroken)
    (hfile : ∀ file ∈ passwordFile, '\n' ∉ file.toList) :
    ∀ line ∈ renderDefaultProxyLocation host accessList passwordFile, Quiet line := by
  intro line hline
  simp only [renderDefaultProxyLocation, List.mem_append, List.mem_map] at hline
  rcases hline with ((hline | ⟨body, hbody, rfl⟩) | hline) | hline
  · rw [List.mem_singleton.mp hline]
    decide
  · exact (quiet_accessLines hpolicy hfile body hbody).pad (by decide)
  · exact quiet_websocketLines host line hline
  · have hall : ∀ line ∈ ["    include conf.d/include/proxy.conf;", "  \x7d"], Quiet line := by
      decide
    exact hall line hline

lemma quiet_renderLocation (h : host.Unbroken) {location : ProxyLocation}
    (hlocation : location ∈ host.locations) (hpolicy : ∀ l ∈ accessList, l.Unbroken)
    (hfile : ∀ file ∈ passwordFile, '\n' ∉ file.toList) :
    ∀ line ∈ renderLocation location host accessList passwordFile, Quiet line := by
  obtain ⟨hpath, htarget, hconfig⟩ := h.locations location hlocation
  intro line hline
  simp only [renderLocation, hconfig, ne_eq, not_true_eq_false, if_false, List.append_nil,
    List.mem_append, List.mem_cons, List.not_mem_nil, or_false, List.mem_map] at hline
  rcases hline with ((((rfl | hline) | ⟨body, hbody, rfl⟩) | hline) | rfl)
  · exact Quiet.append (Quiet.append (by decide) hpath) (by decide)
  · rcases hline with rfl | rfl | rfl | rfl | rfl | rfl
    · decide
    · decide
    · decide
    · decide
    · decide
    · refine Quiet.append (Quiet.append (Quiet.append (Quiet.append (by decide) ?_) (by decide))
        htarget) (by decide)
      cases location.forwardScheme <;> decide
  · exact (quiet_accessLines hpolicy hfile body hbody).pad (by decide)
  · exact quiet_websocketLines host line hline
  · decide

/-! ### The ports and the names -/

/-- The lines of the ports of a host. -/
def portLines (ssl : SSLSettings) (ipv6 : Bool) : List String :=
  let http2 := if ssl.http2 then " http2" else ""
  ["  listen 80;"] ++ (if ipv6 then ["  listen [::]:80;"] else []) ++
  (if ssl.certificateId ≠ 0 then
    [s!"  listen 443 ssl{http2};"] ++
    (if ipv6 then [s!"  listen [::]:443 ssl{http2};"] else [])
  else [])

/-- The line of the names of a host. -/
def namesLine (domainNames : List String) : String :=
  "  server_name " ++ " ".intercalate domainNames ++ ";"

/-- What the lines of the ports say, over all settings. -/
lemma portLines_spec (ssl : SSLSettings) (ipv6 : Bool) :
    (∀ line ∈ portLines ssl ipv6, '\n' ∉ line.toList ∧ Other "server_name" line) ∧
    let given := ((portLines ssl ipv6).filterMap fun line =>
      lineArguments "listen".toList line.toList).map fun arguments => arguments.map String.ofList
    given.any (namesPort 80) = true ∧
      given.any (namesPort 443) = decide (ssl.certificateId ≠ 0) := by
  unfold portLines
  by_cases h : ssl.certificateId = 0
  · simp only [h, ne_eq, not_true_eq_false, if_false, List.append_nil]
    cases ipv6 <;> decide
  · simp only [h, ne_eq, not_false_eq_true, if_true]
    cases ipv6 <;> cases ssl.http2 <;> decide

lemma lineArguments_of_other (h : Other word line) :
    lineArguments word.toList line.toList = none :=
  if_neg h.1

/-- The names of a host are read back. -/
lemma lineArguments_namesLine {names : List String} (hne : names ≠ [])
    (h : ∀ name ∈ names, IsField name) :
    lineArguments "server_name".toList (namesLine names).toList = some (names.map String.toList) := by
  have hlist : (namesLine names).toList =
      "  server_name ".toList ++ ([' '].intercalate (names.map String.toList) ++ [';']) := by
    rw [namesLine, String.toList_append, String.toList_append, String.toList_intercalate,
      List.append_assoc]
    rfl
  have hdrop : (namesLine names).toList.dropWhile (· = ' ') =
      "server_name ".toList ++ ([' '].intercalate (names.map String.toList) ++ [';']) := by
    rw [hlist]
    rfl
  have hplain : ∀ c ∈ [' '].intercalate (names.map String.toList), c ≠ ';' := by
    intro c hc
    rcases Text.mem_intercalate hc with hsep | ⟨piece, hpiece, hmem⟩
    · rw [List.mem_singleton.mp hsep]
      decide
    · obtain ⟨name, hname, rfl⟩ := List.mem_map.mp hpiece
      rintro rfl
      exact absurd ((h name hname).2 ';' hmem) (by decide)
  have hblank : ∀ piece ∈ names.map String.toList, ' ' ∉ piece := by
    intro piece hpiece hmem
    obtain ⟨name, hname, rfl⟩ := List.mem_map.mp hpiece
    exact absurd ((h name hname).2 ' ' hmem) (by decide)
  have htake : ([' '].intercalate (names.map String.toList) ++ [';']).takeWhile (· ≠ ';') =
      [' '].intercalate (names.map String.toList) := by
    rw [List.takeWhile_append_of_pos fun c hc => decide_eq_true (hplain c hc)]
    simp
  have hprefix : "server_name".toList ++ [' '] <+: (namesLine names).toList.dropWhile (· = ' ') := by
    rw [hdrop]
    exact ⟨_, rfl⟩
  have hrest : ("server_name ".toList ++ ([' '].intercalate (names.map String.toList) ++
      [';'])).drop ("server_name".toList.length + 1) =
      [' '].intercalate (names.map String.toList) ++ [';'] := rfl
  rw [lineArguments, if_pos hprefix, hdrop, hrest, htake,
    List.splitOn_intercalate ' ' hblank (by simpa using hne)]

/-- The names and ports of a file whose other lines are quiet. -/
lemma names_of_lines {before behind : List String} {names : List String} {ssl : SSLSettings}
    {ipv6 : Bool} (hbefore : ∀ line ∈ before, Quiet line) (hbehind : ∀ line ∈ behind, Quiet line)
    (hne : names ≠ []) (hnames : ∀ name ∈ names, IsField name) :
    let text := Text.joinLines (before ++ listen names ssl ipv6 ++ behind) ++ "\n"
    serverNames text = names ∧ listensOn 80 text = true ∧
      listensOn 443 text = decide (ssl.certificateId ≠ 0) := by
  obtain ⟨hports, hgiven⟩ := portLines_spec ssl ipv6
  have hlisten : listen names ssl ipv6 = portLines ssl ipv6 ++ [namesLine names] := rfl
  have hother : Other "listen" (namesLine names) := by
    show Other "listen" ("  server_name " ++ " ".intercalate names ++ ";")
    rw [String.append_assoc]
    exact Other.append (by decide) _
  have hunbroken : '\n' ∉ (namesLine names).toList := by
    refine newline_not_mem_append (newline_not_mem_append (by decide) ?_) (by decide)
    rw [String.toList_intercalate]
    intro hmem
    rcases Text.mem_intercalate hmem with hsep | ⟨piece, hpiece, hin⟩
    · exact absurd hsep (by decide)
    · obtain ⟨name, hname, rfl⟩ := List.mem_map.mp hpiece
      exact ne_newline_of_isPlain ((hnames name hname).2 _ hin) rfl
  have hquiet : ∀ lines : List String, (∀ line ∈ lines, Quiet line) →
      lines.filterMap (fun line => lineArguments "server_name".toList line.toList) = [] ∧
      lines.filterMap (fun line => lineArguments "listen".toList line.toList) = [] := by
    intro lines hlines
    constructor
    · exact List.filterMap_eq_nil_iff.mpr fun line hl => lineArguments_of_other (hlines line hl).2.1
    · exact List.filterMap_eq_nil_iff.mpr fun line hl => lineArguments_of_other (hlines line hl).2.2
  have hall : ∀ line ∈ before ++ listen names ssl ipv6 ++ behind, '\n' ∉ line.toList := by
    intro line hline
    rw [hlisten] at hline
    simp only [List.mem_append, List.mem_singleton] at hline
    rcases hline with (hline | hline | rfl) | hline
    · exact (hbefore line hline).1
    · exact (hports line hline).1
    · exact hunbroken
    · exact (hbehind line hline).1
  have hnone : (portLines ssl ipv6).filterMap
      (fun line => lineArguments "server_name".toList line.toList) = [] :=
    List.filterMap_eq_nil_iff.mpr fun line hl => lineArguments_of_other (hports line hl).2
  have hlines : before ++ listen names ssl ipv6 ++ behind ≠ [] := by
    rw [hlisten]
    simp
  have hback : (names.map String.toList).map String.ofList = names := by
    rw [List.map_map]
    exact (List.map_congr_left fun name _ => String.ofList_toList).trans (List.map_id names)
  refine ⟨?_, ?_, ?_⟩
  · rw [serverNames, directives_text hall hlines, hlisten]
    simp only [List.filterMap_append, (hquiet before hbefore).1, (hquiet behind hbehind).1, hnone,
      List.filterMap_cons, lineArguments_namesLine hne hnames, List.filterMap_nil, List.nil_append,
      List.append_nil, List.map_cons, List.map_nil, hback, List.flatten_cons, List.flatten_nil]
  · rw [listensOn, directives_text hall hlines, hlisten]
    simp only [List.filterMap_append, (hquiet before hbefore).2, (hquiet behind hbehind).2,
      List.filterMap_cons, lineArguments_of_other hother, List.filterMap_nil, List.nil_append,
      List.append_nil]
    exact hgiven.1
  · rw [listensOn, directives_text hall hlines, hlisten]
    simp only [List.filterMap_append, (hquiet before hbefore).2, (hquiet behind hbehind).2,
      List.filterMap_cons, lineArguments_of_other hother, List.filterMap_nil, List.nil_append,
      List.append_nil]
    exact hgiven.2

/-! ### Files -/

/-- What Nginx reads of the file of a host: its names, and port 443 besides port 80 when it has a
certificate. -/
def Serves (host : RuntimeHost) (text : String) : Prop :=
  serverNames text = host.domainNames ∧ listensOn 80 text = true ∧
    listensOn 443 text = decide (host.ssl.certificateId ≠ 0)

lemma certificateId_normalized (ssl : SSLSettings) :
    ssl.normalized.certificateId = ssl.certificateId := by
  unfold SSLSettings.normalized
  split
  · rename_i h
    exact h.symm
  · rfl

/-- A file with quiet lines behind the names of a host. -/
lemma serves_lines {behind : List String} (hne : host.domainNames ≠ [])
    (hnames : ∀ name ∈ host.domainNames, IsField name) (hbehind : ∀ line ∈ behind, Quiet line) :
    Serves host (Text.joinLines (["server \x7b"] ++
      listen host.domainNames host.ssl.normalized platform.ipv6 ++ behind) ++ "\n") := by
  have hbefore : ∀ line ∈ ["server \x7b"], Quiet line := by decide
  refine ⟨(names_of_lines hbefore hbehind hne hnames).1,
    (names_of_lines hbefore hbehind hne hnames).2.1, ?_⟩
  rw [(names_of_lines hbefore hbehind hne hnames).2.2, certificateId_normalized]

lemma serves_renderDisabledHost (hne : host.domainNames ≠ [])
    (hnames : ∀ name ∈ host.domainNames, IsField name) {family : String}
    (hfamily : '\n' ∉ family.toList) :
    Serves host (renderDisabledHost platform host family) := by
  have hbehind : ∀ line ∈ sslLines host.ssl.normalized ++
      [ s!"  access_log /data/logs/{family}-{host.id}_access.log proxy;",
        s!"  error_log /data/logs/{family}-{host.id}_error.log warn;",
        "  return 503;", "\x7d" ], Quiet line := by
    intro line hline
    rcases List.mem_append.mp hline with hline | hline
    · exact quiet_sslLines _ line hline
    · simp only [List.mem_cons, List.not_mem_nil, or_false] at hline
      rcases hline with rfl | rfl | rfl | rfl
      · exact Quiet.append (Quiet.append (Quiet.append (Quiet.append (by decide) hfamily)
          (by decide)) (newline_not_mem_toString _)) (by decide)
      · exact Quiet.append (Quiet.append (Quiet.append (Quiet.append (by decide) hfamily)
          (by decide)) (newline_not_mem_toString _)) (by decide)
      · decide
      · decide
  have hserves : Serves host (Text.joinLines (["server \x7b"] ++
      listen host.domainNames host.ssl.normalized platform.ipv6 ++ _) ++ "\n") :=
    serves_lines hne hnames hbehind
  rwa [← List.append_assoc] at hserves

/-- A file of an enabled host, whose lines behind the start are quiet. -/
lemma serves_serverStart {behind : List String} (hne : host.domainNames ≠ [])
    (hnames : ∀ name ∈ host.domainNames, IsField name) (hbehind : ∀ line ∈ behind, Quiet line) :
    Serves host (Text.joinLines (serverStart platform host ++ behind) ++ "\n") := by
  have hrest : ∀ line ∈ sslLines host.ssl.normalized ++ forceSslLines host.ssl.normalized ++ behind,
      Quiet line := by
    intro line hline
    rcases List.mem_append.mp hline with hline | hline
    · rcases List.mem_append.mp hline with hline | hline
      · exact quiet_sslLines _ line hline
      · exact quiet_forceSslLines _ line hline
    · exact hbehind line hline
  have hserves : Serves host (Text.joinLines (["server \x7b"] ++
      listen host.domainNames host.ssl.normalized platform.ipv6 ++ _) ++ "\n") :=
    serves_lines hne hnames hrest
  rwa [← List.append_assoc, ← List.append_assoc] at hserves

lemma quiet_acmeChallengeLocation : ∀ line ∈ acmeChallengeLocation, Quiet line := by
  decide +kernel

lemma quiet_assetLocation : ∀ line ∈ assetLocation, Quiet line := by
  have hall : ∀ line ∈ assetCacheLines, Quiet line ∧ line ≠ "" ∧
      ∀ c ∈ line.toList, Text.isLineBreak c = false := by
    decide +kernel
  intro line hline
  obtain ⟨body, hbody, rfl⟩ := List.mem_map.mp hline
  obtain ⟨hquiet, hne, hbreak⟩ := hall body hbody
  rw [indented_line hne hbreak]
  exact hquiet.pad (by decide)

/-- The file of a proxy host. -/
lemma serves_renderProxy (hne : host.domainNames ≠ [])
    (hnames : ∀ name ∈ host.domainNames, IsField name) (hhost : host.Unbroken)
    (hpolicy : ∀ l ∈ accessList, l.Unbroken)
    (hfile : ∀ file ∈ passwordFile, '\n' ∉ file.toList) :
    Serves host (renderProxy platform host accessList passwordFile) := by
  unfold renderProxy
  split
  · exact serves_renderDisabledHost hne hnames (by decide)
  · have hassets : ∀ line ∈ if host.cachingEnabled then assetLocation else [], Quiet line := by
      split
      · exact quiet_assetLocation
      · exact fun _ h => absurd h List.not_mem_nil
    have hlocations : ∀ line ∈ (sortedBy textLe ProxyLocation.path host.locations).flatMap
        (fun location => renderLocation location host accessList passwordFile), Quiet line := by
      intro line hline
      obtain ⟨location, hlocation, hline⟩ := List.mem_flatMap.mp hline
      exact quiet_renderLocation hhost (mem_sortedBy.mp hlocation) hpolicy hfile line hline
    have hroot : ∀ line ∈ if hasDefaultLocation host then
        renderDefaultProxyLocation host accessList passwordFile else [], Quiet line := by
      split
      · exact quiet_renderDefaultProxyLocation hpolicy hfile
      · exact fun _ h => absurd h List.not_mem_nil
    have hend : ∀ line ∈ ["  include custom/server_proxy.conf;", "\x7d"], Quiet line := by decide
    have hbehind : ∀ line ∈ acmeChallengeLocation ++ (proxyVariables host ++ (hostIncludes host ++
        ((if host.cachingEnabled then assetLocation else []) ++
        (((sortedBy textLe ProxyLocation.path host.locations).flatMap fun location =>
          renderLocation location host accessList passwordFile) ++
        ((if hasDefaultLocation host then renderDefaultProxyLocation host accessList passwordFile
          else []) ++ ["  include custom/server_proxy.conf;", "\x7d"]))))), Quiet line := by
      simp only [List.forall_mem_append]
      exact ⟨quiet_acmeChallengeLocation, quiet_proxyVariables hhost,
        quiet_hostIncludes hhost.advancedConfig, hassets, hlocations, hroot, hend⟩
    have hall : Serves host (Text.joinLines (serverStart platform host ++ _) ++ "\n") :=
      serves_serverStart hne hnames hbehind
    simpa only [proxyLines, List.append_assoc] using hall

/-- The lines of a redirection to a target. -/
lemma serves_redirectionLines (hne : host.domainNames ≠ [])
    (hnames : ∀ name ∈ host.domainNames, IsField name) (hconfig : host.advancedConfig = "")
    {target : String} (htarget : '\n' ∉ target.toList) :
    Serves host (Text.joinLines
      (serverStart platform host ++ acmeChallengeLocation ++ hostIncludes host ++
      (if hasRootLocation host.advancedConfig then []
      else
        [ "  location / \x7b",
          s!"    return {host.forwardHttpCode} {target};",
          "  \x7d" ]) ++
      ["  include custom/server_redirect.conf;", "\x7d"]) ++ "\n") := by
  have hroot : ∀ line ∈ if hasRootLocation host.advancedConfig then [] else
      [ "  location / \x7b",
        s!"    return {host.forwardHttpCode} {target};",
        "  \x7d" ], Quiet line := by
    split
    · exact fun _ h => absurd h List.not_mem_nil
    · intro line hline
      simp only [List.mem_cons, List.not_mem_nil, or_false] at hline
      rcases hline with rfl | rfl | rfl
      · decide
      · exact Quiet.append (Quiet.append (Quiet.append (Quiet.append (by decide)
          (newline_not_mem_toString _)) (by decide)) htarget) (by decide)
      · decide
  have hend : ∀ line ∈ ["  include custom/server_redirect.conf;", "\x7d"], Quiet line := by decide
  have hbehind : ∀ line ∈ acmeChallengeLocation ++ (hostIncludes host ++
      ((if hasRootLocation host.advancedConfig then [] else
        [ "  location / \x7b",
          s!"    return {host.forwardHttpCode} {target};",
          "  \x7d" ]) ++ ["  include custom/server_redirect.conf;", "\x7d"])), Quiet line := by
    simp only [List.forall_mem_append]
    exact ⟨quiet_acmeChallengeLocation, quiet_hostIncludes hconfig, hroot, hend⟩
  have hall : Serves host (Text.joinLines (serverStart platform host ++ _) ++ "\n") :=
    serves_serverStart hne hnames hbehind
  simpa only [List.append_assoc] using hall

/-- The file of a redirection. -/
lemma serves_renderRedirection (hne : host.domainNames ≠ [])
    (hnames : ∀ name ∈ host.domainNames, IsField name)
    (htarget : '\n' ∉ (orNone host.forwardDomainName).toList) (hconfig : host.advancedConfig = "") :
    Serves host (renderRedirection platform host) := by
  unfold renderRedirection
  split
  · exact serves_renderDisabledHost hne hnames (by decide)
  · refine serves_redirectionLines hne hnames hconfig ?_
    refine newline_not_mem_append (newline_not_mem_append (newline_not_mem_append ?_ (by decide))
      htarget) ?_
    · split
      · decide
      · cases host.forwardScheme <;> decide
    · split <;> decide

/-- The file of a dead host. -/
lemma serves_renderDead (hne : host.domainNames ≠ [])
    (hnames : ∀ name ∈ host.domainNames, IsField name) (hconfig : host.advancedConfig = "") :
    Serves host (renderDead platform host) := by
  unfold renderDead
  split
  · exact serves_renderDisabledHost hne hnames (by decide)
  · have hroot : ∀ line ∈ if hasRootLocation host.advancedConfig then [] else
        ["  location / \x7b return 404; \x7d"], Quiet line := by
      split
      · exact fun _ h => absurd h List.not_mem_nil
      · decide
    have hend : ∀ line ∈ ["  include custom/server_dead.conf;", "\x7d"], Quiet line := by decide
    have hbehind : ∀ line ∈ acmeChallengeLocation ++ (hostIncludes host ++
        ((if hasRootLocation host.advancedConfig then [] else
          ["  location / \x7b return 404; \x7d"]) ++
          ["  include custom/server_dead.conf;", "\x7d"])), Quiet line := by
      simp only [List.forall_mem_append]
      exact ⟨quiet_acmeChallengeLocation, quiet_hostIncludes hconfig, hroot, hend⟩
    have hall : Serves host (Text.joinLines (serverStart platform host ++ _) ++ "\n") :=
      serves_serverStart hne hnames hbehind
    simpa only [List.append_assoc] using hall

end Hosts

end Portwyrm.Runtime

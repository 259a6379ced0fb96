import Mathlib.Data.String.Basic
import Portwyrm.Base.Tokens
import Portwyrm.Runtime.Nginx

/-!
# The structure of server blocks

The renderer writes the texts of a host into the lines of a server block as they are.  This module
compares the block of a host with the block that the renderer writes for the same host with harmless
texts: both read as the same directives and braces exactly when each text stays the one word that it
is written for.
-/

namespace Portwyrm.Runtime

open Base Base.Tokens

/-! ## Templates -/

/-- A location with harmless texts; the root stays the root. -/
def ProxyLocation.blank (location : ProxyLocation) : ProxyLocation :=
  { location with
    path := if location.path = "/" then "/" else "/location"
    forwardHost := "example.com"
    forwardPath := "" }

/-- A host with harmless texts, with the same kind, flags and number of names and locations. -/
def RuntimeHost.blank (host : RuntimeHost) : RuntimeHost :=
  { host with
    domainNames := host.domainNames.map fun _ => "example.com"
    forwardHost := host.forwardHost.map fun _ => "example.com"
    forwardDomainName := host.forwardDomainName.map fun _ => "example.com"
    locations := (sortedBy textLe ProxyLocation.path host.locations).map ProxyLocation.blank }

/-- A client rule with a harmless address. -/
def AccessClient.blank (c : AccessClient) : AccessClient := ⟨"all", c.directive, rfl⟩

/-- A policy with harmless addresses, with the same number of rules. -/
def AccessList.blank (l : AccessList) : AccessList :=
  { l with clients := l.clients.map AccessClient.blank }

/-! ## Texts in their places -/

/-- A path that is one word before the brace of its location. -/
def IsPath (path : String) : Prop := tokens (path ++ " \x7b") = [.word, .opening]

/-- A target that carries on the word of `proxy_pass` up to its semicolon. -/
def IsTarget (target : String) : Prop := (readAll .word (target ++ ";").toList).2 = [.semicolon]

/-- A server that ends with its quotes. -/
def IsServer (server : String) : Prop :=
  (readAll (.quote false) (server ++ "\";").toList).2 = [.semicolon]

/-- An address that is one word before the semicolon of its rule. -/
def IsAddress (address : String) : Prop := tokens (address ++ ";") = [.word, .semicolon]

instance (path : String) : Decidable (IsPath path) := inferInstanceAs (Decidable (_ = _))

instance (target : String) : Decidable (IsTarget target) := inferInstanceAs (Decidable (_ = _))

instance (server : String) : Decidable (IsServer server) := inferInstanceAs (Decidable (_ = _))

instance (address : String) : Decidable (IsAddress address) := inferInstanceAs (Decidable (_ = _))

/-- The target of a location, as it is written. -/
def ProxyLocation.passTarget (location : ProxyLocation) : String :=
  s!"{location.forwardHost}:{location.forwardPort}{location.forwardPath}"

/-- The texts of a location stay in their places. -/
def ProxyLocation.Contained (location : ProxyLocation) : Prop :=
  IsPath location.path ∧ IsTarget location.passTarget

/-- The addresses of a policy stay in their places. -/
def AccessList.Contained (l : AccessList) : Prop := ∀ c ∈ l.clients, IsAddress c.address

/-- The texts that the lines of an enabled proxy host take. -/
def RuntimeHost.Contained (host : RuntimeHost) (accessList : Option AccessList) : Prop :=
  IsServer (orNone host.forwardHost) ∧ (∀ l ∈ host.locations, l.Contained) ∧
    ∀ p ∈ accessList, p.Contained

/-- What is checked of the texts of a host: names and domains are fields, paths start with `/`, and
no raw configuration is given. -/
structure Ordinary (host : RuntimeHost) : Prop where
  domainNames : ∀ name ∈ host.domainNames, IsField name
  forwardDomainName : host.kind = .redirect → ∀ domain ∈ host.forwardDomainName, IsField domain
  paths : ∀ l ∈ host.locations, l.path.toList.head? = some '/'
  advancedConfig : Text.strip host.advancedConfig = ""
  advancedConfigs : ∀ l ∈ host.locations, Text.strip l.advancedConfig = ""

/-! ## Lines -/

lemma tokens_append (a b : String) :
    tokens (a ++ b) = tokens a ++ (readAll (readAll .gap a.toList).1 b.toList).2 := by
  rw [tokens, String.toList_append, readAll_append]
  rfl

lemma isField_append {a b : String} (ha : IsField a) (hb : IsField b) : IsField (a ++ b) := by
  simp only [Tokens.IsField, String.toList_append, List.mem_append]
  exact ⟨List.append_ne_nil_of_left_ne_nil ha.1 _, fun c hc => hc.elim (ha.2 c) (hb.2 c)⟩

/-- Blank configuration is written as an empty line. -/
lemma indented_blank {config : String} (h : Text.strip config = "") (spaces : ℕ) :
    indented (Text.rstrip config) spaces = "" := by
  have hnil : config.toList.rdropWhile Text.isSpace = [] :=
    List.rdropWhile_eq_nil_iff.mpr (Text.strip_eq_empty_iff.mp h)
  rw [Text.rstrip, hnil]
  rfl

/-- The lines for blank configuration. -/
lemma isLine_config {config : String} (h : Text.strip config = "") (spaces : ℕ) :
    ∀ line ∈ if config ≠ "" then [indented (Text.rstrip config) spaces] else [], IsLine line := by
  intro line hline
  split at hline
  · rw [List.mem_singleton.mp hline, indented_blank h]
    decide
  · exact absurd hline List.not_mem_nil

/-- Names between blanks, up to a semicolon. -/
lemma readAll_names {names : List String} (h : ∀ name ∈ names, IsField name) :
    readAll .gap ([' '].intercalate (names.map String.toList) ++ [';']) =
      (.gap, List.replicate names.length .word ++ [.semicolon]) := by
  induction names with
  | nil => rfl
  | cons name rest ih =>
    have hname := h name List.mem_cons_self
    have hrest := ih fun n hn => h n (List.mem_cons_of_mem _ hn)
    by_cases hnil : rest = []
    · subst hnil
      rw [List.map_cons, List.map_nil, List.intercalate_singleton, readAll_append,
        readAll_gap_of_isPlain hname.1 hname.2]
      rfl
    · have hnil' : rest.map String.toList ≠ [] := by simpa using hnil
      rw [List.map_cons, List.intercalate_cons_of_ne_nil hnil', List.append_assoc,
        List.append_assoc, readAll_append, readAll_gap_of_isPlain hname.1 hname.2,
        List.singleton_append, readAll_cons, show read .word ' ' = (.gap, []) from rfl, hrest]
      rfl

section Lines

/-- The line of the domain names. -/
lemma readAll_serverName {names : List String} (h : ∀ name ∈ names, IsField name) :
    readAll .gap ("  server_name " ++ " ".intercalate names ++ ";").toList =
      (.gap, .word :: (List.replicate names.length .word ++ [.semicolon])) := by
  have hstart : readAll .gap "  server_name ".toList = (.gap, [.word]) := readAll_ofList (by decide)
  have hlist : ("  server_name " ++ " ".intercalate names ++ ";").toList =
      "  server_name ".toList ++ ([' '].intercalate (names.map String.toList) ++ [';']) := by
    rw [String.toList_append, String.toList_append, String.toList_intercalate, List.append_assoc]
    rfl
  rw [hlist, readAll_append, hstart, readAll_names h]
  rfl

lemma isField_blank : IsField "example.com" := by decide

/-- The lines of `listen`. -/
lemma fits_listen (ssl : SSLSettings) {names : List String} (h : ∀ name ∈ names, IsField name)
    (ipv6 : Bool) :
    Fits (listen names ssl ipv6) (listen (names.map fun _ => "example.com") ssl ipv6) True := by
  have hblank : ∀ name ∈ names.map fun _ => "example.com", IsField name := by
    intro name hname
    obtain ⟨-, -, rfl⟩ := List.mem_map.mp hname
    exact isField_blank
  have hsingle : '\n' ∉
      ("  server_name " ++ " ".intercalate (names.map fun _ => "example.com") ++ ";").toList := by
    rw [← List.count_eq_zero, ← count_newline .gap, readAll_serverName hblank]
    simp [List.count_append, List.count_replicate]
  refine ((Fits.same ?_).append (Fits.line ⟨?_, hsingle⟩ ?_ (.inl rfl) (p := True) ?_)).congr (by simp)
  · cases ipv6 <;> by_cases hc : ssl.certificateId = 0 <;> cases hh : ssl.http2 <;>
      simp only [hc, ne_eq, not_true_eq_false, not_false_eq_true, if_true, if_false] <;>
      decide
  · rw [readAll_serverName hblank]
  · rw [tokens, readAll_serverName hblank, ← List.cons_append, List.getLast?_concat]
  · rw [tokens, tokens, readAll_serverName h, readAll_serverName hblank, List.length_map]
    simp

/-- The lines of the certificate. -/
lemma isLine_sslLines (ssl : SSLSettings) : ∀ line ∈ sslLines ssl, IsLine line := by
  have hdir : IsField s!"/etc/letsencrypt/live/npm-{ssl.certificateId}" :=
    isField_append (isField_ofList (by decide)) (isField_toString _)
  intro line hline
  unfold sslLines at hline
  split at hline
  · exact absurd hline List.not_mem_nil
  · rcases List.mem_append.mp hline with hline | hline
    · rcases List.mem_cons.mp hline with rfl | hline
      · exact isLine_field hdir (by decide)
      · rcases List.mem_cons.mp hline with rfl | hline
        · exact isLine_field hdir (by decide)
        · rw [List.mem_singleton.mp hline]
          exact isLine_ofList (by decide)
    · cases hh : ssl.hsts with
      | false => simp [hh] at hline
      | true =>
        simp only [hh, Bool.not_false, Bool.and_true, if_true, List.mem_singleton] at hline
        rw [hline]
        cases ssl.hstsSubdomains <;> decide +kernel

lemma isLine_forceSslLines (ssl : SSLSettings) : ∀ line ∈ forceSslLines ssl, IsLine line := by
  intro line hline
  unfold forceSslLines at hline
  split at hline
  · exact absurd hline List.not_mem_nil
  · revert line
    cases ssl.trustForwardedProto <;> decide

/-- The lines from the start of a server block to the challenge location. -/
lemma fits_serverStart {host : RuntimeHost} (h : Ordinary host) (platform : PlatformConfig) :
    Fits (serverStart platform host ++ acmeChallengeLocation)
      (serverStart platform host.blank ++ acmeChallengeLocation) True := by
  have hstart : Fits ["server \x7b"] ["server \x7b"] True :=
    .same (isLine_cons (by decide) isLine_nil)
  have hacme : Fits acmeChallengeLocation acmeChallengeLocation True :=
    .same (isLine_cons (by decide) (isLine_cons (by decide) (isLine_cons (by decide)
      (isLine_cons (by decide) isLine_nil))))
  have hssl := Fits.same (isLine_sslLines host.ssl.normalized)
  have hforce := Fits.same (isLine_forceSslLines host.ssl.normalized)
  have hlisten := fits_listen host.ssl.normalized h.domainNames platform.ipv6
  exact ((((hstart.append hlisten).append hssl).append hforce).append hacme).congr (by simp)

/-- A line that is indented as a whole. -/
lemma isLine_indented {l : List Char} (h : l ≠ [] ∧ (∀ c ∈ l, Text.isLineBreak c = false) ∧
    (readAll .gap l).1 = .gap ∧ '\n' ∉ l) : IsLine (indented (String.ofList l)) := by
  obtain ⟨hne, hbreak, hends, hsingle⟩ := h
  have hne' : String.ofList l ≠ "" := fun heq => hne (by simpa using congrArg String.toList heq)
  rw [indented_line hne' (by rwa [String.toList_ofList])]
  have hlist : (blanks 2 ++ String.ofList l).toList = ' ' :: ' ' :: l := by
    rw [String.toList_append, String.toList_ofList]
    rfl
  refine ⟨?_, ?_⟩
  · rw [hlist]
    exact hends
  · rw [hlist]
    simpa using hsingle

/-- The lines of the asset location. -/
lemma isLine_assetLocation : ∀ line ∈ assetLocation, IsLine line := by
  unfold assetLocation assetCacheLines
  repeat
    refine List.forall_mem_cons.mpr ⟨isLine_indented (by decide +kernel), ?_⟩
  exact isLine_nil

/-- The include of the exploits and the raw configuration, which is blank. -/
lemma fits_hostIncludes {host : RuntimeHost} (h : Ordinary host) :
    Fits (hostIncludes host) (hostIncludes host.blank) True := by
  have hexploits : Fits (if host.blockExploits then [Text.rstrip blockExploits] else [])
      (if host.blockExploits then [Text.rstrip blockExploits] else []) True := by
    cases host.blockExploits
    · exact .same isLine_nil
    · exact .same (by decide)
  exact (hexploits.append (.same (isLine_config h.advancedConfig 2))).congr (by simp)

end Lines

/-! ## Locations -/

section Locations

variable {accessList : Option AccessList} {passwordFile : Option String}

lemma isLine_websocketLines (host : RuntimeHost) : ∀ line ∈ websocketLines host, IsLine line := by
  unfold websocketLines
  cases host.allowWebsocketUpgrade
  · exact isLine_nil
  · exact isLine_cons (by decide) (isLine_cons (by decide) (isLine_cons (by decide) isLine_nil))

/-- The line of a client rule, inside a location. -/
lemma fits_clientLine (c : AccessClient) :
    Fits [s!"    {c.line}"] [s!"    {c.blank.line}"] (IsAddress c.address) := by
  obtain ⟨address, directive, hnormal⟩ := c
  have hbefore : readAll .gap ("    " ++ directive.value ++ " ").toList = (.gap, [.word]) := by
    cases directive <;> decide
  have htokens : ∀ address : String,
      tokens ("    " ++ (directive.value ++ " " ++ address ++ ";")) =
        .word :: tokens (address ++ ";") := by
    intro address
    have hsplit : "    " ++ (directive.value ++ " " ++ address ++ ";") =
        ("    " ++ directive.value ++ " ") ++ (address ++ ";") := by
      simp only [String.append_assoc]
    rw [hsplit, tokens_append, tokens, hbefore]
    rfl
  have hall : tokens ("all" ++ ";") = [.word, .semicolon] := by decide
  refine Fits.line (m := .semicolon) ?_ ?_ (.inl rfl) ?_
  · show IsLine ("    " ++ (directive.value ++ " " ++ "all" ++ ";"))
    cases directive <;> decide
  · show (tokens ("    " ++ (directive.value ++ " " ++ "all" ++ ";"))).getLast? = _
    rw [htokens, hall]
    rfl
  · show tokens ("    " ++ (directive.value ++ " " ++ address ++ ";")) =
      tokens ("    " ++ (directive.value ++ " " ++ "all" ++ ";")) ↔ _
    rw [htokens, htokens, hall]
    exact List.cons_inj_right _

/-- The lines of the password, inside a location. -/
lemma isLine_authLines (p : AccessList) (hfile : ∀ file ∈ passwordFile, IsField file) :
    ∀ line ∈ (if p.credentials ≠ [] then
        [ "auth_basic \"Authorization required\";",
          s!"auth_basic_user_file /data/access/{userFile p passwordFile};" ] ++
        (if p.passAuth = false then ["proxy_set_header Authorization \"\";"] else [])
      else []).map fun line => s!"    {line}", IsLine line := by
  have hname : IsField (userFile p passwordFile) := by
    unfold userFile
    cases hcase : passwordFile.filter (· ≠ "") with
    | none => exact isField_toString p.id
    | some file => exact hfile file (Option.filter_eq_some_iff.mp hcase).1
  intro line hline
  obtain ⟨fragment, hfragment, rfl⟩ := List.mem_map.mp hline
  split at hfragment
  · rcases List.mem_append.mp hfragment with hfragment | hfragment
    · rcases List.mem_cons.mp hfragment with rfl | hfragment
      · decide
      · rw [List.mem_singleton.mp hfragment]
        show IsLine ("    " ++
          ("auth_basic_user_file /data/access/" ++ userFile p passwordFile ++ ";"))
        rw [← String.append_assoc, ← String.append_assoc,
          show "    " ++ "auth_basic_user_file /data/access/" =
            "    auth_basic_user_file /data/access/" from rfl]
        exact isLine_field hname (by decide)
    · split at hfragment
      · rw [List.mem_singleton.mp hfragment]
        decide
      · exact absurd hfragment List.not_mem_nil
  · exact absurd hfragment List.not_mem_nil

/-- The lines of a policy, inside a location. -/
lemma fits_accessLines (accessList : Option AccessList)
    (hfile : ∀ file ∈ passwordFile, IsField file) :
    Fits ((accessLines accessList passwordFile).map fun line => s!"    {line}")
      ((accessLines (accessList.map AccessList.blank) passwordFile).map fun line => s!"    {line}")
      (∀ p ∈ accessList, p.Contained) := by
  cases accessList with
  | none => exact Fits.nil.congr (by simp)
  | some p =>
    have hclients : Fits
        ((if p.clients ≠ [] then p.clients.map AccessClient.line ++ ["deny all;"] else []).map
          fun line => s!"    {line}")
        ((if p.clients ≠ [] then p.blank.clients.map AccessClient.line ++ ["deny all;"]
          else []).map fun line => s!"    {line}") p.Contained := by
      split
      · rw [List.map_append, List.map_append, List.map_map, List.map_map, AccessList.blank,
          List.map_map]
        have hdeny : Fits (["deny all;"].map fun line => s!"    {line}")
          (["deny all;"].map fun line => s!"    {line}") True := .same (by decide)
        exact ((Fits.map fun c _ => fits_clientLine c).append hdeny).congr (by simp [AccessList.Contained])
      · rename_i hnil
        exact Fits.nil.congr (by simp [AccessList.Contained, not_not.mp hnil])
    have hlast : Fits
        ((if p.credentials ≠ [] ∨ p.clients ≠ [] then
            [if p.satisfyAny then "satisfy any;" else "satisfy all;"] else []).map
          fun line => s!"    {line}")
        ((if p.credentials ≠ [] ∨ p.clients ≠ [] then
            [if p.satisfyAny then "satisfy any;" else "satisfy all;"] else []).map
          fun line => s!"    {line}") True := by
      refine Fits.same ?_
      split
      · cases p.satisfyAny <;> decide
      · exact fun line hline => absurd hline (by simp)
    have hblank : p.blank.clients ≠ [] ↔ p.clients ≠ [] := by simp [AccessList.blank]
    have hlines := ((Fits.same (isLine_authLines p hfile)).append hclients).append hlast
    rw [← List.map_append, ← List.map_append, ← List.map_append, ← List.map_append] at hlines
    refine Fits.congr ?_ (by simp : (True ∧ p.Contained) ∧ True ↔ _)
    simp only [accessLines, Option.map_some, hblank]
    exact hlines

/-- The line that opens a location. -/
lemma fits_pathLine (path : String) {blank : String} (hblank : blank = "/" ∨ blank = "/location") :
    Fits [s!"  location {path} \x7b"] [s!"  location {blank} \x7b"] (IsPath path) := by
  have hstart : readAll .gap "  location ".toList = (.gap, [.word]) := readAll_ofList (by decide)
  have htokens : ∀ path : String, tokens s!"  location {path} \x7b" =
      .word :: tokens (path ++ " \x7b") := by
    intro path
    show tokens ("  location " ++ path ++ " \x7b") = _
    rw [String.append_assoc, tokens_append, tokens, hstart]
    rfl
  have hpath : tokens (blank ++ " \x7b") = [.word, .opening] := by
    rcases hblank with rfl | rfl <;> decide
  refine Fits.line (m := .opening) ?_ ?_ (.inr (.inl rfl)) ?_
  · rcases hblank with rfl | rfl <;> decide
  · rw [htokens, hpath]
    rfl
  · rw [htokens, htokens, hpath]
    exact List.cons_inj_right _

/-- The line that names the target of a location. -/
lemma fits_passLine (location : ProxyLocation) :
    Fits [s!"    proxy_pass {location.forwardScheme.value}://{location.passTarget};"]
      [s!"    proxy_pass {location.forwardScheme.value}://{location.blank.passTarget};"]
      (IsTarget location.passTarget) := by
  have hstart : readAll .gap ("    proxy_pass " ++ location.forwardScheme.value ++ "://").toList =
      (.word, [.word, .word]) := by
    cases location.forwardScheme <;> decide
  have hread : ∀ target : String, readAll .gap
      s!"    proxy_pass {location.forwardScheme.value}://{target};".toList =
        ((readAll .word (target ++ ";").toList).1,
          .word :: .word :: (readAll .word (target ++ ";").toList).2) := by
    intro target
    show readAll .gap
      ("    proxy_pass " ++ location.forwardScheme.value ++ "://" ++ target ++ ";").toList = _
    rw [String.append_assoc, String.toList_append, readAll_append, hstart]
    rfl
  have htarget : location.blank.passTarget =
      "example.com" ++ ":" ++ toString location.forwardPort := String.append_empty
  have hblank : IsField location.blank.passTarget :=
    htarget ▸ isField_append (isField_append (by decide) (by decide)) (isField_toString _)
  have hword : readAll .word (location.blank.passTarget ++ ";").toList = (.gap, [.semicolon]) := by
    rw [String.toList_append, readAll_append, readAll_word_of_isPlain hblank.2]
    rfl
  refine Fits.line (m := .semicolon) ⟨?_, ?_⟩ ?_ (.inl rfl) ?_
  · rw [hread, hword]
  · rw [← List.count_eq_zero, ← count_newline .gap, hread, hword]
    rfl
  · rw [tokens, hread, hword]
    rfl
  · rw [tokens, tokens, hread, hread, hword]
    exact (List.cons_inj_right _).trans (List.cons_inj_right _)

/-- The lines of a location. -/
lemma fits_renderLocation {location : ProxyLocation} (host : RuntimeHost)
    (hconfig : Text.strip location.advancedConfig = "")
    (hfile : ∀ file ∈ passwordFile, IsField file) :
    Fits (renderLocation location host accessList passwordFile)
      (renderLocation location.blank host.blank (accessList.map AccessList.blank) passwordFile)
      (location.Contained ∧ ∀ p ∈ accessList, p.Contained) := by
  have hblank : location.blank.path = "/" ∨ location.blank.path = "/location" := by
    show (if location.path = "/" then "/" else "/location") = "/" ∨
      (if location.path = "/" then "/" else "/location") = "/location"
    split <;> simp
  have hheaders : Fits
      [ "    proxy_set_header Host $host;",
        "    proxy_set_header X-Forwarded-Scheme $scheme;",
        "    proxy_set_header X-Forwarded-Proto $scheme;",
        "    proxy_set_header X-Forwarded-For $remote_addr;",
        "    proxy_set_header X-Real-IP $remote_addr;" ]
      [ "    proxy_set_header Host $host;",
        "    proxy_set_header X-Forwarded-Scheme $scheme;",
        "    proxy_set_header X-Forwarded-Proto $scheme;",
        "    proxy_set_header X-Forwarded-For $remote_addr;",
        "    proxy_set_header X-Real-IP $remote_addr;" ] True :=
    .same (isLine_cons (by decide) (isLine_cons (by decide) (isLine_cons (by decide)
      (isLine_cons (by decide) (isLine_cons (by decide) isLine_nil)))))
  have hend : Fits ["  \x7d"] ["  \x7d"] True := .same (isLine_cons (by decide) isLine_nil)
  have hopening := (fits_pathLine location.path hblank).append (Fits.same (isLine_config hconfig 4))
  have hpass := hopening.append (hheaders.append (fits_passLine location))
  have haccess := hpass.append (fits_accessLines accessList hfile)
  have hwebsocket := haccess.append (Fits.same (isLine_websocketLines host))
  exact (hwebsocket.append hend).congr (by simp [ProxyLocation.Contained, and_assoc])

/-- The lines of the default location. -/
lemma fits_renderDefaultProxyLocation (host : RuntimeHost)
    (hfile : ∀ file ∈ passwordFile, IsField file) :
    Fits (renderDefaultProxyLocation host accessList passwordFile)
      (renderDefaultProxyLocation host.blank (accessList.map AccessList.blank) passwordFile)
      (∀ p ∈ accessList, p.Contained) := by
  have hstart : Fits ["  location / \x7b"] ["  location / \x7b"] True :=
    .same (isLine_cons (by decide) isLine_nil)
  have hend : Fits ["    include conf.d/include/proxy.conf;", "  \x7d"]
      ["    include conf.d/include/proxy.conf;", "  \x7d"] True :=
    .same (isLine_cons (by decide) (isLine_cons (by decide) isLine_nil))
  exact (((hstart.append (fits_accessLines accessList hfile)).append
    (Fits.same (isLine_websocketLines host))).append hend).congr (by simp)

end Locations

/-! ## Proxy hosts -/

section Proxy

variable {host : RuntimeHost} {passwordFile : Option String}

/-- The assignments and log files of a proxy host. -/
lemma fits_proxyVariables (host : RuntimeHost) :
    Fits (proxyVariables host) (proxyVariables host.blank) (IsServer (orNone host.forwardHost)) := by
  have hstart : readAll .gap "  set $server \"".toList = (.quote false, [.word, .word, .word]) :=
    readAll_ofList (by decide)
  have hread : ∀ server : String, readAll .gap s!"  set $server \"{server}\";".toList =
      ((readAll (.quote false) (server ++ "\";").toList).1,
        .word :: .word :: .word :: (readAll (.quote false) (server ++ "\";").toList).2) := by
    intro server
    show readAll .gap ("  set $server \"" ++ server ++ "\";").toList = _
    rw [String.append_assoc, String.toList_append, readAll_append, hstart]
    rfl
  have hblank : readAll (.quote false) (orNone host.blank.forwardHost ++ "\";").toList =
      (.gap, [.semicolon]) := by
    show readAll _ (orNone (host.forwardHost.map fun _ => "example.com") ++ "\";").toList = _
    cases host.forwardHost
    · decide
    · rw [Option.map_some]
      decide
  have hserver : Fits [s!"  set $server \"{orNone host.forwardHost}\";"]
      [s!"  set $server \"{orNone host.blank.forwardHost}\";"]
      (IsServer (orNone host.forwardHost)) := by
    refine Fits.line (m := .semicolon) ⟨?_, ?_⟩ ?_ (.inl rfl) ?_
    · rw [hread, hblank]
    · rw [← List.count_eq_zero, ← count_newline .gap, hread, hblank]
      rfl
    · rw [tokens, hread, hblank]
      rfl
    · rw [tokens, tokens, hread, hread, hblank]
      simp [IsServer]
  have hscheme : Fits [s!"  set $forward_scheme {host.forwardScheme.value};"]
      [s!"  set $forward_scheme {host.forwardScheme.value};"] True := by
    refine .same ?_
    cases host.forwardScheme <;> decide
  have hport : Fits
      [ s!"  set $port {orNone (host.forwardPort.map toString)};",
        s!"  access_log /data/logs/proxy-host-{host.id}_access.log proxy;",
        s!"  error_log /data/logs/proxy-host-{host.id}_error.log warn;" ]
      [ s!"  set $port {orNone (host.forwardPort.map toString)};",
        s!"  access_log /data/logs/proxy-host-{host.id}_access.log proxy;",
        s!"  error_log /data/logs/proxy-host-{host.id}_error.log warn;" ] True := by
    have hfield : IsField (orNone (host.forwardPort.map toString)) := by
      cases host.forwardPort with
      | none => decide
      | some port => exact isField_toString port
    have hid := isField_toString host.id
    refine .same fun line hline => ?_
    simp only [List.mem_cons, List.not_mem_nil, or_false] at hline
    rcases hline with rfl | rfl | rfl
    · exact isLine_field hfield (by decide)
    · exact isLine_field hid (by decide)
    · exact isLine_field hid (by decide)
  exact (hscheme.append (hserver.append hport)).congr (by simp)

/-- No path comes before the root. -/
lemma eq_root_of_le {path : String} (hslash : path.toList.head? = some '/') (h : path ≤ "/") :
    path = "/" := by
  obtain ⟨rest, hpath⟩ := List.head?_eq_some_iff.mp hslash
  cases rest with
  | nil => exact String.toList_injective hpath
  | cons c rest =>
    rw [← String.not_lt, String.lt_iff_toList_lt, hpath] at h
    exact absurd (by simp) h

/-- The harmless paths are sorted as the paths are. -/
lemma sortedBy_blank (hpaths : ∀ l ∈ host.locations, l.path.toList.head? = some '/') :
    sortedBy textLe ProxyLocation.path host.blank.locations = host.blank.locations := by
  have hsorted : (sortedBy textLe ProxyLocation.path host.locations).Pairwise
      fun a b => textLe a.path b.path = true := by
    have htotal : Std.Total fun a b : ProxyLocation => textLe a.path b.path = true :=
      ⟨fun a b => by simpa [textLe] using String.le_total a.path b.path⟩
    have htrans : IsTrans ProxyLocation fun a b => textLe a.path b.path = true :=
      ⟨fun a b c hab hbc => by
        simp only [textLe, decide_eq_true_eq] at hab hbc ⊢
        exact String.le_trans hab hbc⟩
    exact List.pairwise_insertionSort _ _
  refine List.Pairwise.insertionSort_eq (List.pairwise_map.mpr (hsorted.imp_of_mem ?_))
  intro a b ha hb hle
  have hslash := hpaths a (mem_sortedBy.mp ha)
  simp only [textLe, decide_eq_true_eq] at hle
  show textLe (if a.path = "/" then "/" else "/location")
    (if b.path = "/" then "/" else "/location") = true
  by_cases hb' : b.path = "/"
  · rw [hb'] at hle
    rw [if_pos hb', if_pos (eq_root_of_le hslash hle)]
    decide
  · rw [if_neg hb']
    split <;> decide

lemma hasDefaultLocation_blank : hasDefaultLocation host.blank = hasDefaultLocation host := by
  have hroot : ∀ l : ProxyLocation, decide (l.blank.path = "/") = decide (l.path = "/") := by
    intro l
    show decide ((if l.path = "/" then "/" else "/location") = "/") = decide (l.path = "/")
    split <;> simp [*]
  have hany : (host.blank.locations.any fun l => l.path = "/") =
      host.locations.any fun l => l.path = "/" := by
    rw [RuntimeHost.blank, List.any_map,
      ← (perm_sortedBy textLe ProxyLocation.path host.locations).any_eq]
    exact congrArg (List.any _) (funext hroot)
  rw [hasDefaultLocation, hasDefaultLocation, hany]
  rfl

/-- Blank configuration has no root location. -/
lemma hasRootLocation_blank {config : String} (h : Text.strip config = "") :
    hasRootLocation config = false := by
  have hsplit : ∀ l : List Char, (∀ c ∈ l, Text.isSpace c = true) →
      (l.splitOnP Text.isSpace).filter (· ≠ []) = [] := by
    intro l hl
    induction l with
    | nil => rfl
    | cons c rest ih =>
      rw [List.splitOnP_cons_eq_if_modifyHead, if_pos (hl c List.mem_cons_self)]
      simpa using ih fun d hd => hl d (List.mem_cons_of_mem _ hd)
  have hwords : Text.words (Text.replaceChar '\n' ' ' config) = [] := by
    rw [Text.words, Text.replaceChar, String.toList_ofList, hsplit, List.map_nil]
    intro c hc
    obtain ⟨d, hd, rfl⟩ := List.mem_map.mp hc
    split
    · decide
    · exact Text.strip_eq_empty_iff.mp h d hd
  rw [hasRootLocation, hwords]
  decide

/-- Some location of an enabled host takes its policy. -/
lemma policy_written (h : Ordinary host) {p : Prop} :
    ((∀ l ∈ host.locations, l.Contained ∧ p) ∧ (hasDefaultLocation host = true → p)) ↔
      (∀ l ∈ host.locations, l.Contained) ∧ p := by
  constructor
  · rintro ⟨hl, hd⟩
    refine ⟨fun l hmem => (hl l hmem).1, ?_⟩
    by_cases hdefault : hasDefaultLocation host = true
    · exact hd hdefault
    · -- without a default location, the host configures the root itself
      rw [hasDefaultLocation, hasRootLocation_blank h.advancedConfig] at hdefault
      have hany : (host.locations.any fun l => l.path = "/") = true := by simpa using hdefault
      obtain ⟨l, hmem, -⟩ := List.any_eq_true.mp hany
      exact (hl l hmem).2
  · rintro ⟨hl, hp⟩
    exact ⟨fun l hmem => ⟨hl l hmem, hp⟩, fun _ => hp⟩

/-- The lines of an enabled proxy host. -/
lemma fits_proxyLines (h : Ordinary host) (platform : PlatformConfig)
    (accessList : Option AccessList) (hfile : ∀ file ∈ passwordFile, IsField file) :
    Fits (proxyLines platform host accessList passwordFile)
      (proxyLines platform host.blank (accessList.map AccessList.blank) passwordFile)
      (host.Contained accessList) := by
  have hasset : Fits (if host.cachingEnabled then assetLocation else [])
      (if host.cachingEnabled then assetLocation else []) True := by
    cases host.cachingEnabled
    · exact .same isLine_nil
    · exact .same isLine_assetLocation
  have hend : Fits ["  include custom/server_proxy.conf;", "\x7d"]
      ["  include custom/server_proxy.conf;", "\x7d"] True :=
    .same (isLine_cons (by decide) (isLine_cons (by decide) isLine_nil))
  have hlocations : Fits
      ((sortedBy textLe ProxyLocation.path host.locations).flatMap fun location =>
        renderLocation location host accessList passwordFile)
      (host.blank.locations.flatMap fun location =>
        renderLocation location host.blank (accessList.map AccessList.blank) passwordFile)
      (∀ l ∈ sortedBy textLe ProxyLocation.path host.locations,
        l.Contained ∧ ∀ p ∈ accessList, p.Contained) := by
    rw [RuntimeHost.blank, List.flatMap_map]
    exact Fits.flatMap fun l hl =>
      fits_renderLocation host (h.advancedConfigs l (mem_sortedBy.mp hl)) hfile
  have hdefault : Fits
      (if hasDefaultLocation host then renderDefaultProxyLocation host accessList passwordFile
      else [])
      (if hasDefaultLocation host then
        renderDefaultProxyLocation host.blank (accessList.map AccessList.blank) passwordFile
      else []) (hasDefaultLocation host = true → ∀ p ∈ accessList, p.Contained) := by
    split
    · rename_i hd
      exact (fits_renderDefaultProxyLocation host hfile).congr (by simp [hd])
    · rename_i hd
      exact Fits.nil.congr (by simp [hd])
  have hstart := (fits_serverStart h platform).append (fits_proxyVariables host)
  have hincludes := (hstart.append (fits_hostIncludes h)).append hasset
  have hlines := ((hincludes.append hlocations).append hdefault).append hend
  rw [proxyLines, proxyLines, sortedBy_blank h.paths, hasDefaultLocation_blank]
  refine hlines.congr ?_
  simp only [true_and, and_true, mem_sortedBy, and_assoc]
  exact and_congr_right fun _ => policy_written h

end Proxy

/-! ## Redirections, dead hosts and disabled hosts -/

section Other

variable {host : RuntimeHost}

/-- The line of a redirection. -/
lemma readAll_returnLine {scheme domain suffix : String} (code : ℕ)
    (hscheme : readAll .gap (scheme ++ "://").toList = (.word, [.word])) (hdomain : IsField domain)
    (hsuffix : readAll .word (suffix ++ ";").toList = (.gap, [.semicolon])) :
    readAll .gap ("    return " ++ toString code ++ " " ++
      (scheme ++ "://" ++ domain ++ suffix) ++ ";").toList =
        (.gap, [.word, .word, .word, .semicolon]) := by
  have hstart : readAll .gap "    return ".toList = (.gap, [.word]) := readAll_ofList (by decide)
  have hcode := isField_toString code
  have hlist : ("    return " ++ toString code ++ " " ++
      (scheme ++ "://" ++ domain ++ suffix) ++ ";").toList =
        "    return ".toList ++ ((toString code).toList ++ (' ' :: ((scheme ++ "://").toList ++
          (domain.toList ++ (suffix ++ ";").toList)))) := by
    simp only [String.toList_append, List.append_assoc]
    rfl
  rw [hlist, readAll_append, hstart, readAll_append, readAll_gap_of_isPlain hcode.1 hcode.2,
    readAll_cons, show read .word ' ' = (.gap, []) from rfl, readAll_append, hscheme,
    readAll_append, readAll_word_of_isPlain hdomain.2, hsuffix]
  rfl

/-- The log files of a host of a kind. -/
lemma isLine_logLines {family : String} (hfamily : IsField family) (id : ℕ) :
    ∀ line ∈ [ s!"  access_log /data/logs/{family}-{id}_access.log proxy;",
      s!"  error_log /data/logs/{family}-{id}_error.log warn;" ], IsLine line := by
  have hname : IsField (family ++ "-" ++ toString id) :=
    isField_append (isField_append hfamily (by decide)) (isField_toString id)
  have hassoc : ∀ before after : String, before ++ family ++ "-" ++ toString id ++ after =
      before ++ (family ++ "-" ++ toString id) ++ after := by
    intro before after
    simp only [String.append_assoc]
  intro line hline
  simp only [List.mem_cons, List.not_mem_nil, or_false] at hline
  rcases hline with rfl | rfl
  · refine (hassoc _ _).symm ▸ isLine_field hname (by decide)
  · refine (hassoc _ _).symm ▸ isLine_field hname (by decide)

/-- The lines of a disabled host. -/
lemma tokens_renderDisabledHost (h : Ordinary host) (platform : PlatformConfig) {family : String}
    (hfamily : IsField family) : tokens (renderDisabledHost platform host family) =
      tokens (renderDisabledHost platform host.blank family) := by
  have hstart : Fits ["server \x7b"] ["server \x7b"] True :=
    .same (isLine_cons (by decide) isLine_nil)
  have hssl := Fits.same (isLine_sslLines host.ssl.normalized)
  have hlisten := fits_listen host.ssl.normalized h.domainNames platform.ipv6
  have hend : Fits ["  return 503;", "\x7d"] ["  return 503;", "\x7d"] True :=
    .same (isLine_cons (by decide) (isLine_cons (by decide) isLine_nil))
  have hlogs := (Fits.same (isLine_logLines hfamily host.id)).append hend
  have hlines := (((hstart.append hlisten).append hssl).append hlogs).congr (by simp : _ ↔ True)
  exact (hlines.tokens_joinLines_iff (by simp)).mpr trivial

/-- A redirection takes only names that are fields. -/
lemma tokens_renderRedirection (h : Ordinary host) (hkind : host.kind = .redirect)
    (platform : PlatformConfig) :
    tokens (renderRedirection platform host) = tokens (renderRedirection platform host.blank) := by
  have henabled : host.blank.enabled = host.enabled := rfl
  have hroot : hasRootLocation host.advancedConfig = false := hasRootLocation_blank h.advancedConfig
  have hroot' : hasRootLocation host.blank.advancedConfig = false := hroot
  have hscheme : readAll .gap ((if host.forwardScheme = .auto then "$scheme"
      else host.forwardScheme.value) ++ "://").toList = (.word, [.word]) := by
    cases host.forwardScheme <;> decide
  have hsuffix : readAll .word ((if host.preservePath then "$request_uri" else "") ++ ";").toList =
      (.gap, [.semicolon]) := by
    cases host.preservePath <;> decide
  have hdomain : ∀ {domain : Option String}, (∀ d ∈ domain, IsField d) → IsField (orNone domain) := by
    intro domain hd
    cases domain with
    | none => exact isField_ofList (by decide)
    | some d => exact hd d rfl
  have hblank : IsField (orNone host.blank.forwardDomainName) := hdomain fun d hd => by
    obtain ⟨-, -, rfl⟩ := Option.map_eq_some_iff.mp hd
    exact isField_blank
  have hline := readAll_returnLine host.forwardHttpCode hscheme
    (hdomain (h.forwardDomainName hkind)) hsuffix
  have hline' := readAll_returnLine host.forwardHttpCode hscheme hblank hsuffix
  have hreturn := Fits.line (m := .semicolon) (p := True)
    ⟨congrArg Prod.fst hline', by
      rw [← List.count_eq_zero, ← count_newline .gap, hline']
      rfl⟩
    (by
      rw [tokens, hline']
      rfl)
    (.inl rfl) (iff_true_intro ((congrArg Prod.snd hline).trans (congrArg Prod.snd hline').symm))
  have hopening : Fits ["  location / \x7b"] ["  location / \x7b"] True :=
    .same (isLine_cons (by decide) isLine_nil)
  have hend : Fits ["  \x7d"] ["  \x7d"] True := .same (isLine_cons (by decide) isLine_nil)
  have hincludes : Fits ["  include custom/server_redirect.conf;", "\x7d"]
      ["  include custom/server_redirect.conf;", "\x7d"] True :=
    .same (isLine_cons (by decide) (isLine_cons (by decide) isLine_nil))
  have hstart := (fits_serverStart h platform).append (fits_hostIncludes h)
  have hlines := (hstart.append (hopening.append (hreturn.append hend))).append hincludes
  unfold renderRedirection
  rw [henabled]
  split
  · exact tokens_renderDisabledHost h platform (by decide)
  · simp only [hroot, hroot', Bool.false_eq_true, if_false]
    exact ((hlines.congr (by simp : _ ↔ True)).tokens_joinLines_iff (by simp)).mpr trivial

/-- A dead host takes only names that are fields. -/
lemma tokens_renderDead (h : Ordinary host) (platform : PlatformConfig) :
    tokens (renderDead platform host) = tokens (renderDead platform host.blank) := by
  have henabled : host.blank.enabled = host.enabled := rfl
  have hroot : hasRootLocation host.advancedConfig = false := hasRootLocation_blank h.advancedConfig
  have hroot' : hasRootLocation host.blank.advancedConfig = false := hroot
  have hroot404 : Fits ["  location / \x7b return 404; \x7d"]
      ["  location / \x7b return 404; \x7d"] True := .same (isLine_cons (by decide) isLine_nil)
  have hincludes : Fits ["  include custom/server_dead.conf;", "\x7d"]
      ["  include custom/server_dead.conf;", "\x7d"] True :=
    .same (isLine_cons (by decide) (isLine_cons (by decide) isLine_nil))
  have hstart := (fits_serverStart h platform).append (fits_hostIncludes h)
  have hlines := (hstart.append hroot404).append hincludes
  unfold renderDead
  rw [henabled]
  split
  · exact tokens_renderDisabledHost h platform (by decide)
  · simp only [hroot, hroot', Bool.false_eq_true, if_false]
    exact ((hlines.congr (by simp : _ ↔ True)).tokens_joinLines_iff (by simp)).mpr trivial

end Other

/-! ## Server blocks -/

/-- The server block of a host. -/
def serverBlock (platform : PlatformConfig) (host : RuntimeHost) (accessList : Option AccessList)
    (passwordFile : Option String) : String :=
  match host.kind with
  | .proxy => renderProxy platform host accessList passwordFile
  | .redirect => renderRedirection platform host
  | .dead => renderDead platform host

/-- The block of a host reads as its template does exactly when the texts of an enabled proxy host
stay in their places. -/
theorem tokens_serverBlock_iff {host : RuntimeHost} (h : Ordinary host) (platform : PlatformConfig)
    (accessList : Option AccessList) {passwordFile : Option String}
    (hfile : ∀ file ∈ passwordFile, IsField file) :
    tokens (serverBlock platform host accessList passwordFile) =
        tokens (serverBlock platform host.blank (accessList.map AccessList.blank) passwordFile) ↔
      (host.kind = .proxy → host.enabled = true → host.Contained accessList) := by
  have hblank : host.blank.kind = host.kind := rfl
  have henabled : host.blank.enabled = host.enabled := rfl
  unfold serverBlock
  rw [hblank]
  cases hkind : host.kind with
  | proxy =>
    dsimp only
    rw [renderProxy, renderProxy, henabled]
    cases hon : host.enabled with
    | false =>
      have hdisabled := tokens_renderDisabledHost h platform (by decide : IsField "proxy-host")
      rw [if_pos rfl, if_pos rfl, hdisabled]
      simp
    | true =>
      have hlines := fits_proxyLines h platform accessList hfile
      rw [if_neg (by decide), if_neg (by decide), hlines.tokens_joinLines_iff (by simp [proxyLines])]
      simp
  | redirect => simp [tokens_renderRedirection h hkind platform]
  | dead => simp [tokens_renderDead h platform]

end Portwyrm.Runtime

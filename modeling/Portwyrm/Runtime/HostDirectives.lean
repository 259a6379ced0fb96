import Portwyrm.Base.Directives
import Portwyrm.Runtime.AccessControl
import Portwyrm.Runtime.BlockStructure

/-!
# The directives of hosts

The directives that stand in the server block of a host, and that its text is parsed into them as
long as every text of the host is a word.
-/

namespace Portwyrm.Runtime

open Base Base.Tokens Base.Directives

/-! ## Directives -/

/-- The directives of `listen`. -/
def listenDirectives (domainNames : List String) (ssl : SSLSettings) (ipv6 : Bool) :
    List Directive :=
  let http2 := if ssl.http2 then ["http2"] else []
  [.simple "listen" ["80"]] ++
  (if ipv6 then [.simple "listen" ["[::]:80"]] else []) ++
  (if ssl.certificateId ≠ 0 then
    [.simple "listen" ("443" :: "ssl" :: http2)] ++
    (if ipv6 then [.simple "listen" ("[::]:443" :: "ssl" :: http2)] else [])
  else []) ++
  [.simple "server_name" domainNames]

/-- The directives of `ssl_lines`. -/
def sslDirectives (ssl : SSLSettings) : List Directive :=
  if ssl.certificateId = 0 then []
  else
    let certDir := s!"/etc/letsencrypt/live/npm-{ssl.certificateId}"
    let subdomains := if ssl.hstsSubdomains then "; includeSubDomains" else ""
    [ .simple "ssl_certificate" [s!"{certDir}/fullchain.pem"],
      .simple "ssl_certificate_key" [s!"{certDir}/privkey.pem"],
      .simple "ssl_session_cache" ["shared:SSL:50m"] ] ++
    if ssl.hsts then
      [.simple "add_header"
        ["Strict-Transport-Security", "max-age=63072000" ++ subdomains, "always"]]
    else []

/-- The directives of `force_ssl_lines`. -/
def forceSslDirectives (ssl : SSLSettings) : List Directive :=
  if ssl.certificateId = 0 ∨ ssl.forced = false then []
  else
    let protocol := if ssl.trustForwardedProto then "($http_x_forwarded_proto" else "($scheme"
    [.block "if" [protocol, "!=", "https)"]
      [.simple "return" ["301", "https://$host$request_uri"]]]

/-- The directives in the location of `acme_challenge_location`. -/
def challengeBody : List Directive :=
  [.simple "root" ["/data/acme-challenge"], .simple "try_files" ["$uri", "=404"]]

/-- The directive of `acme_challenge_location`. -/
def challengeDirective : Directive :=
  .block "location" ["^~", "/.well-known/acme-challenge/"] challengeBody

/-- The directives of the log files of a host. -/
def logDirectives (family : String) (id : ℕ) : List Directive :=
  [ .simple "access_log" [s!"/data/logs/{family}-{id}_access.log", "proxy"],
    .simple "error_log" [s!"/data/logs/{family}-{id}_error.log", "warn"] ]

/-- The assignments and log files of a proxy host. -/
def variableDirectives (host : RuntimeHost) : List Directive :=
  [ .simple "set" ["$forward_scheme", host.forwardScheme.value],
    .simple "set" ["$server", orNone host.forwardHost],
    .simple "set" ["$port", orNone (host.forwardPort.map toString)] ] ++
  logDirectives "proxy-host" host.id

/-- The include of `block_exploits`. -/
def exploitsDirectives (host : RuntimeHost) : List Directive :=
  if host.blockExploits then [.simple "include" ["conf.d/include/block-exploits.conf"]] else []

/-- The expression for the paths of assets. -/
def assetPattern : String :=
  "^.*\\.(css|js|jpe?g|gif|png|webp|woff|woff2|eot|ttf|svg|ico|css\\.map|js\\.map)$"

/-- The directives in the location of `asset_cache_lines`. -/
def assetBody : List Directive :=
  [ .simple "if_modified_since" ["off"],
    .simple "proxy_cache" ["public-cache"],
    .simple "proxy_cache_key" ["$host$request_uri"],
    .simple "proxy_ignore_headers" ["Set-Cookie", "Cache-Control", "Expires", "X-Accel-Expires"],
    .simple "proxy_cache_valid" ["any", "30m"],
    .simple "proxy_cache_valid" ["404", "1m"],
    .simple "proxy_hide_header" ["Last-Modified"],
    .simple "proxy_hide_header" ["Cache-Control"],
    .simple "proxy_hide_header" ["Vary"],
    .simple "proxy_cache_bypass" ["0"],
    .simple "proxy_no_cache" ["0"],
    .simple "proxy_cache_use_stale"
      ["error", "timeout", "updating", "http_500", "http_502", "http_503", "http_504", "http_404"],
    .simple "proxy_connect_timeout" ["5s"],
    .simple "proxy_read_timeout" ["45s"],
    .simple "expires" ["30m"],
    .simple "access_log" ["off"],
    .simple "include" ["conf.d/include/proxy.conf"] ]

/-- The directive of `asset_cache_lines`. -/
def assetDirective : Directive := .block "location" ["~*", assetPattern] assetBody

/-- The directives of `access_lines`. -/
def accessDirectives (accessList : Option AccessList) (passwordFile : Option String) :
    List Directive :=
  match accessList with
  | none => []
  | some l =>
    (if l.credentials ≠ [] then
      [ .simple "auth_basic" ["Authorization required"],
        .simple "auth_basic_user_file" ["/data/access/" ++ userFile l passwordFile] ] ++
      (if l.passAuth = false then [.simple "proxy_set_header" ["Authorization", ""]] else [])
    else []) ++
    (if l.clients ≠ [] then
      l.clients.map (fun c => .simple c.directive.value [c.address]) ++ [.simple "deny" ["all"]]
    else []) ++
    (if l.credentials ≠ [] ∨ l.clients ≠ [] then
      [.simple "satisfy" [if l.satisfyAny then "any" else "all"]]
    else [])

/-- The directives that let a connection be upgraded. -/
def websocketDirectives (host : RuntimeHost) : List Directive :=
  if host.allowWebsocketUpgrade then
    [ .simple "proxy_set_header" ["Upgrade", "$http_upgrade"],
      .simple "proxy_set_header" ["Connection", "$http_connection"],
      .simple "proxy_http_version" ["1.1"] ]
  else []

/-- The headers of a location of its own. -/
def headerDirectives : List Directive :=
  [ .simple "proxy_set_header" ["Host", "$host"],
    .simple "proxy_set_header" ["X-Forwarded-Scheme", "$scheme"],
    .simple "proxy_set_header" ["X-Forwarded-Proto", "$scheme"],
    .simple "proxy_set_header" ["X-Forwarded-For", "$remote_addr"],
    .simple "proxy_set_header" ["X-Real-IP", "$remote_addr"] ]

/-- The directives in a location. -/
def locationBody (location : ProxyLocation) (host : RuntimeHost)
    (accessList : Option AccessList) (passwordFile : Option String) : List Directive :=
  headerDirectives ++
  [.simple "proxy_pass" [location.forwardScheme.value ++ "://" ++ location.passTarget]] ++
  accessDirectives accessList passwordFile ++ websocketDirectives host

/-- The directive of a location. -/
def locationDirective (location : ProxyLocation) (host : RuntimeHost)
    (accessList : Option AccessList) (passwordFile : Option String) : Directive :=
  .block "location" [location.path] (locationBody location host accessList passwordFile)

/-- The directives in the default location of a proxy host. -/
def defaultBody (host : RuntimeHost) (accessList : Option AccessList)
    (passwordFile : Option String) : List Directive :=
  accessDirectives accessList passwordFile ++ websocketDirectives host ++
  [.simple "include" ["conf.d/include/proxy.conf"]]

/-- The directive of the default location of a proxy host. -/
def defaultDirective (host : RuntimeHost) (accessList : Option AccessList)
    (passwordFile : Option String) : Directive :=
  .block "location" ["/"] (defaultBody host accessList passwordFile)

/-- The directives that the kinds of hosts share, up to the challenge location. -/
def startDirectives (platform : PlatformConfig) (host : RuntimeHost) : List Directive :=
  let ssl := host.ssl.normalized
  listenDirectives host.domainNames ssl platform.ipv6 ++ sslDirectives ssl ++
  forceSslDirectives ssl ++ [challengeDirective]

/-- The directives of an enabled proxy host. -/
def proxyDirectives (platform : PlatformConfig) (host : RuntimeHost)
    (accessList : Option AccessList) (passwordFile : Option String) : List Directive :=
  startDirectives platform host ++ variableDirectives host ++ exploitsDirectives host ++
  (if host.cachingEnabled then [assetDirective] else []) ++
  ((sortedBy textLe ProxyLocation.path host.locations).map fun location =>
    locationDirective location host accessList passwordFile) ++
  (if hasDefaultLocation host then [defaultDirective host accessList passwordFile] else []) ++
  [.simple "include" ["custom/server_proxy.conf"]]

/-- Where a redirection leads to. -/
def redirectTarget (host : RuntimeHost) : String :=
  let scheme := if host.forwardScheme = .auto then "$scheme" else host.forwardScheme.value
  let suffix := if host.preservePath then "$request_uri" else ""
  scheme ++ "://" ++ orNone host.forwardDomainName ++ suffix

/-- The directives of an enabled redirection. -/
def redirectionDirectives (platform : PlatformConfig) (host : RuntimeHost) : List Directive :=
  startDirectives platform host ++ exploitsDirectives host ++
  [.block "location" ["/"]
    [.simple "return" [toString host.forwardHttpCode, redirectTarget host]]] ++
  [.simple "include" ["custom/server_redirect.conf"]]

/-- The directives of an enabled dead host. -/
def deadDirectives (platform : PlatformConfig) (host : RuntimeHost) : List Directive :=
  startDirectives platform host ++ exploitsDirectives host ++
  [.block "location" ["/"] [.simple "return" ["404"]]] ++
  [.simple "include" ["custom/server_dead.conf"]]

/-- The directives of a disabled host. -/
def disabledDirectives (platform : PlatformConfig) (host : RuntimeHost) (family : String) :
    List Directive :=
  let ssl := host.ssl.normalized
  listenDirectives host.domainNames ssl platform.ipv6 ++ sslDirectives ssl ++
  logDirectives family host.id ++ [.simple "return" ["503"]]

/-- The directives of the server block of a host. -/
def hostDirectives (platform : PlatformConfig) (host : RuntimeHost)
    (accessList : Option AccessList) (passwordFile : Option String) : List Directive :=
  match host.kind, host.enabled with
  | .proxy, true => proxyDirectives platform host accessList passwordFile
  | .redirect, true => redirectionDirectives platform host
  | .dead, true => deadDirectives platform host
  | .proxy, false => disabledDirectives platform host "proxy-host"
  | .redirect, false => disabledDirectives platform host "redirection-host"
  | .dead, false => disabledDirectives platform host "dead-host"

/-! ## Texts -/

/-- The texts of a host are words, and no raw configuration is given. -/
structure RuntimeHost.Plain (host : RuntimeHost) : Prop where
  domainNames : ∀ name ∈ host.domainNames, IsField name
  forwardHost : host.kind = .proxy → IsField (orNone host.forwardHost)
  forwardDomainName : host.kind = .redirect → IsField (orNone host.forwardDomainName)
  locations : ∀ l ∈ host.locations,
    IsField l.path ∧ IsField l.passTarget ∧ l.advancedConfig = ""
  advancedConfig : host.advancedConfig = ""

/-- The addresses of a policy are words. -/
def AccessList.Plain (l : AccessList) : Prop := ∀ c ∈ l.clients, IsField c.address

/-! ## Lines -/

section Lines

set_option maxRecDepth 4000

variable {host : RuntimeHost} {accessList : Option AccessList} {passwordFile : Option String}

/-- A line of a directive, with its characters spelled out. -/
lemma writes_ofList {l : List Char} {name : String} {arguments : List String}
    (h : lexAll start l = (start, .word name :: (arguments.map .word ++ [.semicolon]))) :
    Writes [String.ofList l] [.simple name arguments] :=
  .simple (lexAll_ofList h)

/-- Several lines. -/
lemma writes_cons {l : List Char} {name : String} {arguments : List String} {lines : List String}
    {body : List Directive}
    (h : lexAll start l = (start, .word name :: (arguments.map .word ++ [.semicolon])))
    (h' : Writes lines body) :
    Writes (String.ofList l :: lines) (.simple name arguments :: body) :=
  (writes_ofList h).append h'

lemma writes_listen (ssl : SSLSettings) {names : List String} (h : ∀ name ∈ names, IsField name)
    (ipv6 : Bool) : Writes (listen names ssl ipv6) (listenDirectives names ssl ipv6) := by
  have hnames : Writes ["  server_name " ++ " ".intercalate names ++ ";"]
      [.simple "server_name" names] := by
    have hstart : lexAll start "  server_name ".toList = (start, [.word "server_name"]) :=
      lexAll_ofList rfl
    refine Writes.simple ?_
    rw [String.toList_append, String.toList_append, String.toList_intercalate, List.append_assoc,
      lexAll_append, hstart]
    exact congrArg (Prod.map id (List.cons (.word "server_name"))) (lexAll_names h)
  have hssl : ∀ flag : Bool,
      let http2 := if flag then " http2" else ""
      let words := if flag then ["http2"] else []
      Writes [s!"  listen 443 ssl{http2};"] [.simple "listen" ("443" :: "ssl" :: words)] ∧
        Writes [s!"  listen [::]:443 ssl{http2};"]
          [.simple "listen" ("[::]:443" :: "ssl" :: words)] := by
    intro flag
    cases flag
    · exact ⟨.simple (by decide), .simple (by decide)⟩
    · exact ⟨.simple (by decide), .simple (by decide)⟩
  obtain ⟨hipv4, hipv6⟩ := hssl ssl.http2
  exact (((writes_ofList rfl).append (.ite (fun _ => writes_ofList rfl) fun _ => .nil)).append
    (.ite (fun _ => hipv4.append (.ite (fun _ => hipv6) fun _ => .nil)) fun _ => .nil)).append
      hnames

lemma writes_sslLines (ssl : SSLSettings) : Writes (sslLines ssl) (sslDirectives ssl) := by
  have hid := isField_toString ssl.certificateId
  have hheader : ∀ subdomains ∈ ["", "; includeSubDomains"], Writes
      [s!"  add_header Strict-Transport-Security \"max-age=63072000{subdomains}\" always;"]
      [.simple "add_header"
        ["Strict-Transport-Security", "max-age=63072000" ++ subdomains, "always"]] := by
    intro subdomains hmem
    refine .simple ?_
    simp only [List.mem_cons, List.not_mem_nil, or_false] at hmem
    rcases hmem with rfl | rfl <;> decide +kernel
  have hcert : Writes
      [s!"  ssl_certificate /etc/letsencrypt/live/npm-{ssl.certificateId}/fullchain.pem;"]
      [.simple "ssl_certificate"
        [s!"/etc/letsencrypt/live/npm-{ssl.certificateId}/fullchain.pem"]] :=
    .simple (lexAll_inside hid (lexAll_ofList rfl) (lexAll_ofList rfl) rfl)
  have hkey : Writes
      [s!"  ssl_certificate_key /etc/letsencrypt/live/npm-{ssl.certificateId}/privkey.pem;"]
      [.simple "ssl_certificate_key"
        [s!"/etc/letsencrypt/live/npm-{ssl.certificateId}/privkey.pem"]] :=
    .simple (lexAll_inside hid (lexAll_ofList rfl) (lexAll_ofList rfl) rfl)
  have hcache : Writes ["  ssl_session_cache shared:SSL:50m;"]
      [.simple "ssl_session_cache" ["shared:SSL:50m"]] :=
    writes_ofList rfl
  unfold sslLines sslDirectives
  refine .ite (fun _ => .nil) fun _ => (hcert.append (hkey.append hcache)).append ?_
  cases ssl.hsts with
  | false => exact .nil
  | true =>
    refine hheader _ ?_
    split <;> simp

lemma writes_forceSslLines (ssl : SSLSettings) :
    Writes (forceSslLines ssl) (forceSslDirectives ssl) := by
  have hreturn : Writes ["    return 301 https://$host$request_uri;"]
      [.simple "return" ["301", "https://$host$request_uri"]] :=
    writes_ofList rfl
  have hclosing : lexAll start "  \x7d".toList = (start, [.closing]) := lexAll_ofList rfl
  unfold forceSslLines forceSslDirectives
  refine .ite (fun _ => .nil) fun _ => ?_
  cases ssl.trustForwardedProto
  · exact Writes.block (by decide +kernel) hreturn hclosing
  · exact Writes.block (by decide +kernel) hreturn hclosing

lemma writes_acmeChallengeLocation : Writes acmeChallengeLocation [challengeDirective] :=
  Writes.block (lexAll_ofList rfl) (writes_cons rfl (writes_ofList rfl)) (lexAll_ofList rfl)

/-- The log files of a host of a kind. -/
lemma writes_logLines {family : String} (hfamily : IsField family) (id : ℕ) :
    Writes [ s!"  access_log /data/logs/{family}-{id}_access.log proxy;",
        s!"  error_log /data/logs/{family}-{id}_error.log warn;" ] (logDirectives family id) := by
  have hname : IsField (family ++ "-" ++ toString id) :=
    isField_append (isField_append hfamily (by decide)) (isField_toString id)
  have hassoc : ∀ before after : String, before ++ family ++ "-" ++ toString id ++ after =
      before ++ (family ++ "-" ++ toString id) ++ after := by
    intro before after
    simp only [String.append_assoc]
  have haccess : Writes [s!"  access_log /data/logs/{family}-{id}_access.log proxy;"]
      [.simple "access_log" [s!"/data/logs/{family}-{id}_access.log", "proxy"]] := by
    refine .simple ?_
    show lexAll start ("  access_log /data/logs/" ++ family ++ "-" ++ toString id ++
      "_access.log proxy;").toList = (start, [.word "access_log",
        .word ("/data/logs/" ++ family ++ "-" ++ toString id ++ "_access.log"), .word "proxy",
        .semicolon])
    rw [hassoc, hassoc]
    exact lexAll_inside hname (lexAll_ofList rfl) (lexAll_ofList rfl) rfl
  have herror : Writes [s!"  error_log /data/logs/{family}-{id}_error.log warn;"]
      [.simple "error_log" [s!"/data/logs/{family}-{id}_error.log", "warn"]] := by
    refine .simple ?_
    show lexAll start ("  error_log /data/logs/" ++ family ++ "-" ++ toString id ++
      "_error.log warn;").toList = (start, [.word "error_log",
        .word ("/data/logs/" ++ family ++ "-" ++ toString id ++ "_error.log"), .word "warn",
        .semicolon])
    rw [hassoc, hassoc]
    exact lexAll_inside hname (lexAll_ofList rfl) (lexAll_ofList rfl) rfl
  exact haccess.append herror

lemma writes_proxyVariables (h : IsField (orNone host.forwardHost)) :
    Writes (proxyVariables host) (variableDirectives host) := by
  have argument : ∀ {name w : String}, [.word "set", .word name] ++
      [.word (String.ofList [] ++ w), .semicolon] =
        [Token.word "set", .word name, .word w, .semicolon] := by
    intro name w
    rw [String.ofList_nil, String.empty_append]
    rfl
  have hscheme : Writes [s!"  set $forward_scheme {host.forwardScheme.value};"]
      [.simple "set" ["$forward_scheme", host.forwardScheme.value]] := by
    have hfield : IsField host.forwardScheme.value := by
      cases host.forwardScheme <;> decide
    have hbefore : lexAll start "  set $forward_scheme ".toList =
        (start, [.word "set", .word "$forward_scheme"]) := lexAll_ofList rfl
    exact .simple (lexAll_last hfield (.inl ⟨rfl, rfl⟩) hbefore argument)
  have hserver : Writes [s!"  set $server \"{orNone host.forwardHost}\";"]
      [.simple "set" ["$server", orNone host.forwardHost]] := by
    have hbefore : lexAll start "  set $server \"".toList =
        (⟨.quote false, []⟩, [.word "set", .word "$server"]) := lexAll_ofList rfl
    have hafter : lexAll ⟨.quote false, []⟩ "\";".toList = (start, [.word "", .semicolon]) :=
      lexAll_ofList rfl
    have hline := lexAll_around (.inr (.inr ⟨false, rfl, rfl⟩)) h hbefore
      (by simp) hafter
    rw [String.ofList_nil, String.empty_append, String.append_empty] at hline
    refine .simple ?_
    show lexAll start ("  set $server \"" ++ orNone host.forwardHost ++ "\";").toList = _
    rw [String.toList_append, String.toList_append]
    exact hline
  have hport : Writes [s!"  set $port {orNone (host.forwardPort.map toString)};"]
      [.simple "set" ["$port", orNone (host.forwardPort.map toString)]] := by
    have hfield : IsField (orNone (host.forwardPort.map toString)) := by
      cases host.forwardPort with
      | none => decide
      | some port => exact isField_toString port
    have hbefore : lexAll start "  set $port ".toList = (start, [.word "set", .word "$port"]) :=
      lexAll_ofList rfl
    exact .simple (lexAll_last hfield (.inl ⟨rfl, rfl⟩) hbefore argument)
  have hlogs := writes_logLines (by decide : IsField "proxy-host") host.id
  exact hscheme.append (hserver.append (hport.append hlogs))

lemma writes_hostIncludes (h : host.advancedConfig = "") :
    Writes (hostIncludes host) (exploitsDirectives host) := by
  have hnone : hostIncludes host =
      if host.blockExploits then [Text.rstrip blockExploits] else [] := by
    simp only [hostIncludes, h, ne_eq, not_true_eq_false, if_false, List.append_nil]
  rw [hnone]
  exact .ite (fun _ => .simple (by decide +kernel)) fun _ => .nil

lemma writes_assetLocation : Writes assetLocation [assetDirective] := by
  have hlines : assetLocation = assetCacheLines.map fun line => blanks 2 ++ line := by
    refine List.map_congr_left fun line hline => ?_
    obtain ⟨hne, hbreak, -⟩ := assetCacheLines_spec line hline
    exact indented_line hne hbreak 2
  rw [hlines]
  refine Writes.pad (by decide) ?_
  show Writes (["location ~* " ++ assetPattern ++ " \x7b"] ++ (assetCacheLines.drop 1).dropLast ++
    ["\x7d"]) _
  refine Writes.block (by decide +kernel) ?_ (lexAll_ofList rfl)
  iterate 16 refine writes_cons rfl ?_
  exact writes_ofList rfl

lemma writes_websocketLines (host : RuntimeHost) :
    Writes (websocketLines host) (websocketDirectives host) :=
  .ite (fun _ => writes_cons rfl (writes_cons rfl (writes_ofList rfl))) fun _ => .nil

/-- The name of the password file is a word. -/
lemma isField_userFile (l : AccessList) (hfile : ∀ file ∈ passwordFile, IsField file) :
    IsField (userFile l passwordFile) := by
  unfold userFile
  cases hcase : passwordFile.filter (· ≠ "") with
  | none => exact isField_toString l.id
  | some file => exact hfile file (Option.filter_eq_some_iff.mp hcase).1

/-- The line of a client rule. -/
lemma writes_clientLine {c : AccessClient} (h : IsField c.address) :
    Writes [c.line] [.simple c.directive.value [c.address]] := by
  have hbefore : lexAll start (c.directive.value ++ " ").toList =
      (start, [.word c.directive.value]) := by
    cases c.directive <;> decide
  refine .simple (lexAll_last h (.inl ⟨rfl, rfl⟩) hbefore ?_)
  rw [String.ofList_nil, String.empty_append]
  rfl

lemma writes_accessLines (hpolicy : ∀ l ∈ accessList, l.Plain)
    (hfile : ∀ file ∈ passwordFile, IsField file) :
    Writes (accessLines accessList passwordFile) (accessDirectives accessList passwordFile) := by
  cases accessList with
  | none => exact .nil
  | some l =>
    have hbasic : Writes ["auth_basic \"Authorization required\";"]
        [.simple "auth_basic" ["Authorization required"]] := writes_ofList rfl
    have huser : Writes [s!"auth_basic_user_file /data/access/{userFile l passwordFile};"]
        [.simple "auth_basic_user_file" ["/data/access/" ++ userFile l passwordFile]] :=
      .simple (lexAll_last (isField_userFile l hfile) (.inr rfl) (lexAll_ofList rfl) rfl)
    have hclients : Writes (l.clients.map AccessClient.line)
        (l.clients.map fun c => .simple c.directive.value [c.address]) := by
      rw [← List.flatMap_singleton' (l.clients.map AccessClient.line), List.flatMap_map,
        ← List.flatMap_singleton' (l.clients.map fun c => _), List.flatMap_map]
      exact .flatMap fun c hc => writes_clientLine (hpolicy l rfl c hc)
    have hsatisfy : Writes [if l.satisfyAny then "satisfy any;" else "satisfy all;"]
        [.simple "satisfy" [if l.satisfyAny then "any" else "all"]] := by
      cases l.satisfyAny
      · exact writes_ofList rfl
      · exact writes_ofList rfl
    refine Writes.append (.append (.ite (fun _ => ?_) fun _ => .nil)
      (.ite (fun _ => hclients.append (writes_ofList rfl)) fun _ => .nil))
      (.ite (fun _ => hsatisfy) fun _ => .nil)
    exact (hbasic.append huser).append (.ite (fun _ => writes_ofList rfl) fun _ => .nil)

lemma writes_renderLocation (h : host.Plain) {location : ProxyLocation}
    (hlocation : location ∈ host.locations) (hpolicy : ∀ l ∈ accessList, l.Plain)
    (hfile : ∀ file ∈ passwordFile, IsField file) :
    Writes (renderLocation location host accessList passwordFile)
      [locationDirective location host accessList passwordFile] := by
  obtain ⟨hpath, htarget, hconfig⟩ := h.locations location hlocation
  have hopening : lexAll start ("  location " ++ location.path ++ " \x7b").toList =
      (start, [.word "location", .word location.path, .opening]) := by
    have hbefore : lexAll start "  location ".toList = (start, [.word "location"]) :=
      lexAll_ofList rfl
    have hafter : lexAll ⟨.word, []⟩ " \x7b".toList = (start, [.word "", .opening]) :=
      lexAll_ofList rfl
    have hline := lexAll_around (.inl ⟨rfl, rfl⟩) hpath hbefore (fun _ => rfl) hafter
    rw [String.ofList_nil, String.empty_append, String.append_empty] at hline
    rw [String.toList_append, String.toList_append]
    exact hline
  have hheaders : Writes
      [ "    proxy_set_header Host $host;",
        "    proxy_set_header X-Forwarded-Scheme $scheme;",
        "    proxy_set_header X-Forwarded-Proto $scheme;",
        "    proxy_set_header X-Forwarded-For $remote_addr;",
        "    proxy_set_header X-Real-IP $remote_addr;" ] headerDirectives :=
    writes_cons rfl (writes_cons rfl (writes_cons rfl (writes_cons rfl (writes_ofList rfl))))
  have hpass : Writes [s!"    proxy_pass {location.forwardScheme.value}://{location.passTarget};"]
      [.simple "proxy_pass" [location.forwardScheme.value ++ "://" ++ location.passTarget]] := by
    have hfield : IsField (location.forwardScheme.value ++ "://" ++ location.passTarget) := by
      refine isField_append ?_ htarget
      cases location.forwardScheme <;> decide
    have hbefore : lexAll start "    proxy_pass ".toList = (start, [.word "proxy_pass"]) :=
      lexAll_ofList rfl
    have hassoc : "    proxy_pass " ++ location.forwardScheme.value ++ "://" ++
        location.passTarget ++ ";" = "    proxy_pass " ++
          (location.forwardScheme.value ++ "://" ++ location.passTarget) ++ ";" := by
      simp only [String.append_assoc]
    refine .simple ((congrArg (fun line : String => lexAll start line.toList) hassoc).trans
      (lexAll_last hfield (.inl ⟨rfl, rfl⟩) hbefore ?_))
    rw [String.ofList_nil, String.empty_append]
    rfl
  have haccess := (writes_accessLines hpolicy hfile).pad (lexAll_ofList rfl : lexAll start
    "    ".toList = (start, []))
  have hbody := ((hheaders.append hpass).append haccess).append (writes_websocketLines host)
  have hlines : renderLocation location host accessList passwordFile =
      ["  location " ++ location.path ++ " \x7b"] ++
      ([ "    proxy_set_header Host $host;",
        "    proxy_set_header X-Forwarded-Scheme $scheme;",
        "    proxy_set_header X-Forwarded-Proto $scheme;",
        "    proxy_set_header X-Forwarded-For $remote_addr;",
        "    proxy_set_header X-Real-IP $remote_addr;" ] ++
      [s!"    proxy_pass {location.forwardScheme.value}://{location.passTarget};"] ++
      (accessLines accessList passwordFile).map (fun line => "    " ++ line) ++
      websocketLines host) ++ ["  \x7d"] := by
    simp only [renderLocation, hconfig, ne_eq, not_true_eq_false, if_false, List.append_nil,
      List.append_assoc, List.cons_append, List.nil_append, ProxyLocation.passTarget]
    rfl
  rw [hlines]
  exact Writes.block hopening hbody (lexAll_ofList rfl)

lemma writes_renderDefaultProxyLocation (hpolicy : ∀ l ∈ accessList, l.Plain)
    (hfile : ∀ file ∈ passwordFile, IsField file) :
    Writes (renderDefaultProxyLocation host accessList passwordFile)
      [defaultDirective host accessList passwordFile] := by
  have haccess := (writes_accessLines hpolicy hfile).pad (lexAll_ofList rfl : lexAll start
    "    ".toList = (start, []))
  have hinclude : Writes ["    include conf.d/include/proxy.conf;"]
      [.simple "include" ["conf.d/include/proxy.conf"]] := writes_ofList rfl
  have hlines : renderDefaultProxyLocation host accessList passwordFile =
      ["  location / \x7b"] ++
      ((accessLines accessList passwordFile).map (fun line => "    " ++ line) ++
      websocketLines host ++ ["    include conf.d/include/proxy.conf;"]) ++ ["  \x7d"] := by
    simp only [renderDefaultProxyLocation, List.append_assoc, List.cons_append, List.nil_append]
    rfl
  rw [hlines]
  exact Writes.block (lexAll_ofList rfl) ((haccess.append (writes_websocketLines host)).append
    hinclude) (lexAll_ofList rfl)

/-- The lines up to the challenge location, without the one that opens the block. -/
lemma writes_start (h : host.Plain) (platform : PlatformConfig) :
    Writes (listen host.domainNames host.ssl.normalized platform.ipv6 ++
      sslLines host.ssl.normalized ++ forceSslLines host.ssl.normalized ++ acmeChallengeLocation)
      (startDirectives platform host) :=
  (((writes_listen _ h.domainNames _).append (writes_sslLines _)).append
    (writes_forceSslLines _)).append writes_acmeChallengeLocation

end Lines

/-! ## Server blocks -/

section Blocks

variable {platform : PlatformConfig} {host : RuntimeHost} {accessList : Option AccessList}
  {passwordFile : Option String}

/-- The lines of a server block are parsed into its directives. -/
lemma parse_server {lines : List String} {body : List Directive} (h : Writes lines body) :
    parse (Text.joinLines (["server \x7b"] ++ lines ++ ["\x7d"]) ++ "\n") =
      some [.block "server" [] body] := by
  refine (Writes.block ?_ h (lexAll_ofList rfl)).parse_joinLines (by simp)
  exact lexAll_ofList rfl

lemma parse_renderDisabledHost (h : host.Plain) {family : String} (hfamily : IsField family) :
    parse (renderDisabledHost platform host family) =
      some [.block "server" [] (disabledDirectives platform host family)] := by
  have hbody := (((writes_listen host.ssl.normalized h.domainNames platform.ipv6).append
    (writes_sslLines host.ssl.normalized)).append (writes_logLines hfamily host.id)).append
      (writes_ofList rfl : Writes ["  return 503;"] [.simple "return" ["503"]])
  refine Eq.trans (congrArg (fun lines => parse (Text.joinLines lines ++ "\n")) ?_)
    (parse_server hbody)
  simp only [List.append_assoc, List.cons_append, List.nil_append]

lemma parse_renderProxy (h : host.Plain) (hkind : host.kind = .proxy) (henabled : host.enabled = true)
    (hpolicy : ∀ l ∈ accessList, l.Plain) (hfile : ∀ file ∈ passwordFile, IsField file) :
    parse (renderProxy platform host accessList passwordFile) =
      some [.block "server" [] (proxyDirectives platform host accessList passwordFile)] := by
  have hlocations : Writes
      ((sortedBy textLe ProxyLocation.path host.locations).flatMap fun location =>
        renderLocation location host accessList passwordFile)
      ((sortedBy textLe ProxyLocation.path host.locations).map fun location =>
        locationDirective location host accessList passwordFile) := by
    rw [← List.flatMap_singleton' (List.map _ _), List.flatMap_map]
    exact .flatMap fun location hl =>
      writes_renderLocation h (mem_sortedBy.mp hl) hpolicy hfile
  have hinclude : Writes ["  include custom/server_proxy.conf;"]
      [.simple "include" ["custom/server_proxy.conf"]] := writes_ofList rfl
  have hstart := ((writes_start h platform).append (writes_proxyVariables (h.forwardHost hkind))).append
    (writes_hostIncludes h.advancedConfig)
  have hassets : Writes (if host.cachingEnabled then assetLocation else [])
      (if host.cachingEnabled then [assetDirective] else []) :=
    .ite (fun _ => writes_assetLocation) fun _ => .nil
  have hdefault : Writes
      (if hasDefaultLocation host then renderDefaultProxyLocation host accessList passwordFile
      else [])
      (if hasDefaultLocation host then [defaultDirective host accessList passwordFile] else []) :=
    .ite (fun _ => writes_renderDefaultProxyLocation hpolicy hfile) fun _ => .nil
  have hbody := (((hstart.append hassets).append hlocations).append hdefault).append hinclude
  rw [renderProxy, if_neg (by simp [henabled])]
  refine Eq.trans (congrArg (fun lines => parse (Text.joinLines lines ++ "\n")) ?_)
    (parse_server hbody)
  simp only [proxyLines, serverStart, List.append_assoc, List.cons_append, List.nil_append]

/-- Nothing is written for raw configuration that is not given. -/
lemma hasRootLocation_empty : hasRootLocation "" = false := by
  decide +kernel

/-- The line of a redirection. -/
lemma writes_returnLine (h : IsField (orNone host.forwardDomainName)) :
    Writes [s!"    return {host.forwardHttpCode} {redirectTarget host};"]
      [.simple "return" [toString host.forwardHttpCode, redirectTarget host]] := by
  have hcode : lexAll start ("    return " ++ toString host.forwardHttpCode ++ " ").toList =
      (start, [.word "return", .word (toString host.forwardHttpCode)]) := by
    have hbefore : lexAll start "    return ".toList = (start, [.word "return"]) :=
      lexAll_ofList rfl
    have hline := lexAll_around (.inl ⟨rfl, rfl⟩) (isField_toString host.forwardHttpCode) hbefore
      (fun _ => rfl) (rfl : lexAll ⟨.word, []⟩ [' '] = (start, [.word ""]))
    rw [String.ofList_nil, String.empty_append, String.append_empty] at hline
    rw [String.toList_append, String.toList_append]
    exact hline
  have hscheme : ∀ scheme ∈ ["$scheme", "auto", "http", "https"],
      lexAll start (scheme ++ "://").toList = (⟨.word, (scheme ++ "://").toList⟩, []) := by
    decide +kernel
  have hsuffix : ∀ suffix ∈ ["", "$request_uri"],
      lexAll ⟨.word, []⟩ (suffix ++ ";").toList = (start, [.word suffix, .semicolon]) := by
    decide +kernel
  have hline : ∀ scheme ∈ ["$scheme", "auto", "http", "https"], ∀ suffix ∈ ["", "$request_uri"],
      lexAll start ("    return " ++ toString host.forwardHttpCode ++ " " ++
        (scheme ++ "://" ++ orNone host.forwardDomainName ++ suffix) ++ ";").toList =
      (start, [.word "return", .word (toString host.forwardHttpCode),
        .word (scheme ++ "://" ++ orNone host.forwardDomainName ++ suffix), .semicolon]) := by
    intro scheme hs suffix hx
    have hbefore : lexAll start ("    return " ++ toString host.forwardHttpCode ++ " " ++
        (scheme ++ "://")).toList = (⟨.word, (scheme ++ "://").toList⟩,
          [.word "return", .word (toString host.forwardHttpCode)]) := by
      rw [String.toList_append, lexAll_append, hcode]
      dsimp only
      rw [hscheme scheme hs]
      rfl
    have hassoc : "    return " ++ toString host.forwardHttpCode ++ " " ++
        (scheme ++ "://" ++ orNone host.forwardDomainName ++ suffix) ++ ";" =
          ("    return " ++ toString host.forwardHttpCode ++ " " ++ (scheme ++ "://")) ++
            orNone host.forwardDomainName ++ (suffix ++ ";") := by
      simp only [String.append_assoc]
    rw [hassoc]
    refine lexAll_inside h hbefore (hsuffix suffix hx) ?_
    rw [String.ofList_toList]
    rfl
  refine .simple (hline _ ?_ _ ?_)
  · split
    · simp
    · cases host.forwardScheme <;> simp [ForwardScheme.value]
  · split <;> simp

lemma parse_renderRedirection (h : host.Plain) (hkind : host.kind = .redirect) (henabled : host.enabled = true) :
    parse (renderRedirection platform host) =
      some [.block "server" [] (redirectionDirectives platform host)] := by
  have hreturn := writes_returnLine (h.forwardDomainName hkind)
  have hlocation : Writes
      [ "  location / \x7b", s!"    return {host.forwardHttpCode} {redirectTarget host};",
        "  \x7d" ]
      [.block "location" ["/"]
        [.simple "return" [toString host.forwardHttpCode, redirectTarget host]]] :=
    Writes.block (lexAll_ofList rfl) hreturn (lexAll_ofList rfl)
  have hinclude : Writes ["  include custom/server_redirect.conf;"]
      [.simple "include" ["custom/server_redirect.conf"]] := writes_ofList rfl
  have hstart := (writes_start h platform).append (writes_hostIncludes h.advancedConfig)
  have hbody := (hstart.append hlocation).append hinclude
  rw [renderRedirection, if_neg (by simp [henabled])]
  refine Eq.trans (congrArg (fun lines => parse (Text.joinLines lines ++ "\n")) ?_)
    (parse_server hbody)
  simp only [h.advancedConfig, hasRootLocation_empty, Bool.false_eq_true, if_false, serverStart,
    List.append_assoc, List.cons_append, List.nil_append]
  rfl

lemma parse_renderDead (h : host.Plain) (henabled : host.enabled = true) :
    parse (renderDead platform host) =
      some [.block "server" [] (deadDirectives platform host)] := by
  have hlocation : Writes ["  location / \x7b return 404; \x7d"]
      [.block "location" ["/"] [.simple "return" ["404"]]] :=
    (ReadAs.single (lexAll_ofList rfl)).congr rfl
  have hinclude : Writes ["  include custom/server_dead.conf;"]
      [.simple "include" ["custom/server_dead.conf"]] := writes_ofList rfl
  have hstart := (writes_start h platform).append (writes_hostIncludes h.advancedConfig)
  have hbody := (hstart.append hlocation).append hinclude
  rw [renderDead, if_neg (by simp [henabled])]
  refine Eq.trans (congrArg (fun lines => parse (Text.joinLines lines ++ "\n")) ?_)
    (parse_server hbody)
  simp only [h.advancedConfig, hasRootLocation_empty, Bool.false_eq_true, if_false, serverStart,
    List.append_assoc, List.cons_append, List.nil_append]

/-- The server block of a host is parsed into its directives. -/
theorem parse_serverBlock (h : host.Plain) (hpolicy : ∀ l ∈ accessList, l.Plain)
    (hfile : ∀ file ∈ passwordFile, IsField file) :
    parse (serverBlock platform host accessList passwordFile) =
      some [.block "server" [] (hostDirectives platform host accessList passwordFile)] := by
  unfold serverBlock hostDirectives
  cases hkind : host.kind <;> cases henabled : host.enabled <;> dsimp only
  · rw [renderProxy, if_pos henabled]
    exact parse_renderDisabledHost h (by decide)
  · exact parse_renderProxy h hkind henabled hpolicy hfile
  · rw [renderRedirection, if_pos henabled]
    exact parse_renderDisabledHost h (by decide)
  · exact parse_renderRedirection h hkind henabled
  · rw [renderDead, if_pos henabled]
    exact parse_renderDisabledHost h (by decide)
  · exact parse_renderDead h henabled

end Blocks

end Portwyrm.Runtime

import Portwyrm.Base.Serving
import Portwyrm.Runtime.HostDirectives

/-!
# Answers for hosts

What the fields of a host say about a request, and that Nginx answers just so when it reads the text
that is rendered for the host.
-/

namespace Portwyrm.Runtime

open Base Base.Tokens Base.Directives Base.Serving Base.LongestPrefix

/-! ## What a host says -/

/-- The path of the challenges of a certificate authority. -/
def challengePath : List Char := "/.well-known/acme-challenge/".toList

/-- The expression for the paths that are blocked. -/
def exploitsPattern : String := "/(?:\\.git|\\.env|wp-config\\.php)"

/-- The host takes requests over HTTPS only. -/
def RuntimeHost.forcesHttps (host : RuntimeHost) : Bool :=
  host.ssl.normalized.certificateId ≠ 0 && host.ssl.normalized.forced

/-- The protocol of a request, as a trusted proxy tells it or as Nginx sees it. -/
def RuntimeHost.protocol (host : RuntimeHost) (request : HttpRequest) : String :=
  if host.ssl.normalized.trustForwardedProto then request.forwardedProto else request.scheme

/-- The server that a proxy host forwards to. -/
def RuntimeHost.target (host : RuntimeHost) : String :=
  host.forwardScheme.value ++ "://" ++ orNone host.forwardHost ++ ":" ++
    orNone (host.forwardPort.map toString)

/-- The server that a location forwards to. -/
def ProxyLocation.server (l : ProxyLocation) : String :=
  l.forwardScheme.value ++ "://" ++ l.forwardHost ++ ":" ++ toString l.forwardPort

/-- The path that a location forwards a request to. -/
def ProxyLocation.upstreamPath (l : ProxyLocation) (path : List Char) : List Char :=
  if l.forwardPath = "" then path else l.forwardPath.toList ++ path.drop l.path.toList.length

/-- The location that a proxy host names for a path: the one with the longest path. -/
def RuntimeHost.locationOf (host : RuntimeHost) (path : List Char) : Option ProxyLocation :=
  longest (fun l => l.path.toList) host.locations path

/-- A path of the challenges, for which a proxy host names no location that says more. -/
def RuntimeHost.isChallenge (host : RuntimeHost) (path : List Char) : Bool :=
  challengePath.isPrefixOf path &&
    (host.kind ≠ .proxy || (host.locationOf path).all fun l =>
      l.path.toList.length < challengePath.length)

/-- Where a redirection sends a request. -/
def RuntimeHost.redirectUrl (host : RuntimeHost) (request : HttpRequest) : String :=
  (if host.forwardScheme = .auto then request.scheme else host.forwardScheme.value) ++ "://" ++
    orNone host.forwardDomainName ++ (if host.preservePath then request.uri else "")

/-- The answer of a host: a disabled host is unavailable, plain HTTP is sent to HTTPS where the host
forces it, challenges are answered from their files, and blocked paths are denied.  A redirection
and a dead host answer the rest by a status.  A proxy host forwards assets to its server when it
caches them, and otherwise to the server of the longest location or to its own, for the clients that
its policy admits. -/
def RuntimeHost.answer (host : RuntimeHost) (accessList : Option AccessList)
    (passwordFile : Option String) (accepts : Bool → List Char → List Char → Bool)
    (request : HttpRequest) : Answer :=
  if host.enabled = false then .returned ["503"]
  else if host.forcesHttps ∧ host.protocol request ≠ "https" then
    .returned ["301", "https://" ++ request.host ++ request.uri]
  else if host.isChallenge request.path then .handled [] (.files (some "/data/acme-challenge"))
  else if host.blockExploits ∧ accepts true exploitsPattern.toList request.path then
    .handled [.simple "deny" ["all"]] (.files none)
  else
    match host.kind with
    | .redirect => .returned [toString host.forwardHttpCode, host.redirectUrl request]
    | .dead => .returned ["404"]
    | .proxy =>
      if host.cachingEnabled ∧ accepts true assetPattern.toList request.path then
        .handled [] (.passed host.target request.path)
      else
        let access := accessRules (accessDirectives accessList passwordFile)
        match host.locationOf request.path with
        | some l => .handled access (.passed l.server (l.upstreamPath request.path))
        | none => .handled access (.passed host.target request.path)

/-! ## Included files -/

/-- The files that the server blocks of hosts include. -/
structure Included (files : String → Option String) : Prop where
  proxy : files "conf.d/include/proxy.conf" = some renderProxyInclude
  exploits : files "conf.d/include/block-exploits.conf" = some renderBlockExploits
  serverProxy : files "custom/server_proxy.conf" = some ""
  serverRedirect : files "custom/server_redirect.conf" = some ""
  serverDead : files "custom/server_dead.conf" = some ""

/-- The directives of the include that forwards. -/
def proxyInclude : List Directive :=
  [ .simple "proxy_set_header" ["Host", "$host"],
    .simple "proxy_set_header" ["X-Real-IP", "$remote_addr"],
    .simple "proxy_set_header" ["X-Forwarded-For", "$proxy_add_x_forwarded_for"],
    .simple "proxy_set_header" ["X-Forwarded-Proto", "$scheme"],
    .simple "proxy_pass" ["$forward_scheme://$server:$port"] ]

/-- The location that blocks paths. -/
def exploitsLocation : Directive :=
  .block "location" ["~*", exploitsPattern] [.simple "deny" ["all"]]

set_option maxRecDepth 4000 in
lemma parse_renderProxyInclude : parse renderProxyInclude = some proxyInclude := by
  have hwrites : Writes
      [ "proxy_set_header Host $host;",
        "proxy_set_header X-Real-IP $remote_addr;",
        "proxy_set_header X-Forwarded-For $proxy_add_x_forwarded_for;",
        "proxy_set_header X-Forwarded-Proto $scheme;",
        "proxy_pass $forward_scheme://$server:$port;" ] proxyInclude :=
    writes_cons rfl (writes_cons rfl (writes_cons rfl (writes_cons rfl (writes_ofList rfl))))
  refine Eq.trans (congrArg parse ?_) (hwrites.parse_joinLines (by simp))
  decide +kernel

set_option maxRecDepth 4000 in
lemma parse_renderBlockExploits : parse renderBlockExploits = some [exploitsLocation] := by
  have hwrites : Writes ["location ~* /(?:\\.git|\\.env|wp-config\\.php) \x7b deny all; \x7d"]
      [exploitsLocation] :=
    (ReadAs.single (lexAll_ofList rfl)).congr rfl
  refine Eq.trans (congrArg parse ?_) (hwrites.parse_joinLines (by simp))
  decide +kernel

lemma parse_empty : parse "" = some [] := rfl

/-! ## The rewriting -/

section Rewriting

variable {platform : PlatformConfig} {host : RuntimeHost} {accessList : Option AccessList}
  {passwordFile : Option String} {request : HttpRequest} {values : Variables}

/-- The names of the directives that take no part in the rewriting and include nothing. -/
def quietNames : List String :=
  [ "listen", "server_name", "ssl_certificate", "ssl_certificate_key", "ssl_session_cache",
    "add_header", "location", "access_log", "error_log", "auth_basic", "auth_basic_user_file",
    "proxy_set_header", "proxy_http_version", "proxy_pass", "allow", "deny", "satisfy", "root",
    "try_files", "if_modified_since", "proxy_cache", "proxy_cache_key", "proxy_ignore_headers",
    "proxy_cache_valid", "proxy_hide_header", "proxy_cache_bypass", "proxy_no_cache",
    "proxy_cache_use_stale", "proxy_connect_timeout", "proxy_read_timeout", "expires" ]

/-- Directives of such names. -/
def Quiets (directives : List Directive) : Prop := ∀ d ∈ directives, nameOf d ∈ quietNames

lemma ne_of_mem_quietNames {name : String} (h : name ∈ quietNames) :
    name ≠ "include" ∧ name ≠ "return" ∧ name ≠ "set" ∧ name ≠ "if" := by
  have hall : ∀ name ∈ quietNames,
      name ≠ "include" ∧ name ≠ "return" ∧ name ≠ "set" ∧ name ≠ "if" := by
    decide +kernel
  exact hall name h

lemma Quiets.neutral {directives : List Directive} (h : Quiets directives) :
    ∀ d ∈ directives, Neutral d := by
  intro d hd
  obtain ⟨-, hreturn, hset, hif⟩ := ne_of_mem_quietNames (h d hd)
  exact ⟨argumentsOf_of_ne hreturn, argumentsOf_of_ne hset, blockOf_of_ne hif⟩

lemma Quiets.expanded {directives : List Directive} (h : Quiets directives)
    (files : String → Option String) : expanded files directives = directives :=
  expanded_eq_self fun d hd => argumentsOf_of_ne (ne_of_mem_quietNames (h d hd)).1

lemma Quiets.append {directives directives' : List Directive} (h : Quiets directives)
    (h' : Quiets directives') : Quiets (directives ++ directives') :=
  List.forall_mem_append.mpr ⟨h, h'⟩

lemma Quiets.nil : Quiets [] := fun _ h => absurd h List.not_mem_nil

lemma Quiets.ite {p : Prop} [Decidable p] {directives directives' : List Directive}
    (h : Quiets directives) (h' : Quiets directives') :
    Quiets (if p then directives else directives') := by
  split
  · exact h
  · exact h'

lemma quiets_listenDirectives (names : List String) (ssl : SSLSettings) (ipv6 : Bool) :
    Quiets (listenDirectives names ssl ipv6) := by
  have hlisten : ∀ arguments, Quiets [.simple "listen" arguments] := by
    simp [Quiets, nameOf, quietNames]
  have hnames : Quiets [.simple "server_name" names] := by
    simp [Quiets, nameOf, quietNames]
  exact (((hlisten _).append (.ite (hlisten _) .nil)).append
    (.ite ((hlisten _).append (.ite (hlisten _) .nil)) .nil)).append hnames

lemma quiets_sslDirectives (ssl : SSLSettings) : Quiets (sslDirectives ssl) := by
  refine .ite .nil (.append ?_ (.ite ?_ .nil))
  · simp [Quiets, nameOf, quietNames]
  · simp [Quiets, nameOf, quietNames]

/-- The names of the directives of a policy and of those that let a connection be upgraded. -/
def policyNames : List String :=
  [ "auth_basic", "auth_basic_user_file", "proxy_set_header", "allow", "deny", "satisfy",
    "proxy_http_version" ]

lemma nameOf_accessDirectives :
    ∀ d ∈ accessDirectives accessList passwordFile, nameOf d ∈ policyNames := by
  cases accessList with
  | none => exact fun d hd => absurd hd List.not_mem_nil
  | some l =>
    have hite : ∀ {p : Prop} [Decidable p] {directives : List Directive},
        (∀ d ∈ directives, nameOf d ∈ policyNames) →
        ∀ d ∈ if p then directives else [], nameOf d ∈ policyNames := by
      intro p _ directives h d hd
      split at hd
      · exact h d hd
      · exact absurd hd List.not_mem_nil
    have hclients : ∀ d ∈ l.clients.map fun c => Directive.simple c.directive.value [c.address],
        nameOf d ∈ policyNames := by
      intro d hd
      obtain ⟨c, -, rfl⟩ := List.mem_map.mp hd
      cases c.directive <;> simp [nameOf, AccessDirective.value, policyNames]
    refine List.forall_mem_append.mpr ⟨List.forall_mem_append.mpr ⟨hite (List.forall_mem_append.mpr
      ⟨?_, hite ?_⟩), hite (List.forall_mem_append.mpr ⟨hclients, ?_⟩)⟩, hite ?_⟩ <;>
      simp [nameOf, policyNames]

lemma nameOf_websocketDirectives :
    ∀ d ∈ websocketDirectives host, nameOf d ∈ policyNames := by
  unfold websocketDirectives
  split <;> simp [nameOf, policyNames]

lemma quiets_of_policyNames {directives : List Directive}
    (h : ∀ d ∈ directives, nameOf d ∈ policyNames) : Quiets directives := by
  have hall : ∀ name ∈ policyNames, name ∈ quietNames := by
    decide +kernel
  exact fun d hd => hall _ (h d hd)

/-- Locations take no part in the rewriting. -/
lemma quiets_locations {directives : List Directive}
    (h : ∀ d ∈ directives, nameOf d = "location") : Quiets directives := by
  intro d hd
  rw [h d hd]
  decide

/-- The variables of a proxy host. -/
def hostValues (host : RuntimeHost) (values : Variables) : Variables :=
  Function.update (Function.update (Function.update values "forward_scheme"
    host.forwardScheme.value) "server" (orNone host.forwardHost))
    "port" (orNone (host.forwardPort.map toString))

/-- The assignments of a proxy host. -/
lemma rewrite_variableDirectives (h : IsField (orNone host.forwardHost)) :
    rewrite values (variableDirectives host) = .ok (hostValues host values) := by
  have hscheme : '$' ∉ host.forwardScheme.value.toList := by
    cases host.forwardScheme <;> decide
  have hserver : '$' ∉ (orNone host.forwardHost).toList := fun hmem =>
    absurd (h.2 _ hmem).2.2.1 (by simp)
  have hport : '$' ∉ (orNone (host.forwardPort.map toString)).toList := by
    cases host.forwardPort with
    | none => decide
    | some port => exact fun hmem => absurd (((isField_toString port).2 _ hmem).2.2.1) (by simp)
  have hset : ∀ {values : Variables} {name value : String}, '$' ∉ value.toList →
      rewriteStep values (.simple "set" [name, value]) =
        .ok (Function.update values (String.ofList (name.toList.drop 1)) value) := by
    intro values name value hvalue
    have hexpand : expand values value = value := expand_plain hvalue
    rw [rewriteStep, show blockOf "if" (.simple "set" [name, value]) = none from rfl]
    dsimp only
    rw [assignStep, show argumentsOf "return" (.simple "set" [name, value]) = none by
      exact argumentsOf_of_ne (by simp [nameOf]), argumentsOf, if_pos rfl]
    dsimp only
    rw [hexpand]
  have hlogs : Quiets (logDirectives "proxy-host" host.id) := by
    simp [Quiets, logDirectives, nameOf, quietNames]
  rw [variableDirectives, rewrite_append]
  have hfirst : rewrite values
      [ .simple "set" ["$forward_scheme", host.forwardScheme.value],
        .simple "set" ["$server", orNone host.forwardHost],
        .simple "set" ["$port", orNone (host.forwardPort.map toString)] ] =
      .ok (hostValues host values) := by
    rw [rewrite, List.foldlM_cons, hset hscheme]
    show (List.foldlM rewriteStep _ _ : Except _ _) = _
    rw [List.foldlM_cons, hset hserver]
    show (List.foldlM rewriteStep _ _ : Except _ _) = _
    rw [List.foldlM_cons, hset hport]
    show (Except.ok _ : Except (List String) Variables) = _
    rfl
  rw [hfirst]
  exact rewrite_neutral hlogs.neutral

lemma expand_https : expand values "https://$host$request_uri" =
    "https://" ++ values "host" ++ values "request_uri" := by
  have htext : "https://$host$request_uri".toList =
      ['$'].intercalate ["https://".toList, "host".toList, "request_uri".toList] := by
    decide
  rw [expand_eq htext (by decide), List.flatMap_cons, List.flatMap_singleton,
    ← List.append_nil "host".toList, ← List.append_nil "request_uri".toList,
    expandName_append (by decide) (by simp), expandName_append (by decide) (by simp)]
  simp only [String.ofList_append, String.ofList_toList, List.append_nil, String.append_assoc]

/-- The condition on the protocol of a request. -/
lemma holds_protocol (trusted : Bool) :
    holds request.values
      [if trusted then "($http_x_forwarded_proto" else "($scheme", "!=", "https)"] =
    decide ((if trusted then request.forwardedProto else request.scheme) ≠ "https") := by
  have hvariable : ∀ name : String, '$' ∉ name.toList → (∀ c ∈ name.toList, isNameChar c = true) →
      expand request.values (String.ofList ('$' :: name.toList)) = request.values name := by
    intro name hname hletters
    have htext : (String.ofList ('$' :: name.toList)).toList =
        ['$'].intercalate [[], name.toList] := by
      rw [String.toList_ofList]
      simp
    rw [expand_eq htext (by simpa using hname), List.flatMap_singleton, List.nil_append,
      ← List.append_nil name.toList, expandName_append hletters (by simp)]
    simp
  have hhttps : expand request.values "https" = "https" := expand_plain (by decide)
  cases trusted with
  | false =>
    have hscheme := hvariable "scheme" (by decide) (by decide)
    show decide (expand request.values "$scheme" ≠ expand request.values "https") = _
    rw [hhttps, show "$scheme" = String.ofList ('$' :: "scheme".toList) from rfl, hscheme]
    rfl
  | true =>
    have hproto := hvariable "http_x_forwarded_proto" (by decide) (by decide)
    show decide (expand request.values "$http_x_forwarded_proto" ≠
      expand request.values "https") = _
    rw [hhttps, show "$http_x_forwarded_proto" =
      String.ofList ('$' :: "http_x_forwarded_proto".toList) from rfl, hproto]
    rfl

/-- Plain HTTP is sent to HTTPS where the host forces it. -/
lemma rewrite_forceSslDirectives : rewrite request.values (forceSslDirectives host.ssl.normalized) =
    if host.forcesHttps ∧ host.protocol request ≠ "https" then
      .error ["301", "https://" ++ request.host ++ request.uri]
    else .ok request.values := by
  have hforces : host.forcesHttps = true ↔
      ¬ (host.ssl.normalized.certificateId = 0 ∨ host.ssl.normalized.forced = false) := by
    simp [RuntimeHost.forcesHttps]
  unfold forceSslDirectives
  by_cases hoff : host.ssl.normalized.certificateId = 0 ∨ host.ssl.normalized.forced = false
  · rw [if_pos hoff, if_neg fun h => hforces.mp h.1 hoff]
    rfl
  · rw [if_neg hoff]
    have hreturn : assignStep request.values (.simple "return" ["301", "https://$host$request_uri"]) =
        .error ["301", "https://" ++ request.host ++ request.uri] := by
      have hcode : expand request.values "301" = "301" := expand_plain (by decide)
      rw [assignStep, argumentsOf, if_pos rfl]
      dsimp only
      rw [List.map_cons, List.map_cons, List.map_nil, hcode, expand_https]
      rfl
    have hstep : holds request.values
        [if host.ssl.normalized.trustForwardedProto then "($http_x_forwarded_proto"
          else "($scheme", "!=", "https)"] = decide (host.protocol request ≠ "https") :=
      holds_protocol _
    rw [rewrite, List.foldlM_cons, rewriteStep, blockOf, if_pos rfl]
    dsimp only
    rw [hstep]
    by_cases hplain : host.protocol request ≠ "https"
    · rw [if_pos (decide_eq_true hplain), if_pos ⟨hforces.mpr hoff, hplain⟩, List.foldlM_cons,
        hreturn]
      rfl
    · rw [if_neg (by simpa using hplain), if_neg fun h => hplain h.2]
      rfl

/-- The directives up to the challenge location. -/
lemma rewrite_startDirectives {rest : List Directive} :
    rewrite request.values (startDirectives platform host ++ rest) =
      if host.forcesHttps ∧ host.protocol request ≠ "https" then
        .error ["301", "https://" ++ request.host ++ request.uri]
      else rewrite request.values rest := by
  have hchallenge : Quiets [challengeDirective] := quiets_locations (by simp [challengeDirective, nameOf])
  have hbefore := (quiets_listenDirectives host.domainNames host.ssl.normalized platform.ipv6).append
    (quiets_sslDirectives host.ssl.normalized)
  rw [startDirectives, List.append_assoc, List.append_assoc, rewrite_neutral_append hbefore.neutral,
    rewrite_append, rewrite_forceSslDirectives]
  split
  · rfl
  · exact rewrite_neutral_append hchallenge.neutral

end Rewriting

/-! ## The locations -/

section Locations

variable {platform : PlatformConfig} {host : RuntimeHost} {accessList : Option AccessList}
  {passwordFile : Option String} {files : String → Option String}

lemma expanded_startDirectives :
    expanded files (startDirectives platform host) = startDirectives platform host := by
  refine expanded_eq_self ?_
  have hforce : ∀ d ∈ forceSslDirectives host.ssl.normalized, argumentsOf "include" d = none := by
    unfold forceSslDirectives
    split
    · exact fun d hd => absurd hd List.not_mem_nil
    · exact List.forall_mem_singleton.mpr rfl
  have hquiet : ∀ {directives : List Directive}, Quiets directives →
      ∀ d ∈ directives, argumentsOf "include" d = none := fun h d hd =>
    argumentsOf_of_ne (ne_of_mem_quietNames (h d hd)).1
  simp only [startDirectives, List.forall_mem_append]
  exact ⟨⟨⟨hquiet (quiets_listenDirectives _ _ _), hquiet (quiets_sslDirectives _)⟩, hforce⟩,
    List.forall_mem_singleton.mpr rfl⟩

/-- The location that blocks paths, when the host blocks them. -/
def exploitsLocations (host : RuntimeHost) : List Directive :=
  if host.blockExploits then [exploitsLocation] else []

lemma expanded_exploitsDirectives (h : Included files) :
    expanded files (exploitsDirectives host) = exploitsLocations host := by
  unfold exploitsDirectives exploitsLocations
  split
  · exact expanded_include h.exploits parse_renderBlockExploits
  · rfl

/-- The locations of a proxy host behind the challenges. -/
def proxyLocations (host : RuntimeHost) (accessList : Option AccessList)
    (passwordFile : Option String) : List Directive :=
  (if host.cachingEnabled then [assetDirective] else []) ++
  ((sortedBy textLe ProxyLocation.path host.locations).map fun location =>
    locationDirective location host accessList passwordFile) ++
  (if hasDefaultLocation host then [defaultDirective host accessList passwordFile] else [])

lemma nameOf_proxyLocations :
    ∀ d ∈ proxyLocations host accessList passwordFile, nameOf d = "location" := by
  intro d hd
  simp only [proxyLocations, List.mem_append, List.mem_map] at hd
  rcases hd with (hd | ⟨location, -, rfl⟩) | hd
  · split at hd
    · rw [List.mem_singleton.mp hd]
      rfl
    · exact absurd hd List.not_mem_nil
  · rfl
  · split at hd
    · rw [List.mem_singleton.mp hd]
      rfl
    · exact absurd hd List.not_mem_nil

lemma expanded_proxyDirectives (h : Included files) :
    expanded files (proxyDirectives platform host accessList passwordFile) =
      startDirectives platform host ++ (variableDirectives host ++
        (exploitsLocations host ++ proxyLocations host accessList passwordFile)) := by
  have hvariables : expanded files (variableDirectives host) = variableDirectives host :=
    expanded_eq_self (by simp [variableDirectives, logDirectives, argumentsOf])
  have hnames : ∀ d ∈ proxyLocations host accessList passwordFile, nameOf d = "location" :=
    nameOf_proxyLocations
  have hlocations := (quiets_locations hnames).expanded files
  have hsplit : proxyDirectives platform host accessList passwordFile =
      startDirectives platform host ++ (variableDirectives host ++ (exploitsDirectives host ++
        (proxyLocations host accessList passwordFile ++
          [.simple "include" ["custom/server_proxy.conf"]]))) := by
    simp only [proxyDirectives, proxyLocations, List.append_assoc]
  rw [hsplit, expanded_append, expanded_startDirectives, expanded_append, hvariables,
    expanded_append, expanded_exploitsDirectives h, expanded_append, hlocations,
    expanded_include h.serverProxy parse_empty, List.append_nil]

/-- The root location of a redirection and of a dead host. -/
def rootLocation (arguments : List String) : Directive :=
  .block "location" ["/"] [.simple "return" arguments]

lemma expanded_redirectionDirectives (h : Included files) :
    expanded files (redirectionDirectives platform host) =
      startDirectives platform host ++ (exploitsLocations host ++
        [rootLocation [toString host.forwardHttpCode, redirectTarget host]]) := by
  have hroot : ∀ arguments, expanded files [rootLocation arguments] = [rootLocation arguments] :=
    fun arguments => expanded_eq_self (List.forall_mem_singleton.mpr rfl)
  have hsplit : redirectionDirectives platform host =
      startDirectives platform host ++ (exploitsDirectives host ++
        ([rootLocation [toString host.forwardHttpCode, redirectTarget host]] ++
          [.simple "include" ["custom/server_redirect.conf"]])) := by
    simp only [redirectionDirectives, rootLocation, List.append_assoc]
  rw [hsplit, expanded_append, expanded_startDirectives, expanded_append,
    expanded_exploitsDirectives h, expanded_append, hroot,
    expanded_include h.serverRedirect parse_empty, List.append_nil]

lemma expanded_deadDirectives (h : Included files) :
    expanded files (deadDirectives platform host) =
      startDirectives platform host ++ (exploitsLocations host ++ [rootLocation ["404"]]) := by
  have hroot : ∀ arguments, expanded files [rootLocation arguments] = [rootLocation arguments] :=
    fun arguments => expanded_eq_self (List.forall_mem_singleton.mpr rfl)
  have hsplit : deadDirectives platform host =
      startDirectives platform host ++ (exploitsDirectives host ++
        ([rootLocation ["404"]] ++ [.simple "include" ["custom/server_dead.conf"]])) := by
    simp only [deadDirectives, rootLocation, List.append_assoc]
  rw [hsplit, expanded_append, expanded_startDirectives, expanded_append,
    expanded_exploitsDirectives h, expanded_append, hroot,
    expanded_include h.serverDead parse_empty, List.append_nil]

/-- The choices that Nginx has for a path: the challenges, -/
def challengeChoice : Location := ⟨.decisive, challengePath, challengeBody⟩

/-- the blocked paths, -/
def exploitsChoice : Location := ⟨.pattern true, exploitsPattern.toList, [.simple "deny" ["all"]]⟩

/-- the assets, -/
def assetChoice : Location := ⟨.pattern true, assetPattern.toList, assetBody⟩

/-- a location of the host, -/
def locationChoice (host : RuntimeHost) (accessList : Option AccessList)
    (passwordFile : Option String) (l : ProxyLocation) : Location :=
  ⟨.start, l.path.toList, locationBody l host accessList passwordFile⟩

/-- and the root. -/
def rootChoice (body : List Directive) : Location := ⟨.start, ['/'], body⟩

lemma location?_of_ne {d : Directive} (h : nameOf d ≠ "location") : location? d = none := by
  rw [location?, blockOf_of_ne h]

lemma filterMap_of_ne {directives : List Directive}
    (h : ∀ d ∈ directives, nameOf d ≠ "location") : directives.filterMap location? = [] :=
  List.filterMap_eq_nil_iff.mpr fun d hd => location?_of_ne (h d hd)

lemma filterMap_startDirectives :
    (startDirectives platform host).filterMap location? = [challengeChoice] := by
  have hlisten : ∀ d ∈ listenDirectives host.domainNames host.ssl.normalized platform.ipv6,
      nameOf d ≠ "location" := by
    intro d hd
    simp only [listenDirectives, List.mem_append, List.mem_singleton] at hd
    rcases hd with ((rfl | hd) | hd) | rfl
    · simp [nameOf]
    · split at hd
      · simp [List.mem_singleton.mp hd, nameOf]
      · exact absurd hd List.not_mem_nil
    · split at hd
      · rcases List.mem_append.mp hd with hd | hd
        · simp [List.mem_singleton.mp hd, nameOf]
        · split at hd
          · simp [List.mem_singleton.mp hd, nameOf]
          · exact absurd hd List.not_mem_nil
      · exact absurd hd List.not_mem_nil
    · simp [nameOf]
  have hssl : ∀ d ∈ sslDirectives host.ssl.normalized, nameOf d ≠ "location" := by
    intro d hd
    unfold sslDirectives at hd
    split at hd
    · exact absurd hd List.not_mem_nil
    · simp only [List.mem_append, List.mem_cons, List.not_mem_nil, or_false] at hd
      rcases hd with (rfl | rfl | rfl) | hd
      · simp [nameOf]
      · simp [nameOf]
      · simp [nameOf]
      · split at hd
        · simp [List.mem_singleton.mp hd, nameOf]
        · exact absurd hd List.not_mem_nil
  have hforce : ∀ d ∈ forceSslDirectives host.ssl.normalized, nameOf d ≠ "location" := by
    intro d hd
    unfold forceSslDirectives at hd
    split at hd
    · exact absurd hd List.not_mem_nil
    · simp [List.mem_singleton.mp hd, nameOf]
  rw [startDirectives, List.filterMap_append, List.filterMap_append, List.filterMap_append,
    filterMap_of_ne hlisten, filterMap_of_ne hssl, filterMap_of_ne hforce]
  rfl

/-- The blocked paths, when the host blocks them. -/
def exploitsChoices (host : RuntimeHost) : List Location :=
  if host.blockExploits then [exploitsChoice] else []

lemma filterMap_exploitsLocations :
    (exploitsLocations host).filterMap location? = exploitsChoices host := by
  unfold exploitsLocations exploitsChoices
  split <;> rfl

/-- The assets, when the host caches them. -/
def assetChoices (host : RuntimeHost) : List Location :=
  if host.cachingEnabled then [assetChoice] else []

/-- The locations of a proxy host that are compared with the start of a path. -/
def startChoices (host : RuntimeHost) (accessList : Option AccessList)
    (passwordFile : Option String) : List Location :=
  (sortedBy textLe ProxyLocation.path host.locations).map
    (locationChoice host accessList passwordFile) ++
  (if hasDefaultLocation host then [rootChoice (defaultBody host accessList passwordFile)] else [])

lemma filterMap_proxyLocations :
    (proxyLocations host accessList passwordFile).filterMap location? =
      assetChoices host ++ startChoices host accessList passwordFile := by
  have hasset : (if host.cachingEnabled then [assetDirective] else []).filterMap location? =
      assetChoices host := by
    unfold assetChoices
    split <;> rfl
  have hdefault : (if hasDefaultLocation host then
      [defaultDirective host accessList passwordFile] else []).filterMap location? =
      if hasDefaultLocation host then [rootChoice (defaultBody host accessList passwordFile)]
      else [] := by
    split <;> rfl
  have hlocations : ∀ locations : List ProxyLocation, (locations.map fun location =>
      locationDirective location host accessList passwordFile).filterMap location? =
      locations.map (locationChoice host accessList passwordFile) := by
    intro locations
    rw [List.filterMap_map, ← List.filterMap_eq_map]
    rfl
  rw [proxyLocations, List.filterMap_append, List.filterMap_append, hasset, hlocations, hdefault,
    startChoices, List.append_assoc]

end Locations

/-! ## The choice -/

/-- The texts of a host are words, its paths differ from each other and from that of the challenges,
and only its paths have slashes. -/
structure RuntimeHost.Answering (host : RuntimeHost) : Prop where
  plain : host.Plain
  paths : (host.locations.map ProxyLocation.path).Nodup
  slashes : ∀ l ∈ host.locations, l.path.toList.head? = some '/'
  unchallenged : ∀ l ∈ host.locations, l.path.toList ≠ challengePath
  server : host.kind = .proxy → '/' ∉ (orNone host.forwardHost).toList
  servers : ∀ l ∈ host.locations,
    '/' ∉ l.forwardHost.toList ∧ ∀ c ∈ l.forwardPath.toList.head?, c = '/'

section Choice

variable {host : RuntimeHost} {accessList : Option AccessList} {passwordFile : Option String}
  {path : List Char}

lemma RuntimeHost.Answering.keys (h : host.Answering) :
    (host.locations.map fun l => l.path.toList).Nodup := by
  have hmap : (host.locations.map fun l => l.path.toList) =
      (host.locations.map ProxyLocation.path).map String.toList := by
    rw [List.map_map]
    rfl
  rw [hmap]
  exact h.paths.map fun _ _ => String.toList_injective

lemma RuntimeHost.Answering.sortedKeys (h : host.Answering) :
    ((sortedBy textLe ProxyLocation.path host.locations).map fun l => l.path.toList).Nodup :=
  ((perm_sortedBy textLe ProxyLocation.path host.locations).map _).nodup_iff.mpr h.keys

/-- The location of the longest start: that which the host names, else the root. -/
lemma longest_startChoices (h : host.Answering) (hpath : path.head? = some '/') :
    longest Location.text (startChoices host accessList passwordFile) path =
      some (match host.locationOf path with
        | some l => locationChoice host accessList passwordFile l
        | none => rootChoice (defaultBody host accessList passwordFile)) := by
  have hlocations : longest Location.text
      ((sortedBy textLe ProxyLocation.path host.locations).map
        (locationChoice host accessList passwordFile)) path =
      (host.locationOf path).map (locationChoice host accessList passwordFile) := by
    have hperm := perm_sortedBy textLe ProxyLocation.path host.locations
    have hmap : longest Location.text
        ((sortedBy textLe ProxyLocation.path host.locations).map
          (locationChoice host accessList passwordFile)) path =
        (longest (fun l => l.path.toList)
          (sortedBy textLe ProxyLocation.path host.locations) path).map
            (locationChoice host accessList passwordFile) := longest_map _ h.sortedKeys
    rw [hmap, longest_perm h.keys hperm.symm, RuntimeHost.locationOf]
  have hroot : (['/'] : List Char) <+: path := by
    obtain ⟨rest, rfl⟩ := List.head?_eq_some_iff.mp hpath
    exact ⟨rest, rfl⟩
  cases hdefault : hasDefaultLocation host with
  | true =>
    -- no path of the host is the root, so that each of them says more than it
    have hnot : ∀ l ∈ host.locations, l.path.toList ≠ ['/'] := by
      intro l hl heq
      have hnone : ∀ l ∈ host.locations, l.path ≠ "/" := by
        have hany := (Bool.and_eq_true_iff.mp hdefault).1
        simpa using hany
      exact hnone l hl (String.toList_injective heq)
    have hkeys : ((rootChoice (defaultBody host accessList passwordFile) ::
        (sortedBy textLe ProxyLocation.path host.locations).map
          (locationChoice host accessList passwordFile)).map Location.text).Nodup := by
      rw [List.map_cons, List.map_map]
      refine List.nodup_cons.mpr ⟨fun hmem => ?_, h.sortedKeys⟩
      obtain ⟨l, hl, heq⟩ := List.mem_map.mp hmem
      exact hnot l (mem_sortedBy.mp hl) heq
    rw [startChoices, hdefault, if_pos rfl, longest_perm hkeys
      (List.perm_append_singleton _ _).symm, longest_cons hkeys, hlocations]
    rcases hfound : host.locationOf path with _ | l
    · exact if_pos ⟨hroot, by simp⟩
    · have hl := mem_of_longest hfound
      have hpositive : 0 < l.path.toList.length :=
        List.length_pos_of_ne_nil fun hnil => by simpa [hnil] using h.slashes l hl.1
      refine if_neg fun hwins => ?_
      have hshorter := hwins.2 (locationChoice host accessList passwordFile l) (by simp)
      simp only [locationChoice, rootChoice, List.length_singleton] at hshorter
      omega
  | false =>
    -- the host configures the root itself, which starts every path
    rw [startChoices, hdefault, if_neg (by simp), List.append_nil, hlocations]
    have hconfigured : ∃ l ∈ host.locations, l.path = "/" := by
      rw [hasDefaultLocation, h.plain.advancedConfig, hasRootLocation_empty] at hdefault
      simpa using hdefault
    obtain ⟨l, hl, heq⟩ := hconfigured
    rcases hfound : host.locationOf path with _ | l'
    · refine absurd ?_ (longest_eq_none_iff.mp hfound l hl)
      rw [heq]
      exact hroot
    · rfl

lemma matching_of_mem_startChoices :
    ∀ l ∈ startChoices host accessList passwordFile, l.matching = .start := by
  intro l hl
  rcases List.mem_append.mp hl with hl | hl
  · obtain ⟨location, -, rfl⟩ := List.mem_map.mp hl
    rfl
  · split at hl
    · rw [List.mem_singleton.mp hl]
      rfl
    · exact absurd hl List.not_mem_nil

/-- No two locations of a host have one text. -/
lemma nodup_startChoices (h : host.Answering) :
    ((challengeChoice :: startChoices host accessList passwordFile).map Location.text).Nodup := by
  have hlocations : ((sortedBy textLe ProxyLocation.path host.locations).map
      (locationChoice host accessList passwordFile)).map Location.text =
      (sortedBy textLe ProxyLocation.path host.locations).map fun l => l.path.toList := by
    rw [List.map_map]
    rfl
  rw [List.map_cons, startChoices, List.map_append, hlocations]
  refine List.nodup_cons.mpr ⟨fun hmem => ?_, List.Nodup.append h.sortedKeys ?_ ?_⟩
  · rcases List.mem_append.mp hmem with hmem | hmem
    · obtain ⟨l, hl, heq⟩ := List.mem_map.mp hmem
      exact h.unchallenged l (mem_sortedBy.mp hl) heq
    · split at hmem
      · have hroot : challengePath = ['/'] := List.mem_singleton.mp hmem
        exact absurd hroot (by decide)
      · exact absurd hmem List.not_mem_nil
  · split
    · exact List.nodup_singleton _
    · exact List.nodup_nil
  · intro text htext hroot
    split at hroot
    · rename_i hdefault
      obtain rfl := List.mem_singleton.mp hroot
      obtain ⟨l, hl, heq⟩ := List.mem_map.mp htext
      have hnone : ∀ l ∈ host.locations, l.path ≠ "/" := by
        have hany := (Bool.and_eq_true_iff.mp hdefault).1
        simpa using hany
      exact hnone l (mem_sortedBy.mp hl) (String.toList_injective heq)
    · exact absurd hroot List.not_mem_nil

/-- A location is a challenge where no longer path is named. -/
lemma isChallenge_iff (h : host.Answering) (hkind : host.kind = .proxy)
    (hpath : path.head? = some '/') :
    host.isChallenge path = true ↔ challengeChoice.text <+: path ∧
      ∀ l ∈ longest Location.text (startChoices host accessList passwordFile) path,
        l.text.length < challengeChoice.text.length := by
  have hroot : ['/'].length < challengePath.length := by decide
  rw [RuntimeHost.isChallenge, longest_startChoices h hpath, hkind, Bool.and_eq_true,
    List.isPrefixOf_iff_prefix]
  refine and_congr_right fun _ => ?_
  simp only [ne_eq, not_true_eq_false, decide_false, Bool.false_or, Option.mem_def,
    Option.some.injEq, forall_eq']
  rcases host.locationOf path with _ | l
  · exact iff_of_true rfl hroot
  · exact decide_eq_true_iff

end Choice

/-! ## The answer in a location -/

section Location

variable {host : RuntimeHost} {accessList : Option AccessList} {passwordFile : Option String}
  {files : String → Option String} {values : Variables} {path : List Char}

lemma answerIn_challenge :
    answerIn files values path challengeChoice = .handled [] (.files (some "/data/acme-challenge")) := by
  have hquiet : Quiets challengeBody := by
    simp [Quiets, challengeBody, nameOf, quietNames]
  rw [answerIn, challengeChoice]
  dsimp only
  rw [hquiet.expanded, rewrite_neutral hquiet.neutral]
  rfl

lemma answerIn_exploits :
    answerIn files values path exploitsChoice = .handled [.simple "deny" ["all"]] (.files none) := by
  have hquiet : Quiets [.simple "deny" ["all"]] := by
    simp [Quiets, nameOf, quietNames]
  rw [answerIn, exploitsChoice]
  dsimp only
  rw [hquiet.expanded, rewrite_neutral hquiet.neutral]
  rfl

/-- A location that includes the directives that forward. -/
lemma answerIn_include (h : Included files) {matching : Matching} {text : List Char}
    {body : List Directive} (hbody : Quiets body)
    (hpass : body.findSome? (argumentsOf "proxy_pass") = none) :
    answerIn files values path
        ⟨matching, text, body ++ [.simple "include" ["conf.d/include/proxy.conf"]]⟩ =
      .handled (accessRules body) (pass values "$forward_scheme://$server:$port" text path) := by
  have hinclude : Quiets proxyInclude := by
    simp [Quiets, proxyInclude, nameOf, quietNames]
  have hnone : accessRules proxyInclude = [] := by
    simp [accessRules, proxyInclude, argumentsOf]
  rw [answerIn]
  dsimp only
  rw [expanded_append, hbody.expanded, expanded_include h.proxy parse_renderProxyInclude,
    rewrite_neutral (hbody.append hinclude).neutral]
  dsimp only
  rw [accessRules_append, hnone, List.append_nil, handler, List.findSome?_append, hpass]
  rfl

lemma expand_target : expand values "$forward_scheme://$server:$port" =
    values "forward_scheme" ++ "://" ++ values "server" ++ ":" ++ values "port" := by
  have htext : "$forward_scheme://$server:$port".toList =
      ['$'].intercalate [[], "forward_scheme".toList ++ "://".toList,
        "server".toList ++ ":".toList, "port".toList ++ []] := by
    decide
  rw [expand_eq htext (by decide), List.flatMap_cons, List.flatMap_cons, List.flatMap_singleton,
    expandName_append (by decide) (by decide), expandName_append (by decide) (by decide),
    expandName_append (by decide) (by simp)]
  simp only [String.ofList_append, String.ofList_toList, List.append_nil, List.nil_append,
    String.append_assoc]

lemma slash_not_mem_toString (n : ℕ) : '/' ∉ (toString n).toList := by
  intro hmem
  have hlist : (toString n).toList = Nat.toDigits 10 n := String.toList_ofList
  rw [hlist] at hmem
  exact absurd (Numeral.digitValue_isSome_of_mem_toDigits (by decide) (by decide) hmem) (by decide)

lemma slash_not_mem_scheme (scheme : ForwardScheme) :
    '/' ∉ (scheme.value ++ ":").toList ∧ '$' ∉ scheme.value.toList := by
  cases scheme <;> decide

/-- Where the variables of a host lead. -/
lemma pass_hostValues (h : '/' ∉ (orNone host.forwardHost).toList) (text : List Char) :
    pass (hostValues host values) "$forward_scheme://$server:$port" text path =
      .passed host.target path := by
  have hvalues : expand (hostValues host values) "$forward_scheme://$server:$port" =
      host.target := by
    rw [expand_target]
    rfl
  have hport : '/' ∉ (orNone (host.forwardPort.map toString)).toList := by
    cases host.forwardPort with
    | none => decide
    | some port => exact slash_not_mem_toString port
  have hserver : '/' ∉ (orNone host.forwardHost ++ ":" ++
      orNone (host.forwardPort.map toString)).toList := by
    rw [String.toList_append, String.toList_append, List.mem_append, List.mem_append]
    rintro ((hmem | hmem) | hmem)
    · exact h hmem
    · exact absurd hmem (by decide)
    · exact hport hmem
  have hsplit : host.target.toList = (host.forwardScheme.value ++ ":").toList ++
      '/' :: '/' :: ((orNone host.forwardHost ++ ":" ++
        orNone (host.forwardPort.map toString)).toList ++ []) := by
    simp [RuntimeHost.target, String.toList_append]
  rw [pass_eq (hvalues ▸ hsplit) (slash_not_mem_scheme _).1 hserver (by simp), if_pos rfl]
  refine congrArg (fun server => Handler.passed server path) ?_
  rw [List.append_nil] at hsplit
  rw [← hsplit, String.ofList_toList]

/-- Where a location leads. -/
lemma pass_location (h : host.Answering) {l : ProxyLocation} (hl : l ∈ host.locations) :
    pass values (l.forwardScheme.value ++ "://" ++ l.passTarget) l.path.toList path =
      .passed l.server (l.upstreamPath path) := by
  obtain ⟨-, hfield, -⟩ := h.plain.locations l hl
  obtain ⟨hhost, hpath⟩ := h.servers l hl
  have hdollar : '$' ∉ (l.forwardScheme.value ++ "://" ++ l.passTarget).toList := by
    rw [String.toList_append, String.toList_append, List.mem_append, List.mem_append]
    rintro ((hmem | hmem) | hmem)
    · exact (slash_not_mem_scheme l.forwardScheme).2 hmem
    · exact absurd hmem (by decide)
    · exact absurd (hfield.2 _ hmem).2.2.1 (by simp)
  have hserver : '/' ∉ (l.forwardHost ++ ":" ++ toString l.forwardPort).toList := by
    rw [String.toList_append, String.toList_append, List.mem_append, List.mem_append]
    rintro ((hmem | hmem) | hmem)
    · exact hhost hmem
    · exact absurd hmem (by decide)
    · exact slash_not_mem_toString _ hmem
  have hsplit : (l.forwardScheme.value ++ "://" ++ l.passTarget).toList =
      (l.forwardScheme.value ++ ":").toList ++ '/' :: '/' ::
        ((l.forwardHost ++ ":" ++ toString l.forwardPort).toList ++ l.forwardPath.toList) := by
    have htarget : l.passTarget =
        l.forwardHost ++ ":" ++ toString l.forwardPort ++ l.forwardPath := rfl
    rw [htarget]
    simp [String.toList_append]
  have hname : String.ofList ((l.forwardScheme.value ++ ":").toList ++ '/' :: '/' ::
      (l.forwardHost ++ ":" ++ toString l.forwardPort).toList) = l.server := by
    refine String.toList_injective ?_
    simp [ProxyLocation.server, String.toList_append]
  have hempty : l.forwardPath.toList = [] ↔ l.forwardPath = "" := by
    simp
  rw [pass_eq ((congrArg String.toList (expand_plain hdollar)).trans hsplit)
    (slash_not_mem_scheme _).1 hserver hpath, hname, ProxyLocation.upstreamPath, if_neg hdollar]
  simp only [hempty]
  split <;> rfl

lemma answerIn_asset (h : Included files) (hserver : '/' ∉ (orNone host.forwardHost).toList) :
    answerIn files (hostValues host values) path assetChoice =
      .handled [] (.passed host.target path) := by
  have hquiet : Quiets assetBody.dropLast := by
    simp [Quiets, assetBody, nameOf, quietNames]
  have hnone : accessRules assetBody.dropLast = [] := by
    simp [accessRules, assetBody, argumentsOf]
  have hpass : assetBody.dropLast.findSome? (argumentsOf "proxy_pass") = none := by
    simp [assetBody, argumentsOf]
  show answerIn files (hostValues host values) path ⟨.pattern true, assetPattern.toList,
    assetBody.dropLast ++ [.simple "include" ["conf.d/include/proxy.conf"]]⟩ = _
  rw [answerIn_include h hquiet hpass, hnone, pass_hostValues hserver]

/-- No directive of a policy forwards. -/
lemma findSome?_policy :
    (accessDirectives accessList passwordFile ++ websocketDirectives host).findSome?
      (argumentsOf "proxy_pass") = none := by
  have hall : ∀ name ∈ policyNames, name ≠ "proxy_pass" := by
    decide +kernel
  refine List.findSome?_eq_none_iff.mpr fun d hd => argumentsOf_of_ne (hall _ ?_)
  rcases List.mem_append.mp hd with hd | hd
  · exact nameOf_accessDirectives d hd
  · exact nameOf_websocketDirectives d hd

lemma accessRules_websocketDirectives : accessRules (websocketDirectives host) = [] := by
  unfold websocketDirectives
  split
  · simp [accessRules, argumentsOf]
  · rfl

lemma answerIn_default (h : Included files) (hserver : '/' ∉ (orNone host.forwardHost).toList) :
    answerIn files (hostValues host values) path
        (rootChoice (defaultBody host accessList passwordFile)) =
      .handled (accessRules (accessDirectives accessList passwordFile))
        (.passed host.target path) := by
  have hquiet : Quiets (accessDirectives accessList passwordFile ++ websocketDirectives host) :=
    (quiets_of_policyNames nameOf_accessDirectives).append
      (quiets_of_policyNames nameOf_websocketDirectives)
  show answerIn files (hostValues host values) path ⟨.start, ['/'],
    (accessDirectives accessList passwordFile ++ websocketDirectives host) ++
      [.simple "include" ["conf.d/include/proxy.conf"]]⟩ = _
  rw [answerIn_include h hquiet findSome?_policy, accessRules_append,
    accessRules_websocketDirectives, List.append_nil, pass_hostValues hserver]

lemma answerIn_location (hhost : host.Answering) {l : ProxyLocation} (hl : l ∈ host.locations) :
    answerIn files values path (locationChoice host accessList passwordFile l) =
      .handled (accessRules (accessDirectives accessList passwordFile))
        (.passed l.server (l.upstreamPath path)) := by
  have hheaders : Quiets (headerDirectives ++ [.simple "proxy_pass"
      [l.forwardScheme.value ++ "://" ++ l.passTarget]]) := by
    simp [Quiets, headerDirectives, nameOf, quietNames]
  have hquiet : Quiets (locationBody l host accessList passwordFile) :=
    (hheaders.append (quiets_of_policyNames nameOf_accessDirectives)).append
      (quiets_of_policyNames nameOf_websocketDirectives)
  have hnone : accessRules (headerDirectives ++ [.simple "proxy_pass"
      [l.forwardScheme.value ++ "://" ++ l.passTarget]]) = [] := by
    simp [accessRules, headerDirectives, argumentsOf]
  have haccess : accessRules (locationBody l host accessList passwordFile) =
      accessRules (accessDirectives accessList passwordFile) := by
    rw [locationBody, accessRules_append, accessRules_append, hnone, List.nil_append,
      accessRules_websocketDirectives, List.append_nil]
  have hpass : (locationBody l host accessList passwordFile).findSome? (argumentsOf "proxy_pass") =
      some [l.forwardScheme.value ++ "://" ++ l.passTarget] := by
    simp [locationBody, headerDirectives, argumentsOf]
  rw [answerIn, locationChoice]
  dsimp only
  rw [hquiet.expanded, rewrite_neutral hquiet.neutral]
  dsimp only
  rw [haccess, handler, hpass]
  dsimp only
  rw [pass_location hhost hl]

end Location

/-! ## Answers -/

section Answers

variable {platform : PlatformConfig} {host : RuntimeHost} {accessList : Option AccessList}
  {passwordFile : Option String} {files : String → Option String} {values : Variables}
  {accepts : Bool → List Char → List Char → Bool} {request : HttpRequest}
  {directives rest : List Directive}

/-- Behind the directives that the kinds of hosts share, the location is chosen. -/
lemma answer_start (hexpanded : expanded files directives = startDirectives platform host ++ rest)
    (hrest : rewrite request.values rest = .ok values) :
    answer accepts files directives request =
      if host.forcesHttps ∧ host.protocol request ≠ "https" then
        .returned ["301", "https://" ++ request.host ++ request.uri]
      else
        match choose accepts (challengeChoice :: rest.filterMap location?) request.path with
        | some l => answerIn files values request.path l
        | none => .handled [] (.files none) := by
  rw [answer, hexpanded, rewrite_startDirectives, hrest, List.filterMap_append, filterMap_startDirectives,
    List.singleton_append]
  by_cases hforce : host.forcesHttps ∧ host.protocol request ≠ "https"
  · rw [if_pos hforce]
    exact (if_pos hforce).symm
  · rw [if_neg hforce]
    exact (if_neg hforce).symm

/-- An expression, where it is given, is found where it accepts a path. -/
lemma find?_given (given : Bool) (text : List Char) (body : List Directive) (path : List Char) :
    (if given then [(⟨.pattern true, text, body⟩ : Location)] else []).find?
        (Location.matchesBy accepts path) =
      if given ∧ accepts true text path then some ⟨.pattern true, text, body⟩ else none := by
  cases given <;> cases haccepts : accepts true text path <;> simp [Location.matchesBy, haccepts]

lemma find?_exploitsChoices (path : List Char) :
    (exploitsChoices host).find? (Location.matchesBy accepts path) =
      if host.blockExploits ∧ accepts true exploitsPattern.toList path then some exploitsChoice
      else none :=
  find?_given _ _ _ path

/-- The first expression that accepts a path. -/
lemma find?_patterns (path : List Char) :
    (exploitsChoices host ++ assetChoices host).find? (Location.matchesBy accepts path) =
      if host.blockExploits ∧ accepts true exploitsPattern.toList path then some exploitsChoice
      else if host.cachingEnabled ∧ accepts true assetPattern.toList path then some assetChoice
      else none := by
  rw [List.find?_append, find?_exploitsChoices, assetChoices, assetChoice, find?_given]
  split
  · rfl
  · rfl

lemma pattern_of_mem {l : Location} (h : l ∈ exploitsChoices host ++ assetChoices host) :
    ∃ caseless, l.matching = .pattern caseless := by
  refine ⟨true, ?_⟩
  rcases List.mem_append.mp h with h | h
  · unfold exploitsChoices at h
    split at h
    · rw [List.mem_singleton.mp h]
      rfl
    · exact absurd h List.not_mem_nil
  · unfold assetChoices at h
    split at h
    · rw [List.mem_singleton.mp h]
      rfl
    · exact absurd h List.not_mem_nil

lemma answer_proxyDirectives (h : Included files) (hhost : host.Answering)
    (hkind : host.kind = .proxy) (henabled : host.enabled = true) :
    answer accepts files (proxyDirectives platform host accessList passwordFile) request =
      host.answer accessList passwordFile accepts request := by
  have hrest : rewrite request.values (variableDirectives host ++
      (exploitsLocations host ++ proxyLocations host accessList passwordFile)) =
      .ok (hostValues host request.values) := by
    have hexploits : Quiets (exploitsLocations host) := by
      unfold exploitsLocations
      exact .ite (quiets_locations (by simp [exploitsLocation, nameOf])) .nil
    rw [rewrite_append, rewrite_variableDirectives (hhost.plain.forwardHost hkind)]
    exact rewrite_neutral (hexploits.append (quiets_locations nameOf_proxyLocations)).neutral
  have hlocations : (variableDirectives host ++ (exploitsLocations host ++
      proxyLocations host accessList passwordFile)).filterMap location? =
      (exploitsChoices host ++ assetChoices host) ++ startChoices host accessList passwordFile := by
    have hvariables : (variableDirectives host).filterMap location? = [] :=
      filterMap_of_ne (by simp [variableDirectives, logDirectives, nameOf])
    rw [List.filterMap_append, hvariables, List.filterMap_append, filterMap_exploitsLocations,
      filterMap_proxyLocations, List.nil_append, List.append_assoc]
  have hkeys : ((challengeChoice :: startChoices host accessList passwordFile).map
      Location.text).Nodup := nodup_startChoices hhost
  have hstarts : ∀ l ∈ startChoices host accessList passwordFile, l.matching = .start :=
    matching_of_mem_startChoices
  rw [answer_start (expanded_proxyDirectives h) hrest, hlocations, choose_decisive rfl
    (fun l => pattern_of_mem) hstarts hkeys, find?_patterns, RuntimeHost.answer, henabled,
    if_neg (show ¬ true = false by simp)]
  refine if_congr Iff.rfl rfl ?_
  by_cases hchallenge : host.isChallenge request.path = true
  · rw [if_pos hchallenge,
      if_pos ((isChallenge_iff hhost hkind request.slash).mp hchallenge)]
    exact answerIn_challenge
  rw [if_neg hchallenge,
    if_neg fun h => hchallenge ((isChallenge_iff hhost hkind request.slash).mpr h)]
  by_cases hexploits : host.blockExploits ∧ accepts true exploitsPattern.toList request.path
  · rw [if_pos hexploits, if_pos hexploits]
    exact answerIn_exploits
  rw [if_neg hexploits, if_neg hexploits, hkind]
  dsimp only
  by_cases hasset : host.cachingEnabled ∧ accepts true assetPattern.toList request.path
  · rw [if_pos hasset, if_pos hasset]
    exact answerIn_asset h (hhost.server hkind)
  rw [if_neg hasset, if_neg hasset, Option.none_or, longest_startChoices hhost request.slash]
  rcases hfound : host.locationOf request.path with _ | l
  · exact answerIn_default h (hhost.server hkind)
  · exact answerIn_location hhost (mem_of_longest hfound).1

/-- The status of the root location. -/
lemma answerIn_root {path : List Char} (arguments : List String) :
    answerIn files values path (rootChoice [.simple "return" arguments]) =
      .returned (arguments.map (expand values)) := by
  rw [answerIn, rootChoice]
  dsimp only
  rw [expanded_eq_self (List.forall_mem_singleton.mpr rfl)]
  rfl

/-- A host that answers with a status, where it does not answer otherwise. -/
lemma answer_root (hkind : host.kind ≠ .proxy) (henabled : host.enabled = true)
    {arguments arguments' : List String} (h : expanded files directives =
      startDirectives platform host ++ (exploitsLocations host ++ [rootLocation arguments]))
    (harguments : arguments.map (expand request.values) = arguments')
    (hmeaning : ∀ other : Answer, (match host.kind with
      | .redirect => Answer.returned [toString host.forwardHttpCode, host.redirectUrl request]
      | .dead => Answer.returned ["404"]
      | .proxy => other) = Answer.returned arguments') :
    answer accepts files directives request =
      host.answer accessList passwordFile accepts request := by
  have hrest : rewrite request.values (exploitsLocations host ++ [rootLocation arguments]) =
      .ok request.values := by
    have hexploits : Quiets (exploitsLocations host) := by
      unfold exploitsLocations
      exact .ite (quiets_locations (by simp [exploitsLocation, nameOf])) .nil
    have hroot : Quiets [rootLocation arguments] :=
      quiets_locations (by simp [rootLocation, nameOf])
    exact rewrite_neutral (hexploits.append hroot).neutral
  have hlocations : (exploitsLocations host ++ [rootLocation arguments]).filterMap location? =
      exploitsChoices host ++ [rootChoice [.simple "return" arguments]] := by
    rw [List.filterMap_append, filterMap_exploitsLocations]
    rfl
  have hpatterns : ∀ l ∈ exploitsChoices host, ∃ caseless, l.matching = .pattern caseless := by
    intro l hl
    have hmem : l ∈ exploitsChoices host ++ assetChoices host := List.mem_append_left _ hl
    exact pattern_of_mem hmem
  have hkeys : ([challengeChoice, rootChoice [.simple "return" arguments]].map
      Location.text).Nodup := by
    show [challengePath, ['/']].Nodup
    decide
  have hlongest : longest Location.text [rootChoice [.simple "return" arguments]] request.path =
      some (rootChoice [.simple "return" arguments]) := by
    have hroot : (['/'] : List Char) <+: request.path := by
      obtain ⟨rest, hpath⟩ := List.head?_eq_some_iff.mp request.slash
      exact ⟨rest, hpath.symm⟩
    refine (longest_eq_some_iff (by simp)).mpr ⟨List.mem_cons_self, hroot, ?_⟩
    intro l hl _
    rw [List.mem_singleton.mp hl]
  have hchallenge : host.isChallenge request.path = true ↔
      challengeChoice.text <+: request.path ∧
        ∀ l ∈ longest Location.text [rootChoice [.simple "return" arguments]] request.path,
          l.text.length < challengeChoice.text.length := by
    have hroot : ['/'].length < challengePath.length := by decide
    rw [RuntimeHost.isChallenge, hlongest, Bool.and_eq_true, List.isPrefixOf_iff_prefix]
    simp only [hkind, ne_eq, not_false_eq_true, decide_true, Bool.true_or, Option.mem_def,
      Option.some.injEq, forall_eq']
    exact and_congr_right fun _ => iff_of_true trivial hroot
  rw [answer_start h hrest, hlocations, choose_decisive rfl hpatterns
    (List.forall_mem_singleton.mpr rfl) hkeys, RuntimeHost.answer, henabled,
    if_neg (show ¬ true = false by simp)]
  refine if_congr Iff.rfl rfl ?_
  by_cases hpath : host.isChallenge request.path = true
  · rw [if_pos hpath, if_pos (hchallenge.mp hpath)]
    exact answerIn_challenge
  rw [if_neg hpath, if_neg fun h => hpath (hchallenge.mpr h), find?_exploitsChoices]
  by_cases hexploits : host.blockExploits ∧ accepts true exploitsPattern.toList request.path
  · rw [if_pos hexploits, if_pos hexploits]
    exact answerIn_exploits
  rw [if_neg hexploits, if_neg hexploits, Option.none_or, hlongest, hmeaning, ← harguments]
  exact answerIn_root arguments

lemma expand_redirectTarget (h : IsField (orNone host.forwardDomainName)) :
    expand request.values (redirectTarget host) = host.redirectUrl request := by
  have hdomain : '$' ∉ (orNone host.forwardDomainName).toList := fun hmem =>
    absurd (h.2 _ hmem).2.2.1 (by simp)
  have hscheme := (slash_not_mem_scheme host.forwardScheme).2
  have hvariable : expandName request.values ("scheme".toList ++ ("://".toList ++
      (orNone host.forwardDomainName).toList)) =
        request.scheme.toList ++ ("://".toList ++ (orNone host.forwardDomainName).toList) :=
    expandName_append (by decide) (by simp [isNameChar, Char.isAlphanum])
  have huri : expandName request.values ("request_uri".toList ++ []) = request.uri.toList ++ [] :=
    expandName_append (by decide) (by simp)
  have hrest : '$' ∉ ("scheme".toList ++ ("://".toList ++
      (orNone host.forwardDomainName).toList)) := by
    rw [List.mem_append, List.mem_append]
    rintro (hmem | hmem | hmem)
    · exact absurd hmem (by decide)
    · exact absurd hmem (by decide)
    · exact hdomain hmem
  have hplain : '$' ∉ (host.forwardScheme.value ++ "://" ++
      orNone host.forwardDomainName).toList := by
    rw [String.toList_append, String.toList_append, List.mem_append, List.mem_append]
    rintro ((hmem | hmem) | hmem)
    · exact hscheme hmem
    · exact absurd hmem (by decide)
    · exact hdomain hmem
  have huriName : '$' ∉ "request_uri".toList ++ [] := by decide
  rw [redirectTarget, RuntimeHost.redirectUrl]
  by_cases hauto : host.forwardScheme = .auto <;> cases hkeep : host.preservePath
  · have htext : ("$scheme" ++ "://" ++ orNone host.forwardDomainName ++ "").toList =
        ['$'].intercalate [[], "scheme".toList ++ ("://".toList ++
          (orNone host.forwardDomainName).toList)] := by
      simp
    simp only [hauto, if_true, Bool.false_eq_true, if_false]
    rw [expand_eq htext (by simpa using hrest), List.flatMap_singleton, hvariable]
    simp only [List.nil_append, String.ofList_append, String.ofList_toList, String.append_assoc,
      String.append_empty]
  · have htext : ("$scheme" ++ "://" ++ orNone host.forwardDomainName ++ "$request_uri").toList =
        ['$'].intercalate [[], "scheme".toList ++ ("://".toList ++
          (orNone host.forwardDomainName).toList), "request_uri".toList ++ []] := by
      simp
    simp only [hauto, if_true]
    rw [expand_eq htext (by simpa using hrest), List.flatMap_cons, List.flatMap_singleton,
      hvariable, huri]
    simp only [List.nil_append, List.append_nil, String.ofList_append, String.ofList_toList,
      String.append_assoc]
  · simp only [hauto, if_false, Bool.false_eq_true]
    rw [String.append_empty, expand_plain hplain]
  · have htext : (host.forwardScheme.value ++ "://" ++ orNone host.forwardDomainName ++
        "$request_uri").toList = ['$'].intercalate [(host.forwardScheme.value ++ "://" ++
          orNone host.forwardDomainName).toList, "request_uri".toList ++ []] := by
      simp
    simp only [hauto, if_false, if_true]
    rw [expand_eq htext ?_, List.flatMap_singleton, huri]
    · simp only [List.append_nil, String.ofList_append, String.ofList_toList]
    · exact List.forall_mem_cons.mpr ⟨hplain, List.forall_mem_singleton.mpr huriName⟩

/-- A disabled host is unavailable. -/
lemma answer_disabled (henabled : host.enabled = false) :
    answer accepts files (hostDirectives platform host accessList passwordFile) request =
      host.answer accessList passwordFile accepts request := by
  have hall : ∀ family : String,
      answer accepts files (disabledDirectives platform host family) request = .returned ["503"] := by
    intro family
    have hlogs : Quiets (logDirectives family host.id) := by
      simp [Quiets, logDirectives, nameOf, quietNames]
    have hquiet := ((quiets_listenDirectives host.domainNames host.ssl.normalized
      platform.ipv6).append (quiets_sslDirectives host.ssl.normalized)).append hlogs
    have hreturn : expanded files [.simple "return" ["503"]] = [.simple "return" ["503"]] :=
      expanded_eq_self (List.forall_mem_singleton.mpr rfl)
    have hcode : expand request.values "503" = "503" := expand_plain (by decide)
    rw [answer, disabledDirectives, expanded_append, hquiet.expanded, hreturn, rewrite_neutral_append hquiet.neutral]
    show Answer.returned (List.map (expand request.values) ["503"]) = _
    rw [List.map_cons, List.map_nil, hcode]
  rw [RuntimeHost.answer, if_pos henabled, hostDirectives, henabled]
  cases host.kind
  · exact hall _
  · exact hall _
  · exact hall _

/-- The text of a host is answered as the host says. -/
theorem answer_serverBlock (h : Included files) (hhost : host.Answering)
    (hpolicy : ∀ l ∈ accessList, l.Plain) (hfile : ∀ file ∈ passwordFile, IsField file) :
    answerOf accepts files (serverBlock platform host accessList passwordFile) request =
      some (host.answer accessList passwordFile accepts request) := by
  rw [answerOf, parse_serverBlock hhost.plain hpolicy hfile, Option.bind_some,
    List.findSome?_singleton, blockOf, if_pos rfl, Option.map_some]
  refine congrArg some ?_
  cases henabled : host.enabled with
  | false => exact answer_disabled henabled
  | true =>
    rw [hostDirectives, henabled]
    cases hkind : host.kind with
    | proxy => exact answer_proxyDirectives h hhost hkind henabled
    | redirect =>
      have hcode : '$' ∉ (toString host.forwardHttpCode).toList := fun hmem =>
        absurd ((isField_toString _).2 _ hmem).2.2.1 (by simp)
      refine answer_root (by simp [hkind]) henabled (expanded_redirectionDirectives h) ?_
        fun _ => by rw [hkind]
      rw [List.map_cons, List.map_cons, List.map_nil, expand_plain hcode,
        expand_redirectTarget (hhost.plain.forwardDomainName hkind)]
    | dead =>
      refine answer_root (by simp [hkind]) henabled (expanded_deadDirectives h) ?_
        fun _ => by rw [hkind]
      rw [List.map_cons, List.map_nil, expand_plain (by decide)]

end Answers

end Portwyrm.Runtime

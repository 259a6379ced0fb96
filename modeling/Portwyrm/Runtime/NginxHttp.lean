import Portwyrm.Runtime.NginxPrimitives

/-!
# Server blocks of hosts

`portwyrm.runtime.nginx_http`: the server block of a proxy host, a redirection and a dead host.
-/

namespace Portwyrm.Runtime

open Base

/-- The lines that let a connection be upgraded. -/
def websocketLines (host : RuntimeHost) : List String :=
  if host.allowWebsocketUpgrade then
    [ "    proxy_set_header Upgrade $http_upgrade;",
      "    proxy_set_header Connection $http_connection;",
      "    proxy_http_version 1.1;" ]
  else []

/-- `_render_default_proxy_location`. -/
def renderDefaultProxyLocation (host : RuntimeHost) (accessList : Option AccessList)
    (passwordFile : Option String) : List String :=
  ["  location / \x7b"] ++
  (accessLines accessList passwordFile).map (fun line => s!"    {line}") ++
  websocketLines host ++
  ["    include conf.d/include/proxy.conf;", "  \x7d"]

/-- `_render_location`. -/
def renderLocation (location : ProxyLocation) (host : RuntimeHost)
    (accessList : Option AccessList) (passwordFile : Option String) : List String :=
  let scheme := location.forwardScheme.value
  let target := s!"{location.forwardHost}:{location.forwardPort}{location.forwardPath}"
  [s!"  location {location.path} \x7b"] ++
  (if location.advancedConfig ≠ "" then [indented (Text.rstrip location.advancedConfig) 4]
  else []) ++
  [ "    proxy_set_header Host $host;",
    "    proxy_set_header X-Forwarded-Scheme $scheme;",
    "    proxy_set_header X-Forwarded-Proto $scheme;",
    "    proxy_set_header X-Forwarded-For $remote_addr;",
    "    proxy_set_header X-Real-IP $remote_addr;",
    s!"    proxy_pass {scheme}://{target};" ] ++
  (accessLines accessList passwordFile).map (fun line => s!"    {line}") ++
  websocketLines host ++
  ["  \x7d"]

/-- `_render_disabled_host`. -/
def renderDisabledHost (platform : PlatformConfig) (host : RuntimeHost) (family : String) :
    String :=
  let ssl := host.ssl.normalized
  Text.joinLines
    (["server \x7b"] ++ listen host.domainNames ssl platform.ipv6 ++ sslLines ssl ++
    [ s!"  access_log /data/logs/{family}-{host.id}_access.log proxy;",
      s!"  error_log /data/logs/{family}-{host.id}_error.log warn;",
      "  return 503;",
      "\x7d" ]) ++ "\n"

/-- The lines of a server block that the kinds of hosts share, from its start to the challenge
location. -/
def serverStart (platform : PlatformConfig) (host : RuntimeHost) : List String :=
  let ssl := host.ssl.normalized
  ["server \x7b"] ++ listen host.domainNames ssl platform.ipv6 ++ sslLines ssl ++ forceSslLines ssl

/-- The include of `block_exploits` and the raw configuration of a host. -/
def hostIncludes (host : RuntimeHost) : List String :=
  (if host.blockExploits then [Text.rstrip blockExploits] else []) ++
  (if host.advancedConfig ≠ "" then [indented (Text.rstrip host.advancedConfig)] else [])

/-- The assignments and log files of a proxy host. -/
def proxyVariables (host : RuntimeHost) : List String :=
  [ s!"  set $forward_scheme {host.forwardScheme.value};",
    s!"  set $server \"{orNone host.forwardHost}\";",
    s!"  set $port {orNone (host.forwardPort.map toString)};",
    s!"  access_log /data/logs/proxy-host-{host.id}_access.log proxy;",
    s!"  error_log /data/logs/proxy-host-{host.id}_error.log warn;" ]

/-- The asset location of a host with caching. -/
def assetLocation : List String := assetCacheLines.map fun line => indented line

/-- The default location is written unless the host configures one. -/
def hasDefaultLocation (host : RuntimeHost) : Bool :=
  !(host.locations.any fun location => location.path = "/") && !hasRootLocation host.advancedConfig

/-- The lines of `render_proxy` for an enabled host. -/
def proxyLines (platform : PlatformConfig) (host : RuntimeHost) (accessList : Option AccessList)
    (passwordFile : Option String) : List String :=
  serverStart platform host ++ acmeChallengeLocation ++ proxyVariables host ++ hostIncludes host ++
  (if host.cachingEnabled then assetLocation else []) ++
  ((sortedBy textLe ProxyLocation.path host.locations).flatMap fun location =>
    renderLocation location host accessList passwordFile) ++
  (if hasDefaultLocation host then renderDefaultProxyLocation host accessList passwordFile
  else []) ++
  ["  include custom/server_proxy.conf;", "\x7d"]

/-- `render_proxy`. -/
def renderProxy (platform : PlatformConfig) (host : RuntimeHost) (accessList : Option AccessList)
    (passwordFile : Option String) : String :=
  if host.enabled = false then renderDisabledHost platform host "proxy-host"
  else Text.joinLines (proxyLines platform host accessList passwordFile) ++ "\n"

/-- `render_redirection`. -/
def renderRedirection (platform : PlatformConfig) (host : RuntimeHost) : String :=
  if host.enabled = false then renderDisabledHost platform host "redirection-host"
  else
    let scheme := if host.forwardScheme = .auto then "$scheme" else host.forwardScheme.value
    let suffix := if host.preservePath then "$request_uri" else ""
    let target := s!"{scheme}://{orNone host.forwardDomainName}{suffix}"
    Text.joinLines
      (serverStart platform host ++ acmeChallengeLocation ++ hostIncludes host ++
      (if hasRootLocation host.advancedConfig then []
      else
        [ "  location / \x7b",
          s!"    return {host.forwardHttpCode} {target};",
          "  \x7d" ]) ++
      ["  include custom/server_redirect.conf;", "\x7d"]) ++ "\n"

/-- `render_dead`. -/
def renderDead (platform : PlatformConfig) (host : RuntimeHost) : String :=
  if host.enabled = false then renderDisabledHost platform host "dead-host"
  else
    Text.joinLines
      (serverStart platform host ++ acmeChallengeLocation ++ hostIncludes host ++
      (if hasRootLocation host.advancedConfig then [] else ["  location / \x7b return 404; \x7d"]) ++
      ["  include custom/server_dead.conf;", "\x7d"]) ++ "\n"

end Portwyrm.Runtime

import Portwyrm.Runtime.NginxHttp
import Portwyrm.Runtime.NginxPlatform

/-!
# Assembly of a generation

`NginxRenderer.render`: the map from file names to contents that makes one generation.
-/

namespace Portwyrm.Runtime

open Base

/-- A generation: file names and contents. -/
abbrev Files := Dict String String

/-- `CUSTOM_INCLUDE_NAMES`. -/
def customIncludeNames : List String :=
  ["root_top", "root", "http_top", "http", "events", "stream", "server_proxy", "server_redirect",
    "server_stream", "server_stream_tcp", "server_stream_udp", "server_dead"]

/-- The inputs of `render`. -/
structure RenderInput where
  proxyHosts : List RuntimeHost := []
  redirectionHosts : List RuntimeHost := []
  deadHosts : List RuntimeHost := []
  streams : List Stream := []
  quicPassthroughHosts : List QuicRoute := []
  accessLists : List AccessList := []

/-- Store a list of files, one after the other. -/
def addFiles (files : Files) (added : List (String × String)) : Files :=
  added.foldl (fun files e => files.set e.1 e.2) files

/-- `access_by_id`. -/
def accessById (accessLists : List AccessList) : Dict ℕ AccessList :=
  Dict.ofList (accessLists.map fun l => (l.id, l))

/-- `selected_ids`: the access lists that a host names. -/
def selectedIds (host : RuntimeHost) : List ℕ :=
  if host.accessListIds ≠ [] then host.accessListIds
  else if host.accessListId ≠ 0 then [host.accessListId] else []

/-- `selected`: the access lists of a host that are there. -/
def selectedLists (byId : Dict ℕ AccessList) (host : RuntimeHost) : List AccessList :=
  (selectedIds host).filterMap byId.get?

/-- `effective`: the policy that a host is rendered with. -/
def effectivePolicy (byId : Dict ℕ AccessList) (host : RuntimeHost) : Result (Option AccessList) :=
  mergeAccessLists (selectedLists byId host)

/-- `password_file`. -/
def passwordFile (host : RuntimeHost) (selected : List AccessList) : Option String :=
  if 1 < selected.length then some s!"proxy-host-{host.id}" else none

section Render

variable (platform : PlatformConfig)

/-- The files of a generation that no resource asks for. -/
def platformFiles (routes : List QuicRoute) : List (String × String) :=
  [ ("nginx.conf", renderMain platform),
    ("http/default.conf", renderDefaultSite platform),
    ("http/status.conf", renderStatusSite),
    ("include/trusted-proxies.conf", renderTrustedProxies platform),
    ("conf.d/include/proxy.conf", renderProxyInclude),
    ("conf.d/include/block-exploits.conf", renderBlockExploits),
    ("quic/routes.json", renderQuicRoutes routes) ] ++
  customIncludeNames.map (fun name => (s!"custom/{name}.conf", "")) ++
  (if platform.defaultSite = .html then [("default_www/index.html", platform.defaultHtml)] else [])

/-- The password file of an access list. -/
def accessFile (l : AccessList) : String × String := (s!"access/{l.id}", renderHtpasswd l)

/-- The password file of a merged policy. -/
def mergedFiles : Option String → Option AccessList → List (String × String)
  | some file, some effective => [(s!"access/{file}", renderHtpasswd effective)]
  | _, _ => []

/-- The name of the file of a proxy host. -/
def proxyName (host : RuntimeHost) : String := s!"http/proxy-{host.id}.conf"

/-- The files of a proxy host: the password file of a merged policy, and the server block. -/
def proxyFiles (byId : Dict ℕ AccessList) (host : RuntimeHost) : Result (List (String × String)) := do
  let selected := selectedLists byId host
  let effective ← effectivePolicy byId host
  let file := passwordFile host selected
  pure (mergedFiles file effective ++ [(proxyName host, renderProxy platform host effective file)])

/-- The file of a redirection. -/
def redirectionFile (host : RuntimeHost) : String × String :=
  (s!"http/redirection-{host.id}.conf", renderRedirection platform host)

/-- The file of a dead host. -/
def deadFile (host : RuntimeHost) : String × String :=
  (s!"http/dead-{host.id}.conf", renderDead platform host)

/-- The file of a stream. -/
def streamFile (stream : Stream) : String × String :=
  (s!"stream/stream-{stream.id}.conf", renderStream platform stream)

/-- The file of a custom include point. -/
def customFile (e : String × String) : Result (String × String) := do
  raiseIf (e.1 ∉ customIncludeNames) (.valueError s!"unsupported custom include point: {e.1}")
  pure (s!"custom/{e.1}.conf", Text.rstrip e.2 ++ "\n")

/-- `NginxRenderer.render`. -/
def render (input : RenderInput) : Result Files := do
  let byId := accessById input.accessLists
  let files := addFiles Dict.empty (platformFiles platform input.quicPassthroughHosts)
  let files := addFiles files ((sortedBy natLe AccessList.id input.accessLists).map accessFile)
  let proxies ← (sortedBy natLe RuntimeHost.id input.proxyHosts).mapM (proxyFiles platform byId)
  let files := addFiles files proxies.flatten
  let files := addFiles files
    ((sortedBy natLe RuntimeHost.id input.redirectionHosts).map (redirectionFile platform))
  let files := addFiles files
    ((sortedBy natLe RuntimeHost.id input.deadHosts).map (deadFile platform))
  let files := addFiles files ((sortedBy natLe Stream.id input.streams).map (streamFile platform))
  let custom ← (sortedBy textLe Prod.fst platform.customIncludes.entries).mapM customFile
  pure (addFiles files custom)

end Render

end Portwyrm.Runtime

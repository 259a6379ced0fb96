import Portwyrm.Base.Listing
import Portwyrm.Runtime.RenderOutcome
import Portwyrm.Tables.Hosts
import Portwyrm.Tables.Streams

/-!
# Rendering the tables

`TableRuntimeController.render`: every table shows its rows through a runtime schema, which
validates them, and the controller validates what it is shown once more before it renders.  One
row that a schema refuses stops the rendering of all.
-/

namespace Portwyrm.Tables

open Base Portwyrm.Runtime Portwyrm.Quic

/-- The tables that a generation is rendered from. -/
structure RoutingTables where
  hosts : Dict ℕ HostRow := Dict.empty
  streams : Dict ℕ StreamRow := Dict.empty
  quicRoutes : List QuicRoute := []
  access : AccessTables := ⟨Table.empty, Table.empty, Table.empty⟩

/-! ## Runtime schemas -/

/-- The TLS settings of a host. -/
def HostRow.ssl (row : HostRow) : SSLSettings where
  certificateId := row.certificateId.getD 0
  forced := row.forceSsl
  http2 := row.http2Enabled
  hsts := row.hstsEnabled
  hstsSubdomains := row.hstsSubdomains
  trustForwardedProto := row.trustForwardedProto

/-- The row that shows other TLS settings. -/
def HostRow.withSsl (row : HostRow) (ssl : SSLSettings) : HostRow :=
  { row with
    certificateId := (some ssl.certificateId).filter (· ≠ 0)
    forceSsl := ssl.forced
    http2Enabled := ssl.http2
    hstsEnabled := ssl.hsts
    hstsSubdomains := ssl.hstsSubdomains
    trustForwardedProto := ssl.trustForwardedProto }

/-- `RuntimeLocation.model_validate`, of a stored location. -/
def validateRuntimeLocation (row : LocationRow) : Result LocationRow :=
  validateLocation row.path row.protocol.value row.targetKind.value row.target row.port
    row.forwardPath row.advancedConfig

/-- The code of a redirection, `projected.get("forward_http_code") or 301`. -/
def HostRow.httpCode (row : HostRow) : ℕ := (row.redirectCode.filter (· ≠ 0)).getD 301

/-- The part of `RuntimeHost.validate_host` for one kind of host: the normalised
`forward_domain_name`. -/
def validateRuntimeKind (row : HostRow) : Result (Option String) :=
  match row.kind with
  | .proxy => do
    raiseIf (∀ upstream ∈ row.upstream, Text.strip upstream.target = "")
      (.domainValidationError "forward_host is required")
    let _ ← port ((row.upstream.map UpstreamRow.port).getD 0 : ℕ) "forward_port"
    pure row.redirectTarget
  | .redirect => do
    let domain := Text.casefold (rstripDots (Text.strip (row.redirectTarget.getD "")))
    raiseIf (¬ IsDomain domain.toList)
      (.domainValidationError "forward_domain_name must be a valid domain")
    raiseIf ((row.httpCode : ℤ) ∉ redirectCodes)
      (.domainValidationError "forward_http_code must be one of 301, 302, 307, or 308")
    pure (some domain)
  | .dead => pure row.redirectTarget

/-- `RuntimeHost.model_validate`, of what `_runtime_projection` shows of a row: the row that shows
the validated host.  The owner that is shown is positive, as a row without one shows 1. -/
def validateRuntimeHost (id : ℕ) (row : HostRow) : Result HostRow := do
  let sources ← canonicalDomains row.sources
  let locations ← row.locations.mapM validateRuntimeLocation
  raiseIf (id = 0) (.domainValidationError "host and owner IDs must be positive")
  raiseIf (0 ∈ row.accessListIds)
    (.domainValidationError "access_list_ids must contain positive IDs")
  raiseIf (¬ row.accessListIds.Nodup)
    (.domainValidationError "access_list_ids must be unique")
  let redirectTarget ← validateRuntimeKind row
  raiseIf (¬ (locations.map LocationRow.path).Nodup)
    (.domainValidationError "proxy location paths must be unique")
  let shown :=
    { row with sources := sources, locations := locations, redirectTarget := redirectTarget }
  pure (shown.withSsl row.ssl.normalized)

/-- `RuntimeStream`, of what `_runtime_projection` shows of a row. -/
def validateRuntimeStream (_id : ℕ) (row : StreamRow) : Result StreamRow := do
  let incomingPort ← port row.incomingPort "incoming_port"
  let targetPort ← port row.targetPort "forwarding_port"
  raiseIf (Text.strip row.target = "") (.domainValidationError "forwarding_host is required")
  let target ← target row.target row.targetKind "forwarding_host"
  raiseIf (row.certificateId.getD 0 ≠ 0 ∧ row.protocol = .udp)
    (.domainValidationError "stream TLS is supported only for TCP")
  pure { row with incomingPort := incomingPort, targetPort := targetPort, target := target }

/-- A location, as the renderer reads it. -/
def runtimeLocation (row : LocationRow) : ProxyLocation where
  path := row.path
  forwardScheme := row.protocol
  forwardHost := row.target
  forwardPort := row.port
  forwardPath := row.forwardPath
  advancedConfig := row.advancedConfig

/-- A host, as the renderer reads it. -/
def runtimeHost (id : ℕ) (row : HostRow) : RuntimeHost where
  id := id
  kind := row.kind
  domainNames := row.sources
  forwardScheme := (row.upstream.map UpstreamRow.protocol).getD (row.redirectScheme.getD .http)
  forwardHost := row.upstream.map UpstreamRow.target
  forwardPort := row.upstream.map UpstreamRow.port
  forwardDomainName := row.redirectTarget
  forwardHttpCode := row.httpCode
  preservePath := row.preservePath
  accessListId := row.accessListIds.head?.getD 0
  accessListIds := row.accessListIds
  ssl := row.ssl
  cachingEnabled := row.cacheEnabled
  blockExploits := row.blockExploits
  allowWebsocketUpgrade := row.websocketEnabled
  advancedConfig := row.advancedConfig
  locations := row.locations.map runtimeLocation
  enabled := row.enabled

/-- A stream, as the renderer reads it. -/
def runtimeStream (id : ℕ) (row : StreamRow) : Stream where
  id := id
  incomingPort := row.incomingPort
  forwardingHost := row.target
  forwardingPort := row.targetPort
  protocol := row.protocol
  certificateId := row.certificateId.getD 0
  enabled := row.enabled

/-! ## The render -/

/-- Rows with their ids, each through a runtime schema. -/
def validateRows {ρ : Type} (validate : ℕ → ρ → Result ρ) (rows : List (ℕ × ρ)) :
    Result (List (ℕ × ρ)) :=
  rows.mapM fun entry => (validate entry.1 entry.2).map fun row => (entry.1, row)

/-- The routes of the table, each through its runtime schema. -/
def validateRoutes (routes : List QuicRoute) : Result (List QuicRoute) :=
  routes.mapM fun route => validateRoute (wireProjection route)

/-- What `render` passes to the renderer. -/
def renderInput (hosts : List (ℕ × HostRow)) (streams : List (ℕ × StreamRow))
    (quicRoutes : List QuicRoute) (accessLists : List AccessList) : RenderInput :=
  let runtimeHosts := hosts.map fun entry => runtimeHost entry.1 entry.2
  { proxyHosts := runtimeHosts.filter fun host => host.kind = .proxy
    redirectionHosts := runtimeHosts.filter fun host => host.kind = .redirect
    deadHosts := runtimeHosts.filter fun host => host.kind = .dead
    streams := streams.map fun entry => runtimeStream entry.1 entry.2
    quicPassthroughHosts := quicRoutes
    accessLists := accessLists }

/-- `TableRuntimeController.render`: four `runtime_list` operations, and the validation of what
they return. -/
def renderTables (t : RoutingTables) : Result Files := do
  let hosts ← validateRows validateRuntimeHost t.hosts.sorted
  let streams ← validateRows validateRuntimeStream t.streams.sorted
  let quicRoutes ← validateRoutes (sortedBy natLe QuicRoute.id t.quicRoutes)
  let accessLists ← accessRuntimeList t.access
  let hosts ← validateRows validateRuntimeHost hosts
  let streams ← validateRows validateRuntimeStream streams
  let quicRoutes ← validateRoutes quicRoutes
  let accessLists ← accessLists.mapM AccessList.revalidate
  render {} (renderInput hosts streams quicRoutes accessLists)

end Portwyrm.Tables

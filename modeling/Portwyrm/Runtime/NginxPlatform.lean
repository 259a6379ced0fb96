import Portwyrm.Runtime.NginxPrimitives

/-!
# The files that do not belong to a host

`portwyrm.runtime.nginx_platform`, `nginx_stream` and `nginx_quic`: the main configuration and
its includes, the server blocks of streams, and the routes of the QUIC data plane.
-/

namespace Portwyrm.Runtime

open Base

/-! ## Platform -/

/-- `render_main`. -/
def renderMain (platform : PlatformConfig) : String :=
  let addresses := " ".intercalate platform.resolverAddresses
  let resolver := if platform.resolverEnabled then s!"  resolver {addresses} valid=30s;\n" else ""
  "# Generated by Portwyrm\n" ++
  "load_module /usr/lib/nginx/modules/ngx_stream_module.so;\n" ++
  "worker_processes auto;\n" ++
  "pid /tmp/nginx.pid;\n" ++
  "error_log /dev/stderr info;\n" ++
  "include custom/root_top.conf;\n" ++
  "events \x7b worker_connections 1024; include custom/events.conf; \x7d\n" ++
  "http \x7b\n" ++
  "  include /etc/nginx/mime.types;\n" ++
  "  default_type application/octet-stream;\n" ++
  "  log_format proxy '$remote_addr - $host [$time_local] $request $status " ++
  "$body_bytes_sent';\n" ++
  "  include custom/http_top.conf;\n" ++
  "  proxy_cache_path /var/lib/nginx/cache/public levels=1:2 " ++
  "keys_zone=public-cache:30m max_size=192m;\n" ++
  resolver ++
  "  include include/trusted-proxies.conf;\n" ++
  "  include http/*.conf;\n" ++
  "  include custom/http.conf;\n" ++
  "\x7d\n" ++
  "stream \x7b log_format stream '$remote_addr [$time_local] $protocol $status'; " ++
  "include stream/*.conf; include custom/stream.conf; \x7d\n" ++
  "include custom/root.conf;\n"

/-- `render_status_site`. -/
def renderStatusSite : String :=
  "# Loopback-only operational telemetry for the Portwyrm control plane\n" ++
  "server \x7b\n" ++
  "  listen 127.0.0.1:8081;\n" ++
  "  server_name _;\n" ++
  "  access_log off;\n" ++
  "  location = /nginx-status \x7b\n" ++
  "    stub_status;\n" ++
  "    allow 127.0.0.1;\n" ++
  "    deny all;\n" ++
  "  \x7d\n" ++
  "\x7d\n"

/-- `render_proxy_include`. -/
def renderProxyInclude : String :=
  "proxy_set_header Host $host;\n" ++
  "proxy_set_header X-Real-IP $remote_addr;\n" ++
  "proxy_set_header X-Forwarded-For $proxy_add_x_forwarded_for;\n" ++
  "proxy_set_header X-Forwarded-Proto $scheme;\n" ++
  "proxy_pass $forward_scheme://$server:$port;\n"

/-- `render_block_exploits`. -/
def renderBlockExploits : String :=
  "location ~* /(?:\\.git|\\.env|wp-config\\.php) \x7b deny all; \x7d\n"

/-- `render_trusted_proxies`. -/
def renderTrustedProxies (platform : PlatformConfig) : String :=
  Text.joinLines
    (["# Trusted reverse-proxy ranges"] ++
    (sortedBy textLe id platform.trustedProxyRanges).map
      (fun address => s!"set_real_ip_from {address};") ++
    (if platform.trustedProxyRanges ≠ [] then
      ["real_ip_header X-Forwarded-For;", "real_ip_recursive on;"]
    else [])) ++ "\n"

/-- The answer of the default site. -/
def defaultSiteBody (platform : PlatformConfig) : String :=
  match platform.defaultSite with
  | .congratulations =>
    "default_type text/plain;\n    return 200 \"Congratulations! Portwyrm is running.\\n\";"
  | .notFound => "return 404;"
  | .dropped => "return 444;"
  | .redirect => s!"return 301 {platform.defaultRedirect};"
  | .html => "root /data/nginx/default_www;\n    try_files $uri /index.html;"

/-- `render_default_site`. -/
def renderDefaultSite (platform : PlatformConfig) : String :=
  let ipv6 :=
    if platform.ipv6 then
      "  listen [::]:80 default_server;\n  listen [::]:443 ssl default_server;\n"
    else ""
  "server \x7b\n" ++
  "  listen 80 default_server;\n" ++
  "  listen 443 ssl default_server;\n" ++
  ipv6 ++
  "  server_name _;\n" ++
  "  ssl_reject_handshake on;\n" ++
  "  location ^~ /.well-known/acme-challenge/ \x7b\n" ++
  "    root /data/acme-challenge;\n" ++
  "    try_files $uri =404;\n" ++
  "  \x7d\n" ++
  "  location / \x7b\n" ++
  s!"    {defaultSiteBody platform}\n" ++
  "  \x7d\n" ++
  "\x7d\n"

/-! ## Streams -/

/-- The lines of a stream block behind its listeners. -/
def streamTail (stream : Stream) (protocol : String) : List String :=
  [ s!"  proxy_pass {stream.forwardingHost}:{stream.forwardingPort};",
    s!"  access_log /data/logs/stream-{stream.id}_access.log stream;",
    s!"  error_log /data/logs/stream-{stream.id}_error.log warn;",
    "  include custom/server_stream.conf;",
    s!"  include custom/server_stream_{protocol}.conf;",
    "\x7d" ]

/-- The TCP block of `render_stream`. -/
def streamTcpLines (platform : PlatformConfig) (stream : Stream) : List String :=
  let sslSuffix := if stream.certificateId ≠ 0 then " ssl" else ""
  ["server \x7b", s!"  listen {stream.incomingPort}{sslSuffix};"] ++
  (if platform.ipv6 then [s!"  listen [::]:{stream.incomingPort}{sslSuffix};"] else []) ++
  (if stream.certificateId ≠ 0 then sslLines { certificateId := stream.certificateId } true
  else []) ++
  streamTail stream "tcp"

/-- The UDP block of `render_stream`. -/
def streamUdpLines (platform : PlatformConfig) (stream : Stream) : List String :=
  ["server \x7b", s!"  listen {stream.incomingPort} udp;"] ++
  (if platform.ipv6 then [s!"  listen [::]:{stream.incomingPort} udp;"] else []) ++
  streamTail stream "udp"

/-- `render_stream`. -/
def renderStream (platform : PlatformConfig) (stream : Stream) : String :=
  if stream.enabled = false then s!"# stream {stream.id} disabled\n"
  else
    let blocks :=
      (if stream.tcpForwarding then [Text.joinLines (streamTcpLines platform stream)] else []) ++
      (if stream.udpForwarding then [Text.joinLines (streamUdpLines platform stream)] else [])
    "\n\n".intercalate blocks ++ "\n"

/-! ## QUIC routes -/

/-- A code unit in a JSON text. -/
def jsonUnit (n : ℕ) : List Char :=
  ['\\', 'u', Nat.digitChar (n / 4096), Nat.digitChar (n / 256 % 16),
    Nat.digitChar (n / 16 % 16), Nat.digitChar (n % 16)]

/-- One character in a JSON text that has ASCII characters only. -/
def jsonChar (c : Char) : List Char :=
  if c = '"' then ['\\', '"']
  else if c = '\\' then ['\\', '\\']
  else if c = '\n' then ['\\', 'n']
  else if c = '\r' then ['\\', 'r']
  else if c = '\t' then ['\\', 't']
  else if c.toNat = 8 then ['\\', 'b']
  else if c.toNat = 12 then ['\\', 'f']
  else if 32 ≤ c.toNat ∧ c.toNat < 127 then [c]
  else if c.toNat < 0x10000 then jsonUnit c.toNat
  else jsonUnit (0xd800 + (c.toNat - 0x10000) / 1024) ++ jsonUnit (0xdc00 + (c.toNat - 0x10000) % 1024)

/-- `json.dumps` of a text. -/
def jsonText (s : String) : String :=
  String.ofList ('"' :: (s.toList.flatMap jsonChar ++ ['"']))

/-- A JSON list without blanks. -/
def jsonList (items : List String) : String := "[" ++ ",".intercalate items ++ "]"

/-- A JSON object without blanks; the members come with their keys in order. -/
def jsonObject (members : List (String × String)) : String :=
  "\x7b" ++ ",".intercalate (members.map fun m => jsonText m.1 ++ ":" ++ m.2) ++ "\x7d"

/-- One entry of `routes`, its keys sorted. -/
def quicRouteJson (route : QuicRoute) : String :=
  jsonObject
    [ ("alpn", jsonText route.alpn),
      ("idle_timeout_seconds", toString route.idleTimeoutSeconds),
      ("server_name", jsonText route.serverName),
      ("target", jsonText route.target),
      ("target_port", toString route.targetPort) ]

/-- The listener of a route. -/
def QuicRoute.listener (route : QuicRoute) : String × ℕ := (route.listenAddress, route.incomingPort)

/-- The order of listeners. -/
def listenerLe (a b : String × ℕ) : Bool := decide (a.1 < b.1) || a.1 == b.1 && natLe a.2 b.2

/-- `_groups`. -/
def quicGroups (routes : List QuicRoute) : List ((String × ℕ) × List QuicRoute) :=
  sortedBy listenerLe Prod.fst
    ((Dict.fromKeys (routes.map QuicRoute.listener)).map fun listener =>
      (listener, routes.filter fun route => route.listener = listener))

/-- One entry of `listeners`, its keys sorted. -/
def quicListenerJson (group : (String × ℕ) × List QuicRoute) : String :=
  jsonObject
    [ ("incoming_port", toString group.1.2),
      ("listen_address", jsonText group.1.1),
      ("routes", jsonList ((sortedBy textLe QuicRoute.serverName group.2).map quicRouteJson)) ]

/-- `render_quic_routes`. -/
def renderQuicRoutes (routes : List QuicRoute) : String :=
  jsonObject
    [ ("listeners",
        jsonList ((quicGroups (routes.filter QuicRoute.enabled)).map quicListenerJson)),
      ("version", "1") ] ++ "\n"

end Portwyrm.Runtime

import Mathlib.Data.List.Sort
import Portwyrm.Runtime.Models

/-!
# Fragments of Nginx configuration

`portwyrm.runtime.nginx_primitives`: the lines that several kinds of server blocks share, and
the merge of access lists.
-/

namespace Portwyrm.Runtime

open Base

/-- A text, as an f-string writes a value that may be `None`. -/
def orNone (s : Option String) : String := s.getD "None"

/-- Blanks at the start of a line. -/
def blanks (spaces : ℕ) : String := String.ofList (List.replicate spaces ' ')

/-- `indented`. -/
def indented (value : String) (spaces : ℕ := 2) : String :=
  Text.joinLines ((Text.splitlines value).map fun line =>
    if line = "" then "" else blanks spaces ++ line)

/-- A single line is indented as a whole. -/
lemma indented_line {line : String} (hne : line ≠ "")
    (h : ∀ c ∈ line.toList, Text.isLineBreak c = false) (spaces : ℕ) :
    indented line spaces = blanks spaces ++ line := by
  simp [indented, Text.splitlines_of_no_break hne h, hne, Text.joinLines]

/-- `block_exploits`. -/
def blockExploits : String := "  include conf.d/include/block-exploits.conf;\n"

/-- `listen`. -/
def listen (domainNames : List String) (ssl : SSLSettings) (ipv6 : Bool) : List String :=
  let http2 := if ssl.http2 then " http2" else ""
  ["  listen 80;"] ++
  (if ipv6 then ["  listen [::]:80;"] else []) ++
  (if ssl.certificateId ≠ 0 then
    [s!"  listen 443 ssl{http2};"] ++
    (if ipv6 then [s!"  listen [::]:443 ssl{http2};"] else [])
  else []) ++
  ["  server_name " ++ " ".intercalate domainNames ++ ";"]

/-- `ssl_lines`. -/
def sslLines (ssl : SSLSettings) (stream : Bool := false) : List String :=
  if ssl.certificateId = 0 then []
  else
    let certDir := s!"/etc/letsencrypt/live/npm-{ssl.certificateId}"
    [ s!"  ssl_certificate {certDir}/fullchain.pem;",
      s!"  ssl_certificate_key {certDir}/privkey.pem;",
      if stream then "  ssl_session_cache shared:SSL_stream:50m;"
      else "  ssl_session_cache shared:SSL:50m;" ] ++
    if !stream && ssl.hsts then
      let subdomains := if ssl.hstsSubdomains then "; includeSubDomains" else ""
      [s!"  add_header Strict-Transport-Security \"max-age=63072000{subdomains}\" always;"]
    else []

/-- `force_ssl_lines`. -/
def forceSslLines (ssl : SSLSettings) : List String :=
  if ssl.certificateId = 0 ∨ ssl.forced = false then []
  else
    let condition :=
      if ssl.trustForwardedProto then "$http_x_forwarded_proto != https" else "$scheme != https"
    ["  if (" ++ condition ++ ") \x7b", "    return 301 https://$host$request_uri;", "  \x7d"]

/-! ## Access control -/

/-- The line of a client rule. -/
def AccessClient.line (c : AccessClient) : String := s!"{c.directive.value} {c.address};"

/-- `password_file or access_list.id`: the name of the password file of a policy. -/
def userFile (l : AccessList) (passwordFile : Option String) : String :=
  (passwordFile.filter (· ≠ "")).getD (toString l.id)

/-- `access_lines`. -/
def accessLines (accessList : Option AccessList) (passwordFile : Option String) : List String :=
  match accessList with
  | none => []
  | some l =>
    (if l.credentials ≠ [] then
      [ "auth_basic \"Authorization required\";",
        s!"auth_basic_user_file /data/access/{userFile l passwordFile};" ] ++
      (if l.passAuth = false then ["proxy_set_header Authorization \"\";"] else [])
    else []) ++
    (if l.clients ≠ [] then l.clients.map AccessClient.line ++ ["deny all;"] else []) ++
    (if l.credentials ≠ [] ∨ l.clients ≠ [] then
      [if l.satisfyAny then "satisfy any;" else "satisfy all;"]
    else [])

/-- `render_htpasswd`. -/
def renderHtpasswd (accessList : AccessList) : String :=
  String.join (accessList.credentials.map fun item => s!"{item.username}:{item.passwordHash}\n")

/-- `sorted(values, key=key)` for keys that are compared by `le`; equal keys keep their order. -/
def sortedBy {α κ : Type} (le : κ → κ → Bool) (key : α → κ) (values : List α) : List α :=
  values.insertionSort fun a b => le (key a) (key b)

lemma perm_sortedBy {α κ : Type} (le : κ → κ → Bool) (key : α → κ) (values : List α) :
    (sortedBy le key values).Perm values :=
  List.perm_insertionSort _ _

@[simp] lemma mem_sortedBy {α κ : Type} {le : κ → κ → Bool} {key : α → κ} {values : List α}
    {a : α} : a ∈ sortedBy le key values ↔ a ∈ values :=
  (perm_sortedBy le key values).mem_iff

/-- The order of texts. -/
def textLe (a b : String) : Bool := decide (a ≤ b)

/-- The order of numbers. -/
def natLe (a b : ℕ) : Bool := decide (a ≤ b)

/-- The order of pairs of texts. -/
def pairLe (a b : String × String) : Bool := decide (a.1 < b.1) || a.1 == b.1 && textLe a.2 b.2

/-- The credentials of one list join those collected so far; a name keeps one password. -/
def mergeCredentials (collected : Dict String AccessCredential) :
    List AccessCredential → Result (Dict String AccessCredential)
  | [] => pure collected
  | c :: rest => do
    raiseIf (∃ existing ∈ collected.get? c.username, existing.passwordHash ≠ c.passwordHash)
      (.valueError
        s!"conflicting credentials for {Text.repr c.username} in selected access lists")
    mergeCredentials (collected.set c.username c) rest

/-- The key under which `merge_access_lists` collects a rule. -/
def AccessClient.key (c : AccessClient) : String × String := (c.directive.value, c.address)

/-- The rules that `merge_access_lists` collects. -/
def mergeClients (clients : List AccessClient) : Dict (String × String) AccessClient :=
  Dict.ofList (clients.map fun c => (c.key, c))

/-- `merge_access_lists`. -/
def mergeAccessLists (accessLists : List AccessList) : Result (Option AccessList) :=
  match sortedBy natLe AccessList.id accessLists with
  | [] => pure none
  | first :: rest => do
    let ordered := first :: rest
    let credentials ← mergeCredentials Dict.empty (ordered.flatMap AccessList.credentials)
    let clients := mergeClients (ordered.flatMap AccessList.clients)
    let merged ← AccessList.validate first.id
      (" + ".intercalate (ordered.map AccessList.name))
      ((sortedBy textLe Prod.fst credentials.entries).map Prod.snd)
      ((sortedBy pairLe Prod.fst clients.entries).map Prod.snd)
      (ordered.all AccessList.satisfyAny)
      (ordered.all AccessList.passAuth)
    pure (some merged)

/-! ## Locations -/

/-- `asset_cache_lines`. -/
def assetCacheLines : List String :=
  [ "location ~* ^.*\\.(css|js|jpe?g|gif|png|webp|woff|woff2|eot|ttf|svg|ico|css\\.map|js\\.map)$ \x7b",
    "  if_modified_since off;",
    "  proxy_cache public-cache;",
    "  proxy_cache_key $host$request_uri;",
    "  proxy_ignore_headers Set-Cookie Cache-Control Expires X-Accel-Expires;",
    "  proxy_cache_valid any 30m;",
    "  proxy_cache_valid 404 1m;",
    "  proxy_hide_header Last-Modified;",
    "  proxy_hide_header Cache-Control;",
    "  proxy_hide_header Vary;",
    "  proxy_cache_bypass 0;",
    "  proxy_no_cache 0;",
    "  proxy_cache_use_stale error timeout updating http_500 http_502 http_503 http_504 http_404;",
    "  proxy_connect_timeout 5s;",
    "  proxy_read_timeout 45s;",
    "  expires 30m;",
    "  access_log off;",
    "  include conf.d/include/proxy.conf;",
    "\x7d" ]

/-- `acme_challenge_location`. -/
def acmeChallengeLocation : List String :=
  [ "  location ^~ /.well-known/acme-challenge/ \x7b",
    "    root /data/acme-challenge;",
    "    try_files $uri =404;",
    "  \x7d" ]

/-- `has_root_location`. -/
def hasRootLocation (config : String) : Bool :=
  Text.Contains (" ".intercalate (Text.words (Text.replaceChar '\n' ' ' config)))
    "location / \x7b"

end Portwyrm.Runtime

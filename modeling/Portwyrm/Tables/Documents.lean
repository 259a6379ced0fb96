import Portwyrm.Tables.Handlers
import Portwyrm.Tables.Users

/-!
# Resources as documents

`TableResources` takes a resource as a document and returns one.  This module reads the members of a
document that the tables have columns for, and writes the document that a row is shown as.
-/

namespace Portwyrm.Tables

open Base Portwyrm.Runtime Portwyrm.Identity

/-! ## Reading members -/

section Reading

variable {α : Type}

/-- A text of decimal digits. -/
def digitsText (digits : List Char) : Option ℤ :=
  if digits = [] then none else (Numeral.numeral 10 digits).map fun n => (n : ℤ)

/-- `int(text)`, for decimal digits behind a sign. -/
def intText (s : String) : Option ℤ :=
  match (Text.strip s).toList with
  | '-' :: digits => (digitsText digits).map fun n => -n
  | '+' :: digits => digitsText digits
  | digits => digitsText digits

/-- `int(value)`; values that are false count as null. -/
def readInt : Json → Option (Option ℤ)
  | .number n => some (some n)
  | .bool b => some (some (if b then 1 else 0))
  | .text s => if s = "" then some none else (intText s).map some
  | v => if truthy v then none else some none

/-- An id; values that are false, except zero, count as null. -/
def readNat (v : Json) : Option (Option ℕ) := do
  match ← readInt v with
  | some n => if 0 ≤ n then some (some n.toNat) else none
  | none => some none

/-- `str(value)`; other values that are false count as null. -/
def readText : Json → Option (Option String)
  | .text s => some (some s)
  | v => some (if truthy v then some (strJson v) else none)

/-- `bool(value)`. -/
def readFlag (v : Json) : Option (Option Bool) := some (some (truthy v))

/-- The items of a list; values that are false count as null. -/
def readList (read : Json → Option α) : Json → Option (Option (List α))
  | .list items => (items.mapM read).map some
  | v => if truthy v then none else some none

/-- A name of a domain is a text. -/
def domainItem : Json → Option String
  | .text s => some s
  | _ => none

/-- An id in a list. -/
def intItem (v : Json) : Option ℤ := (readInt v).bind id

/-- The id of a principal in a list. -/
def natItem (v : Json) : Option ℕ := (readNat v).bind id

/-- A member of a document: absent, null, or a value that can be read. -/
def readMember (read : Json → Option (Option α)) (d : Document) (key : String) :
    Result (Member α) :=
  match d.get? key with
  | none => pure none
  | some .null => pure (some none)
  | some v =>
    match read v with
    | some value => pure (some value)
    | none => throw (.valueError s!"invalid {key}")

/-- A text of a member, when it is not false. -/
def givenText (members : List (String × Json)) (key : String) : Option String :=
  ((Json.get? members key).filter truthy).map strJson

/-- The members of a document that no column holds. -/
def otherMembers (known : List String) (d : Document) : Document := known.foldl Dict.pop d

end Reading

/-! ## Comparing documents -/

/-- A number, or a truth value that is equal to one. -/
def asNumber : Json → Option ℤ
  | .number n => some n
  | .bool b => some (if b then 1 else 0)
  | _ => none

mutual

/-- `a == b`. -/
def sameJson : Json → Json → Bool
  | .null, .null => true
  | .text s, .text s' => s = s'
  | .list items, .list items' => sameItems items items'
  | .object members, .object members' =>
    members.length = members'.length && sameMembers members members'
  | v, v' => (asNumber v).isSome && asNumber v = asNumber v'

/-- Items that are equal one by one. -/
def sameItems : List Json → List Json → Bool
  | [], [] => true
  | v :: rest, v' :: rest' => sameJson v v' && sameItems rest rest'
  | _, _ => false

/-- Members that are equal to those with their keys. -/
def sameMembers : List (String × Json) → List (String × Json) → Bool
  | [], _ => true
  | (k, v) :: rest, members' =>
    (match Json.get? members' k with
      | some v' => sameJson v v'
      | none => false) && sameMembers rest members'

end

/-- `a == b`, for documents. -/
def sameDocument (d d' : Document) : Bool :=
  d.size = d'.size && sameMembers d.entries d'.entries

/-! ## Payloads of hosts -/

/-- `_HOST_KNOWN`. -/
def hostKnown : List String :=
  [ "id", "kind", "owner_principal_id", "owner_user_id", "enabled", "certificate_id", "ssl_forced",
    "force_ssl", "hsts_enabled", "hsts_subdomains", "http2_support", "trust_forwarded_proto",
    "allow_websocket_upgrade", "caching_enabled", "block_exploits", "forward_domain_name",
    "forward_scheme", "forward_http_code", "preserve_path", "advanced_config", "domain_names",
    "forward_host", "forward_port", "target_kind", "locations", "custom_locations",
    "access_list_id", "access_list_ids", "created_on", "modified_on", "created_at", "updated_at" ]

/-- A location of a document. -/
def locationItem : Json → Option LocationPayload
  | .object members => do
    let forwardPort ← match Json.get? members "forward_port" with
      | some v => readInt v
      | none => some none
    some
      { path := givenText members "path"
        forwardScheme := givenText members "forward_scheme"
        targetKind := givenText members "target_kind"
        forwardHost := givenText members "forward_host"
        forwardPort := forwardPort
        forwardPath := givenText members "forward_path"
        advancedConfig := givenText members "advanced_config" }
  | _ => none

/-- The payload of a document for a host. -/
def hostPayload (d : Document) : Result HostPayload := do
  let ownerPrincipalId ← readMember readNat d "owner_principal_id"
  let enabled ← readMember readFlag d "enabled"
  let certificateId ← readMember readInt d "certificate_id"
  let sslForced ← readMember readFlag d "ssl_forced"
  let forceSsl ← readMember readFlag d "force_ssl"
  let hstsEnabled ← readMember readFlag d "hsts_enabled"
  let hstsSubdomains ← readMember readFlag d "hsts_subdomains"
  let http2Support ← readMember readFlag d "http2_support"
  let trustForwardedProto ← readMember readFlag d "trust_forwarded_proto"
  let allowWebsocketUpgrade ← readMember readFlag d "allow_websocket_upgrade"
  let cachingEnabled ← readMember readFlag d "caching_enabled"
  let blockExploits ← readMember readFlag d "block_exploits"
  let advancedConfig ← readMember readText d "advanced_config"
  let domainNames ← readMember (readList domainItem) d "domain_names"
  let forwardScheme ← readMember readText d "forward_scheme"
  let forwardHost ← readMember readText d "forward_host"
  let forwardPort ← readMember readInt d "forward_port"
  let targetKind ← readMember readText d "target_kind"
  let forwardDomainName ← readMember readText d "forward_domain_name"
  let forwardHttpCode ← readMember readInt d "forward_http_code"
  let preservePath ← readMember readFlag d "preserve_path"
  let accessListIds ← readMember (readList intItem) d "access_list_ids"
  let accessListId ← readMember readInt d "access_list_id"
  let locations ← readMember (readList locationItem) d "locations"
  let customLocations ← readMember (readList locationItem) d "custom_locations"
  pure
    { ownerPrincipalId := ownerPrincipalId
      enabled := enabled
      certificateId := certificateId
      sslForced := sslForced
      forceSsl := forceSsl
      hstsEnabled := hstsEnabled
      hstsSubdomains := hstsSubdomains
      http2Support := http2Support
      trustForwardedProto := trustForwardedProto
      allowWebsocketUpgrade := allowWebsocketUpgrade
      cachingEnabled := cachingEnabled
      blockExploits := blockExploits
      advancedConfig := advancedConfig
      domainNames := domainNames
      forwardScheme := forwardScheme
      forwardHost := forwardHost
      forwardPort := forwardPort
      targetKind := targetKind
      forwardDomainName := forwardDomainName
      forwardHttpCode := forwardHttpCode
      preservePath := preservePath
      accessListIds := accessListIds
      accessListId := accessListId
      locations := locations
      customLocations := customLocations
      extensions := otherMembers hostKnown d }

/-- What a payload has of the members that carry raw configuration, and of those without a
column. -/
structure ReadsHost (d : Document) (payload : HostPayload) : Prop where
  advancedConfig : readMember readText d "advanced_config" = .ok payload.advancedConfig
  locations : readMember (readList locationItem) d "locations" = .ok payload.locations
  customLocations : readMember (readList locationItem) d "custom_locations" =
    .ok payload.customLocations
  extensions : payload.extensions = otherMembers hostKnown d

lemma hostPayload_spec {d : Document} {payload : HostPayload} (h : hostPayload d = .ok payload) :
    ReadsHost d payload := by
  simp only [hostPayload, bind_eq_ok_iff, pure_eq_ok_iff] at h
  obtain ⟨-, -, -, -, -, -, -, -, -, -, -, -, -, -, -, -, -, -, -, -, -, -, -, -, config, hconfig, -, -,
    -, -, -, -, -, -, -, -, -, -, -, -, -, -, -, -, -, -, locations, hlocations, custom, hcustom, rfl⟩ := h
  exact ⟨hconfig, hlocations, hcustom, rfl⟩

/-! ## Payloads of streams, certificates and access lists -/

/-- The members of a document for a stream that have a column. -/
def streamKnown : List String :=
  [ "owner_principal_id", "tcp_forwarding", "udp_forwarding", "incoming_port", "target_kind",
    "forwarding_host", "forwarding_port", "certificate_id", "enabled" ]

/-- The payload of a document for a stream. -/
def streamPayload (d : Document) : Result StreamPayload := do
  let ownerPrincipalId ← readMember readNat d "owner_principal_id"
  let tcpForwarding ← readMember readFlag d "tcp_forwarding"
  let udpForwarding ← readMember readFlag d "udp_forwarding"
  let incomingPort ← readMember readInt d "incoming_port"
  let targetKind ← readMember readText d "target_kind"
  let forwardingHost ← readMember readText d "forwarding_host"
  let forwardingPort ← readMember readInt d "forwarding_port"
  let certificateId ← readMember readInt d "certificate_id"
  let enabled ← readMember readFlag d "enabled"
  pure
    { ownerPrincipalId := ownerPrincipalId
      tcpForwarding := tcpForwarding
      udpForwarding := udpForwarding
      incomingPort := incomingPort
      targetKind := targetKind
      forwardingHost := forwardingHost
      forwardingPort := forwardingPort
      certificateId := certificateId
      enabled := enabled
      extensions := otherMembers (streamKnown ++ droppedKeys) d }

/-- `_CERTIFICATE_KNOWN`. -/
def certificateKnown : List String :=
  [ "id", "owner_principal_id", "owner_user_id", "nice_name", "provider", "challenge_type",
    "key_type", "material_ref", "expires_at", "status", "domain_names", "created_on", "modified_on",
    "created_at", "updated_at" ]

/-- The payload of a document for a certificate. -/
def certificatePayload (d : Document) : Result CertificatePayload := do
  let ownerPrincipalId ← readMember readNat d "owner_principal_id"
  let ownerUserId ← readMember readNat d "owner_user_id"
  let niceName ← readMember readText d "nice_name"
  let provider ← readMember readText d "provider"
  let challengeType ← readMember readText d "challenge_type"
  let keyType ← readMember readText d "key_type"
  let materialRef ← readMember readText d "material_ref"
  let expiresAt ← readMember readInt d "expires_at"
  let status ← readMember readText d "status"
  let domainNames ← readMember (readList fun v => some (strJson v)) d "domain_names"
  pure
    { ownerPrincipalId := ownerPrincipalId
      ownerUserId := ownerUserId
      niceName := niceName
      provider := provider
      challengeType := challengeType
      keyType := keyType
      materialRef := materialRef
      expiresAt := expiresAt
      status := status
      domainNames := domainNames
      extensions := otherMembers certificateKnown d }

/-- `_ACCESS_KNOWN`. -/
def accessKnown : List String :=
  [ "id", "name", "satisfy_any", "pass_auth", "items", "credentials", "clients", "identity_ids",
    "owner_user_id", "created_on", "modified_on", "created_at", "updated_at" ]

/-- A text of a credential: `str(credential.get(key))`. -/
def credentialMember (members : List (String × Json)) (key : String) : Member String :=
  (Json.get? members key).map fun v =>
    match v with
    | .null => none
    | v => some (strJson v)

/-- A credential of a document. -/
def credentialItem : Json → Option CredentialPayload
  | .object members => some
    { username := givenText members "username"
      passwordHash := credentialMember members "password_hash"
      password := credentialMember members "password" }
  | _ => none

/-- A rule of a document; its schema forbids other members. -/
def clientItem : Json → Option (String × AccessDirective)
  | .object members =>
    if members.all (fun e => e.1 = "address" ∨ e.1 = "directive") then
      match Json.get? members "address", Json.get? members "directive" with
      | some (.text address), some (.text "allow") => some (address, .allow)
      | some (.text address), some (.text "deny") => some (address, .deny)
      | _, _ => none
    else none
  | _ => none

/-- The payload of a document for an access list, with its principals. -/
def accessListDocumentPayload (d : Document) :
    Result (AccessListPayload × Member (List ℕ)) := do
  let name ← readMember readText d "name"
  let satisfyAny ← readMember readFlag d "satisfy_any"
  let passAuth ← readMember readFlag d "pass_auth"
  let items ← readMember (readList credentialItem) d "items"
  let credentials ← readMember (readList credentialItem) d "credentials"
  let clients ← readMember (readList clientItem) d "clients"
  let identityIds ← readMember (readList natItem) d "identity_ids"
  -- `_values` loops over the credentials, and null cannot be looped over
  raiseIf ((items.or credentials).any Option.isNone = true) (.valueError "invalid items")
  let payload : AccessListPayload :=
    { name := name
      satisfyAny := satisfyAny
      passAuth := passAuth
      items := items
      credentials := credentials
      clients := clients
      extensions := otherMembers accessKnown d }
  pure (payload, identityIds)

/-! ## Showing rows -/

/-- A member of a document, when a payload has it. -/
def memberEntry {α : Type} (show_ : α → Json) (key : String) (m : Member α) :
    List (String × Json) :=
  m.toList.map fun value => (key, value.elim .null show_)

/-- An id. -/
def idJson (id : ℕ) : Json := .number id

/-- The texts of a list. -/
def textsJson (l : List String) : Json := .list (l.map Json.text)

/-- A member that is shown over the extensions of a row. -/
lemma get?_shown {extensions : Document} {l : List (String × Json)} {key : String} {v : Json}
    (hl : (l.map Prod.fst).Nodup) (hv : l.lookup key = some v) :
    (extensions.update (Dict.ofList l)).get? key = some v := by
  rw [Dict.get?_update, Dict.get?_ofList_of_nodup hl, hv, Option.some_or]

/-- A location, as `_project` shows it. -/
def locationJson (l : LocationRow) : Json :=
  .object
    [ ("path", .text l.path), ("forward_scheme", .text l.protocol.value),
      ("target_kind", .text l.targetKind.value), ("forward_host", .text l.target),
      ("forward_port", .number l.port), ("forward_path", .text l.forwardPath),
      ("advanced_config", .text l.advancedConfig) ]

/-- The kind of a host, as it is shown. -/
def kindText : HostKind → String
  | .proxy => "proxy"
  | .redirect => "redirect"
  | .dead => "dead"

/-- `RoutingHostStore._project`. -/
def hostDocument (id : ℕ) (row : HostRow) : Document :=
  let owner := row.ownerPrincipalId.elim .null idJson
  row.extensions.update <| Dict.ofList
    [ ("id", idJson id), ("kind", .text (kindText row.kind)), ("owner_user_id", owner),
      ("owner_principal_id", owner), ("enabled", .number (if row.enabled then 1 else 0)),
      ("certificate_id", idJson (row.certificateId.getD 0)), ("ssl_forced", .bool row.forceSsl),
      ("hsts_enabled", .bool row.hstsEnabled), ("hsts_subdomains", .bool row.hstsSubdomains),
      ("http2_support", .bool row.http2Enabled),
      ("trust_forwarded_proto", .bool row.trustForwardedProto),
      ("allow_websocket_upgrade", .bool row.websocketEnabled),
      ("caching_enabled", .bool row.cacheEnabled), ("block_exploits", .bool row.blockExploits),
      ("advanced_config", .text row.advancedConfig), ("domain_names", textsJson row.sources),
      ("forward_scheme", .text (match row.upstream with
        | some upstream => upstream.protocol.value
        | none => (row.redirectScheme.map ForwardScheme.value).getD "http")),
      ("forward_host", row.upstream.elim .null fun upstream => .text upstream.target),
      ("forward_port", row.upstream.elim .null fun upstream => .number upstream.port),
      ("target_kind", row.upstream.elim .null fun upstream => .text upstream.targetKind.value),
      ("forward_domain_name", row.redirectTarget.elim .null Json.text),
      ("forward_http_code", row.redirectCode.elim .null idJson),
      ("preserve_path", .bool row.preservePath),
      ("access_list_ids", .list (row.accessListIds.map idJson)),
      ("access_list_id", idJson (row.accessListIds.head?.getD 0)),
      ("locations", .list (row.locations.map locationJson)) ]

/-- The members of the document of a host. -/
def hostKeys : List String :=
  [ "id", "kind", "owner_user_id", "owner_principal_id", "enabled", "certificate_id", "ssl_forced",
    "hsts_enabled", "hsts_subdomains", "http2_support", "trust_forwarded_proto",
    "allow_websocket_upgrade", "caching_enabled", "block_exploits", "advanced_config",
    "domain_names", "forward_scheme", "forward_host", "forward_port", "target_kind",
    "forward_domain_name", "forward_http_code", "preserve_path", "access_list_ids",
    "access_list_id", "locations" ]

lemma nodup_hostKeys : hostKeys.Nodup := by decide

/-- `_project("streams", row)`: the metadata under the columns. -/
def streamDocument (id : ℕ) (row : StreamRow) : Document :=
  let item := projectStream row
  (item.extensions.set "id" (idJson id)).update <| Dict.ofList <|
    memberEntry idJson "owner_principal_id" item.ownerPrincipalId ++
    memberEntry Json.bool "tcp_forwarding" item.tcpForwarding ++
    memberEntry Json.bool "udp_forwarding" item.udpForwarding ++
    memberEntry Json.number "incoming_port" item.incomingPort ++
    memberEntry Json.text "target_kind" item.targetKind ++
    memberEntry Json.text "forwarding_host" item.forwardingHost ++
    memberEntry Json.number "forwarding_port" item.forwardingPort ++
    memberEntry Json.number "certificate_id" item.certificateId ++
    memberEntry Json.bool "enabled" item.enabled

/-- `CertificateStore._project`. -/
def certificateDocument (id : ℕ) (row : CertificateRow) : Document :=
  let owner := row.ownerPrincipalId.elim .null idJson
  row.extensions.update <| Dict.ofList
    [ ("id", idJson id), ("owner_principal_id", owner), ("owner_user_id", owner),
      ("nice_name", .text row.niceName), ("provider", .text row.provider),
      ("challenge_type", row.challengeType.elim .null Json.text), ("key_type", .text row.keyType),
      ("material_ref", row.materialRef.elim .null Json.text),
      ("expires_at", row.expiresAt.elim .null Json.number), ("status", .text row.status),
      ("domain_names", textsJson row.domains) ]

/-- A rule, as it is shown. -/
def clientJson (client : String × AccessDirective) : Json :=
  .object
    [ ("address", .text client.1),
      ("directive", .text (match client.2 with
        | .allow => "allow"
        | .deny => "deny")) ]

/-- `AccessListStore._project`, without the hashes. -/
def accessListDocument (id : ℕ) (item : AccessListItem) : Document :=
  item.extensions.update <| Dict.ofList
    [ ("id", idJson id), ("name", .text item.name), ("satisfy_any", .bool item.satisfyAny),
      ("pass_auth", .bool item.passAuth),
      ("items", .list (item.usernames.map fun username => .object [("username", .text username)])),
      ("clients", .list (item.clients.map clientJson)),
      ("identity_ids", .list (item.identityIds.map idJson)) ]

end Portwyrm.Tables

import Portwyrm.Tables.Fields
import Portwyrm.Tables.Lifecycle

/-!
# Routing hosts

`RoutingHostStore` of `portwyrm.tables.routing`, and the operations of `TableResources` on proxy,
redirection and dead hosts.  The children of a host (domain names, upstream, locations and access
lists) are always written and read together with it, and are kept in its row.
-/

namespace Portwyrm.Tables

open Base Portwyrm.Runtime Portwyrm.Quic Portwyrm.Identity

/-! ## Payloads -/

/-- The members of a location; null counts as absent. -/
structure LocationPayload where
  path : Option String := none
  forwardScheme : Option String := none
  targetKind : Option String := none
  forwardHost : Option String := none
  forwardPort : Option ℤ := none
  forwardPath : Option String := none
  advancedConfig : Option String := none

/-- The members of a payload for a host; what no operation reads is kept as an extension. -/
structure HostPayload where
  ownerPrincipalId : Member ℕ := none
  enabled : Member Bool := none
  certificateId : Member ℤ := none
  sslForced : Member Bool := none
  forceSsl : Member Bool := none
  hstsEnabled : Member Bool := none
  hstsSubdomains : Member Bool := none
  http2Support : Member Bool := none
  trustForwardedProto : Member Bool := none
  allowWebsocketUpgrade : Member Bool := none
  cachingEnabled : Member Bool := none
  blockExploits : Member Bool := none
  advancedConfig : Member String := none
  domainNames : Member (List String) := none
  forwardScheme : Member String := none
  forwardHost : Member String := none
  forwardPort : Member ℤ := none
  targetKind : Member String := none
  forwardDomainName : Member String := none
  forwardHttpCode : Member ℤ := none
  preservePath : Member Bool := none
  accessListIds : Member (List ℤ) := none
  accessListId : Member ℤ := none
  locations : Member (List LocationPayload) := none
  customLocations : Member (List LocationPayload) := none
  extensions : Dict String Json := Dict.empty

/-- `{**stored, **payload}`. -/
def HostPayload.over (payload stored : HostPayload) : HostPayload where
  ownerPrincipalId := payload.ownerPrincipalId.or stored.ownerPrincipalId
  enabled := payload.enabled.or stored.enabled
  certificateId := payload.certificateId.or stored.certificateId
  sslForced := payload.sslForced.or stored.sslForced
  forceSsl := payload.forceSsl.or stored.forceSsl
  hstsEnabled := payload.hstsEnabled.or stored.hstsEnabled
  hstsSubdomains := payload.hstsSubdomains.or stored.hstsSubdomains
  http2Support := payload.http2Support.or stored.http2Support
  trustForwardedProto := payload.trustForwardedProto.or stored.trustForwardedProto
  allowWebsocketUpgrade := payload.allowWebsocketUpgrade.or stored.allowWebsocketUpgrade
  cachingEnabled := payload.cachingEnabled.or stored.cachingEnabled
  blockExploits := payload.blockExploits.or stored.blockExploits
  advancedConfig := payload.advancedConfig.or stored.advancedConfig
  domainNames := payload.domainNames.or stored.domainNames
  forwardScheme := payload.forwardScheme.or stored.forwardScheme
  forwardHost := payload.forwardHost.or stored.forwardHost
  forwardPort := payload.forwardPort.or stored.forwardPort
  targetKind := payload.targetKind.or stored.targetKind
  forwardDomainName := payload.forwardDomainName.or stored.forwardDomainName
  forwardHttpCode := payload.forwardHttpCode.or stored.forwardHttpCode
  preservePath := payload.preservePath.or stored.preservePath
  accessListIds := payload.accessListIds.or stored.accessListIds
  accessListId := payload.accessListId.or stored.accessListId
  locations := payload.locations.or stored.locations
  customLocations := payload.customLocations.or stored.customLocations
  extensions := stored.extensions.update payload.extensions

/-- `payload.get("ssl_forced", payload.get("force_ssl", False))`. -/
def HostPayload.forcesSsl (payload : HostPayload) : Bool :=
  payload.sslForced.truthy (payload.forceSsl.truthy false)

/-- `payload.get("locations", payload.get("custom_locations", [])) or []`. -/
def HostPayload.locationList (payload : HostPayload) : List LocationPayload :=
  match payload.locations with
  | some locations => locations.getD []
  | none => payload.customLocations.get.getD []

/-- The access lists that `_replace_children` links to a host. -/
def HostPayload.selectedAccessLists (payload : HostPayload) : List ℤ :=
  match payload.accessListIds.get with
  | some ids => ids
  | none => (payload.accessListId.get.filter (· ≠ 0)).toList

/-! ## Rows -/

/-- A row of `routing_upstreams`. -/
structure UpstreamRow where
  protocol : ForwardScheme
  targetKind : TargetKind
  target : String
  port : ℕ

/-- A row of `routing_locations`. -/
structure LocationRow where
  path : String
  protocol : ForwardScheme
  targetKind : TargetKind
  target : String
  port : ℕ
  forwardPath : String
  advancedConfig : String

/-- A row of `routing_hosts`, with its children. -/
structure HostRow where
  kind : HostKind
  ownerPrincipalId : Option ℕ
  enabled : Bool
  certificateId : Option ℕ
  forceSsl : Bool
  hstsEnabled : Bool
  hstsSubdomains : Bool
  http2Enabled : Bool
  trustForwardedProto : Bool
  websocketEnabled : Bool
  cacheEnabled : Bool
  blockExploits : Bool
  redirectTarget : Option String
  redirectScheme : Option ForwardScheme
  redirectCode : Option ℕ
  preservePath : Bool
  advancedConfig : String
  extensions : Dict String Json
  sources : List String := []
  upstream : Option UpstreamRow := none
  locations : List LocationRow := []
  accessListIds : List ℕ := []

/-- A scheme among some, by its text. -/
def schemeOf (schemes : List ForwardScheme) (s : String) : Option ForwardScheme :=
  schemes.find? fun scheme => scheme.value = s

/-- The members of `ForwardScheme`. -/
def forwardSchemes : List ForwardScheme := [.http, .https]

/-- The members of `RedirectScheme`. -/
def redirectSchemes : List ForwardScheme := [.auto, .http, .https]

/-- `ForwardScheme(text)`. -/
def parseForwardScheme (s : String) : Result ForwardScheme :=
  match schemeOf forwardSchemes s with
  | some scheme => pure scheme
  | none => throw (.valueError s!"{Text.repr s} is not a valid ForwardScheme")

/-- `RedirectScheme(text)`. -/
def parseRedirectScheme (s : String) : Result ForwardScheme :=
  match schemeOf redirectSchemes s with
  | some scheme => pure scheme
  | none => throw (.valueError s!"{Text.repr s} is not a valid RedirectScheme")

/-- The text starts with `/`. -/
def startsWithSlash (s : String) : Prop := s.toList.head? = some '/'

instance (s : String) : Decidable (startsWithSlash s) := inferInstanceAs (Decidable (_ = _))

/-- `RuntimeLocation.model_validate`. -/
def validateLocation (path forwardScheme targetKind forwardHost : String) (forwardPort : ℤ)
    (forwardPath advancedConfig : String) : Result LocationRow := do
  let protocol ← parseForwardScheme forwardScheme
  let targetKind ← parseTargetKind targetKind
  raiseIf (¬ startsWithSlash path) (.domainValidationError "location path must start with /")
  raiseIf (Text.strip forwardHost = "")
    (.domainValidationError "location forward_host is required")
  let forwardHost ← target forwardHost targetKind "location forward_host"
  let forwardPort ← port forwardPort "location forward_port"
  raiseIf (forwardPath ≠ "" ∧ ¬ startsWithSlash forwardPath)
    (.domainValidationError "location forward_path must start with /")
  pure
    { path := path
      protocol := protocol
      targetKind := targetKind
      target := forwardHost
      port := forwardPort
      forwardPath := forwardPath
      advancedConfig := advancedConfig }

/-- The location that `_replace_children` stores. -/
def storedLocation (location : LocationPayload) : Result LocationRow :=
  validateLocation (textOr location.path "/") (textOr location.forwardScheme "http")
    (textOr location.targetKind "dns") (textOr location.forwardHost "")
    (intOr location.forwardPort 80) (textOr location.forwardPath "")
    (textOr location.advancedConfig "")

/-! ## Validation -/

/-- `301`, `302`, `307` and `308`. -/
def redirectCodes : List ℤ := [301, 302, 307, 308]

/-- The part of `_validate_payload` for one kind of host. -/
def validateKind (kind : HostKind) (payload : HostPayload) : Result HostPayload :=
  match kind with
  | .proxy => do
    let _ ← parseForwardScheme (textOr payload.forwardScheme.get "http")
    let targetKind ← parseTargetKind (textOr payload.targetKind.get "dns")
    let forwardHost ← target (textOr payload.forwardHost.get "") targetKind "forward_host"
    let _ ← port (intOr payload.forwardPort.get 0) "forward_port"
    pure { payload with forwardHost := .of forwardHost }
  | .redirect => do
    let _ ← parseRedirectScheme (textOr payload.forwardScheme.get "auto")
    let domain :=
      Text.casefold (rstripDots (Text.strip (textOr payload.forwardDomainName.get "")))
    raiseIf (¬ IsDomain domain.toList)
      (.domainValidationError "forward_domain_name must be a valid domain")
    raiseIf (intOr payload.forwardHttpCode.get 301 ∉ redirectCodes)
      (.domainValidationError "forward_http_code must be one of 301, 302, 307, or 308")
    pure { payload with forwardDomainName := .of domain }
  | .dead => pure payload

/-- `_validate_payload`: the payload with its normalised members. -/
def validatePayload (kind : HostKind) (payload : HostPayload) : Result HostPayload := do
  let domains ← canonicalDomains (payload.domainNames.get.getD [])
  let payload ← validateKind kind { payload with domainNames := .of domains }
  let certificateId := intOr payload.certificateId.get 0
  let hstsEnabled := payload.hstsEnabled.truthy false
  raiseIf (payload.forcesSsl = true ∧ certificateId = 0)
    (.domainValidationError "forced HTTPS requires a certificate")
  raiseIf (hstsEnabled = true ∧ (payload.forcesSsl = false ∨ certificateId = 0))
    (.domainValidationError "HSTS requires forced HTTPS and a certificate")
  raiseIf (payload.hstsSubdomains.truthy false = true ∧ hstsEnabled = false)
    (.domainValidationError "HSTS subdomains require HSTS")
  let accessIds := payload.accessListIds.get.getD []
  raiseIf (¬ accessIds.Nodup) (.domainValidationError "access_list_ids must be unique")
  raiseIf (∃ id ∈ accessIds, id ≤ 0)
    (.domainValidationError "access_list_ids must contain positive IDs")
  let paths := (payload.locations.get.getD []).map fun location => textOr location.path "/"
  raiseIf (¬ paths.Nodup) (.domainValidationError "proxy location paths must be unique")
  pure payload

/-- A domain of a stored host among some, with the id of the host. -/
def claimedDomain (rows : Dict ℕ HostRow) (domains : List String) (excludeId : Option ℕ) :
    Option (String × ℕ) :=
  rows.entries.findSome? fun entry =>
    if excludeId = some entry.1 then none
    else (entry.2.sources.find? fun domain => domain ∈ domains).map fun domain =>
      (domain, entry.1)

/-- `_assert_source_collisions`. -/
def assertSourceCollisions (rows : Dict ℕ HostRow) (domains : List String)
    (excludeId : Option ℕ) : Result Unit := do
  let normalized ← canonicalDomains domains
  match claimedDomain rows normalized excludeId with
  | some (domain, id) =>
    throw (.collisionError s!"domain {domain} is already used by routing host {id}")
  | none => pure ()

/-! ## Writing a host -/

section Writing

variable (certificates accessLists : List ℕ)

/-- A scheme under `ck_routing_host_redirect_scheme`. -/
def redirectSchemeColumn : Option String → Result (Option ForwardScheme)
  | none => pure none
  | some s =>
    match schemeOf redirectSchemes s with
    | some scheme => pure (some scheme)
    | none => throw .integrityError

/-- A code under `ck_routing_host_redirect_code`. -/
def redirectCodeColumn : Option ℤ → Result (Option ℕ)
  | none => pure none
  | some code => if code ∈ redirectCodes then pure (some code.toNat) else throw .integrityError

/-- `_host_values`, under the constraints of `routing_hosts`. -/
def hostColumns (kind : HostKind) (payload : HostPayload) : Result HostRow := do
  let certificateId ← certificateKey certificates (payload.certificateId.get.filter (· ≠ 0))
  let redirectScheme ← redirectSchemeColumn payload.forwardScheme.get
  let redirectCode ← redirectCodeColumn payload.forwardHttpCode.get
  let forceSsl := payload.forcesSsl && certificateId.isSome
  let hstsEnabled := forceSsl && payload.hstsEnabled.truthy false
  pure
    { kind := kind
      ownerPrincipalId := payload.ownerPrincipalId.get
      enabled := payload.enabled.truthy true
      certificateId := certificateId
      forceSsl := forceSsl
      hstsEnabled := hstsEnabled
      hstsSubdomains := hstsEnabled && payload.hstsSubdomains.truthy false
      http2Enabled := payload.http2Support.truthy false
      trustForwardedProto := forceSsl && payload.trustForwardedProto.truthy false
      websocketEnabled := payload.allowWebsocketUpgrade.truthy false
      cacheEnabled := payload.cachingEnabled.truthy false
      blockExploits := payload.blockExploits.truthy false
      redirectTarget := payload.forwardDomainName.get
      redirectScheme := redirectScheme
      redirectCode := redirectCode
      preservePath := payload.preservePath.truthy false
      advancedConfig := textOr payload.advancedConfig.get ""
      extensions := payload.extensions }

/-- The domain names that `_replace_children` stores. -/
def storedSources (payload : HostPayload) : Result (List String) :=
  let domains := payload.domainNames.get.getD []
  if domains = [] then pure [] else canonicalDomains domains

/-- The upstream that `_replace_children` stores. -/
def storedUpstream (payload : HostPayload) : Result (Option UpstreamRow) :=
  let forwardHost := textOr payload.forwardHost.get ""
  if forwardHost = "" then pure none
  else do
    let protocol ← parseForwardScheme (textOr payload.forwardScheme.get "http")
    let targetKind ← parseTargetKind (textOr payload.targetKind.get "dns")
    let port ← port (intOr payload.forwardPort.get 80) "forward_port"
    pure (some ⟨protocol, targetKind, forwardHost, port⟩)

/-- `_replace_children`, under the constraints of the tables of the children; the domain names of
other hosts are taken. -/
def replaceHostChildren (taken : List String) (payload : HostPayload) (row : HostRow) :
    Result HostRow := do
  let sources ← storedSources payload
  raiseIf (∃ domain ∈ sources, domain ∈ taken) .integrityError
  let upstream ← storedUpstream payload
  let locations ← payload.locationList.mapM storedLocation
  raiseIf (¬ (locations.map LocationRow.path).Nodup) .integrityError
  let selected := payload.selectedAccessLists
  raiseIf (¬ selected.Nodup) .integrityError
  raiseIf (∃ id ∈ selected, ∀ accessList ∈ accessLists, (accessList : ℤ) ≠ id) .integrityError
  pure
    { row with
      sources := sources
      upstream := upstream
      locations := locations
      accessListIds := selected.map Int.toNat }

/-- The domain names of the hosts under other ids. -/
def takenDomains (rows : Dict ℕ HostRow) (id : ℕ) : List String :=
  (rows.entries.filter fun entry => entry.1 ≠ id).flatMap fun entry => entry.2.sources

/-- `prepare_aggregate`, the handler and `persist_aggregate`, for a row under an id. -/
def writeHost (kind : HostKind) (owner : Option ℕ → Option ℕ) (excludeId : Option ℕ) (id : ℕ)
    (payload : HostPayload) (rows : Dict ℕ HostRow) : Result HostRow := do
  let payload ← validatePayload kind payload
  assertSourceCollisions rows (payload.domainNames.get.getD []) excludeId
  let columns ← hostColumns certificates kind payload
  replaceHostChildren accessLists (takenDomains rows id) payload
    { columns with ownerPrincipalId := owner columns.ownerPrincipalId }

end Writing

/-! ## What is written -/

section Written

/-- What `_validate_payload` checks behind the kind of a host. -/
structure Consistent (payload : HostPayload) : Prop where
  forced : ¬ (payload.forcesSsl = true ∧ intOr payload.certificateId.get 0 = 0)
  hsts : ¬ (payload.hstsEnabled.truthy false = true ∧
    (payload.forcesSsl = false ∨ intOr payload.certificateId.get 0 = 0))
  subdomains : ¬ (payload.hstsSubdomains.truthy false = true ∧
    payload.hstsEnabled.truthy false = false)
  unique : (payload.accessListIds.get.getD []).Nodup
  positive : ¬ ∃ id ∈ payload.accessListIds.get.getD [], id ≤ 0
  paths : ((payload.locations.get.getD []).map fun location => textOr location.path "/").Nodup

/-- What `_replace_children` stores of a payload, and what it checks. -/
structure HoldsChildren (accessLists : List ℕ) (taken : List String) (payload : HostPayload)
    (sources : List String) (upstream : Option UpstreamRow) (locations : List LocationRow) :
    Prop where
  sources_eq : storedSources payload = .ok sources
  free : ¬ ∃ domain ∈ sources, domain ∈ taken
  upstream_eq : storedUpstream payload = .ok upstream
  locations_eq : payload.locationList.mapM storedLocation = .ok locations
  paths : (locations.map LocationRow.path).Nodup
  unique : payload.selectedAccessLists.Nodup
  known : ¬ ∃ id ∈ payload.selectedAccessLists, ∀ accessList ∈ accessLists, (accessList : ℤ) ≠ id

variable {certificates accessLists : List ℕ} {kind : HostKind} {owner : Option ℕ → Option ℕ}
  {excludeId : Option ℕ} {id : ℕ} {payload payload' : HostPayload} {rows : Dict ℕ HostRow}
  {row row' : HostRow} {taken : List String}

lemma validatePayload_eq_ok_iff : validatePayload kind payload = .ok payload' ↔
    ∃ domains, canonicalDomains (payload.domainNames.get.getD []) = .ok domains ∧
      validateKind kind { payload with domainNames := .of domains } = .ok payload' ∧
      Consistent payload' := by
  simp only [validatePayload, bind_eq_ok_iff, raiseIf_eq_ok_iff, pure_eq_ok_iff]
  constructor
  · rintro ⟨domains, hdomains, checked, hkind, -, hforced, -, hhsts, -, hsubdomains, -, hunique, -,
      hpositive, -, hpaths, rfl⟩
    exact ⟨domains, hdomains, hkind,
      { forced := hforced
        hsts := hhsts
        subdomains := hsubdomains
        unique := not_not.mp hunique
        positive := hpositive
        paths := not_not.mp hpaths }⟩
  · rintro ⟨domains, hdomains, hkind, h⟩
    exact ⟨domains, hdomains, payload', hkind, (), h.forced, (), h.hsts, (), h.subdomains, (),
      not_not.mpr h.unique, (), h.positive, (), not_not.mpr h.paths, rfl⟩

lemma replaceHostChildren_eq_ok_iff : replaceHostChildren accessLists taken payload row = .ok row' ↔
    ∃ sources upstream locations,
      HoldsChildren accessLists taken payload sources upstream locations ∧
      { row with
        sources := sources
        upstream := upstream
        locations := locations
        accessListIds := payload.selectedAccessLists.map Int.toNat } = row' := by
  simp only [replaceHostChildren, bind_eq_ok_iff, raiseIf_eq_ok_iff, not_not, pure_eq_ok_iff]
  constructor
  · rintro ⟨sources, hsources, -, hfree, upstream, hupstream, locations, hlocations, -, hpaths, -,
      hunique, -, hknown, heq⟩
    exact ⟨sources, upstream, locations,
      ⟨hsources, hfree, hupstream, hlocations, hpaths, hunique, hknown⟩, heq⟩
  · rintro ⟨sources, upstream, locations, h, heq⟩
    exact ⟨sources, h.sources_eq, (), h.free, upstream, h.upstream_eq, locations, h.locations_eq, (),
      h.paths, (), h.unique, (), h.known, heq⟩

lemma writeHost_eq_ok_iff :
    writeHost certificates accessLists kind owner excludeId id payload rows = .ok row ↔
    ∃ checked columns, validatePayload kind payload = .ok checked ∧
      assertSourceCollisions rows (checked.domainNames.get.getD []) excludeId = .ok () ∧
      hostColumns certificates kind checked = .ok columns ∧
      replaceHostChildren accessLists (takenDomains rows id) checked
        { columns with ownerPrincipalId := owner columns.ownerPrincipalId } = .ok row := by
  simp only [writeHost, bind_eq_ok_iff]
  constructor
  · rintro ⟨checked, hchecked, _, hcollisions, columns, hcolumns, hchildren⟩
    exact ⟨checked, columns, hchecked, hcollisions, hcolumns, hchildren⟩
  · rintro ⟨checked, columns, hchecked, hcollisions, hcolumns, hchildren⟩
    exact ⟨checked, hchecked, (), hcollisions, columns, hcolumns, hchildren⟩

lemma kind_hostColumns (h : hostColumns certificates kind payload = .ok row) : row.kind = kind := by
  simp only [hostColumns, bind_eq_ok_iff, pure_eq_ok_iff] at h
  obtain ⟨-, -, -, -, -, -, rfl⟩ := h
  rfl

lemma kind_writeHost
    (h : writeHost certificates accessLists kind owner excludeId id payload rows = .ok row) :
    row.kind = kind := by
  obtain ⟨_, columns, -, -, hcolumns, hchildren⟩ := writeHost_eq_ok_iff.mp h
  obtain ⟨_, _, _, -, rfl⟩ := replaceHostChildren_eq_ok_iff.mp hchildren
  show columns.kind = kind
  exact kind_hostColumns hcolumns

end Written

/-! ## Reading a host -/

/-- A location, as `_project` writes it. -/
def projectLocation (row : LocationRow) : LocationPayload where
  path := some row.path
  forwardScheme := some row.protocol.value
  targetKind := some row.targetKind.value
  forwardHost := some row.target
  forwardPort := some row.port
  forwardPath := some row.forwardPath
  advancedConfig := some row.advancedConfig

/-- `_project`. -/
def projectHost (row : HostRow) : HostPayload where
  ownerPrincipalId := some row.ownerPrincipalId
  enabled := .of row.enabled
  certificateId := .of (row.certificateId.getD 0)
  sslForced := .of row.forceSsl
  hstsEnabled := .of row.hstsEnabled
  hstsSubdomains := .of row.hstsSubdomains
  http2Support := .of row.http2Enabled
  trustForwardedProto := .of row.trustForwardedProto
  allowWebsocketUpgrade := .of row.websocketEnabled
  cachingEnabled := .of row.cacheEnabled
  blockExploits := .of row.blockExploits
  advancedConfig := .of row.advancedConfig
  domainNames := .of row.sources
  forwardScheme := .of (match row.upstream with
    | some upstream => upstream.protocol.value
    | none => (row.redirectScheme.map ForwardScheme.value).getD "http")
  forwardHost := some (row.upstream.map UpstreamRow.target)
  forwardPort := some (row.upstream.map fun upstream => (upstream.port : ℤ))
  targetKind := some (row.upstream.map fun upstream => upstream.targetKind.value)
  forwardDomainName := some row.redirectTarget
  forwardHttpCode := some (row.redirectCode.map fun code => (code : ℤ))
  preservePath := .of row.preservePath
  accessListIds := .of (row.accessListIds.map fun id => (id : ℤ))
  accessListId := .of ((row.accessListIds.head?.getD 0 : ℕ) : ℤ)
  locations := .of (row.locations.map projectLocation)
  extensions := row.extensions

/-! ## Operations -/

/-- `SECTION_BY_COLLECTION`, for hosts. -/
def hostSection : HostKind → String
  | .proxy => "proxy_hosts"
  | .redirect => "redirection_hosts"
  | .dead => "dead_hosts"

section Operations

variable (certificates accessLists : List ℕ) (actor : Actor)

/-- `create_resource`, for a collection of hosts; the database generates the id. -/
def createHost (kind : HostKind) (generated : ℕ) (payload : HostPayload)
    (rows : Dict ℕ HostRow) : Result (Dict ℕ HostRow) := do
  enforceAuthorization actor (hostSection kind) .create
  raiseIf (generated ∈ rows) .integrityError
  let row ← writeHost certificates accessLists kind (createOwner actor) none generated payload rows
  pure (rows.set generated row)

/-- The `update` and `replace` operations of the table, for a row that is there. -/
def storeHost (kind : HostKind) (id : ℕ) (stored : HostRow) (payload : HostPayload)
    (rows : Dict ℕ HostRow) : Result (Dict ℕ HostRow) := do
  enforceAuthorization actor (hostSection kind) .update
  enforceOwnership actor stored.ownerPrincipalId stored.extensions
  let row ← writeHost certificates accessLists kind (fun owner => owner) (some id) id payload rows
  pure (rows.set id row)

/-- `get_resource`, for a collection of hosts. -/
def getHost (kind : HostKind) (id : ℕ) (rows : Dict ℕ HostRow) : Option HostRow :=
  (rows.get? id).filter fun row => row.kind = kind

lemma getHost_eq_some {kind : HostKind} {id : ℕ} {rows : Dict ℕ HostRow} {row : HostRow}
    (h : getHost kind id rows = some row) : rows.get? id = some row :=
  (Option.filter_eq_some_iff.mp h).1

/-- `update_resource`, for a collection of hosts; `prepare_aggregate` merges the projection once
more, which changes nothing. -/
def updateHost (kind : HostKind) (id : ℕ) (payload : HostPayload) (rows : Dict ℕ HostRow) :
    Result (Dict ℕ HostRow) :=
  match getHost kind id rows with
  | none => pure rows
  | some stored =>
    storeHost certificates accessLists actor kind id stored (payload.over (projectHost stored)) rows

/-- `replace_resource`, for a collection of hosts. -/
def replaceHost (kind : HostKind) (id : ℕ) (payload : HostPayload) (rows : Dict ℕ HostRow) :
    Result (Dict ℕ HostRow) :=
  match getHost kind id rows with
  | none => pure rows
  | some stored => storeHost certificates accessLists actor kind id stored payload rows

/-- `set_enabled`, for hosts of any collection. -/
def setHostEnabled (id : ℕ) (enabled : Bool) (rows : Dict ℕ HostRow) :
    Result (Dict ℕ HostRow) :=
  match rows.get? id with
  | none => pure rows
  | some stored => do
    enforceAuthorization actor (hostSection stored.kind) .update
    enforceOwnership actor stored.ownerPrincipalId stored.extensions
    pure (rows.set id { stored with enabled := enabled })

/-- `delete_resource`, for a collection of hosts. -/
def deleteHost (kind : HostKind) (id : ℕ) (rows : Dict ℕ HostRow) : Result (Dict ℕ HostRow) :=
  match getHost kind id rows with
  | none => pure rows
  | some stored => do
    enforceAuthorization actor (hostSection kind) .delete
    enforceOwnership actor stored.ownerPrincipalId stored.extensions
    pure (rows.pop id)

end Operations

/-! ## What the operations store -/

section Stored

variable {certificates accessLists : List ℕ} {actor : Actor} {kind : HostKind} {id : ℕ}
  {payload : HostPayload} {stored : HostRow} {rows rows' : Dict ℕ HostRow}

/-- A host that is created is written under a new id. -/
lemma createHost_spec
    (h : createHost certificates accessLists actor kind id payload rows = .ok rows') :
    ∃ row, rows' = rows.set id row ∧ rows.get? id = none ∧
      writeHost certificates accessLists kind (createOwner actor) none id payload rows =
        .ok row := by
  simp only [createHost, bind_eq_ok_iff, raiseIf_eq_ok_iff, pure_eq_ok_iff] at h
  obtain ⟨-, -, -, hnew, row, hrow, rfl⟩ := h
  exact ⟨row, rfl, Dict.get?_eq_none_iff.mpr hnew, hrow⟩

/-- What the `update` and `replace` operations store is a row that is written. -/
lemma storeHost_spec
    (h : storeHost certificates accessLists actor kind id stored payload rows = .ok rows') :
    ∃ row, rows' = rows.set id row ∧ writeHost certificates accessLists kind (fun owner => owner)
      (some id) id payload rows = .ok row := by
  simp only [storeHost, bind_eq_ok_iff, pure_eq_ok_iff] at h
  obtain ⟨-, -, -, -, row, hrow, rfl⟩ := h
  exact ⟨row, rfl, hrow⟩

/-- An update writes the payload over what is shown of the host, if the collection has it. -/
lemma updateHost_cases
    (h : updateHost certificates accessLists actor kind id payload rows = .ok rows') :
    rows' = rows ∧ getHost kind id rows = none ∨
    ∃ stored row, getHost kind id rows = some stored ∧ rows' = rows.set id row ∧
      writeHost certificates accessLists kind (fun owner => owner) (some id) id
        (payload.over (projectHost stored)) rows = .ok row := by
  unfold updateHost at h
  split at h
  · rename_i hnone
    exact .inl ⟨(pure_eq_ok_iff.mp h).symm, hnone⟩
  · rename_i stored hstored
    obtain ⟨row, hrows, hrow⟩ := storeHost_spec h
    exact .inr ⟨stored, row, hstored, hrows, hrow⟩

/-- A replacement writes the payload, if the collection has the host. -/
lemma replaceHost_cases
    (h : replaceHost certificates accessLists actor kind id payload rows = .ok rows') :
    rows' = rows ∧ getHost kind id rows = none ∨
    ∃ stored row, getHost kind id rows = some stored ∧ rows' = rows.set id row ∧
      writeHost certificates accessLists kind (fun owner => owner) (some id) id payload rows =
        .ok row := by
  unfold replaceHost at h
  split at h
  · rename_i hnone
    exact .inl ⟨(pure_eq_ok_iff.mp h).symm, hnone⟩
  · rename_i stored hstored
    obtain ⟨row, hrows, hrow⟩ := storeHost_spec h
    exact .inr ⟨stored, row, hstored, hrows, hrow⟩

/-- A toggle changes the flag of the row. -/
lemma setHostEnabled_spec {enabled : Bool}
    (h : setHostEnabled actor id enabled rows = .ok rows') :
    rows' = rows ∧ rows.get? id = none ∨ ∃ stored, rows.get? id = some stored ∧
      rows' = rows.set id { stored with enabled := enabled } := by
  unfold setHostEnabled at h
  split at h
  · rename_i hnone
    exact .inl ⟨(pure_eq_ok_iff.mp h).symm, hnone⟩
  · rename_i stored hstored
    simp only [bind_eq_ok_iff, pure_eq_ok_iff] at h
    obtain ⟨-, -, -, -, rfl⟩ := h
    exact .inr ⟨stored, hstored, rfl⟩

/-- A host that is deleted leaves the table. -/
lemma deleteHost_cases (h : deleteHost actor kind id rows = .ok rows') :
    rows' = rows ∨ rows' = rows.pop id := by
  unfold deleteHost at h
  split at h
  · exact .inl (pure_eq_ok_iff.mp h).symm
  · simp only [bind_eq_ok_iff, pure_eq_ok_iff] at h
    obtain ⟨-, -, -, -, rfl⟩ := h
    exact .inr rfl

end Stored

end Portwyrm.Tables

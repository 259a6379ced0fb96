import Portwyrm.Base.Dict
import Portwyrm.Base.IpNetwork
import Portwyrm.Base.Text
import Portwyrm.Errors

/-!
# Inputs of the renderer

The runtime schemas of `portwyrm.tables` that `NginxRenderer` reads, and `PlatformConfig`.
The schemas of access lists carry what their validators check; of the other schemas only the
fields that rendering reads are kept.
-/

namespace Portwyrm.Runtime

open Base

/-! ## Access lists -/

/-- `AccessDirective`. -/
inductive AccessDirective
  | allow
  | deny
deriving DecidableEq, Repr

/-- The text of a directive. -/
def AccessDirective.value : AccessDirective → String
  | .allow => "allow"
  | .deny => "deny"

/-- What `RuntimeRule.validate_rule` makes of an address. -/
def normalizeAddress (address : String) : Result String :=
  if Text.strip address = "all" then pure "all"
  else match IpNetwork.parse (Text.strip address).toList with
    | some network => pure (String.ofList network.text)
    | none => throw (.domainValidationError s!"invalid access-list address: {Text.strip address}")

/-- `AccessListStore.RuntimeRule`: a client rule with a normalised address. -/
structure AccessClient where
  address : String
  directive : AccessDirective
  normal : normalizeAddress address = .ok address
deriving DecidableEq

/-- `AccessListStore.RuntimeCredential`. -/
structure AccessCredential where
  username : String
  passwordHash : String
  usernameOk : username ≠ "" ∧ ':' ∉ username.toList ∧ '\n' ∉ username.toList
  passwordHashOk : passwordHash ≠ "" ∧ '\n' ∉ passwordHash.toList
deriving DecidableEq

/-- `AccessListStore.RuntimeAccessList`. -/
structure AccessList where
  id : ℕ
  name : String
  credentials : List AccessCredential
  clients : List AccessClient
  satisfyAny : Bool
  passAuth : Bool
  idPositive : 0 < id
  nameGiven : Text.strip name ≠ ""
deriving DecidableEq

/-! ### Validators -/

lemma isSpace_of_digit {c : Char} (h : (Numeral.digitValue c).isSome) :
    Text.isSpace c = false := by
  have hrange : 48 ≤ c.toNat ∧ c.toNat ≤ 102 := by
    unfold Numeral.digitValue at h
    simp only [Char.le_def, UInt32.le_iff_toNat_le] at h
    show 48 ≤ c.val.toNat ∧ c.val.toNat ≤ 102
    split at h
    · rename_i hc
      exact ⟨hc.1, hc.2.trans (by decide)⟩
    · split at h
      · rename_i hc
        exact ⟨le_trans (by decide) hc.1, hc.2⟩
      · split at h
        · rename_i hc
          exact ⟨le_trans (by decide) hc.1, hc.2.trans (by decide)⟩
        · simp at h
  unfold Text.isSpace
  simp only [Bool.or_eq_false_iff, Bool.and_eq_false_iff, beq_eq_false_iff_ne,
    decide_eq_false_iff_not]
  omega

/-- Stripping leaves the text of a network alone. -/
lemma stripped_text {network : IpNetwork} (h : network.Canonical) :
    Text.Stripped (String.ofList network.text) := by
  refine ⟨?_, ?_⟩
  · intro c hc
    rw [String.toList_ofList] at hc
    rcases IpNetwork.head_text h hc with rfl | rfl | h
    · decide
    · decide
    · exact isSpace_of_digit h
  · intro c hc
    rw [String.toList_ofList] at hc
    exact isSpace_of_digit (IpNetwork.getLast_text hc)

lemma text_ne_all (network : IpNetwork) : String.ofList network.text ≠ "all" := by
  intro h
  have hmem : '/' ∈ (String.ofList network.text).toList := by
    rw [String.toList_ofList]
    exact IpNetwork.slash_mem_text network
  rw [h] at hmem
  exact absurd hmem (by decide)

/-- The text of a network is a normal address. -/
lemma normalizeAddress_text {network : IpNetwork} (h : network.Canonical) :
    normalizeAddress (String.ofList network.text) = .ok (String.ofList network.text) := by
  rw [normalizeAddress, Text.strip_of_stripped (stripped_text h), if_neg (text_ne_all network),
    String.toList_ofList, IpNetwork.parse_text h]
  rfl

lemma normalizeAddress_eq_ok {address normal : String}
    (h : normalizeAddress address = .ok normal) :
    (Text.strip address = "all" ∧ normal = "all") ∨
      Text.strip address ≠ "all" ∧ ∃ network, IpNetwork.parse (Text.strip address).toList =
        some network ∧ normal = String.ofList network.text := by
  unfold normalizeAddress at h
  split at h
  · rename_i hall
    exact .inl ⟨hall, (pure_eq_ok_iff.mp h).symm⟩
  · rename_i hall
    split at h
    · rename_i network hparse
      exact .inr ⟨hall, network, hparse, (pure_eq_ok_iff.mp h).symm⟩
    · exact absurd h throw_ne_ok

/-- A normalised address is normal: validating a rule again changes nothing. -/
theorem normalizeAddress_idem {address normal : String}
    (h : normalizeAddress address = .ok normal) : normalizeAddress normal = .ok normal := by
  rcases normalizeAddress_eq_ok h with ⟨-, rfl⟩ | ⟨-, network, hparse, rfl⟩
  · rfl
  · exact normalizeAddress_text (IpNetwork.canonical_of_parse hparse)

lemma normalizeAddress_ten : normalizeAddress "10.0.0.0/8" = .ok "10.0.0.0/8" := by
  decide

lemma strip_office : Text.strip "office" ≠ "" := by
  decide

lemma strip_team : Text.strip "team" ≠ "" := by
  decide

/-- `RuntimeRule.model_validate`. -/
def AccessClient.validate (address : String) (directive : AccessDirective) : Result AccessClient :=
  match h : normalizeAddress address with
  | .ok normal => pure ⟨normal, directive, normalizeAddress_idem h⟩
  | .error e => throw e

/-- `RuntimeCredential.validate_credential`. -/
def AccessCredential.validate (username passwordHash : String) : Result AccessCredential :=
  if hu : username ≠ "" ∧ ':' ∉ username.toList ∧ '\n' ∉ username.toList then
    if hp : passwordHash ≠ "" ∧ '\n' ∉ passwordHash.toList then
      pure ⟨username, passwordHash, hu, hp⟩
    else throw (.domainValidationError "invalid basic-auth password/hash")
  else throw (.domainValidationError "invalid basic-auth username")

/-- `RuntimeAccessList.validate_access_list`. -/
def AccessList.validate (id : ℕ) (name : String) (credentials : List AccessCredential)
    (clients : List AccessClient) (satisfyAny passAuth : Bool) : Result AccessList :=
  if hid : 0 < id then
    if hname : Text.strip name ≠ "" then
      pure ⟨id, name, credentials, clients, satisfyAny, passAuth, hid, hname⟩
    else throw (.domainValidationError "access-list name is required")
  else throw (.domainValidationError "access-list id must be positive")

@[simp] lemma AccessClient.validate_self (c : AccessClient) :
    AccessClient.validate c.address c.directive = .ok c := by
  unfold AccessClient.validate
  split
  · rename_i normal h
    obtain rfl := Except.ok.inj (c.normal.symm.trans h)
    rfl
  · rename_i e h
    exact absurd (c.normal.symm.trans h) (by simp)

lemma AccessClient.validate_eq_ok {address : String} {directive : AccessDirective}
    {c : AccessClient} (h : AccessClient.validate address directive = .ok c) :
    normalizeAddress address = .ok c.address ∧ c.directive = directive := by
  unfold AccessClient.validate at h
  split at h
  · rename_i normal hnormal
    obtain rfl := pure_eq_ok_iff.mp h
    exact ⟨hnormal, rfl⟩
  · exact absurd h throw_ne_ok

@[simp] lemma AccessCredential.validate_self (c : AccessCredential) :
    AccessCredential.validate c.username c.passwordHash = .ok c := by
  rw [AccessCredential.validate, dif_pos c.usernameOk, dif_pos c.passwordHashOk]
  rfl

@[simp] lemma AccessList.validate_self (l : AccessList) :
    AccessList.validate l.id l.name l.credentials l.clients l.satisfyAny l.passAuth = .ok l := by
  rw [AccessList.validate, dif_pos l.idPositive, dif_pos l.nameGiven]
  rfl

lemma AccessList.validate_eq_ok {id : ℕ} {name : String} {credentials : List AccessCredential}
    {clients : List AccessClient} {satisfyAny passAuth : Bool} {l : AccessList}
    (h : AccessList.validate id name credentials clients satisfyAny passAuth = .ok l) :
    l.id = id ∧ l.credentials = credentials ∧ l.clients = clients := by
  unfold AccessList.validate at h
  split at h
  · split at h
    · obtain rfl := pure_eq_ok_iff.mp h
      exact ⟨rfl, rfl, rfl⟩
    · exact absurd h throw_ne_ok
  · exact absurd h throw_ne_ok

/-! ## Hosts and streams -/

/-- `TLSSettings`; certificate id 0 stands for no certificate. -/
structure SSLSettings where
  certificateId : ℕ := 0
  forced : Bool := false
  http2 : Bool := false
  hsts : Bool := false
  hstsSubdomains : Bool := false
  trustForwardedProto : Bool := false
deriving DecidableEq

/-- `TLSSettings.normalized`. -/
def SSLSettings.normalized (ssl : SSLSettings) : SSLSettings :=
  if ssl.certificateId = 0 then {}
  else
    { certificateId := ssl.certificateId
      forced := ssl.forced
      http2 := ssl.http2
      hsts := ssl.forced && ssl.hsts
      hstsSubdomains := ssl.forced && ssl.hsts && ssl.hstsSubdomains
      trustForwardedProto := ssl.forced && ssl.trustForwardedProto }

/-- `ForwardScheme` and `RedirectScheme`. -/
inductive ForwardScheme
  | auto
  | http
  | https
deriving DecidableEq, Repr

/-- The text of a scheme. -/
def ForwardScheme.value : ForwardScheme → String
  | .auto => "auto"
  | .http => "http"
  | .https => "https"

/-- `RuntimeLocation`. -/
structure ProxyLocation where
  path : String
  forwardScheme : ForwardScheme := .http
  forwardHost : String
  forwardPort : ℕ
  forwardPath : String := ""
  advancedConfig : String := ""
deriving DecidableEq

/-- `HostKind`. -/
inductive HostKind
  | proxy
  | redirect
  | dead
deriving DecidableEq, Repr

/-- `RuntimeHost`. -/
structure RuntimeHost where
  id : ℕ
  kind : HostKind
  domainNames : List String
  forwardScheme : ForwardScheme := .http
  forwardHost : Option String := none
  forwardPort : Option ℕ := none
  forwardDomainName : Option String := none
  forwardHttpCode : ℕ := 301
  preservePath : Bool := false
  accessListId : ℕ := 0
  accessListIds : List ℕ := []
  ssl : SSLSettings := {}
  cachingEnabled : Bool := false
  blockExploits : Bool := false
  allowWebsocketUpgrade : Bool := false
  advancedConfig : String := ""
  locations : List ProxyLocation := []
  enabled : Bool := true
deriving DecidableEq

/-- `StreamProtocol`. -/
inductive StreamProtocol
  | tcp
  | udp
  | tcpUdp
deriving DecidableEq, Repr

/-- `RuntimeStream`. -/
structure Stream where
  id : ℕ
  incomingPort : ℕ
  forwardingHost : String
  forwardingPort : ℕ
  protocol : StreamProtocol
  certificateId : ℕ := 0
  enabled : Bool := true
deriving DecidableEq

/-- `RuntimeStream.tcp_forwarding`. -/
def Stream.tcpForwarding (s : Stream) : Bool := s.protocol = .tcp ∨ s.protocol = .tcpUdp

/-- `RuntimeStream.udp_forwarding`. -/
def Stream.udpForwarding (s : Stream) : Bool := s.protocol = .udp ∨ s.protocol = .tcpUdp

/-- `QuicPassthroughRouteStore.RuntimeRoute`. -/
structure QuicRoute where
  id : ℕ
  listenAddress : String := "0.0.0.0"
  incomingPort : ℕ := 443
  serverName : String
  alpn : String := "h3"
  target : String
  targetPort : ℕ
  idleTimeoutSeconds : ℕ := 1800
  enabled : Bool := true
deriving DecidableEq

/-! ## The platform -/

/-- `PlatformConfig.default_site`. -/
inductive DefaultSite
  | congratulations
  | notFound
  | dropped
  | redirect
  | html
deriving DecidableEq, Repr

lemma dropped_redirect : DefaultSite.dropped = .redirect → "" ≠ "" := by
  rintro ⟨⟩

lemma dropped_html : DefaultSite.dropped = .html → "" ≠ "" := by
  rintro ⟨⟩

lemma no_ranges : ∀ address ∈ ([] : List String), (IpNetwork.parse address.toList).isSome := by
  simp

/-- `PlatformConfig`, with the checks of its `__post_init__`. -/
structure PlatformConfig where
  ipv6 : Bool := true
  resolverEnabled : Bool := true
  resolverAddresses : List String := ["127.0.0.11"]
  trustedProxyRanges : List String := []
  defaultSite : DefaultSite := .dropped
  defaultRedirect : String := ""
  defaultHtml : String := ""
  customIncludes : Dict String String := Dict.empty
  redirectGiven : defaultSite = .redirect → defaultRedirect ≠ "" := by
    first | exact dropped_redirect | simp
  htmlGiven : defaultSite = .html → defaultHtml ≠ "" := by
    first | exact dropped_html | simp
  rangesValid : ∀ address ∈ trustedProxyRanges, (IpNetwork.parse address.toList).isSome := by
    first | exact no_ranges | simp

end Portwyrm.Runtime

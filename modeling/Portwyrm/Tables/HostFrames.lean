import Portwyrm.Base.Merging
import Portwyrm.Tables.StreamPorts
import Portwyrm.Tables.WrittenRows

/-!
# What an update of a host leaves alone

A host that is written from a candidate keeps every member that the candidate has as the row shows
it, but for the members that are stored by way of others: the trust in forwarded protocols needs
forced HTTPS, the upstream needs a target, and a target is read again under its kind.
-/

namespace Portwyrm.Tables

open Base Portwyrm.Runtime Portwyrm.Quic Portwyrm.Identity

/-! ## Members -/

/-- The members of a payload for a host. -/
inductive HostMember
  | ownerPrincipalId
  | enabled
  | certificateId
  | sslForced
  | forceSsl
  | hstsEnabled
  | hstsSubdomains
  | http2Support
  | trustForwardedProto
  | allowWebsocketUpgrade
  | cachingEnabled
  | blockExploits
  | advancedConfig
  | domainNames
  | forwardScheme
  | forwardHost
  | forwardPort
  | targetKind
  | forwardDomainName
  | forwardHttpCode
  | preservePath
  | accessListIds
  | accessListId
  | locations
  | customLocations
  | extension (key : String)

/-- The values of a member. -/
def HostMember.Value : HostMember → Type
  | ownerPrincipalId => Option ℕ
  | enabled | sslForced | forceSsl | hstsEnabled | hstsSubdomains | http2Support
  | trustForwardedProto | allowWebsocketUpgrade | cachingEnabled | blockExploits | preservePath =>
    Option Bool
  | certificateId | forwardPort | forwardHttpCode | accessListId => Option ℤ
  | advancedConfig | forwardScheme | forwardHost | targetKind | forwardDomainName => Option String
  | domainNames => Option (List String)
  | accessListIds => Option (List ℤ)
  | locations | customLocations => Option (List LocationPayload)
  | extension _ => Json

/-- A member of a payload. -/
def HostPayload.get (payload : HostPayload) : (k : HostMember) → Option k.Value
  | .ownerPrincipalId => payload.ownerPrincipalId
  | .enabled => payload.enabled
  | .certificateId => payload.certificateId
  | .sslForced => payload.sslForced
  | .forceSsl => payload.forceSsl
  | .hstsEnabled => payload.hstsEnabled
  | .hstsSubdomains => payload.hstsSubdomains
  | .http2Support => payload.http2Support
  | .trustForwardedProto => payload.trustForwardedProto
  | .allowWebsocketUpgrade => payload.allowWebsocketUpgrade
  | .cachingEnabled => payload.cachingEnabled
  | .blockExploits => payload.blockExploits
  | .advancedConfig => payload.advancedConfig
  | .domainNames => payload.domainNames
  | .forwardScheme => payload.forwardScheme
  | .forwardHost => payload.forwardHost
  | .forwardPort => payload.forwardPort
  | .targetKind => payload.targetKind
  | .forwardDomainName => payload.forwardDomainName
  | .forwardHttpCode => payload.forwardHttpCode
  | .preservePath => payload.preservePath
  | .accessListIds => payload.accessListIds
  | .accessListId => payload.accessListId
  | .locations => payload.locations
  | .customLocations => payload.customLocations
  | .extension key => payload.extensions.get? key

/-- The members of hosts. -/
def hostMembers : Members HostPayload where
  Key := HostMember
  Value := HostMember.Value
  get k payload := payload.get k
  overlay := HostPayload.over
  get_overlay k payload stored := by
    cases k with
    | extension key => exact Dict.get?_update stored.extensions payload.extensions key
    | _ => rfl

/-! ## Written rows -/

section Written

variable {certificates accessLists : List ℕ} {kind : HostKind} {payload : HostPayload} {row : HostRow}

/-- The target that a row is written with. -/
def checkedHost (kind : HostKind) (payload : HostPayload) : Result String :=
  let given := textOr payload.forwardHost.get ""
  match kind with
  | .proxy => do
    let targetKind ← parseTargetKind (textOr payload.targetKind.get "dns")
    target given targetKind "forward_host"
  | _ => pure given

/-- How the columns of a written row come from the payload; the flag of an enabled host and its
owner are left out. -/
structure HostStored (certificates accessLists : List ℕ) (kind : HostKind) (payload : HostPayload)
    (row : HostRow) : Prop where
  kind_eq : row.kind = kind
  certificateId : certificateKey certificates (payload.certificateId.get.filter (· ≠ 0)) =
    .ok row.certificateId
  forceSsl : row.forceSsl = payload.forcesSsl
  hstsEnabled : row.hstsEnabled = payload.hstsEnabled.truthy false
  hstsSubdomains : row.hstsSubdomains = payload.hstsSubdomains.truthy false
  http2Enabled : row.http2Enabled = payload.http2Support.truthy false
  trustForwardedProto : row.trustForwardedProto =
    (payload.forcesSsl && payload.trustForwardedProto.truthy false)
  websocketEnabled : row.websocketEnabled = payload.allowWebsocketUpgrade.truthy false
  cacheEnabled : row.cacheEnabled = payload.cachingEnabled.truthy false
  blockExploits : row.blockExploits = payload.blockExploits.truthy false
  advancedConfig : row.advancedConfig = textOr payload.advancedConfig.get ""
  sources : canonicalDomains (payload.domainNames.get.getD []) = .ok row.sources
  forwardHost : ∃ forwardHost, checkedHost kind payload = .ok forwardHost ∧
    storedUpstream { payload with forwardHost := .of forwardHost } = .ok row.upstream
  forwardDomainName : if kind = .redirect then
      canonicalDomain (textOr payload.forwardDomainName.get "") = .ok (row.redirectTarget.getD "") ∧
        row.redirectTarget.isSome
    else row.redirectTarget = payload.forwardDomainName.get
  redirectScheme : redirectSchemeColumn payload.forwardScheme.get = .ok row.redirectScheme
  redirectCode : redirectCodeColumn payload.forwardHttpCode.get = .ok row.redirectCode
  preservePath : row.preservePath = payload.preservePath.truthy false
  locations : payload.locationList.mapM storedLocation = .ok row.locations
  accessListIds : row.accessListIds = payload.selectedAccessLists.map Int.toNat
  extensions : row.extensions = payload.extensions

/-- What the check for one kind of host leaves of a payload: the target and the domain of a
redirection are normalised. -/
structure KindChecked (kind : HostKind) (payload payload' : HostPayload) : Prop where
  forwardHost : ∃ forwardHost, checkedHost kind payload = .ok forwardHost ∧
    textOr payload'.forwardHost.get "" = forwardHost
  forwardDomainName : if kind = .redirect then ∃ domain,
      canonicalDomain (textOr payload.forwardDomainName.get "") = .ok domain ∧
        payload'.forwardDomainName = .of domain
    else payload'.forwardDomainName = payload.forwardDomainName
  rest : payload' = { payload with
    forwardHost := payload'.forwardHost
    forwardDomainName := payload'.forwardDomainName }

lemma kindChecked_of_validateKind {payload' : HostPayload}
    (h : validateKind kind payload = .ok payload') : KindChecked kind payload payload' := by
  cases kind with
  | proxy =>
    simp only [validateKind, bind_eq_ok_iff, pure_eq_ok_iff] at h
    obtain ⟨-, -, targetKind, htargetKind, t, ht, -, -, rfl⟩ := h
    have hne : t ≠ "" := by
      rintro rfl
      exact strip_target ht rfl
    refine ⟨⟨t, ?_, by simp [textOr, Option.filter, hne]⟩, rfl, rfl⟩
    simp only [checkedHost, htargetKind, ok_bind]
    exact ht
  | redirect =>
    simp only [validateKind, bind_eq_ok_iff, raiseIf_eq_ok_iff, not_not, pure_eq_ok_iff] at h
    obtain ⟨-, -, -, hdomain, -, -, rfl⟩ := h
    exact ⟨⟨_, rfl, rfl⟩, ⟨_, canonicalDomain_eq_ok_iff.mpr ⟨hdomain, rfl⟩, rfl⟩, rfl⟩
  | dead =>
    obtain rfl := pure_eq_ok_iff.mp h
    exact ⟨⟨_, rfl, rfl⟩, rfl, rfl⟩

/-- A certificate is linked when one is named. -/
lemma certificateId_isSome {given : Option ℤ} {certificateId : Option ℕ}
    (h : certificateKey certificates (given.filter (· ≠ 0)) = .ok certificateId)
    (hne : intOr given 0 ≠ 0) : certificateId.isSome = true := by
  unfold intOr at hne
  cases hfilter : given.filter (· ≠ 0) with
  | none =>
    rw [hfilter] at hne
    exact absurd rfl hne
  | some id =>
    rw [hfilter] at h
    obtain ⟨certificate, -, -, rfl⟩ := certificateKey_some_eq_ok_iff.mp h
    rfl

/-- A written host has the columns that its payload asks for. -/
theorem hostStored_of_writeHost {owner : Option ℕ → Option ℕ} {excludeId : Option ℕ} {id : ℕ}
    {rows : Dict ℕ HostRow}
    (h : writeHost certificates accessLists kind owner excludeId id payload rows = .ok row) :
    HostStored certificates accessLists kind payload row ∧
      row.enabled = payload.enabled.truthy true ∧
      row.ownerPrincipalId = owner payload.ownerPrincipalId.get := by
  obtain ⟨checked, columns, hchecked, -, hcolumns, hchildren⟩ := writeHost_eq_ok_iff.mp h
  obtain ⟨domains, hdomains, hkind, ⟨hforced, hhsts, hsubdomains, -, -, -⟩⟩ :=
    validatePayload_eq_ok_iff.mp hchecked
  obtain ⟨⟨forwardHost, hhost, hgiven⟩, hdomain, hrest⟩ := kindChecked_of_validateKind hkind
  generalize checked.forwardHost = fh at hrest hgiven
  generalize checked.forwardDomainName = fd at hrest hdomain
  subst hrest
  simp only [hostColumns, bind_eq_ok_iff, pure_eq_ok_iff] at hcolumns
  obtain ⟨certificateId, hcertificate, redirectScheme, hscheme, redirectCode, hcode, rfl⟩ := hcolumns
  obtain ⟨sources, upstream, locations, ⟨hsources, -, hupstream, hlocations, -, -, -⟩, rfl⟩ :=
    replaceHostChildren_eq_ok_iff.mp hchildren
  -- the checks of the payload make the conjunctions of the columns hold
  have hforces : (payload.forcesSsl && certificateId.isSome) = payload.forcesSsl := by
    cases hf : payload.forcesSsl with
    | false => rfl
    | true => exact certificateId_isSome hcertificate fun hzero => hforced ⟨hf, hzero⟩
  have hhsts' : (payload.forcesSsl && payload.hstsEnabled.truthy false) =
      payload.hstsEnabled.truthy false := by
    cases hh : payload.hstsEnabled.truthy false with
    | false => exact Bool.and_false _
    | true =>
      cases hf : payload.forcesSsl with
      | false => exact absurd ⟨hh, .inl hf⟩ hhsts
      | true => rfl
  have hsubdomains' : (payload.hstsEnabled.truthy false && payload.hstsSubdomains.truthy false) =
      payload.hstsSubdomains.truthy false := by
    cases hs : payload.hstsSubdomains.truthy false with
    | false => exact Bool.and_false _
    | true =>
      cases hh : payload.hstsEnabled.truthy false with
      | false => exact absurd ⟨hs, hh⟩ hsubdomains
      | true => rfl
  refine ⟨?_, rfl, rfl⟩
  exact
    { kind_eq := rfl
      certificateId := hcertificate
      forceSsl := hforces
      hstsEnabled := (congrArg (· && payload.hstsEnabled.truthy false) hforces).trans hhsts'
      hstsSubdomains := by
        refine (congrArg (· && payload.hstsSubdomains.truthy false) ?_).trans hsubdomains'
        exact (congrArg (· && payload.hstsEnabled.truthy false) hforces).trans hhsts'
      http2Enabled := rfl
      trustForwardedProto := congrArg (· && payload.trustForwardedProto.truthy false) hforces
      websocketEnabled := rfl
      cacheEnabled := rfl
      blockExploits := rfl
      advancedConfig := rfl
      sources := by
        have hcanonical := canonicalDomains_idem hdomains
        have hne : domains ≠ [] := ne_nil_of_canonicalDomains hdomains
        rw [storedSources, Member.get_of, Option.getD_some, if_neg hne] at hsources
        rw [hdomains]
        exact hcanonical.symm.trans hsources
      forwardHost := by
        refine ⟨forwardHost, hhost, ?_⟩
        rw [← hupstream]
        simp only [storedUpstream, Member.get_of, ← hgiven, textOr_textOr]
      forwardDomainName := by
        split
        · rename_i hredirect
          rw [if_pos hredirect] at hdomain
          obtain ⟨domain, hcanonical, rfl⟩ := hdomain
          exact ⟨hcanonical, rfl⟩
        · rename_i hredirect
          rw [if_neg hredirect] at hdomain
          exact congrArg Member.get hdomain
      redirectScheme := hscheme
      redirectCode := hcode
      preservePath := rfl
      locations := hlocations
      accessListIds := rfl
      extensions := rfl }

end Written

/-! ## Members that a write keeps -/

lemma projectHost_accessListIds (row : HostRow) : (projectHost row).accessListIds =
    Member.of (row.accessListIds.map fun id : ℕ => (id : ℤ)) := by
  simp only [projectHost]
  refine congrArg Member.of ((List.map_id' _).trans ?_)
  exact List.flatMap_pure_eq_map (fun id : ℕ => (id : ℤ)) row.accessListIds

lemma projectHost_forwardHttpCode (row : HostRow) : (projectHost row).forwardHttpCode =
    some (row.redirectCode.map fun code : ℕ => (code : ℤ)) := by
  cases h : row.redirectCode <;> simp [projectHost, h]

/-- A write of a candidate does not change a member by way of others. -/
def HostFree (candidate : HostPayload) (row : HostRow) : HostMember → Prop
  | .trustForwardedProto => row.trustForwardedProto = true → candidate.forcesSsl = true
  | .forwardHost => ∀ upstream ∈ row.upstream, row.kind = .proxy →
      ∃ kind, parseTargetKind (textOr candidate.targetKind.get "dns") = .ok kind ∧
        target upstream.target kind "forward_host" = .ok upstream.target
  | .forwardPort | .targetKind =>
    (textOr candidate.forwardHost.get "" = "" ↔ row.upstream = none)
  | .accessListId => candidate.accessListIds = (projectHost row).accessListIds
  | _ => True

section Frame

variable {certificates accessLists certificates' accessLists' : List ℕ} {kind : HostKind}
  {payload candidate : HostPayload} {row row' : HostRow}

lemma of_truthy {m : Member Bool} {b b' default : Bool} (hm : m = Member.of b)
    (h : b' = m.truthy default) : Member.of b' = Member.of b := by
  rw [h, hm, Member.truthy_of]

/-- The certificate of a row is found again. -/
lemma certificateId_kept {m : Member ℤ} {id id' : Option ℕ}
    (hm : m = Member.of ((id.getD 0 : ℕ) : ℤ))
    (h : certificateKey certificates (m.get.filter (· ≠ 0)) = .ok id') :
    Member.of ((id'.getD 0 : ℕ) : ℤ) = Member.of ((id.getD 0 : ℕ) : ℤ) := by
  rw [hm, Member.get_of] at h
  by_cases hzero : id.getD 0 = 0
  · rw [hzero] at h ⊢
    obtain rfl : none = id' := pure_eq_ok_iff.mp h
    rfl
  · have hfilter : Option.filter (· ≠ 0) (some ((id.getD 0 : ℕ) : ℤ)) =
        some ((id.getD 0 : ℕ) : ℤ) := by
      simp [Option.filter, hzero]
    rw [hfilter] at h
    obtain ⟨certificate, -, hcertificate, rfl⟩ := certificateKey_some_eq_ok_iff.mp h
    rw [Option.getD_some, hcertificate]

/-- A scheme of a redirection is read off its text. -/
lemma redirectScheme_value {scheme : ForwardScheme} :
    redirectSchemeColumn (some scheme.value) = .ok (some scheme) := by
  cases scheme <;> rfl

lemma parseForwardScheme_eq_ok {s : String} {scheme : ForwardScheme}
    (h : parseForwardScheme s = .ok scheme) : scheme.value = s := by
  unfold parseForwardScheme at h
  split at h
  · rename_i scheme' hscheme
    obtain rfl := pure_eq_ok_iff.mp h
    simpa using List.find?_some hscheme
  · exact absurd h throw_ne_ok

lemma value_of_parseTargetKind {s : String} {kind : TargetKind} (h : parseTargetKind s = .ok kind) :
    kind.value = s := by
  unfold parseTargetKind at h
  split at h
  · rename_i kind' hfind
    obtain rfl := pure_eq_ok_iff.mp h
    simpa using List.find?_some hfind
  · exact absurd h throw_ne_ok

/-- The upstream that a row is written with, when there is a target. -/
lemma storedUpstream_cases {upstream : Option UpstreamRow}
    (h : storedUpstream payload = .ok upstream) :
    textOr payload.forwardHost.get "" = "" ∧ upstream = none ∨
      textOr payload.forwardHost.get "" ≠ "" ∧ ∃ u, upstream = some u ∧
        u.target = textOr payload.forwardHost.get "" ∧
        u.protocol.value = textOr payload.forwardScheme.get "http" ∧
        parseTargetKind (textOr payload.targetKind.get "dns") = .ok u.targetKind ∧
        port (intOr payload.forwardPort.get 80) "forward_port" = .ok u.port := by
  unfold storedUpstream at h
  dsimp only at h
  split at h
  · rename_i hnone
    exact .inl ⟨hnone, (pure_eq_ok_iff.mp h).symm⟩
  · rename_i hgiven
    simp only [bind_eq_ok_iff, pure_eq_ok_iff] at h
    obtain ⟨protocol, hprotocol, targetKind, hkind, port, hport, rfl⟩ := h
    exact .inr ⟨hgiven, _, rfl, rfl, parseForwardScheme_eq_ok hprotocol, hkind, hport⟩

/-- A stored location is stored again as it is. -/
lemma storedLocation_projectLocation {location : LocationRow}
    (h : validateRuntimeLocation location = .ok location) :
    storedLocation (projectLocation location) = .ok location := by
  have hchecks := h
  simp only [validateRuntimeLocation, validateLocation, bind_eq_ok_iff, raiseIf_eq_ok_iff, not_not,
    pure_eq_ok_iff] at hchecks
  obtain ⟨-, -, -, -, -, hpath, -, hhost, -, -, p, hport, -, -, -⟩ := hchecks
  have hpath' : location.path ≠ "" := by
    intro hempty
    rw [hempty] at hpath
    exact absurd hpath (by decide)
  have hhost' : location.target ≠ "" := by
    intro hempty
    rw [hempty] at hhost
    exact hhost rfl
  have hscheme : location.protocol.value ≠ "" := by
    cases location.protocol <;> decide
  have hkind : location.targetKind.value ≠ "" := by
    cases location.targetKind <;> decide
  have hpositive : (location.port : ℤ) ≠ 0 := by
    have hpos := port_eq_ok hport
    have heq := port_eq_ok_toNat hport
    omega
  rw [storedLocation, projectLocation]
  dsimp only
  rw [textOr_of_ne hpath', textOr_of_ne hscheme, textOr_of_ne hkind, textOr_of_ne hhost',
    textOr_empty, textOr_empty, intOr_of_ne hpositive]
  exact h

/-- The locations of a row are stored again as they are. -/
lemma mapM_storedLocation {locations : List LocationRow}
    (h : ∀ l ∈ locations, validateRuntimeLocation l = .ok l) :
    (locations.map projectLocation).mapM storedLocation = .ok locations := by
  rw [mapM_eq_ok_iff, List.forall₂_map_left_iff, List.forall₂_same]
  exact fun l hl => storedLocation_projectLocation (h l hl)

/-- What a stored row is read back with. -/
structure Reread (row : HostRow) : Prop where
  sources : canonicalDomains row.sources = .ok row.sources
  upstream : ∀ u ∈ row.upstream, u.target ≠ "" ∧ 1 ≤ u.port
  locations : ∀ l ∈ row.locations, validateRuntimeLocation l = .ok l
  redirectTarget : row.kind = .redirect → ∃ domain, row.redirectTarget = some domain ∧
    canonicalDomain domain = .ok domain

lemma reread_of_hostStored (h : HostStored certificates accessLists kind payload row) :
    Reread row where
  sources := canonicalDomains_idem h.sources
  upstream u hu := by
    obtain ⟨forwardHost, -, hstored⟩ := h.forwardHost
    rcases storedUpstream_cases hstored with ⟨-, hnone⟩ | ⟨hne, v, hsome, htarget, hscheme, -, hport⟩
    · rw [hnone] at hu
      exact absurd hu (by simp)
    · obtain rfl : v = u := Option.some.inj (hsome.symm.trans hu)
      exact ⟨htarget ▸ hne, (port_eq_ok hport).1⟩
  locations l hl := by
    obtain ⟨_, -, hlocation⟩ := Numeral.exists_of_mem_right (mapM_eq_ok_iff.mp h.locations) hl
    exact validateRuntimeLocation_of_validateLocation hlocation
  redirectTarget hkind := by
    have hdomain := h.forwardDomainName
    rw [h.kind_eq] at hkind
    rw [if_pos hkind] at hdomain
    obtain ⟨hcanonical, hsome⟩ := hdomain
    obtain ⟨domain, hdomain⟩ := Option.isSome_iff_exists.mp hsome
    rw [hdomain] at hcanonical
    exact ⟨domain, hdomain, canonicalDomain_idem hcanonical⟩

/-- Whether a written host has an upstream. -/
lemma upstream_isSome_iff {forwardHost : String} (hhost : checkedHost kind candidate = .ok forwardHost)
    {upstream : Option UpstreamRow}
    (hstored : storedUpstream { candidate with forwardHost := .of forwardHost } = .ok upstream) :
    upstream = none ↔ textOr candidate.forwardHost.get "" = "" := by
  have hblank : forwardHost = "" ↔ textOr candidate.forwardHost.get "" = "" := by
    cases kind with
    | proxy =>
      simp only [checkedHost, bind_eq_ok_iff] at hhost
      obtain ⟨_, -, ht⟩ := hhost
      refine iff_of_false ?_ ?_
      · rintro rfl
        exact strip_target ht rfl
      · intro hempty
        rw [hempty] at ht
        exact absurd ht throw_ne_ok
    | redirect => rw [pure_eq_ok_iff.mp hhost]
    | dead => rw [pure_eq_ok_iff.mp hhost]
  rcases storedUpstream_cases hstored with ⟨hempty, hnone⟩ | ⟨hne, u, hsome, -⟩
  · rw [Member.get_of, textOr_empty] at hempty
    exact iff_of_true hnone (hblank.mp hempty)
  · rw [Member.get_of, textOr_empty] at hne
    exact iff_of_false (by simp [hsome]) fun h => hne (hblank.mpr h)

/-- The scheme that a row shows is written to it again. -/
lemma forwardScheme_kept {forwardHost : String} {scheme : ForwardScheme}
    (hk : candidate.forwardScheme = Member.of scheme.value)
    (hcolumn : redirectSchemeColumn candidate.forwardScheme.get = .ok row'.redirectScheme)
    (hstored : storedUpstream { candidate with forwardHost := .of forwardHost } = .ok row'.upstream) :
    (projectHost row').forwardScheme = Member.of scheme.value := by
  rw [hk, Member.get_of, redirectScheme_value] at hcolumn
  have hscheme : row'.redirectScheme = some scheme := (Except.ok.inj hcolumn).symm
  simp only [projectHost]
  rcases storedUpstream_cases hstored with ⟨-, hnone⟩ | ⟨-, u, hsome, -, hprotocol, -⟩
  · rw [hnone, hscheme]
    rfl
  · have hne : scheme.value ≠ "" := by
      cases scheme <;> decide
    rw [hk, Member.get_of, textOr_of_ne hne] at hprotocol
    rw [hsome, ← hprotocol]

/-- The access lists that a row shows are linked again. -/
lemma accessListIds_kept {ids ids' : List ℕ}
    (hk : candidate.accessListIds = Member.of (ids.map fun id : ℕ => (id : ℤ)))
    (h : ids' = candidate.selectedAccessLists.map Int.toNat) : ids' = ids := by
  rw [h, HostPayload.selectedAccessLists, hk, Member.get_of]
  simp [Function.comp_def]

/-- The upstream of a row whose target is still given. -/
lemma upstream_kept {forwardHost : String} {u : UpstreamRow} {upstream : Option UpstreamRow}
    (hhost : checkedHost kind candidate = .ok forwardHost)
    (hstored : storedUpstream { candidate with forwardHost := .of forwardHost } = .ok upstream)
    (hgiven : textOr candidate.forwardHost.get "" ≠ "") :
    ∃ u', upstream = some u' ∧ u'.target = forwardHost ∧
      (candidate.forwardPort = some (some (u.port : ℤ)) → 1 ≤ u.port → u'.port = u.port) ∧
      (candidate.targetKind = some (some u.targetKind.value) → u'.targetKind = u.targetKind) := by
  rcases storedUpstream_cases hstored with ⟨hempty, hnone⟩ | ⟨-, u', hsome, htarget, -, hkind, hport⟩
  · exact absurd ((upstream_isSome_iff hhost hstored).mp hnone) hgiven
  · rw [Member.get_of, textOr_empty] at htarget
    refine ⟨u', hsome, htarget, fun hk hpositive => ?_, fun hk => ?_⟩
    · have hne : (u.port : ℤ) ≠ 0 := by omega
      have hget : candidate.forwardPort.get = some (u.port : ℤ) := by rw [hk]; rfl
      dsimp only at hport
      rw [hget, intOr_of_ne hne] at hport
      have := port_eq_ok_toNat hport
      omega
    · have hne : u.targetKind.value ≠ "" := by
        cases u.targetKind <;> decide
      have hget : candidate.targetKind.get = some u.targetKind.value := by rw [hk]; rfl
      dsimp only at hkind
      rw [hget, textOr_of_ne hne, parseTargetKind_value] at hkind
      exact (Except.ok.inj hkind).symm

/-- A host that a row shows as its upstream is written to it again. -/
lemma forwardHost_kept (hr : Reread row)
    (hr' : HostStored certificates accessLists row.kind candidate row')
    (hk : candidate.forwardHost = some (row.upstream.map UpstreamRow.target))
    (hfree : HostFree candidate row .forwardHost) :
    row'.upstream.map UpstreamRow.target = row.upstream.map UpstreamRow.target := by
  obtain ⟨forwardHost, hhost, hupstream⟩ := hr'.forwardHost
  cases hrow : row.upstream with
  | none =>
    have hblank : textOr candidate.forwardHost.get "" = "" := by
      rw [hk, hrow]
      rfl
    rw [(upstream_isSome_iff hhost hupstream).mpr hblank]
  | some u =>
    have hget : candidate.forwardHost.get = some u.target := by
      rw [hk, hrow]
      rfl
    have hne : u.target ≠ "" := (hr.upstream u hrow).1
    obtain ⟨u', hsome, htarget, -⟩ := upstream_kept (u := u) hhost hupstream
      (by rwa [hget, textOr_of_ne hne])
    -- only the host of a proxy is looked at before it is written
    have hsame : forwardHost = u.target := by
      cases hkind : row.kind with
      | proxy =>
        obtain ⟨targetKind, hparse, ht⟩ := hfree u hrow hkind
        rw [hkind, checkedHost, hparse, ok_bind, hget, textOr_of_ne hne, ht] at hhost
        exact (Except.ok.inj hhost).symm
      | redirect =>
        rw [hkind] at hhost
        have hplain := pure_eq_ok_iff.mp hhost
        rw [hget, textOr_of_ne hne] at hplain
        exact hplain.symm
      | dead =>
        rw [hkind] at hhost
        have hplain := pure_eq_ok_iff.mp hhost
        rw [hget, textOr_of_ne hne] at hplain
        exact hplain.symm
    rw [hsome, Option.map_some, Option.map_some, htarget, hsame]

/-- A redirection target that a row shows is written to it again. -/
lemma redirectTarget_kept (hr : Reread row)
    (hr' : HostStored certificates accessLists row.kind candidate row')
    (hk : candidate.forwardDomainName = some row.redirectTarget) :
    row'.redirectTarget = row.redirectTarget := by
  have hget : candidate.forwardDomainName.get = row.redirectTarget := by
    rw [hk]
    rfl
  have hdomain := hr'.forwardDomainName
  rw [hget] at hdomain
  split at hdomain
  · rename_i hredirect
    obtain ⟨domain, hstored, hcanonical⟩ := hr.redirectTarget hredirect
    obtain ⟨hwritten, hsome⟩ := hdomain
    obtain ⟨domain', hdomain'⟩ := Option.isSome_iff_exists.mp hsome
    rw [hstored, textOr_empty, hcanonical, hdomain', Option.getD_some] at hwritten
    rw [hstored, hdomain', Except.ok.inj hwritten]
  · exact hdomain

/-- A status code that a row shows is written to it again. -/
lemma redirectCode_kept {code code' : Option ℕ}
    (h : redirectCodeColumn (code.map fun code : ℕ => (code : ℤ)) = .ok code') : code' = code := by
  cases code with
  | none => exact (pure_eq_ok_iff.mp h).symm
  | some code =>
    change redirectCodeColumn (some (code : ℤ)) = _ at h
    rw [redirectCodeColumn] at h
    split at h
    · rw [← pure_eq_ok_iff.mp h]
      rfl
    · exact absurd h throw_ne_ok

/-- A write of a candidate keeps the members that the candidate has as the row shows them. -/
theorem hostFrame (hr : Reread row)
    (hr' : HostStored certificates accessLists row.kind candidate row')
    (henabled : row'.enabled = candidate.enabled.truthy true)
    (howner : row'.ownerPrincipalId = candidate.ownerPrincipalId.get) (k : HostMember)
    (hk : candidate.get k = (projectHost row).get k) (hfree : HostFree candidate row k) :
    (projectHost row').get k = (projectHost row).get k := by
  obtain ⟨forwardHost, hhost, hupstream⟩ := hr'.forwardHost
  cases k with
  | ownerPrincipalId =>
    change candidate.ownerPrincipalId = some row.ownerPrincipalId at hk
    change some row'.ownerPrincipalId = some row.ownerPrincipalId
    rw [howner, hk]
    rfl
  | enabled => exact of_truthy hk henabled
  | certificateId => exact certificateId_kept hk hr'.certificateId
  | sslForced =>
    change candidate.sslForced = Member.of row.forceSsl at hk
    change Member.of row'.forceSsl = Member.of row.forceSsl
    rw [hr'.forceSsl, HostPayload.forcesSsl, hk, Member.truthy_of]
  | forceSsl => rfl
  | hstsEnabled => exact of_truthy hk hr'.hstsEnabled
  | hstsSubdomains => exact of_truthy hk hr'.hstsSubdomains
  | http2Support => exact of_truthy hk hr'.http2Enabled
  | trustForwardedProto =>
    change candidate.trustForwardedProto = Member.of row.trustForwardedProto at hk
    change Member.of row'.trustForwardedProto = Member.of row.trustForwardedProto
    rw [hr'.trustForwardedProto, hk, Member.truthy_of]
    cases htrust : row.trustForwardedProto with
    | false => rw [Bool.and_false]
    | true => rw [hfree htrust, Bool.and_true]
  | allowWebsocketUpgrade => exact of_truthy hk hr'.websocketEnabled
  | cachingEnabled => exact of_truthy hk hr'.cacheEnabled
  | blockExploits => exact of_truthy hk hr'.blockExploits
  | advancedConfig =>
    change candidate.advancedConfig = Member.of row.advancedConfig at hk
    change Member.of row'.advancedConfig = Member.of row.advancedConfig
    rw [hr'.advancedConfig, hk, Member.get_of, textOr_empty]
  | domainNames =>
    change candidate.domainNames = Member.of row.sources at hk
    change Member.of row'.sources = Member.of row.sources
    have hsources := hr'.sources
    rw [hk, Member.get_of, Option.getD_some, hr.sources] at hsources
    rw [Except.ok.inj hsources]
  | forwardScheme =>
    obtain ⟨scheme, hscheme⟩ : ∃ scheme : ForwardScheme,
        (projectHost row).forwardScheme = Member.of scheme.value := by
      simp only [projectHost]
      cases row.upstream with
      | some u => exact ⟨u.protocol, rfl⟩
      | none =>
        cases row.redirectScheme with
        | some scheme => exact ⟨scheme, rfl⟩
        | none => exact ⟨.http, rfl⟩
    exact (forwardScheme_kept (hk.trans hscheme) hr'.redirectScheme hupstream).trans hscheme.symm
  | forwardHost =>
    change candidate.forwardHost = some (row.upstream.map UpstreamRow.target) at hk
    exact congrArg some (forwardHost_kept hr hr' hk hfree)
  | forwardPort =>
    change candidate.forwardPort = some (row.upstream.map fun u => (u.port : ℤ)) at hk
    change some (row'.upstream.map fun u => (u.port : ℤ)) = some (row.upstream.map _)
    cases hrow : row.upstream with
    | none =>
      rw [(upstream_isSome_iff hhost hupstream).mpr (hfree.mpr hrow)]
    | some u =>
      have hgiven : textOr candidate.forwardHost.get "" ≠ "" := fun hempty => by
        rw [hfree.mp hempty] at hrow
        exact nomatch hrow
      obtain ⟨u', hsome, -, hport, -⟩ := upstream_kept (u := u) hhost hupstream hgiven
      rw [hrow] at hk
      rw [hsome, Option.map_some, Option.map_some, hport hk (hr.upstream u hrow).2]
  | targetKind =>
    change candidate.targetKind = some (row.upstream.map fun u => u.targetKind.value) at hk
    change some (row'.upstream.map fun u => u.targetKind.value) = some (row.upstream.map _)
    cases hrow : row.upstream with
    | none =>
      rw [(upstream_isSome_iff hhost hupstream).mpr (hfree.mpr hrow)]
    | some u =>
      have hgiven : textOr candidate.forwardHost.get "" ≠ "" := fun hempty => by
        rw [hfree.mp hempty] at hrow
        exact nomatch hrow
      obtain ⟨u', hsome, -, -, hkind⟩ := upstream_kept (u := u) hhost hupstream hgiven
      rw [hrow] at hk
      rw [hsome, Option.map_some, Option.map_some, hkind hk]
  | forwardDomainName =>
    change candidate.forwardDomainName = some row.redirectTarget at hk
    exact congrArg some (redirectTarget_kept hr hr' hk)
  | forwardHttpCode =>
    have hgiven : candidate.forwardHttpCode =
        some (row.redirectCode.map fun code : ℕ => (code : ℤ)) :=
      Eq.trans hk (projectHost_forwardHttpCode row)
    have hcode := hr'.redirectCode
    rw [hgiven] at hcode
    refine (projectHost_forwardHttpCode row').trans
      (Eq.trans ?_ (projectHost_forwardHttpCode row).symm)
    rw [redirectCode_kept hcode]
  | preservePath => exact of_truthy hk hr'.preservePath
  | accessListIds =>
    have hids := Eq.trans hk (projectHost_accessListIds row)
    refine (projectHost_accessListIds row').trans
      (Eq.trans ?_ (projectHost_accessListIds row).symm)
    rw [accessListIds_kept hids hr'.accessListIds]
  | accessListId =>
    change Member.of ((row'.accessListIds.head?.getD 0 : ℕ) : ℤ) =
      Member.of ((row.accessListIds.head?.getD 0 : ℕ) : ℤ)
    have hids := Eq.trans hfree (projectHost_accessListIds row)
    rw [accessListIds_kept hids hr'.accessListIds]
  | locations =>
    change candidate.locations = Member.of (row.locations.map projectLocation) at hk
    change Member.of (row'.locations.map projectLocation) = Member.of (row.locations.map projectLocation)
    have hlocations := hr'.locations
    rw [HostPayload.locationList, hk] at hlocations
    change (row.locations.map projectLocation).mapM storedLocation = _ at hlocations
    rw [mapM_storedLocation hr.locations] at hlocations
    rw [Except.ok.inj hlocations]
  | customLocations => rfl
  | extension key =>
    change row'.extensions.get? key = row.extensions.get? key
    rw [hr'.extensions]
    exact hk

end Frame

/-! ## The store of a host -/

section Store

variable (certificates accessLists : List ℕ) (kind : HostKind) (id : ℕ)

/-- The `update` operation of the table, which lays the candidate over the row. -/
def updateHostRow (actor : Actor) (candidate : HostPayload) (rows : Dict ℕ HostRow) :
    Result (Dict ℕ HostRow) :=
  match rows.get? id with
  | none => throw (.http 404 "Not Found")
  | some stored =>
    storeHost certificates accessLists actor kind id stored (candidate.over (projectHost stored)) rows

/-- `update_resource` reads the host and hands the candidate to the operation of the table. -/
theorem updateHost_eq {actor : Actor} {payload : HostPayload} {rows : Dict ℕ HostRow}
    {stored : HostRow} (h : getHost kind id rows = some stored) :
    updateHost certificates accessLists actor kind id payload rows =
      updateHostRow certificates accessLists kind id actor (payload.over (projectHost stored)) rows := by
  have hover : (payload.over (projectHost stored)).over (projectHost stored) =
      payload.over (projectHost stored) := by
    simp only [HostPayload.over, Option.or_assoc, Option.or_self, Dict.update_update]
  simp only [updateHost, updateHostRow, h, getHost_eq_some h, hover]

/-- The tables that the operations on hosts make. -/
inductive HostsReached : Dict ℕ HostRow → Prop
  | empty : HostsReached Dict.empty
  | create {certificates accessLists : List ℕ} {actor : Actor} {kind : HostKind} {generated : ℕ}
      {payload : HostPayload} {rows rows' : Dict ℕ HostRow} (h : HostsReached rows)
      (hop : createHost certificates accessLists actor kind generated payload rows = .ok rows') :
      HostsReached rows'
  | update {certificates accessLists : List ℕ} {actor : Actor} {kind : HostKind} {id : ℕ}
      {payload : HostPayload} {rows rows' : Dict ℕ HostRow} (h : HostsReached rows)
      (hop : updateHost certificates accessLists actor kind id payload rows = .ok rows') :
      HostsReached rows'
  | replace {certificates accessLists : List ℕ} {actor : Actor} {kind : HostKind} {id : ℕ}
      {payload : HostPayload} {rows rows' : Dict ℕ HostRow} (h : HostsReached rows)
      (hop : replaceHost certificates accessLists actor kind id payload rows = .ok rows') :
      HostsReached rows'
  | setEnabled {actor : Actor} {id : ℕ} {enabled : Bool} {rows rows' : Dict ℕ HostRow}
      (h : HostsReached rows) (hop : setHostEnabled actor id enabled rows = .ok rows') :
      HostsReached rows'
  | delete {actor : Actor} {kind : HostKind} {id : ℕ} {rows rows' : Dict ℕ HostRow}
      (h : HostsReached rows) (hop : deleteHost actor kind id rows = .ok rows') :
      HostsReached rows'

/-- The updates of one host. -/
def hostStore : MergingStore (Dict ℕ HostRow) HostPayload Actor Exc where
  members := hostMembers
  read rows := (getHost kind id rows).map projectHost
  shown rows := (getHost kind id rows).map projectHost
  rereads := true
  write := updateHostRow certificates accessLists kind id
  toggle actor enabled := setHostEnabled actor id enabled
  toggled enabled := { enabled := .of enabled }
  Valid rows := HostsReached rows ∧ ∃ row, getHost kind id rows = some row
  Settled rows := ∃ row, getHost kind id rows = some row ∧ Reread row
  Free k candidate rows := ∀ row, getHost kind id rows = some row → HostFree candidate row k

variable {certificates accessLists kind id}

lemma getHost_set {rows : Dict ℕ HostRow} {row : HostRow} (h : row.kind = kind) :
    getHost kind id (rows.set id row) = some row := by
  rw [getHost, Dict.get?_set_self, Option.filter_some, if_pos (by simpa using h)]

/-- What the `update` operation writes. -/
lemma updateHostRow_spec {actor : Actor} {candidate : HostPayload} {rows rows' : Dict ℕ HostRow}
    {stored : HostRow} (hget : rows.get? id = some stored)
    (h : updateHostRow certificates accessLists kind id actor candidate rows = .ok rows') :
    ∃ row, rows' = rows.set id row ∧
      HostStored certificates accessLists kind (candidate.over (projectHost stored)) row ∧
      row.enabled = (candidate.over (projectHost stored)).enabled.truthy true ∧
      row.ownerPrincipalId = (candidate.over (projectHost stored)).ownerPrincipalId.get := by
  rw [updateHostRow, hget] at h
  obtain ⟨row, rfl, hwrite⟩ := storeHost_spec h
  exact ⟨row, rfl, hostStored_of_writeHost hwrite⟩

/-- What every write makes of a host, and a toggle keeps, holds of every host of the table. -/
theorem HostsReached.forall_rows {P : HostRow → Prop} {rows : Dict ℕ HostRow}
    (h : HostsReached rows)
    (hwrite : ∀ {certificates accessLists : List ℕ} {kind : HostKind}
      {owner : Option ℕ → Option ℕ} {excludeId : Option ℕ} {id : ℕ} {payload : HostPayload}
      {rows : Dict ℕ HostRow} {row : HostRow},
      writeHost certificates accessLists kind owner excludeId id payload rows = .ok row → P row)
    (htoggle : ∀ row enabled, P row → P { row with enabled := enabled }) :
    ∀ id row, rows.get? id = some row → P row := by
  have hset : ∀ {rows : Dict ℕ HostRow} {id : ℕ} {row : HostRow}, P row →
      (∀ id row, rows.get? id = some row → P row) →
      ∀ id' row', (rows.set id row).get? id' = some row' → P row' := by
    intro rows id row hrow hrows id' row' hget
    rw [Dict.get?_set] at hget
    split at hget
    · exact Option.some.inj hget ▸ hrow
    · exact hrows id' row' hget
  induction h with
  | empty => rintro _ _ ⟨⟩
  | create _ hop ih =>
    obtain ⟨row, rfl, -, hrow⟩ := createHost_spec hop
    exact hset (hwrite hrow) ih
  | update _ hop ih =>
    rcases updateHost_cases hop with ⟨rfl, -⟩ | ⟨stored, row, -, rfl, hrow⟩
    · exact ih
    · exact hset (hwrite hrow) ih
  | replace _ hop ih =>
    rcases replaceHost_cases hop with ⟨rfl, -⟩ | ⟨stored, row, -, rfl, hrow⟩
    · exact ih
    · exact hset (hwrite hrow) ih
  | setEnabled _ hop ih =>
    rcases setHostEnabled_spec hop with ⟨rfl, -⟩ | ⟨stored, hstored, rfl⟩
    · exact ih
    · exact hset (htoggle stored _ (ih _ _ hstored)) ih
  | delete _ hop ih =>
    rcases deleteHost_cases hop with rfl | rfl
    · exact ih
    · intro id' row' hget
      rw [Dict.get?_pop] at hget
      split at hget
      · cases hget
      · exact ih id' row' hget

/-- Every host of the table is read back. -/
theorem HostsReached.reread {rows : Dict ℕ HostRow} (h : HostsReached rows) :
    ∀ id row, rows.get? id = some row → Reread row :=
  h.forall_rows (fun hrow => reread_of_hostStored (hostStored_of_writeHost hrow).1)
    fun _ _ hrow => ⟨hrow.sources, hrow.upstream, hrow.locations, hrow.redirectTarget⟩

theorem hostStore_lawful : (hostStore certificates accessLists kind id).Lawful where
  write_settles := by
    rintro actor candidate rows rows' ⟨hreached, stored, hstored⟩ h
    obtain ⟨row, rfl, hrow, -⟩ := updateHostRow_spec (getHost_eq_some hstored) h
    have hop : updateHost certificates accessLists actor kind id candidate rows =
        .ok (rows.set id row) := by
      rw [← h]
      change _ = updateHostRow certificates accessLists kind id actor candidate rows
      simp only [updateHost, updateHostRow, hstored, getHost_eq_some hstored]
    exact ⟨⟨hreached.update hop, row, getHost_set hrow.kind_eq⟩, row, getHost_set hrow.kind_eq,
      reread_of_hostStored hrow⟩
  toggle_settles := by
    rintro actor enabled rows rows' ⟨hreached, stored, hstored⟩ h
    have hget := getHost_eq_some hstored
    have hreached' : HostsReached rows' := hreached.setEnabled h
    rcases setHostEnabled_spec h with ⟨-, hnone⟩ | ⟨stored', hstored', rfl⟩
    · rw [hget] at hnone
      cases hnone
    · obtain rfl : stored' = stored := Option.some.inj (hstored'.symm.trans hget)
      have hkind : stored'.kind = kind := by
        simpa using (Option.filter_eq_some_iff.mp hstored).2
      have hget' : getHost kind id (rows.set id { stored' with enabled := enabled }) =
          some { stored' with enabled := enabled } := getHost_set hkind
      exact ⟨⟨hreached', _, hget'⟩, _, hget', hreached'.reread id _ (getHost_eq_some hget')⟩
  write_frame := by
    rintro actor candidate rows rows' ⟨stored, hstored, hreread⟩ h k hk hfree
    have hkind : stored.kind = kind := by
      simpa using (Option.filter_eq_some_iff.mp hstored).2
    obtain ⟨row, rfl, hrow, henabled, howner⟩ := updateHostRow_spec (getHost_eq_some hstored) h
    have hmerged : (hostStore certificates accessLists kind id).merged candidate rows =
        candidate.over (projectHost stored) := by
      simp only [MergingStore.merged, hostStore, hstored, Option.map_some]
      rfl
    rw [hmerged] at hk hfree
    have hreads : (hostStore certificates accessLists kind id).readsAt rows k =
        (projectHost stored).get k := by
      simp only [MergingStore.readsAt, hostStore, hstored, Option.map_some, Option.bind_some]
      rfl
    have hframe := hostFrame hreread (hkind ▸ hrow) henabled howner k (hk.trans hreads)
      (hfree stored hstored)
    simp only [MergingStore.showsAt, hostStore, hstored, getHost_set hrow.kind_eq, Option.map_some,
      Option.bind_some]
    exact hframe
  toggle_frame := by
    rintro actor enabled rows rows' h k hk
    rcases setHostEnabled_spec h with ⟨rfl, -⟩ | ⟨stored, hstored, rfl⟩
    · rfl
    · by_cases hkind : stored.kind = kind
      · have hget : getHost kind id rows = some stored := by
          rw [getHost, hstored, Option.filter_some, if_pos (by simpa using hkind)]
        have hget' : getHost kind id (rows.set id { stored with enabled := enabled }) =
            some { stored with enabled := enabled } := getHost_set hkind
        simp only [MergingStore.showsAt, hostStore, hget, hget', Option.map_some, Option.bind_some]
        cases k with
        | enabled => exact absurd (by rintro ⟨⟩) hk
        | _ => rfl
      · have hnone : getHost kind id rows = none := by
          rw [getHost, hstored, Option.filter_some, if_neg (by simpa using hkind)]
        have hnone' : getHost kind id (rows.set id { stored with enabled := enabled }) = none := by
          rw [getHost, Dict.get?_set_self, Option.filter_some, if_neg (by simpa using hkind)]
        simp only [MergingStore.showsAt, hostStore, hnone, hnone', Option.map_none]

end Store

end Portwyrm.Tables

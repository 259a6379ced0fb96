import Portwyrm.Tables.AliasFields

/-!
# Hosts that are written back

The projection of a stored host passes the validator and is stored again.  All columns come back
but one: a host that was written without `forward_scheme` has no scheme of its own, and its
projection shows one.
-/

namespace Portwyrm.Tables

open Base Portwyrm.Runtime Portwyrm.Quic Portwyrm.Identity

/-! ## Stored hosts -/

/-- The scheme that a row shows. -/
def HostRow.shownScheme (row : HostRow) : ForwardScheme :=
  (row.upstream.map UpstreamRow.protocol).getD (row.redirectScheme.getD .http)

/-- The row with the scheme that it shows as its own. -/
def HostRow.rescheme (row : HostRow) : HostRow :=
  { row with redirectScheme := some row.shownScheme }

/-- The columns of a row. -/
def HostRow.childless (row : HostRow) : HostRow :=
  { row with
    sources := []
    upstream := none
    locations := []
    accessListIds := [] }

/-- What the validator and the constraints of the tables leave of a host. -/
structure StoredHost (certificates accessLists : List ℕ) (row : HostRow) : Prop where
  sources : canonicalDomains row.sources = .ok row.sources
  upstream : ∀ u ∈ row.upstream, u.target ≠ "" ∧
    parseForwardScheme u.protocol.value = .ok u.protocol ∧ port u.port "forward_port" = .ok u.port
  proxied : row.kind = .proxy → ∃ u, row.upstream = some u ∧
    target u.target u.targetKind "forward_host" = .ok u.target
  scheme : ∀ s ∈ row.redirectScheme, row.shownScheme = s
  redirectTarget : row.kind = .redirect → ∃ domain, row.redirectTarget = some domain ∧
    canonicalDomain domain = .ok domain
  redirectCode : ∀ code ∈ row.redirectCode, (code : ℤ) ∈ redirectCodes
  certificate : ∀ id ∈ row.certificateId, id ≠ 0 ∧ id ∈ certificates
  forced : row.forceSsl = true → row.certificateId.isSome = true
  hsts : row.hstsEnabled = true → row.forceSsl = true
  subdomains : row.hstsSubdomains = true → row.hstsEnabled = true
  trusted : row.trustForwardedProto = true → row.forceSsl = true
  locations : ∀ l ∈ row.locations, validateRuntimeLocation l = .ok l
  paths : (row.locations.map LocationRow.path).Nodup
  linked : ∀ id ∈ row.accessListIds, 0 < id ∧ id ∈ accessLists
  nodup : row.accessListIds.Nodup

section Stored

variable {certificates accessLists : List ℕ} {kind : HostKind} {payload : HostPayload}
  {row : HostRow}

lemma certificate_of_certificateKey {given : Option ℤ} {certificateId : Option ℕ}
    (h : certificateKey certificates (given.filter (· ≠ 0)) = .ok certificateId) :
    ∀ id ∈ certificateId, id ≠ 0 ∧ id ∈ certificates := by
  intro id hid
  cases hfilter : given.filter (· ≠ 0) with
  | none =>
    rw [hfilter] at h
    obtain rfl := pure_eq_ok_iff.mp h
    exact absurd hid (by simp)
  | some z =>
    have hz : z ≠ 0 := by simpa using (Option.filter_eq_some_iff.mp hfilter).2
    rw [hfilter] at h
    obtain ⟨certificate, hmem, rfl, rfl⟩ := certificateKey_some_eq_ok_iff.mp h
    obtain rfl : certificate = id := by simpa using hid
    exact ⟨by simpa using hz, hmem⟩

lemma redirectCode_of_column {given : Option ℤ} {redirectCode : Option ℕ}
    (h : redirectCodeColumn given = .ok redirectCode) :
    ∀ code ∈ redirectCode, (code : ℤ) ∈ redirectCodes := by
  intro code hcode
  unfold redirectCodeColumn at h
  split at h
  · obtain rfl := pure_eq_ok_iff.mp h
    exact absurd hcode (by simp)
  · rename_i z
    split at h
    · rename_i hmem
      obtain rfl := pure_eq_ok_iff.mp h
      obtain rfl : z.toNat = code := by simpa using hcode
      have hpositive : 0 ≤ z := by
        simp only [redirectCodes, List.mem_cons, List.not_mem_nil, or_false] at hmem
        omega
      rwa [Int.toNat_of_nonneg hpositive]
    · exact absurd h throw_ne_ok

lemma redirectScheme_of_column {given : Option String} {redirectScheme : Option ForwardScheme}
    (h : redirectSchemeColumn given = .ok redirectScheme) :
    given = redirectScheme.map ForwardScheme.value := by
  unfold redirectSchemeColumn at h
  split at h
  · obtain rfl := pure_eq_ok_iff.mp h
    rfl
  · split at h
    · rename_i scheme hscheme
      obtain rfl := pure_eq_ok_iff.mp h
      have := List.find?_some hscheme
      simp only [decide_eq_true_eq] at this
      rw [Option.map_some, this]
    · exact absurd h throw_ne_ok

lemma value_injective : Function.Injective ForwardScheme.value := by
  intro s s' h
  cases s <;> cases s' <;> first | rfl | exact absurd h (by decide)

/-- The flags and references that the validator lets through. -/
structure Admitted (payload : HostPayload) : Prop where
  forced : payload.forcesSsl = true → intOr payload.certificateId.get 0 ≠ 0
  hsts : payload.hstsEnabled.truthy false = true → payload.forcesSsl = true
  subdomains : payload.hstsSubdomains.truthy false = true → payload.hstsEnabled.truthy false = true
  linked : ∀ id ∈ payload.accessListIds.get.getD [], 0 < id

lemma admitted_of_validatePayload {payload' : HostPayload}
    (h : validatePayload kind payload = .ok payload') : Admitted payload := by
  obtain ⟨domains, -, hkind, hconsistent⟩ := validatePayload_eq_ok_iff.mp h
  have hrest := (kindChecked_of_validateKind hkind).rest
  generalize payload'.forwardHost = forwardHost at hrest
  generalize payload'.forwardDomainName = forwardDomainName at hrest
  subst hrest
  exact
    { forced := fun htrue hzero => hconsistent.forced ⟨htrue, hzero⟩
      hsts := fun htrue => by
        by_contra hfalse
        exact hconsistent.hsts ⟨htrue, .inl (Bool.not_eq_true _ ▸ hfalse)⟩
      subdomains := fun htrue => by
        by_contra hfalse
        exact hconsistent.subdomains ⟨htrue, Bool.not_eq_true _ ▸ hfalse⟩
      linked := fun id hid => by
        by_contra hle
        exact hconsistent.positive ⟨id, hid, not_lt.mp hle⟩ }

lemma ne_zero_of_selected (h : Admitted payload) : ∀ z ∈ payload.selectedAccessLists, z ≠ 0 := by
  intro z hz
  unfold HostPayload.selectedAccessLists at hz
  split at hz
  · rename_i ids hids
    exact (h.linked z (by rwa [hids])).ne'
  · simpa using (Option.filter_eq_some_iff.mp (Option.mem_toList.mp hz)).2

/-- The upstream of a written host. -/
lemma upstream_of_hostStored (h : HostStored certificates accessLists kind payload row) :
    ∀ u ∈ row.upstream, u.target ≠ "" ∧ parseForwardScheme u.protocol.value = .ok u.protocol ∧
      port u.port "forward_port" = .ok u.port := by
  intro u hu
  obtain ⟨forwardHost, -, hstored⟩ := h.forwardHost
  unfold storedUpstream at hstored
  dsimp only at hstored
  split at hstored
  · rw [← pure_eq_ok_iff.mp hstored] at hu
    exact absurd hu (by simp)
  · rename_i hgiven
    simp only [bind_eq_ok_iff, pure_eq_ok_iff] at hstored
    obtain ⟨protocol, hprotocol, _, -, p, hport, hrow⟩ := hstored
    obtain rfl : _ = u := Option.some.inj (hrow.trans hu)
    exact ⟨hgiven, parseForwardScheme_value hprotocol, port_of_nat _ (port_eq_ok hport)⟩

lemma proxied_of_hostStored (h : HostStored certificates accessLists kind payload row)
    (hkind : row.kind = .proxy) : ∃ u, row.upstream = some u ∧
      target u.target u.targetKind "forward_host" = .ok u.target := by
  obtain ⟨forwardHost, hchecked, hstored⟩ := h.forwardHost
  obtain rfl : kind = .proxy := h.kind_eq.symm.trans hkind
  simp only [checkedHost, bind_eq_ok_iff] at hchecked
  obtain ⟨targetKind, hparse, htarget⟩ := hchecked
  rcases storedUpstream_cases hstored with ⟨hempty, -⟩ | ⟨-, u, hu, htext, -, hkind', -⟩
  · rw [Member.get_of, textOr_empty] at hempty
    subst hempty
    exact absurd rfl (strip_target htarget)
  · obtain rfl : targetKind = u.targetKind := Except.ok.inj (hparse.symm.trans hkind')
    rw [Member.get_of, textOr_empty] at htext
    exact ⟨u, hu, htext ▸ target_idem htarget _⟩

lemma scheme_of_hostStored (h : HostStored certificates accessLists kind payload row) :
    ∀ s ∈ row.redirectScheme, row.shownScheme = s := by
  intro s hs
  have hgiven := redirectScheme_of_column h.redirectScheme
  rw [hs, Option.map_some] at hgiven
  have hne : s.value ≠ "" := by
    cases s <;> decide
  obtain ⟨forwardHost, -, hstored⟩ := h.forwardHost
  unfold HostRow.shownScheme
  rcases storedUpstream_cases hstored with ⟨-, hnone⟩ | ⟨-, u, hu, -, hprotocol, -⟩
  · rw [hnone, hs]
    rfl
  · rw [hgiven, textOr_of_ne hne] at hprotocol
    rw [hu, Option.map_some, Option.getD_some]
    exact value_injective hprotocol

end Stored

section Written

variable {certificates accessLists : List ℕ} {kind : HostKind} {payload : HostPayload}
  {row : HostRow} {owner : Option ℕ → Option ℕ} {excludeId : Option ℕ} {id : ℕ}
  {rows : Dict ℕ HostRow}

/-- A written host is stored in good order, and its domains are those of no other host. -/
theorem storedHost_of_writeHost
    (h : writeHost certificates accessLists kind owner excludeId id payload rows = .ok row) :
    StoredHost certificates accessLists row ∧ ∀ d ∈ row.sources, d ∉ takenDomains rows id := by
  have hstored := (hostStored_of_writeHost h).1
  have hreread := reread_of_hostStored hstored
  have hnonneg := selected_of_writeHost h
  obtain ⟨payload', columns, hpayload, -, -, hchildren⟩ := writeHost_eq_ok_iff.mp h
  have hadmitted := admitted_of_validatePayload hpayload
  have hlinked := (linked_of_replaceHostChildren hchildren).1
  have hcertificate := certificate_of_certificateKey hstored.certificateId
  refine ⟨?_, ?_⟩
  · exact
      { sources := hreread.sources
        upstream := upstream_of_hostStored hstored
        proxied := proxied_of_hostStored hstored
        scheme := scheme_of_hostStored hstored
        redirectTarget := hreread.redirectTarget
        redirectCode := redirectCode_of_column hstored.redirectCode
        certificate := hcertificate
        forced := fun hforced => by
          rw [hstored.forceSsl] at hforced
          exact certificateId_isSome hstored.certificateId (hadmitted.forced hforced)
        hsts := fun hhsts => by
          rw [hstored.hstsEnabled] at hhsts
          rw [hstored.forceSsl]
          exact hadmitted.hsts hhsts
        subdomains := fun hsubdomains => by
          rw [hstored.hstsSubdomains] at hsubdomains
          rw [hstored.hstsEnabled]
          exact hadmitted.subdomains hsubdomains
        trusted := fun htrusted => by
          rw [hstored.trustForwardedProto, Bool.and_eq_true] at htrusted
          rw [hstored.forceSsl]
          exact htrusted.1
        locations := hreread.locations
        paths := hlinked.paths
        linked := fun i hi => by
          refine ⟨?_, hlinked.stored i hi⟩
          rw [hstored.accessListIds] at hi
          obtain ⟨z, hz, rfl⟩ := List.mem_map.mp hi
          have hne := ne_zero_of_selected hadmitted z hz
          have hnonneg := hnonneg z hz
          omega
        nodup := hlinked.nodup }
  · obtain ⟨sources, upstream, locations, hheld, rfl⟩ := replaceHostChildren_eq_ok_iff.mp hchildren
    exact fun d hd hmem => hheld.free ⟨d, hd, hmem⟩

/-- Every host of the table is stored in good order. -/
theorem HostsReached.storedHost (h : HostsReached rows) (hget : rows.get? id = some row) :
    ∃ certificates accessLists, StoredHost certificates accessLists row := by
  refine h.forall_rows (P := fun row => ∃ certificates accessLists,
    StoredHost certificates accessLists row) (fun hrow => ⟨_, _, (storedHost_of_writeHost hrow).1⟩)
    ?_ id row hget
  rintro row enabled ⟨certificates, accessLists, hrow⟩
  exact ⟨certificates, accessLists,
    { sources := hrow.sources
      upstream := hrow.upstream
      proxied := hrow.proxied
      scheme := hrow.scheme
      redirectTarget := hrow.redirectTarget
      redirectCode := hrow.redirectCode
      certificate := hrow.certificate
      forced := hrow.forced
      hsts := hrow.hsts
      subdomains := hrow.subdomains
      trusted := hrow.trusted
      locations := hrow.locations
      paths := hrow.paths
      linked := hrow.linked
      nodup := hrow.nodup }⟩

end Written

/-! ## Writing the projection -/

section Rewrite

variable {certificates accessLists : List ℕ} {row : HostRow}

lemma projectHost_forwardScheme (row : HostRow) :
    (projectHost row).forwardScheme = Member.of row.shownScheme.value := by
  simp only [projectHost, HostRow.shownScheme]
  cases row.upstream with
  | some u => rfl
  | none => cases row.redirectScheme <;> rfl

/-- The members that show the upstream of a row. -/
structure ShowsUpstream (shown : HostPayload) (u : UpstreamRow) : Prop where
  forwardScheme : textOr shown.forwardScheme.get "http" = u.protocol.value
  targetKind : textOr shown.targetKind.get "dns" = u.targetKind.value
  forwardHost : textOr shown.forwardHost.get "" = u.target
  forwardPort : ∀ default, intOr shown.forwardPort.get default = u.port
  given : shown.forwardHost = Member.of u.target

lemma showsUpstream {u : UpstreamRow} (hu : row.upstream = some u)
    (hport : port u.port "forward_port" = .ok u.port) : ShowsUpstream (projectHost row) u where
  forwardScheme := by
    have hne : u.protocol.value ≠ "" := by
      cases u.protocol <;> decide
    rw [projectHost_forwardScheme, HostRow.shownScheme, hu, Member.get_of]
    exact textOr_of_ne hne "http"
  targetKind := by
    have hne : u.targetKind.value ≠ "" := by
      cases u.targetKind <;> decide
    simp only [projectHost, hu]
    exact textOr_of_ne hne "dns"
  forwardHost := by
    simp only [projectHost, hu]
    exact textOr_empty u.target
  forwardPort default := by
    have hpos := (port_eq_ok hport).1
    have hne : (u.port : ℤ) ≠ 0 := by omega
    simp only [projectHost, hu]
    exact intOr_of_ne hne default
  given := by
    simp only [projectHost, hu]
    rfl

/-- The check for the kind of a stored host leaves its projection as it is. -/
lemma validateKind_projectHost (h : StoredHost certificates accessLists row) :
    validateKind row.kind (projectHost row) = .ok (projectHost row) := by
  cases hkind : row.kind with
  | proxy =>
    obtain ⟨u, hu, htarget⟩ := h.proxied hkind
    obtain ⟨-, hprotocol, hport⟩ := h.upstream u hu
    have hshows := showsUpstream hu hport
    simp only [validateKind, bind_eq_ok_iff, pure_eq_ok_iff, hshows.forwardScheme,
      hshows.targetKind, hshows.forwardHost, hshows.forwardPort]
    refine ⟨_, hprotocol, _, parseTargetKind_value _, _, htarget, _, hport, ?_⟩
    rw [← hshows.given]
  | redirect =>
    obtain ⟨domain, hdomain, hcanonical⟩ := h.redirectTarget hkind
    obtain ⟨hname, hself⟩ := canonicalDomain_eq_ok_iff.mp hcanonical
    have hget : textOr (projectHost row).forwardDomainName.get "" = domain := by
      simp only [projectHost, hdomain]
      exact textOr_empty domain
    have hscheme : ∃ scheme, parseRedirectScheme
        (textOr (projectHost row).forwardScheme.get "auto") = .ok scheme := by
      rw [projectHost_forwardScheme, Member.get_of]
      cases row.shownScheme <;> exact ⟨_, rfl⟩
    have hcode : intOr (projectHost row).forwardHttpCode.get 301 ∈ redirectCodes := by
      rw [projectHost_forwardHttpCode]
      cases hrow : row.redirectCode with
      | none => decide
      | some code =>
        have hmem := h.redirectCode code hrow
        have hne : (code : ℤ) ≠ 0 := by
          rintro hzero
          rw [hzero] at hmem
          exact absurd hmem (by decide)
        change intOr (some (code : ℤ)) 301 ∈ redirectCodes
        rwa [intOr_of_ne hne]
    obtain ⟨scheme, hscheme⟩ := hscheme
    simp only [validateKind, bind_eq_ok_iff, raiseIf_eq_ok_iff, not_not, pure_eq_ok_iff, hget]
    refine ⟨scheme, hscheme, (), hname, (), hcode, ?_⟩
    rw [hself]
    simp only [projectHost, hdomain]
    rfl
  | dead => rfl

/-- The certificate of a stored host, as the validator reads it. -/
lemma intOr_certificateId (row : HostRow) :
    intOr (projectHost row).certificateId.get 0 = ((row.certificateId.getD 0 : ℕ) : ℤ) := by
  have hget : (projectHost row).certificateId.get = some ((row.certificateId.getD 0 : ℕ) : ℤ) := rfl
  rw [hget]
  by_cases hzero : ((row.certificateId.getD 0 : ℕ) : ℤ) = 0
  · rw [hzero]
    rfl
  · exact intOr_of_ne hzero 0

lemma path_ne_of_validateRuntimeLocation {l l' : LocationRow}
    (h : validateRuntimeLocation l = .ok l') : l.path ≠ "" := by
  simp only [validateRuntimeLocation, validateLocation, bind_eq_ok_iff, raiseIf_eq_ok_iff,
    not_not] at h
  obtain ⟨-, -, -, -, -, hpath, -⟩ := h
  intro hempty
  rw [hempty] at hpath
  exact absurd hpath (by decide)

/-- The projection of a stored host passes the validator as it is. -/
lemma validatePayload_projectHost (h : StoredHost certificates accessLists row) :
    validatePayload row.kind (projectHost row) = .ok (projectHost row) := by
  have hforced : row.forceSsl = true → ((row.certificateId.getD 0 : ℕ) : ℤ) ≠ 0 := by
    intro hforced
    obtain ⟨id, hid⟩ := Option.isSome_iff_exists.mp (h.forced hforced)
    rw [hid, Option.getD_some]
    exact_mod_cast (h.certificate id hid).1
  refine validatePayload_eq_ok_iff.mpr ⟨row.sources, h.sources, validateKind_projectHost h, ?_⟩
  exact
    { forced := by
        rintro ⟨htrue, hzero⟩
        exact hforced htrue ((intOr_certificateId row).symm.trans hzero)
      hsts := by
        rintro ⟨htrue, hfalse | hzero⟩
        · have hfalse : row.forceSsl = false := hfalse
          exact absurd ((h.hsts htrue).symm.trans hfalse) (by decide)
        · exact hforced (h.hsts htrue) ((intOr_certificateId row).symm.trans hzero)
      subdomains := by
        rintro ⟨htrue, hfalse⟩
        have hfalse : row.hstsEnabled = false := hfalse
        exact absurd ((h.subdomains htrue).symm.trans hfalse) (by decide)
      unique := by
        rw [projectHost_accessListIds, Member.get_of, Option.getD_some]
        exact h.nodup.map fun _ _ heq => Int.ofNat_inj.mp heq
      positive := by
        rw [projectHost_accessListIds, Member.get_of, Option.getD_some]
        rintro ⟨id, hid, hle⟩
        obtain ⟨i, hi, rfl⟩ := List.mem_map.mp hid
        have hpos := (h.linked i hi).1
        omega
      paths := by
        show ((row.locations.map projectLocation).map fun l => textOr l.path "/").Nodup
        have hmap : (row.locations.map projectLocation).map (fun l => textOr l.path "/") =
            row.locations.map LocationRow.path := by
          rw [List.map_map]
          refine List.map_congr_left fun l hl => ?_
          exact textOr_of_ne (path_ne_of_validateRuntimeLocation (h.locations l hl)) "/"
        rw [hmap]
        exact h.paths }

lemma and_of_implies {a b : Bool} (h : b = true → a = true) : (a && b) = b := by
  cases b with
  | false => exact Bool.and_false a
  | true => rw [h rfl, Bool.and_true]

/-- The columns of a stored host come back from its projection, but for the scheme. -/
lemma hostColumns_projectHost (h : StoredHost certificates accessLists row) :
    hostColumns certificates row.kind (projectHost row) =
      .ok row.rescheme.childless := by
  have hcertificate : certificateKey certificates
      ((projectHost row).certificateId.get.filter (· ≠ 0)) = .ok row.certificateId := by
    have hget : (projectHost row).certificateId.get =
        some ((row.certificateId.getD 0 : ℕ) : ℤ) := rfl
    rw [hget]
    cases hrow : row.certificateId with
    | none => rfl
    | some id =>
      obtain ⟨hne, hmem⟩ := h.certificate id hrow
      have hfilter : Option.filter (· ≠ 0) (some (((some id).getD 0 : ℕ) : ℤ)) = some (id : ℤ) := by
        simp [Option.filter, hne]
      rw [hfilter]
      exact certificateKey_some_eq_ok_iff.mpr ⟨id, hmem, rfl, rfl⟩
  have hscheme : redirectSchemeColumn (projectHost row).forwardScheme.get =
      .ok (some row.shownScheme) := by
    rw [projectHost_forwardScheme, Member.get_of]
    exact redirectScheme_value
  have hcode : redirectCodeColumn (projectHost row).forwardHttpCode.get = .ok row.redirectCode := by
    rw [projectHost_forwardHttpCode]
    cases hrow : row.redirectCode with
    | none => rfl
    | some code =>
      change redirectCodeColumn (some (code : ℤ)) = _
      rw [redirectCodeColumn, if_pos (h.redirectCode code hrow)]
      rfl
  have hforced : ((projectHost row).forcesSsl && row.certificateId.isSome) = row.forceSsl := by
    change (row.forceSsl && row.certificateId.isSome) = row.forceSsl
    cases htrue : row.forceSsl with
    | false => rfl
    | true => exact h.forced htrue
  have hhsts : (row.forceSsl && (projectHost row).hstsEnabled.truthy false) = row.hstsEnabled :=
    and_of_implies h.hsts
  have hsubdomains : (row.hstsEnabled && (projectHost row).hstsSubdomains.truthy false) =
      row.hstsSubdomains := and_of_implies h.subdomains
  have htrusted : (row.forceSsl && (projectHost row).trustForwardedProto.truthy false) =
      row.trustForwardedProto := and_of_implies h.trusted
  have hconfig : textOr (projectHost row).advancedConfig.get "" = row.advancedConfig :=
    textOr_empty row.advancedConfig
  simp only [hostColumns, hcertificate, hscheme, hcode, ok_bind, hforced, hhsts, hsubdomains,
    htrusted, hconfig]
  rfl

/-- The children of a stored host come back from its projection. -/
lemma replaceHostChildren_projectHost (h : StoredHost certificates accessLists row)
    {taken : List String} (htaken : ∀ d ∈ row.sources, d ∉ taken) (columns : HostRow) :
    replaceHostChildren accessLists taken (projectHost row) columns =
      .ok { columns with
        sources := row.sources
        upstream := row.upstream
        locations := row.locations
        accessListIds := row.accessListIds } := by
  have hsources : storedSources (projectHost row) = .ok row.sources := by
    have hne : row.sources ≠ [] := ne_nil_of_canonicalDomains h.sources
    have hget : (projectHost row).domainNames.get.getD [] = row.sources := rfl
    rw [storedSources, hget, if_neg hne]
    exact h.sources
  have hupstream : storedUpstream (projectHost row) = .ok row.upstream := by
    cases hrow : row.upstream with
    | none =>
      have hblank : textOr (projectHost row).forwardHost.get "" = "" := by
        simp only [projectHost, hrow]
        rfl
      rw [storedUpstream, hblank]
      rfl
    | some u =>
      obtain ⟨hne, hprotocol, hport⟩ := h.upstream u hrow
      have hshows := showsUpstream hrow hport
      simp only [storedUpstream, hshows.forwardHost, if_neg hne, hshows.forwardScheme, hprotocol,
        hshows.targetKind, parseTargetKind_value, hshows.forwardPort, hport, ok_bind]
      rfl
  have hlocations : (projectHost row).locationList.mapM storedLocation = .ok row.locations :=
    mapM_storedLocation h.locations
  have hselected : (projectHost row).selectedAccessLists =
      row.accessListIds.map fun id : ℕ => (id : ℤ) := by
    rw [HostPayload.selectedAccessLists, projectHost_accessListIds, Member.get_of]
  have hback : (row.accessListIds.map fun id : ℕ => (id : ℤ)).map Int.toNat =
      row.accessListIds := by
    simp [Function.comp_def]
  refine replaceHostChildren_eq_ok_iff.mpr ⟨row.sources, row.upstream, row.locations, ?_, ?_⟩
  · exact
      { sources_eq := hsources
        free := by
          rintro ⟨d, hd, hmem⟩
          exact htaken d hd hmem
        upstream_eq := hupstream
        locations_eq := hlocations
        paths := h.paths
        unique := by
          rw [hselected]
          exact h.nodup.map fun _ _ heq => Int.ofNat_inj.mp heq
        known := by
          rw [hselected]
          rintro ⟨id, hid, hnone⟩
          obtain ⟨i, hi, rfl⟩ := List.mem_map.mp hid
          exact hnone i (h.linked i hi).2 rfl }
  · rw [hselected, hback]

/-- A stored host can be written again from its projection, and keeps everything but the scheme. -/
theorem writeHost_projectHost (h : StoredHost certificates accessLists row)
    {owner : Option ℕ → Option ℕ} {excludeId : Option ℕ} {id : ℕ} {rows : Dict ℕ HostRow}
    (hfree : claimedDomain rows row.sources excludeId = none)
    (htaken : ∀ d ∈ row.sources, d ∉ takenDomains rows id) :
    writeHost certificates accessLists row.kind owner excludeId id (projectHost row) rows =
      .ok { row.rescheme with ownerPrincipalId := owner row.ownerPrincipalId } := by
  have hsources : (projectHost row).domainNames.get.getD [] = row.sources := rfl
  have hcollisions : assertSourceCollisions rows row.sources excludeId = .ok () := by
    rw [assertSourceCollisions, h.sources, ok_bind, hfree]
    rfl
  simp only [writeHost, validatePayload_projectHost h, ok_bind, hsources, hcollisions,
    hostColumns_projectHost h]
  exact replaceHostChildren_projectHost h htaken _

end Rewrite

end Portwyrm.Tables

import Portwyrm.Tables.AccessLists
import Portwyrm.Tables.Compilable

/-!
# Rows that are written

What the operations on hosts, streams and access lists make sure of when they write a row: the
checks of the payload and the constraints of the tables give what the runtime schemas ask for.
-/

namespace Portwyrm.Tables

open Base Portwyrm.Runtime Portwyrm.Quic Portwyrm.Identity

/-! ## Locations -/

lemma parseForwardScheme_value {s : String} {scheme : ForwardScheme}
    (h : parseForwardScheme s = .ok scheme) : parseForwardScheme scheme.value = .ok scheme := by
  unfold parseForwardScheme at h
  split at h
  · rename_i scheme' hscheme
    obtain rfl := pure_eq_ok_iff.mp h
    have hmem : scheme' ∈ forwardSchemes := List.mem_of_find?_eq_some hscheme
    rcases List.mem_pair.mp hmem with rfl | rfl <;> rfl
  · exact absurd h throw_ne_ok

lemma parseTargetKind_value (kind : TargetKind) : parseTargetKind kind.value = .ok kind := by
  cases kind <;> rfl

/-- A validated location passes the schema again, unchanged. -/
lemma validateRuntimeLocation_of_validateLocation {path forwardScheme targetKind forwardHost
    forwardPath advancedConfig : String} {forwardPort : ℤ} {row : LocationRow}
    (h : validateLocation path forwardScheme targetKind forwardHost forwardPort forwardPath
      advancedConfig = .ok row) : validateRuntimeLocation row = .ok row := by
  simp only [validateLocation, bind_eq_ok_iff, raiseIf_eq_ok_iff, not_not, pure_eq_ok_iff] at h
  obtain ⟨protocol, hprotocol, kind, -, -, hpath, -, -, t, ht, port, hport, -, hforward, rfl⟩ := h
  simp only [validateRuntimeLocation, validateLocation, bind_eq_ok_iff, raiseIf_eq_ok_iff, not_not,
    pure_eq_ok_iff]
  exact ⟨protocol, parseForwardScheme_value hprotocol, kind, parseTargetKind_value kind, (), hpath,
    (), strip_target ht, t, target_idem ht _, port, port_of_nat _ (port_eq_ok hport), (), hforward,
    rfl⟩

/-! ## Domain names -/

lemma canonicalDomain_eq_ok_iff {raw domain : String} : canonicalDomain raw = .ok domain ↔
    IsDomain (Text.casefold (rstripDots (Text.strip raw))).toList ∧
      Text.casefold (rstripDots (Text.strip raw)) = domain := by
  unfold canonicalDomain
  dsimp only
  split
  · rename_i hdomain
    rw [pure_eq_ok_iff, and_iff_right hdomain]
  · rename_i hdomain
    exact iff_of_false throw_ne_ok fun h => hdomain h.1

lemma ne_nil_of_canonicalDomains {values domains : List String}
    (h : canonicalDomains values = .ok domains) : domains ≠ [] := by
  simp only [canonicalDomains, bind_eq_ok_iff, raiseIf_eq_ok_iff, not_not, pure_eq_ok_iff] at h
  obtain ⟨_, -, -, hcount, rfl⟩ := h
  rintro rfl
  exact absurd hcount.1 (by simp)

/-! ## Hosts -/

section Hosts

variable {certificates accessLists : List ℕ} {kind : HostKind} {payload payload' : HostPayload}

/-- What the check of a payload leaves of it. -/
structure Checked (kind : HostKind) (payload payload' : HostPayload) : Prop where
  domains : ∃ domains, payload'.domainNames = .of domains ∧
    canonicalDomains domains = .ok domains
  forwardHost : kind = .proxy → Text.strip (textOr payload'.forwardHost.get "") ≠ ""
  forwardDomain : kind = .redirect → ∃ domain, payload'.forwardDomainName = .of domain ∧
    canonicalDomain domain = .ok domain
  selected : payload'.selectedAccessLists = payload.selectedAccessLists

lemma checked_of_validatePayload (h : validatePayload kind payload = .ok payload') :
    Checked kind payload payload' := by
  obtain ⟨domains, hdomains, hkind, -⟩ := validatePayload_eq_ok_iff.mp h
  have hcanonical := canonicalDomains_idem hdomains
  cases kind with
  | proxy =>
    simp only [validateKind, bind_eq_ok_iff, pure_eq_ok_iff] at hkind
    obtain ⟨-, -, _, -, t, ht, -, -, rfl⟩ := hkind
    have hblank : Text.strip t ≠ "" := strip_target ht
    have hne : t ≠ "" := by
      rintro rfl
      exact hblank rfl
    exact
      { domains := ⟨domains, rfl, hcanonical⟩
        forwardHost := fun _ => by simpa [textOr, Option.filter, hne] using hblank
        forwardDomain := fun h => absurd h (by decide)
        selected := rfl }
  | redirect =>
    simp only [validateKind, bind_eq_ok_iff, raiseIf_eq_ok_iff, not_not, pure_eq_ok_iff] at hkind
    obtain ⟨-, -, -, hdomain, -, -, rfl⟩ := hkind
    exact
      { domains := ⟨domains, rfl, hcanonical⟩
        forwardHost := fun h => absurd h (by decide)
        forwardDomain := fun _ =>
          ⟨_, rfl, canonicalDomain_idem (canonicalDomain_eq_ok_iff.mpr ⟨hdomain, rfl⟩)⟩
        selected := rfl }
  | dead =>
    obtain rfl := pure_eq_ok_iff.mp hkind
    exact
      { domains := ⟨domains, rfl, hcanonical⟩
        forwardHost := fun h => absurd h (by decide)
        forwardDomain := fun h => absurd h (by decide)
        selected := rfl }

/-- A stored code, or 301 in its place, is the code of a redirection. -/
lemma mem_redirectCodes_of_column {given : Option ℤ} {code : Option ℕ}
    (h : redirectCodeColumn given = .ok code) :
    (((code.filter (· ≠ 0)).getD 301 : ℕ) : ℤ) ∈ redirectCodes := by
  cases given with
  | none =>
    obtain rfl : none = code := pure_eq_ok_iff.mp h
    decide
  | some given =>
    rw [redirectCodeColumn] at h
    split at h
    · rename_i hmem
      obtain rfl := pure_eq_ok_iff.mp h
      simp only [redirectCodes, List.mem_cons, List.not_mem_nil, or_false] at hmem
      rcases hmem with rfl | rfl | rfl | rfl <;> decide
    · exact absurd h throw_ne_ok

/-- The columns of a host. -/
lemma hostColumns_eq_ok {row : HostRow} (h : hostColumns certificates kind payload = .ok row) :
    row.redirectTarget = payload.forwardDomainName.get ∧ (row.httpCode : ℤ) ∈ redirectCodes := by
  simp only [hostColumns, bind_eq_ok_iff, pure_eq_ok_iff] at h
  obtain ⟨-, -, -, -, code, hcode, rfl⟩ := h
  exact ⟨rfl, mem_redirectCodes_of_column hcode⟩

/-- The upstream of a host whose target is given. -/
lemma storedUpstream_eq_ok {upstream : Option UpstreamRow}
    (h : storedUpstream payload = .ok upstream) (hgiven : textOr payload.forwardHost.get "" ≠ "") :
    ∃ row, upstream = some row ∧ row.target = textOr payload.forwardHost.get "" ∧
      1 ≤ row.port ∧ row.port ≤ 65535 := by
  unfold storedUpstream at h
  dsimp only at h
  rw [if_neg hgiven] at h
  simp only [bind_eq_ok_iff, pure_eq_ok_iff] at h
  obtain ⟨protocol, -, kind, -, port, hport, rfl⟩ := h
  exact ⟨_, rfl, rfl, port_eq_ok hport⟩

/-- What the children of a host are. -/
structure Linked (accessLists : List ℕ) (payload : HostPayload) (row : HostRow) : Prop where
  sources : storedSources payload = .ok row.sources
  upstream : storedUpstream payload = .ok row.upstream
  locations : ∀ l ∈ row.locations, validateRuntimeLocation l = .ok l
  paths : (row.locations.map LocationRow.path).Nodup
  accessListIds : row.accessListIds = payload.selectedAccessLists.map Int.toNat
  nodup : row.accessListIds.Nodup
  stored : ∀ i ∈ row.accessListIds, i ∈ accessLists

lemma linked_of_replaceHostChildren {taken : List String} {row row' : HostRow}
    (h : replaceHostChildren accessLists taken payload row = .ok row') :
    Linked accessLists payload row' ∧ row'.redirectTarget = row.redirectTarget ∧
      row'.httpCode = row.httpCode := by
  obtain ⟨sources, upstream, locations, hheld, rfl⟩ := replaceHostChildren_eq_ok_iff.mp h
  have hstored : ∀ id ∈ payload.selectedAccessLists, ∃ i ∈ accessLists, (i : ℤ) = id := by
    intro id hid
    by_contra hnone
    exact hheld.known ⟨id, hid, fun i hi heq => hnone ⟨i, hi, heq⟩⟩
  refine ⟨?_, rfl, rfl⟩
  exact
    { sources := hheld.sources_eq
      upstream := hheld.upstream_eq
      locations := by
        intro l hl
        obtain ⟨_, -, hlocation⟩ :=
          Numeral.exists_of_mem_right (mapM_eq_ok_iff.mp hheld.locations_eq) hl
        exact validateRuntimeLocation_of_validateLocation hlocation
      paths := hheld.paths
      accessListIds := rfl
      nodup := by
        refine List.Nodup.map_on ?_ hheld.unique
        intro a ha b hb heq
        obtain ⟨i, -, rfl⟩ := hstored a ha
        obtain ⟨j, -, rfl⟩ := hstored b hb
        exact congrArg Int.ofNat heq
      stored := by
        intro i hi
        obtain ⟨id, hid, rfl⟩ := List.mem_map.mp hi
        obtain ⟨j, hj, rfl⟩ := hstored id hid
        exact hj }

/-- A host that is written passes its runtime schema. -/
theorem validHost_of_writeHost {owner : Option ℕ → Option ℕ} {excludeId : Option ℕ} {id : ℕ}
    {rows : Dict ℕ HostRow} {row : HostRow} (hid : 0 < id) (hpositive : ∀ i ∈ accessLists, 0 < i)
    (h : writeHost certificates accessLists kind owner excludeId id payload rows = .ok row) :
    ValidHost id row ∧ row.kind = kind ∧
      row.accessListIds = payload.selectedAccessLists.map Int.toNat ∧
      ∀ i ∈ row.accessListIds, i ∈ accessLists := by
  obtain ⟨payload', columns, hpayload, -, hcolumns, hchildren⟩ := writeHost_eq_ok_iff.mp h
  have hchecked := checked_of_validatePayload hpayload
  obtain ⟨hlinked, htarget, hcode⟩ := linked_of_replaceHostChildren hchildren
  obtain ⟨htarget', hcode'⟩ := hostColumns_eq_ok hcolumns
  have hkind₀ : row.kind = kind := kind_writeHost h
  have htarget₀ : row.redirectTarget = payload'.forwardDomainName.get := htarget.trans htarget'
  have hcode₀ : (row.httpCode : ℤ) ∈ redirectCodes := hcode ▸ hcode'
  refine ⟨?_, hkind₀, hchecked.selected ▸ hlinked.accessListIds, hlinked.stored⟩
  exact
    { positive := hid
      sources := by
        obtain ⟨domains, hdomains, hcanonical⟩ := hchecked.domains
        have hsources := hlinked.sources
        rw [storedSources, hdomains] at hsources
        have hne : (Member.of domains).get.getD [] ≠ [] := ne_nil_of_canonicalDomains hcanonical
        rw [if_neg hne] at hsources
        obtain rfl : domains = row.sources := Except.ok.inj (hcanonical.symm.trans hsources)
        exact hcanonical
      locations := hlinked.locations
      paths := hlinked.paths
      accessListsPositive := fun hzero => absurd (hpositive 0 (hlinked.stored 0 hzero)) (by simp)
      accessListsNodup := hlinked.nodup
      kind := by
        unfold validateRuntimeKind
        rw [hkind₀]
        cases kind with
        | proxy =>
          have hblank := hchecked.forwardHost rfl
          obtain ⟨upstream, hupstream, hhost, hport⟩ := storedUpstream_eq_ok hlinked.upstream
            fun hempty => hblank (by rw [hempty]; rfl)
          simp only [bind_eq_ok_iff, raiseIf_eq_ok_iff, pure_eq_ok_iff]
          refine ⟨(), fun hall => ?_, upstream.port, ?_, trivial⟩
          · exact hblank (hhost ▸ hall upstream hupstream)
          · rw [hupstream]
            exact port_of_nat _ hport
        | redirect =>
          obtain ⟨domain, hdomain, hcanonical⟩ := hchecked.forwardDomain rfl
          rw [hdomain] at htarget₀
          obtain ⟨hname, hfold⟩ := canonicalDomain_eq_ok_iff.mp hcanonical
          simp only [bind_eq_ok_iff, raiseIf_eq_ok_iff, not_not, pure_eq_ok_iff, htarget₀]
          exact ⟨(), hname, (), hcode₀, congrArg some hfold⟩
        | dead => rfl }

end Hosts

/-! ## Streams -/

/-- A stream that is written passes its runtime schema, if its target does. -/
lemma validStream_of_checkStream {certificates : List ℕ} {rows : Dict ℕ StreamRow} {id : ℕ}
    {values : StreamValues} {row : StreamRow}
    (h : checkStream certificates rows id values = .ok row) :
    ValidStream row ∧ row.target = values.target ∧
      TargetKind.ofValue? values.targetKind = some row.targetKind := by
  obtain ⟨certificateId, kind, -, hkind, hincoming, hport, htls, rfl⟩ := checkStream_eq_ok h
  refine ⟨⟨by dsimp only; omega, by dsimp only; omega, ?_⟩, rfl, hkind⟩
  rintro ⟨hcertificate, hudp⟩
  refine htls ⟨?_, hudp⟩
  rintro rfl
  exact hcertificate rfl

/-- The name of a field only stands in the error. -/
lemma target_name {value : String} {kind : TargetKind} {name t : String}
    (h : target value kind name = .ok t) (name' : String) : target value kind name' = .ok t := by
  unfold target at h ⊢
  dsimp only at h ⊢
  split at h
  · exact absurd h throw_ne_ok
  · rename_i hgiven
    rw [if_neg hgiven]
    cases kind with
    | ip =>
      dsimp only at h ⊢
      split at h
      · exact h
      · exact absurd h throw_ne_ok
    | dns =>
      dsimp only at h ⊢
      split at h
      · rename_i hhost
        rw [if_pos hhost]
        exact h
      · exact absurd h throw_ne_ok
    | docker =>
      dsimp only at h ⊢
      split at h
      · rename_i hname
        rw [if_pos hname]
        exact h
      · exact absurd h throw_ne_ok

/-- The validator of streams checks the target. -/
lemma reachable_of_validateStream {rows : Dict ℕ StreamRow} {excludeId : Option ℕ}
    {values : StreamValues} {row : StreamRow} {u : Unit}
    (h : validateStream rows excludeId values = .ok u) (htarget : row.target = values.target)
    (hkind : TargetKind.ofValue? values.targetKind = some row.targetKind) : row.Reachable := by
  simp only [validateStream, bind_eq_ok_iff] at h
  obtain ⟨_, -, _, -, kind, hparse, t, ht, -⟩ := h
  rw [parseTargetKind, hkind] at hparse
  obtain rfl := pure_eq_ok_iff.mp hparse
  exact ⟨t, htarget ▸ target_name ht _⟩

/-! ## Access lists -/

/-- A write keeps the access lists sound. -/
lemma soundAccess_of_wrote {bcryptHash : ℕ → String → String} {id : ℕ}
    {payload : AccessListPayload} {t t' : AccessTables} (ht : SoundAccess t) (hid : 0 < id)
    (h : Wrote bcryptHash id payload t t') : SoundAccess t' where
  next := ht.next.trans_le h.next
  positive other row hrow := by
    by_cases heq : other = id
    · exact heq ▸ hid
    · exact ht.positive other row (h.others other heq ▸ hrow)
  rules other := by
    by_cases heq : other = id
    · exact heq ▸ h.rules
    · rw [h.otherRules other heq]
      exact ht.rules other
  credentials other := by
    by_cases heq : other = id
    · exact heq ▸ h.valid
    · rw [h.otherCredentials other heq]
      exact ht.credentials other

end Portwyrm.Tables

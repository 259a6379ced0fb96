import Portwyrm.Tables.AccessFrames
import Portwyrm.Tables.HostWriteRead
import Portwyrm.Tables.ShownDocuments
import Portwyrm.Tables.StreamPorts

/-!
# Rows that are created from what is shown

What creating a resource makes of the document that another row is shown as.  A host or a
certificate without an owner is given the caller, a stream is validated, and an access list needs
the passwords of its credentials, which are not shown.
-/

namespace Portwyrm.Tables

open Base Portwyrm.Runtime Portwyrm.Quic Portwyrm.Identity

variable {actor : Actor} {certificates accessLists : List ℕ} {id : ℕ}

lemma enforceAuthorization_of_isAdmin (hactor : ∀ p ∈ actor, p.isAdmin = true) (section_ : String)
    (action : PermissionAction) : enforceAuthorization actor section_ action = .ok () := by
  cases actor with
  | none => rfl
  | some p => simp [enforceAuthorization, raiseIf, hactor p rfl]

/-! ## Hosts -/

section Hosts

variable {kind : HostKind} {payload payload' : HostPayload} {given : List LocationPayload}
  {row : HostRow} {rows : Dict ℕ HostRow}

lemma validateKind_locations (given : Member (List LocationPayload))
    (h : validateKind kind payload = .ok payload') :
    validateKind kind { payload with locations := given } =
      .ok { payload' with locations := given } := by
  cases kind with
  | proxy =>
    simp only [validateKind, bind_eq_ok_iff, pure_eq_ok_iff] at h ⊢
    obtain ⟨scheme, hscheme, targetKind, hkind, t, ht, n, hn, rfl⟩ := h
    exact ⟨scheme, hscheme, targetKind, hkind, t, ht, n, hn, rfl⟩
  | redirect =>
    simp only [validateKind, bind_eq_ok_iff, raiseIf_eq_ok_iff, pure_eq_ok_iff] at h ⊢
    obtain ⟨scheme, hscheme, u, hdomain, u', hcode, rfl⟩ := h
    exact ⟨scheme, hscheme, u, hdomain, u', hcode, rfl⟩
  | dead =>
    obtain rfl := pure_eq_ok_iff.mp h
    rfl

lemma locations_of_validateKind (h : validateKind kind payload = .ok payload') :
    payload'.locations = payload.locations := by
  rw [(kindChecked_of_validateKind h).rest]

/-- Of the locations, the validator looks at the paths only. -/
lemma validatePayload_locations
    (hpaths : (given.map fun l => textOr l.path "/") =
      (payload.locations.get.getD []).map fun l => textOr l.path "/")
    (h : validatePayload kind payload = .ok payload') :
    validatePayload kind { payload with locations := .of given } =
      .ok { payload' with locations := .of given } := by
  obtain ⟨domains, hdomains, hkind, hconsistent⟩ := validatePayload_eq_ok_iff.mp h
  have hkept := hconsistent.paths
  rw [locations_of_validateKind hkind] at hkept
  refine validatePayload_eq_ok_iff.mpr
    ⟨domains, hdomains, validateKind_locations (.of given) hkind, ?_⟩
  exact { hconsistent with paths := hpaths ▸ hkept }

lemma storedLocation_shownLocation (l : LocationRow) :
    storedLocation (shownLocation l) = storedLocation (projectLocation l) := by
  simp only [storedLocation, shownLocation, textOr_givenIfAny]
  rfl

/-- The host that is created from what a row shows. -/
def restoredHost (actor : Actor) (row : HostRow) : HostRow :=
  { row.rescheme with ownerPrincipalId := createOwner actor row.ownerPrincipalId }

lemma validatePayload_shownHost (h : StoredHost certificates accessLists row) :
    validatePayload row.kind (shownHost row) = .ok (shownHost row) := by
  refine validatePayload_locations ?_ (validatePayload_projectHost h)
  change _ = (row.locations.map projectLocation).map fun l => textOr l.path "/"
  rw [List.map_map, List.map_map]
  exact List.map_congr_left fun l _ => textOr_givenIfAny l.path "/"

/-- The host that a shown row is written as. -/
lemma writeHost_shownHost (h : StoredHost certificates accessLists row)
    {owner : Option ℕ → Option ℕ} {excludeId : Option ℕ}
    (hfree : claimedDomain rows row.sources excludeId = none)
    (htaken : ∀ d ∈ row.sources, d ∉ takenDomains rows id) :
    writeHost certificates accessLists row.kind owner excludeId id (shownHost row) rows =
      .ok { row.rescheme with ownerPrincipalId := owner row.ownerPrincipalId } := by
  rw [← writeHost_projectHost h hfree htaken]
  have hlocations : (shownHost row).locationList.mapM storedLocation =
      (projectHost row).locationList.mapM storedLocation := by
    change (row.locations.map shownLocation).mapM storedLocation =
      (row.locations.map projectLocation).mapM storedLocation
    rw [List.mapM_map, List.mapM_map]
    exact congrArg (fun f => row.locations.mapM f) (funext storedLocation_shownLocation)
  simp only [writeHost, validatePayload_shownHost h, validatePayload_projectHost h, ok_bind,
    replaceHostChildren, hlocations]
  rfl

/-- Creating a host from what a row shows. -/
theorem createHost_shownHost (hactor : ∀ p ∈ actor, p.isAdmin = true)
    (h : StoredHost certificates accessLists row) (hnew : id ∉ rows)
    (hfree : ∀ d ∈ row.sources, d ∉ takenDomains rows id) :
    createHost certificates accessLists actor row.kind id (shownHost row) rows =
      .ok (rows.set id (restoredHost actor row)) := by
  have hclaimed : claimedDomain rows row.sources none = none := by
    rw [claimedDomain_eq_none_iff]
    intro i other hother _ d hd hmem
    have hne : i ≠ id := by
      rintro rfl
      exact hnew (Dict.mem_iff.mpr ⟨other, hother⟩)
    exact hfree d hmem (mem_takenDomains_iff.mpr ⟨i, other, hne, hother, hd⟩)
  simp only [createHost, enforceAuthorization_of_isAdmin hactor, raiseIf, if_neg hnew, ok_bind,
    writeHost_shownHost h hclaimed hfree]
  rfl

/-- A restored host is shown as before, if it has an owner or nobody calls. -/
lemma hostDocument_restoredHost
    (h : createOwner actor row.ownerPrincipalId = row.ownerPrincipalId) :
    hostDocument id (restoredHost actor row) = hostDocument id row := by
  cases hupstream : row.upstream with
  | some u => simp only [hostDocument, restoredHost, HostRow.rescheme, h, hupstream]
  | none =>
    have hscheme : ((some row.shownScheme).map ForwardScheme.value).getD "http" =
        (row.redirectScheme.map ForwardScheme.value).getD "http" := by
      rw [HostRow.shownScheme, hupstream]
      cases row.redirectScheme <;> rfl
    simp only [hostDocument, restoredHost, HostRow.rescheme, h, hupstream, hscheme]

end Hosts

/-! ## Certificates -/

/-- What the operations on certificates leave of a row. -/
structure StoredCertificate (row : CertificateRow) : Prop extends RestoredCertificate row where
  nodup : row.domains.Nodup
  challengeType : (row.challengeType.filter (· ≠ "")).or
    (metaText row.extensions "challenge_type") = row.challengeType
  clean : Clean certificateKnown row.extensions

section Certificates

variable {payload : CertificatePayload} {row : CertificateRow} {rows : Dict ℕ CertificateRow}

lemma storedCertificate_of_certificateRow {owner : Option ℕ}
    (hclean : Clean certificateKnown payload.extensions)
    (h : certificateRow owner payload = .ok row) : StoredCertificate row := by
  have hrestored := restored_of_certificateRow h
  have hnodup : ((payload.domainNames.get.getD []).map Text.casefold).Nodup := by
    simp only [certificateRow, bind_eq_ok_iff, raiseIf_eq_ok_iff, not_not] at h
    exact h.choose_spec.1
  obtain rfl := certificateRow_spec h
  refine { hrestored with nodup := hnodup, challengeType := ?_, clean := hclean }
  dsimp only
  generalize metaText payload.extensions "challenge_type" = fallback
  cases hgiven : payload.challengeType.get.filter (· ≠ "") with
  | some s =>
    have hs : s ≠ "" := by simpa using (Option.filter_eq_some_iff.mp hgiven).2
    simp [Option.filter, hs]
  | none =>
    rw [Option.none_or]
    cases fallback with
    | none => rfl
    | some s => by_cases hs : s = "" <;> simp [Option.filter, hs]

/-- The certificate that is created from what a row shows. -/
def restoredCertificate (actor : Actor) (row : CertificateRow) : CertificateRow :=
  { row with ownerPrincipalId := createOwner actor row.ownerPrincipalId }

/-- Creating a certificate from what a row shows. -/
theorem createCertificate_projectCertificate (hactor : ∀ p ∈ actor, p.isAdmin = true)
    (h : StoredCertificate row) (hnew : id ∉ rows) :
    createCertificate actor id (projectCertificate row) rows =
      .ok (rows.set id (restoredCertificate actor row)) := by
  have hrow : certificateRow (createOwner actor (projectCertificate row).owner)
      (projectCertificate row) = .ok (restoredCertificate actor row) := by
    have howner : (projectCertificate row).owner = row.ownerPrincipalId := rfl
    have hdomains : ((projectCertificate row).domainNames.get.getD []).map Text.casefold =
        row.domains := h.domains
    have hname := textOr_of_ne h.niceName "Certificate"
    have hprovider := textOr_of_ne h.provider "custom"
    have hkey := textOr_of_ne h.keyType "rsa"
    have hstatus := textOr_of_ne h.status "pending"
    simp only [certificateRow, howner, hdomains, bind_eq_ok_iff, raiseIf_eq_ok_iff, not_not,
      pure_eq_ok_iff]
    refine ⟨(), h.nodup, ?_⟩
    change ({ ownerPrincipalId := createOwner actor row.ownerPrincipalId
              niceName := textOr (some row.niceName) "Certificate"
              provider := textOr (some row.provider) "custom"
              challengeType := (row.challengeType.filter (· ≠ "")).or
                (metaText row.extensions "challenge_type")
              keyType := textOr (some row.keyType) "rsa"
              materialRef := row.materialRef
              expiresAt := row.expiresAt
              status := textOr (some row.status) "pending"
              extensions := row.extensions
              domains := row.domains } : CertificateRow) = _
    rw [hname, hprovider, hkey, hstatus, h.challengeType]
    rfl
  simp only [createCertificate, enforceAuthorization_of_isAdmin hactor, raiseIf, if_neg hnew,
    ok_bind, hrow]
  rfl

end Certificates

/-! ## Streams -/

/-- What the constraints of the table leave of a stream. -/
structure StoredStream (certificates : List ℕ) (row : StreamRow) : Prop
    extends ValidStream row where
  certificate : certificateKey certificates (row.compat.certificateId.get.filter (· ≠ 0)) =
    .ok row.certificateId
  encrypted : ¬ (row.certificateId ≠ none ∧ row.protocol = .udp)
  clean : Clean (streamKnown ++ droppedKeys) row.compat.extensions

section Streams

variable {payload : StreamPayload} {row : StreamRow} {rows rows' : Dict ℕ StreamRow}

lemma storedStream_of_checkStream {values : StreamValues}
    (hcertificate : values.certificateId = values.compat.certificateId.get.filter (· ≠ 0))
    (hclean : Clean (streamKnown ++ droppedKeys) values.compat.extensions)
    (h : checkStream certificates rows id values = .ok row) : StoredStream certificates row := by
  have hvalid := (validStream_of_checkStream h).1
  obtain ⟨certificateId, kind, hkey, -, -, -, hencrypted, rfl⟩ := checkStream_eq_ok h
  rw [hcertificate] at hkey
  exact { hvalid with certificate := hkey, encrypted := hencrypted, clean := hclean }

/-- The values of a stream that is shown. -/
lemma streamValues_projectStream (row : StreamRow) : streamValues (projectStream row) =
    { ownerPrincipalId := row.compat.ownerPrincipalId.get
      protocol := row.protocol
      incomingPort := row.incomingPort
      targetKind := row.targetKind.value
      target := row.target
      targetPort := row.targetPort
      certificateId := row.compat.certificateId.get.filter (· ≠ 0)
      enabled := row.enabled
      compat := projectStream row } := by
  have hincoming : intOr (projectStream row).incomingPort.get 0 = row.incomingPort :=
    intOr_of_member rfl
  have hport : intOr (projectStream row).forwardingPort.get 0 = row.targetPort :=
    intOr_of_member rfl
  have htarget : textOr (projectStream row).forwardingHost.get "" = row.target :=
    textOr_empty row.target
  have hkind : textOr (projectStream row).targetKind.get "dns" = row.targetKind.value := by
    change textOr (some row.targetKind.value) "dns" = _
    exact textOr_of_ne (by cases row.targetKind <;> decide) "dns"
  have hprotocol : (streamValues (projectStream row)).protocol = row.protocol := by
    obtain ⟨_, protocol, _, _, _, _, _, _, _⟩ := row
    cases protocol <;> rfl
  simp only [streamValues] at hprotocol ⊢
  rw [hincoming, hport, htarget, hkind, hprotocol]
  rfl

/-- The stream that is created from what a row shows. -/
def restoredStream (actor : Actor) (row : StreamRow) : StreamRow :=
  { row with
    ownerPrincipalId := createOwner actor row.compat.ownerPrincipalId.get
    compat := projectStream row }

/-- A stream can be created from what a row shows, if its target is valid and no stream claims its
port. -/
theorem createStream_projectStream (hactor : ∀ p ∈ actor, p.isAdmin = true)
    (h : StoredStream certificates row) (hnew : id ∉ rows) (hreach : row.Reachable)
    (hfree : Unclaimed StreamRow.claims rows id row) :
    createStream certificates actor id (projectStream row) rows =
      .ok (rows.set id (restoredStream actor row)) := by
  obtain ⟨t, ht⟩ := hreach
  have hconflict : ¬ ∃ entry ∈ rows.entries, (none : Option ℕ) ≠ some entry.1 ∧
      entry.2.incomingPort = row.incomingPort ∧ entry.2.protocol ∈ conflicts row.protocol := by
    rintro ⟨⟨other, row'⟩, hentry, -, hport, hmem⟩
    have hget := Dict.mem_entries_iff.mp hentry
    have hne : other ≠ id := by
      rintro rfl
      exact hnew (Dict.mem_iff.mpr ⟨row', hget⟩)
    exact disjoint_portClaims.mp (hfree hget hne) hport.symm hmem
  have hsame : ¬ ∃ entry ∈ rows.entries, entry.1 ≠ id ∧
      ((entry.2.incomingPort : ℕ) : ℤ) = row.incomingPort ∧ entry.2.protocol = row.protocol := by
    rintro ⟨entry, hentry, -, hport, hprotocol⟩
    refine hconflict ⟨entry, hentry, nofun, by exact_mod_cast hport, ?_⟩
    rw [hprotocol]
    cases row.protocol <;> decide
  have hincoming := h.incomingPort
  have hport := h.targetPort
  simp only [createStream, streamValues_projectStream, validateStream, bind_eq_ok_iff,
    raiseIf_eq_ok_iff, pure_eq_ok_iff, enforceAuthorization_of_isAdmin hactor]
  refine ⟨(), ⟨_, port_of_nat _ hincoming, _, port_of_nat _ hport, row.targetKind,
    parseTargetKind_value _, t, target_name ht _, hconflict⟩, (), trivial, (), hnew,
    restoredStream actor row, ?_, rfl⟩
  simp only [checkStream, h.certificate, ok_bind, targetKind_ofValue?, bind_eq_ok_iff,
    raiseIf_eq_ok_iff, not_not, pure_eq_ok_iff]
  refine ⟨(), ⟨by omega, by omega⟩, (), ⟨by omega, by omega⟩, (), h.encrypted, (), hsame, ?_⟩
  rfl

/-- What a stream that is created from what a row shows has met. -/
theorem created_projectStream
    (h : createStream certificates actor id (projectStream row) rows = .ok rows') :
    row.Reachable ∧ Unclaimed StreamRow.claims rows id row := by
  simp only [createStream, streamValues_projectStream, bind_eq_ok_iff] at h
  obtain ⟨u, hvalid, -⟩ := h
  refine ⟨reachable_of_validateStream hvalid rfl (targetKind_ofValue? _), ?_⟩
  exact unclaimed_of_validateStream hvalid (by rw [Int.toNat_natCast]; rfl) (by simp)

end Streams

/-! ## Access lists -/

/-- The row of a shown access list. -/
def itemRow (item : AccessListItem) : AccessListRow where
  name := item.name
  satisfyAny := item.satisfyAny
  passAuth := item.passAuth
  extensions := item.extensions

/-- An access list as it is created from what another one shows: it has its rules and no
credentials. -/
structure CreatedList (id : ℕ) (item : AccessListItem) (t t' : AccessTables) : Prop where
  rows : t'.lists.rows = t.lists.rows.set id (itemRow item)
  rules : (t'.rulesOf id).map (fun r => (r.address, r.directive)) = item.clients
  credentials : t'.credentialsOf id = []
  otherRules : ∀ other ≠ id, t'.rulesOf other = t.rulesOf other
  otherCredentials : ∀ other ≠ id, t'.credentialsOf other = t.credentialsOf other

section AccessLists

variable {bcryptHash : ℕ → String → String} {item : AccessListItem} {t t' : AccessTables}

/-- Rules whose addresses are normal are stored. -/
lemma foldlM_addRule_ok {clients : List ((String × AccessDirective) × ℕ)}
    (h : ∀ rule ∈ clients, normalizeAddress rule.1.1 = .ok rule.1.1) (rules : Table AccessRuleRow) :
    ∃ rules', clients.foldlM (addRule id) rules = .ok rules' := by
  induction clients generalizing rules with
  | nil => exact ⟨rules, rfl⟩
  | cons rule rest ih =>
    rw [List.forall_mem_cons] at h
    have hvalid := AccessClient.validate_self ⟨rule.1.1, rule.1.2, h.1⟩
    have hadd : ∃ rules', addRule id rules rule = .ok rules' := by
      simp only [addRule, bind_eq_ok_iff, pure_eq_ok_iff]
      exact ⟨_, _, hvalid, rfl⟩
    obtain ⟨rules', hadd⟩ := hadd
    obtain ⟨rules'', hrest⟩ := ih h.2 rules'
    refine ⟨rules'', ?_⟩
    rw [List.foldlM_cons, hadd]
    exact hrest

lemma aggregate_shownAccessList (item : AccessListItem) : (shownAccessList item).aggregate =
    { clients := item.clients
      credentials :=
        item.usernames.map fun username => (textOr (givenIfAny username) "", "") } := by
  simp only [AccessListPayload.aggregate, shownAccessList]
  refine congrArg (AccessPayload.mk _) ?_
  change ((item.usernames.map fun username => ({ username := givenIfAny username } :
    CredentialPayload)).map _) = _
  rw [List.map_map]
  rfl

lemma accessListRow_shownAccessList (item : AccessListItem) :
    accessListRow (shownAccessList item) = itemRow item := by
  simp only [accessListRow, shownAccessList, itemRow, Member.get_of, Member.truthy_of, textOr_empty]

/-- A name without a password is stored without a hash, where no hash is stored under it. -/
lemma credentialHash_empty (bcryptHash : ℕ → String → String)
    (hcredentials : t.credentialsOf id = []) (username : String × ℕ) :
    credentialHash bcryptHash (existingCredentials id t) ((username.1, ""), username.2) = "" := by
  rw [existingCredentials, hcredentials]
  rfl

/-- What is written from a shown access list: a credential would be stored without a hash, which the
schema refuses. -/
lemma created_shownAccessList (hclients : ∀ c ∈ item.clients, normalizeAddress c.1 = .ok c.1)
    (hcredentials : t.credentialsOf id = [])
    (h : insertAccessList bcryptHash actor id (shownAccessList item) t = .ok t') :
    item.usernames = [] ∧ CreatedList id item t t' := by
  simp only [insertAccessList, bind_eq_ok_iff] at h
  obtain ⟨-, -, -, -, h⟩ := h
  rw [accessListRow_shownAccessList, aggregate_shownAccessList] at h
  have hreplaced := replaced_of_replaceChildren h
  have hpairs := hreplaced.pairs
  have hnone : item.usernames = [] := by
    cases hnames : item.usernames with
    | nil => rfl
    | cons username rest =>
      obtain ⟨r, hr, hpair⟩ : ∃ r ∈ t'.credentialsOf id, r.passwordHash = "" := by
        rw [AccessTables.pairsOf, storedPairs, hnames] at hpairs
        have hempty := credentialHash_empty bcryptHash hcredentials
          (textOr (givenIfAny username) "", 0)
        cases hrows : t'.credentialsOf id with
        | nil =>
          rw [hrows] at hpairs
          exact absurd hpairs (by simp)
        | cons r more =>
          rw [hrows] at hpairs
          have hhead := congrArg Prod.snd (List.cons.inj hpairs).1
          exact ⟨r, List.mem_cons_self, hhead.trans hempty⟩
      obtain ⟨c, hc⟩ := hreplaced.valid r hr
      rw [hpair, AccessCredential.validate] at hc
      split at hc
      · exact absurd hc throw_ne_ok
      · exact absurd hc throw_ne_ok
  refine ⟨hnone, ?_⟩
  exact
    { rows := by rw [hreplaced.lists]; rfl
      rules := clients_kept hclients hreplaced.rules
      credentials := by
        rw [storedPairs, hnone] at hpairs
        exact List.map_eq_nil_iff.mp hpairs
      otherRules := hreplaced.otherRules
      otherCredentials := hreplaced.otherCredentials }

/-- An access list without credentials is created from what it shows. -/
theorem insertAccessList_shownAccessList (hactor : ∀ p ∈ actor, p.isAdmin = true)
    (hclients : ∀ c ∈ item.clients, normalizeAddress c.1 = .ok c.1) (hnames : item.usernames = [])
    (hnew : id ∉ t.lists.rows) :
    ∃ t', insertAccessList bcryptHash actor id (shownAccessList item) t = .ok t' := by
  simp only [insertAccessList, enforceAuthorization_of_isAdmin hactor, bind_eq_ok_iff,
    raiseIf_eq_ok_iff, aggregate_shownAccessList, hnames, replaceChildren, pure_eq_ok_iff]
  have hrules : ∀ rule ∈ item.clients.zipIdx, normalizeAddress rule.1.1 = .ok rule.1.1 :=
    fun rule hrule => hclients rule.1 (List.fst_mem_of_mem_zipIdx hrule)
  obtain ⟨rules', hrules'⟩ := foldlM_addRule_ok hrules
    (t.rules.deleteWhere fun r => r.accessListId = id)
  exact ⟨_, (), trivial, (), hnew, rules', hrules', _, rfl, rfl⟩

end AccessLists

end Portwyrm.Tables

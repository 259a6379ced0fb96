import Portwyrm.Tables.RestoredRows

/-!
# Runs over all collections

The tables that the operations of `TableResources` make, one call after the other, and what holds of
their rows: every row passes the checks of its collection again, what a row names is there, and no
member without a column is named like one.
-/

namespace Portwyrm.Tables

open Base Portwyrm.Runtime Portwyrm.Quic Portwyrm.Identity

/-! ## The other operations -/

section Operations

variable (bcryptHash : ℕ → String → String) (unnamed : Bool → Bool) (actor : Actor) (now : String)

/-- `replace_resource`: nothing, when the resource is not there. -/
def replaceDocument (c : Collection) (id : ℕ) (d : Document) (t : AllTables) : Result AllTables :=
  match getDocument t c id with
  | none => pure t
  | some _ =>
    let candidate := d.set "id" (idJson id)
    match c with
    | .hosts kind => do
      let payload ← hostPayload candidate
      let hosts ← replaceHost t.certificates.keys t.access.lists.rows.keys actor kind id payload
        t.hosts
      pure (stampAgain now c id { t with hosts := hosts })
    | .streams => do
      let payload ← streamPayload candidate
      let streams ← replaceStream t.certificates.keys actor id payload t.streams
      pure (stampAgain now c id { t with streams := streams })
    | .certificates => do
      let payload ← certificatePayload candidate
      let certificates ← replaceCertificate actor id payload t.certificates
      pure (stampAgain now c id { t with certificates := certificates })
    | .accessLists => do
      let (payload, identityIds) ← accessListDocumentPayload candidate
      let access ← replaceAccessList bcryptHash actor id payload t.access
      let members ← replaceMembers id identityIds t.members
      pure (stampAgain now c id { t with access := access, members := members })
    | .settings => do
      let row := settingRow candidate
      requireAdministrator actor
      checkSetting t.settings id row
      pure (stampAgain now c id { t with settings := t.settings.set id row })
    | .users => do
      let users ← replaceUser unnamed actor id d t.users
      pure (stampAgain now c id { t with users := users.getD t.users })

/-- `set_enabled`. -/
def setDocumentEnabled (c : Collection) (id : ℕ) (enabled : Bool) (t : AllTables) :
    Result AllTables := do
  match ← setEnabled actor c id enabled t.toCollectionTables with
  | none => pure t
  | some tables => pure (stampAgain now c id { t with toCollectionTables := tables })

/-- `delete_resource`, for the collections of a bundle. -/
def deleteDocument (c : Collection) (id : ℕ) (t : AllTables) : Result AllTables :=
  match c with
  | .settings =>
    if id ∈ t.settings then do
      requireAdministrator actor
      pure { t with settings := t.settings.pop id }
    else pure t
  | c => do
    match ← deleteResource actor c id t.toCollectionTables with
    | none => pure t
    | some tables => pure { t with toCollectionTables := tables }

end Operations

/-- The tables that calls make of tables without resources.  Users change in any way, and the
database numbers rows from one. -/
inductive TablesReached : AllTables → Prop
  | fresh (users : UserTables) : TablesReached { users := users }
  | users {t : AllTables} (h : TablesReached t) (users : UserTables) :
      TablesReached { t with users := users }
  | create {bcryptHash : ℕ → String → String} {digest : String → String} {newId : List ℕ → ℕ}
      {actor : Actor} {now : String} {c : Collection} {d : Document} {t t' : AllTables}
      (h : TablesReached t) (hids : ∀ inUse, 0 < newId inUse)
      (hop : createDocument bcryptHash digest newId actor now c d t = .ok t') : TablesReached t'
  | update {bcryptHash : ℕ → String → String} {actor : Actor} {now : String} {c : Collection}
      {id : ℕ} {current d : Document} {t t' : AllTables} (h : TablesReached t)
      (hcurrent : getDocument t c id = some current)
      (hop : updateDocument bcryptHash actor now c id current d t = .ok t') : TablesReached t'
  | replace {bcryptHash : ℕ → String → String} {unnamed : Bool → Bool} {actor : Actor}
      {now : String} {c : Collection} {id : ℕ} {d : Document} {t t' : AllTables}
      (h : TablesReached t)
      (hop : replaceDocument bcryptHash unnamed actor now c id d t = .ok t') : TablesReached t'
  | setEnabled {actor : Actor} {now : String} {c : Collection} {id : ℕ} {enabled : Bool}
      {t t' : AllTables} (h : TablesReached t)
      (hop : setDocumentEnabled actor now c id enabled t = .ok t') : TablesReached t'
  | delete {actor : Actor} {c : Collection} {id : ℕ} {t t' : AllTables} (h : TablesReached t)
      (hop : deleteDocument actor c id t = .ok t') : TablesReached t'

/-! ## Members without a column -/

section Clean

variable {known : List String} {extensions : Document} {d : Document}

lemma Clean.update (h : Clean known extensions) (h' : Clean known d) :
    Clean known (extensions.update d) := by
  intro k hk
  rw [← Dict.get?_eq_none_iff, Dict.get?_update, Dict.get?_eq_none_iff.mpr (h k hk),
    Dict.get?_eq_none_iff.mpr (h' k hk)]
  rfl

lemma clean_hostPayload {payload : HostPayload} (h : hostPayload d = .ok payload) :
    Clean hostKnown payload.extensions := by
  rw [(hostPayload_spec h).extensions]
  exact clean_otherMembers hostKnown d

lemma clean_streamPayload {payload : StreamPayload} (h : streamPayload d = .ok payload) :
    Clean (streamKnown ++ droppedKeys) payload.extensions := by
  simp only [streamPayload, bind_eq_ok_iff, pure_eq_ok_iff] at h
  obtain ⟨-, -, -, -, -, -, -, -, -, -, -, -, -, -, -, -, -, -, rfl⟩ := h
  exact clean_otherMembers (streamKnown ++ droppedKeys) d

lemma clean_certificatePayload {payload : CertificatePayload}
    (h : certificatePayload d = .ok payload) : Clean certificateKnown payload.extensions := by
  simp only [certificatePayload, bind_eq_ok_iff, pure_eq_ok_iff] at h
  obtain ⟨-, -, -, -, -, -, -, -, -, -, -, -, -, -, -, -, -, -, -, -, rfl⟩ := h
  exact clean_otherMembers certificateKnown d

lemma clean_accessListDocumentPayload {payload : AccessListPayload} {ids : Member (List ℕ)}
    (h : accessListDocumentPayload d = .ok (payload, ids)) :
    Clean accessKnown payload.extensions := by
  simp only [accessListDocumentPayload, bind_eq_ok_iff, pure_eq_ok_iff, Prod.mk.injEq] at h
  obtain ⟨-, -, -, -, -, -, -, -, -, -, -, -, -, -, -, -, rfl, -⟩ := h
  exact clean_otherMembers accessKnown d

lemma clean_settingRow (d : Document) : Clean droppedKeys (settingRow d).compat :=
  clean_otherMembers droppedKeys d

end Clean

/-! ## Hosts -/

section Hosts

variable {certificates certificates' accessLists accessLists' : List ℕ} {actor : Actor}
  {kind : HostKind} {id : ℕ} {payload : HostPayload} {row : HostRow} {rows rows' : Dict ℕ HostRow}

/-- Only the certificate and the access lists of a host are looked up. -/
lemma StoredHost.mono (h : StoredHost certificates accessLists row)
    (hcertificate : ∀ c ∈ row.certificateId, c ∈ certificates → c ∈ certificates')
    (hlinked : ∀ a ∈ row.accessListIds, a ∈ accessLists → a ∈ accessLists') :
    StoredHost certificates' accessLists' row :=
  { h with
    certificate := fun c hc => ⟨(h.certificate c hc).1, hcertificate c hc (h.certificate c hc).2⟩
    linked := fun a ha => ⟨(h.linked a ha).1, hlinked a ha (h.linked a ha).2⟩ }

/-- What holds of the table of hosts. -/
structure SoundHosts (certificates accessLists : List ℕ) (rows : Dict ℕ HostRow) : Prop where
  stored : ∀ id row, rows.get? id = some row →
    StoredHost certificates accessLists row ∧ Clean hostKnown row.extensions
  domains : Exclusive HostRow.sources rows

lemma SoundHosts.mono (h : SoundHosts certificates accessLists rows)
    (hcertificate : ∀ row ∈ rows.values, ∀ c ∈ row.certificateId, c ∈ certificates →
      c ∈ certificates')
    (hlinked : ∀ row ∈ rows.values, ∀ a ∈ row.accessListIds, a ∈ accessLists → a ∈ accessLists') :
    SoundHosts certificates' accessLists' rows where
  stored id row hget := by
    have hmem : row ∈ rows.values := Dict.mem_values_iff.mpr ⟨id, hget⟩
    obtain ⟨hstored, hclean⟩ := h.stored id row hget
    exact ⟨hstored.mono (hcertificate row hmem) (hlinked row hmem), hclean⟩
  domains := h.domains

lemma unclaimed_of_takenDomains (h : ∀ d ∈ row.sources, d ∉ takenDomains rows id) :
    Unclaimed HostRow.sources rows id row := by
  intro other row' hget hne d hd hd'
  exact h d hd (mem_takenDomains_iff.mpr ⟨other, row', hne, hget, hd'⟩)

lemma SoundHosts.write (h : SoundHosts certificates accessLists rows) {owner : Option ℕ → Option ℕ}
    {excludeId : Option ℕ} (hclean : Clean hostKnown payload.extensions)
    (hrow : writeHost certificates accessLists kind owner excludeId id payload rows = .ok row) :
    SoundHosts certificates accessLists (rows.set id row) := by
  obtain ⟨hstored, hfree⟩ := storedHost_of_writeHost hrow
  have hextensions := (hostStored_of_writeHost hrow).1.extensions
  exact
    { stored := Dict.forall_set h.stored ⟨hstored, hextensions ▸ hclean⟩
      domains := h.domains.set_iff.mpr (unclaimed_of_takenDomains hfree) }

lemma SoundHosts.create (h : SoundHosts certificates accessLists rows)
    (hclean : Clean hostKnown payload.extensions)
    (hop : createHost certificates accessLists actor kind id payload rows = .ok rows') :
    SoundHosts certificates accessLists rows' := by
  obtain ⟨row, rfl, -, hrow⟩ := createHost_spec hop
  exact h.write hclean hrow

lemma SoundHosts.update (h : SoundHosts certificates accessLists rows)
    (hclean : Clean hostKnown payload.extensions)
    (hop : updateHost certificates accessLists actor kind id payload rows = .ok rows') :
    SoundHosts certificates accessLists rows' := by
  rcases updateHost_cases hop with ⟨rfl, -⟩ | ⟨stored, row, hstored, rfl, hrow⟩
  · exact h
  · exact h.write ((h.stored id stored (getHost_eq_some hstored)).2.update hclean) hrow

lemma SoundHosts.replace (h : SoundHosts certificates accessLists rows)
    (hclean : Clean hostKnown payload.extensions)
    (hop : replaceHost certificates accessLists actor kind id payload rows = .ok rows') :
    SoundHosts certificates accessLists rows' := by
  rcases replaceHost_cases hop with ⟨rfl, -⟩ | ⟨stored, row, -, rfl, hrow⟩
  · exact h
  · exact h.write hclean hrow

lemma SoundHosts.setEnabled (h : SoundHosts certificates accessLists rows) {enabled : Bool}
    (hop : setHostEnabled actor id enabled rows = .ok rows') :
    SoundHosts certificates accessLists rows' := by
  rcases setHostEnabled_spec hop with ⟨rfl, -⟩ | ⟨stored, hget, rfl⟩
  · exact h
  · obtain ⟨hstored, hclean⟩ := h.stored id stored hget
    exact
      { stored := Dict.forall_set h.stored ⟨{ hstored with }, hclean⟩
        domains := h.domains.set_iff.mpr ((h.domains.unclaimed hget).congr rfl) }

lemma SoundHosts.delete (h : SoundHosts certificates accessLists rows)
    (hop : deleteHost actor kind id rows = .ok rows') :
    SoundHosts certificates accessLists rows' := by
  rcases deleteHost_cases hop with rfl | rfl
  · exact h
  · exact ⟨Dict.forall_pop id h.stored, h.domains.pop id⟩

end Hosts

/-! ## Streams -/

section Streams

variable {certificates certificates' : List ℕ} {actor : Actor} {id : ℕ} {payload : StreamPayload}
  {row : StreamRow} {rows rows' : Dict ℕ StreamRow}

/-- What holds of the table of streams. -/
def SoundStreams (certificates : List ℕ) (rows : Dict ℕ StreamRow) : Prop :=
  ∀ id row, rows.get? id = some row → 0 < id ∧ StoredStream certificates row

lemma certificateKey_mono {given : Option ℤ} {c : Option ℕ}
    (h : certificateKey certificates given = .ok c)
    (hkept : ∀ id ∈ c, id ∈ certificates → id ∈ certificates') :
    certificateKey certificates' given = .ok c := by
  cases given with
  | none => exact h
  | some given =>
    obtain ⟨certificate, hmem, rfl, rfl⟩ := certificateKey_some_eq_ok_iff.mp h
    exact certificateKey_some_eq_ok_iff.mpr ⟨certificate, hkept certificate rfl hmem, rfl, rfl⟩

lemma SoundStreams.mono (h : SoundStreams certificates rows)
    (hkept : ∀ row ∈ rows.values, ∀ c ∈ row.certificateId, c ∈ certificates →
      c ∈ certificates') : SoundStreams certificates' rows := by
  intro id row hget
  obtain ⟨hid, hstored⟩ := h id row hget
  have hmem : row ∈ rows.values := Dict.mem_values_iff.mpr ⟨id, hget⟩
  exact ⟨hid, { hstored with
    certificate := certificateKey_mono hstored.certificate (hkept row hmem) }⟩

lemma SoundStreams.create (h : SoundStreams certificates rows) (hid : 0 < id)
    (hclean : Clean (streamKnown ++ droppedKeys) payload.extensions)
    (hop : createStream certificates actor id payload rows = .ok rows') :
    SoundStreams certificates rows' := by
  obtain ⟨row, rfl, -, -, hrow⟩ := createStream_spec hop
  exact Dict.forall_set h ⟨hid, storedStream_of_checkStream rfl hclean hrow⟩

/-- The row that a write stores. -/
lemma SoundStreams.store (h : SoundStreams certificates rows) {stored : StreamRow}
    (hget : rows.get? id = some stored)
    (hclean : Clean (streamKnown ++ droppedKeys) payload.extensions)
    (hop : storeStream certificates actor id stored (streamValues payload) rows = .ok rows') :
    SoundStreams certificates rows' := by
  obtain ⟨row, rfl, hrow⟩ := storeStream_spec hop
  exact Dict.forall_set h ⟨(h id stored hget).1, storedStream_of_checkStream rfl hclean hrow⟩

lemma SoundStreams.update (h : SoundStreams certificates rows)
    (hclean : Clean (streamKnown ++ droppedKeys) payload.extensions)
    (hop : updateStream certificates actor id payload rows = .ok rows') :
    SoundStreams certificates rows' := by
  unfold updateStream at hop
  split at hop
  · obtain rfl := pure_eq_ok_iff.mp hop
    exact h
  · rename_i stored hget
    obtain ⟨-, -, hop⟩ := bind_eq_ok_iff.mp hop
    exact h.store hget ((h id stored hget).2.clean.update hclean) hop

lemma SoundStreams.replace (h : SoundStreams certificates rows)
    (hclean : Clean (streamKnown ++ droppedKeys) payload.extensions)
    (hop : replaceStream certificates actor id payload rows = .ok rows') :
    SoundStreams certificates rows' := by
  unfold replaceStream at hop
  split at hop
  · obtain rfl := pure_eq_ok_iff.mp hop
    exact h
  · rename_i stored hget
    exact h.store hget hclean hop

lemma SoundStreams.setEnabled (h : SoundStreams certificates rows) {enabled : Bool}
    (hop : setStreamEnabled actor id enabled rows = .ok rows') :
    SoundStreams certificates rows' := by
  rcases setStreamEnabled_spec hop with rfl | ⟨stored, hget, rfl⟩
  · exact h
  · obtain ⟨hid, hstored⟩ := h id stored hget
    exact Dict.forall_set h ⟨hid, { hstored with }⟩

lemma SoundStreams.delete (h : SoundStreams certificates rows)
    (hop : deleteStream actor id rows = .ok rows') : SoundStreams certificates rows' := by
  rcases deleteStream_cases hop with rfl | rfl
  · exact h
  · exact Dict.forall_pop id h

end Streams

/-! ## Certificates -/

section Certificates

variable {actor : Actor} {id : ℕ} {payload : CertificatePayload}
  {rows rows' : Dict ℕ CertificateRow}

/-- What holds of the table of certificates. -/
def SoundCertificates (rows : Dict ℕ CertificateRow) : Prop :=
  ∀ id row, rows.get? id = some row → StoredCertificate row

lemma SoundCertificates.create (h : SoundCertificates rows)
    (hclean : Clean certificateKnown payload.extensions)
    (hop : createCertificate actor id payload rows = .ok rows') : SoundCertificates rows' := by
  obtain ⟨row, rfl, -, hrow⟩ := createCertificate_spec hop
  exact Dict.forall_set h (storedCertificate_of_certificateRow hclean hrow)

lemma SoundCertificates.store (h : SoundCertificates rows) {stored : CertificateRow}
    (hclean : Clean certificateKnown payload.extensions)
    (hop : storeCertificate actor id stored payload rows = .ok rows') :
    SoundCertificates rows' := by
  obtain ⟨row, rfl, hrow⟩ := storeCertificate_spec hop
  exact Dict.forall_set h (storedCertificate_of_certificateRow hclean hrow)

lemma SoundCertificates.update (h : SoundCertificates rows)
    (hclean : Clean certificateKnown payload.extensions)
    (hop : updateCertificate actor id payload rows = .ok rows') : SoundCertificates rows' := by
  unfold updateCertificate at hop
  split at hop
  · obtain rfl := pure_eq_ok_iff.mp hop
    exact h
  · rename_i stored hget
    exact h.store ((h id stored hget).clean.update hclean) hop

lemma SoundCertificates.replace (h : SoundCertificates rows)
    (hclean : Clean certificateKnown payload.extensions)
    (hop : replaceCertificate actor id payload rows = .ok rows') : SoundCertificates rows' := by
  unfold replaceCertificate at hop
  split at hop
  · obtain rfl := pure_eq_ok_iff.mp hop
    exact h
  · exact h.store hclean hop

end Certificates

/-! ## Access lists -/

section AccessLists

variable {bcryptHash : ℕ → String → String} {actor : Actor} {id : ℕ} {payload : AccessListPayload}
  {t t' : AccessTables} {members members' : Dict ℕ (List ℕ)}

/-- What holds of the tables of access lists. -/
structure SoundLists (t : AccessTables) (members : Dict ℕ (List ℕ)) : Prop where
  clean : ∀ id row, t.lists.get? id = some row → Clean accessKnown row.extensions
  rules : ∀ id, ∀ r ∈ t.rulesOf id, normalizeAddress r.address = .ok r.address
  members : ∀ id ids, members.get? id = some ids → ids.Nodup

lemma SoundLists.wrote (h : SoundLists t members) (hclean : Clean accessKnown payload.extensions)
    (hwrote : Wrote bcryptHash id payload t t') : SoundLists t' members where
  clean id' row hget := by
    by_cases heq : id' = id
    · rw [heq, hwrote.row] at hget
      obtain rfl := Option.some.inj hget
      exact hclean
    · rw [hwrote.others id' heq] at hget
      exact h.clean id' row hget
  rules id' := by
    by_cases heq : id' = id
    · rw [heq]
      exact hwrote.rules
    · rw [hwrote.otherRules id' heq]
      exact h.rules id'
  members := h.members

lemma SoundLists.replaceMembers (h : SoundLists t members) {ids : Member (List ℕ)}
    (hop : Tables.replaceMembers id ids members = .ok members') : SoundLists t members' := by
  simp only [Tables.replaceMembers, bind_eq_ok_iff, raiseIf_eq_ok_iff, not_not, pure_eq_ok_iff]
    at hop
  obtain ⟨-, hnodup, rfl⟩ := hop
  exact { h with members := Dict.forall_set h.members hnodup }

lemma SoundLists.insert (h : SoundLists t members) (hclean : Clean accessKnown payload.extensions)
    (hop : insertAccessList bcryptHash actor id payload t = .ok t') : SoundLists t' members :=
  h.wrote hclean (wrote_of_insertAccessList hop).1

lemma SoundLists.update (h : SoundLists t members) (hclean : Clean accessKnown payload.extensions)
    (hop : updateAccessList bcryptHash actor id payload t = .ok t') : SoundLists t' members := by
  rcases updateAccessList_cases hop with ⟨rfl, -⟩ | ⟨stored, hget, hwrote⟩
  · exact h
  · exact h.wrote ((h.clean id stored hget).update hclean) hwrote

lemma SoundLists.replace (h : SoundLists t members) (hclean : Clean accessKnown payload.extensions)
    (hop : replaceAccessList bcryptHash actor id payload t = .ok t') : SoundLists t' members := by
  rcases replaceAccessList_cases hop with ⟨rfl, -⟩ | ⟨-, hwrote⟩
  · exact h
  · exact h.wrote hclean hwrote

/-- The access lists that are there after a write. -/
lemma keys_of_wrote (h : Wrote bcryptHash id payload t t') {a : ℕ} (ha : a ∈ t.lists.rows.keys) :
    a ∈ t'.lists.rows.keys := by
  obtain ⟨row, hrow⟩ := Dict.mem_keys_iff.mp ha
  by_cases heq : a = id
  · rw [heq]
    exact Dict.mem_keys_iff.mpr ⟨_, h.row⟩
  · exact Dict.mem_keys_iff.mpr ⟨row, (h.others a heq).trans hrow⟩

end AccessLists

/-! ## All tables -/

/-- What holds of the table of settings. -/
def SoundSettings (rows : Dict ℕ SettingRow) : Prop :=
  ∀ id row, rows.get? id = some row → 0 < id ∧ Clean droppedKeys row.compat

/-- What holds of tables that calls have made. -/
structure SoundTables (t : AllTables) : Prop where
  hosts : SoundHosts t.certificates.keys t.access.lists.rows.keys t.hosts
  streams : SoundStreams t.certificates.keys t.streams
  certificates : SoundCertificates t.certificates
  accessLists : SoundLists t.access t.members
  settings : SoundSettings t.settings

section Steps

variable {bcryptHash : ℕ → String → String} {digest : String → String} {newId : List ℕ → ℕ}
  {unnamed : Bool → Bool} {actor : Actor} {now : String} {c : Collection} {id : ℕ}
  {d current : Document} {t t' : AllTables}

/-- The certificates change, but those that are assigned stay. -/
lemma SoundTables.setCertificates (h : SoundTables t) {certificates : Dict ℕ CertificateRow}
    (hsound : SoundCertificates certificates)
    (hkept : ∀ c ∈ t.certificates.keys, isAssigned t.toCollectionTables c → c ∈ certificates.keys)
    (stamps : Dict (Collection × ℕ) Stamp) :
    SoundTables { t with certificates := certificates, stamps := stamps } where
  hosts := h.hosts.mono (fun row hrow c hc hmem => hkept c hmem (.inl ⟨row, hrow, hc⟩))
    fun _ _ _ _ hmem => hmem
  streams := h.streams.mono fun row hrow c hc hmem => hkept c hmem (.inr ⟨row, hrow, hc⟩)
  certificates := hsound
  accessLists := h.accessLists
  settings := h.settings

/-- The access lists change, but those that a host is linked to stay. -/
lemma SoundTables.setAccess (h : SoundTables t) {access : AccessTables} {members : Dict ℕ (List ℕ)}
    (hsound : SoundLists access members)
    (hkept : ∀ a ∈ t.access.lists.rows.keys, (∃ row ∈ t.hosts.values, a ∈ row.accessListIds) →
      a ∈ access.lists.rows.keys) (stamps : Dict (Collection × ℕ) Stamp) :
    SoundTables { t with access := access, members := members, stamps := stamps } where
  hosts := h.hosts.mono (fun _ _ _ _ hmem => hmem)
    fun row hrow a ha hmem => hkept a hmem ⟨row, hrow, ha⟩
  streams := h.streams
  certificates := h.certificates
  accessLists := hsound
  settings := h.settings

theorem SoundTables.create (h : SoundTables t) (hids : ∀ inUse, 0 < newId inUse)
    (hop : createDocument bcryptHash digest newId actor now c d t = .ok t') : SoundTables t' := by
  cases c with
  | hosts kind =>
    simp only [createDocument, bind_eq_ok_iff, pure_eq_ok_iff] at hop
    obtain ⟨payload, hpayload, id, -, hosts, hhosts, rfl⟩ := hop
    exact { h with hosts := h.hosts.create (clean_hostPayload hpayload) hhosts }
  | streams =>
    simp only [createDocument, bind_eq_ok_iff, pure_eq_ok_iff] at hop
    obtain ⟨payload, hpayload, streams, hstreams, rfl⟩ := hop
    exact { h with streams := h.streams.create (hids _) (clean_streamPayload hpayload) hstreams }
  | certificates =>
    simp only [createDocument, bind_eq_ok_iff, pure_eq_ok_iff] at hop
    obtain ⟨payload, hpayload, id, -, certificates, hcertificates, rfl⟩ := hop
    have hkept : ∀ c ∈ t.certificates.keys, c ∈ certificates.keys := by
      obtain ⟨row, rfl, -⟩ := createCertificate_spec hcertificates
      exact fun c hc => Dict.mem_set.mpr (.inr hc)
    exact h.setCertificates
      (h.certificates.create (clean_certificatePayload hpayload) hcertificates)
      (fun c hc _ => hkept c hc) _
  | accessLists =>
    simp only [createDocument, bind_eq_ok_iff, pure_eq_ok_iff] at hop
    obtain ⟨⟨payload, identityIds⟩, hpayload, id, -, access, haccess, members, hmembers, rfl⟩ := hop
    have hsound := (h.accessLists.insert (clean_accessListDocumentPayload hpayload)
      haccess).replaceMembers hmembers
    have hwrote := (wrote_of_insertAccessList haccess).1
    exact h.setAccess hsound (fun a ha _ => keys_of_wrote hwrote ha) _
  | settings =>
    simp only [createDocument, bind_eq_ok_iff, pure_eq_ok_iff] at hop
    obtain ⟨-, -, -, -, -, -, rfl⟩ := hop
    exact { h with settings := Dict.forall_set h.settings ⟨hids _, clean_settingRow d⟩ }
  | users =>
    simp only [createDocument, bind_eq_ok_iff, pure_eq_ok_iff] at hop
    obtain ⟨-, -, rfl⟩ := hop
    exact { h with }

theorem SoundTables.update (h : SoundTables t) (hcurrent : getDocument t c id = some current)
    (hop : updateDocument bcryptHash actor now c id current d t = .ok t') : SoundTables t' := by
  cases c with
  | hosts kind =>
    simp only [updateDocument, bind_eq_ok_iff, pure_eq_ok_iff] at hop
    obtain ⟨payload, hpayload, hosts, hhosts, rfl⟩ := hop
    exact { h with hosts := h.hosts.update (clean_hostPayload hpayload) hhosts }
  | streams =>
    simp only [updateDocument, bind_eq_ok_iff, pure_eq_ok_iff] at hop
    obtain ⟨payload, hpayload, streams, hstreams, rfl⟩ := hop
    exact { h with streams := h.streams.update (clean_streamPayload hpayload) hstreams }
  | certificates =>
    simp only [updateDocument, bind_eq_ok_iff, pure_eq_ok_iff] at hop
    obtain ⟨payload, hpayload, certificates, hcertificates, rfl⟩ := hop
    have hkept : ∀ c ∈ t.certificates.keys, c ∈ certificates.keys := by
      rcases updateCertificate_cases hcertificates with ⟨rfl, -⟩ | ⟨stored, row, -, rfl, -⟩
      · exact fun _ hc => hc
      · exact fun c hc => Dict.mem_set.mpr (.inr hc)
    exact h.setCertificates
      (h.certificates.update (clean_certificatePayload hpayload) hcertificates)
      (fun c hc _ => hkept c hc) _
  | accessLists =>
    simp only [updateDocument, bind_eq_ok_iff, pure_eq_ok_iff] at hop
    obtain ⟨⟨payload, identityIds⟩, hpayload, access, haccess, members, hmembers, rfl⟩ := hop
    have hsound := (h.accessLists.update (clean_accessListDocumentPayload hpayload)
      haccess).replaceMembers hmembers
    refine h.setAccess hsound (fun a ha _ => ?_) _
    rcases updateAccessList_cases haccess with ⟨rfl, -⟩ | ⟨stored, -, hwrote⟩
    · exact ha
    · exact keys_of_wrote hwrote ha
  | settings =>
    simp only [updateDocument, bind_eq_ok_iff, pure_eq_ok_iff] at hop
    obtain ⟨-, -, -, -, rfl⟩ := hop
    obtain ⟨stored, hstored⟩ : ∃ stored, t.settings.get? id = some stored := by
      cases hget : t.settings.get? id with
      | none => simp [getDocument, plainDocument, hget] at hcurrent
      | some stored => exact ⟨stored, rfl⟩
    exact { h with
      settings :=
        Dict.forall_set h.settings ⟨(h.settings id stored hstored).1, clean_settingRow _⟩ }
  | users =>
    simp only [updateDocument, bind_eq_ok_iff, pure_eq_ok_iff] at hop
    obtain ⟨-, -, rfl⟩ := hop
    exact { h with }

theorem SoundTables.replace (h : SoundTables t)
    (hop : replaceDocument bcryptHash unnamed actor now c id d t = .ok t') : SoundTables t' := by
  unfold replaceDocument at hop
  cases hcurrent : getDocument t c id with
  | none =>
    rw [hcurrent] at hop
    obtain rfl := pure_eq_ok_iff.mp hop
    exact h
  | some current =>
    rw [hcurrent] at hop
    cases c with
    | hosts kind =>
      simp only [bind_eq_ok_iff, pure_eq_ok_iff] at hop
      obtain ⟨payload, hpayload, hosts, hhosts, rfl⟩ := hop
      exact { h with hosts := h.hosts.replace (clean_hostPayload hpayload) hhosts }
    | streams =>
      simp only [bind_eq_ok_iff, pure_eq_ok_iff] at hop
      obtain ⟨payload, hpayload, streams, hstreams, rfl⟩ := hop
      exact { h with streams := h.streams.replace (clean_streamPayload hpayload) hstreams }
    | certificates =>
      simp only [bind_eq_ok_iff, pure_eq_ok_iff] at hop
      obtain ⟨payload, hpayload, certificates, hcertificates, rfl⟩ := hop
      have hkept : ∀ c ∈ t.certificates.keys, c ∈ certificates.keys := by
        rcases replaceCertificate_cases hcertificates with ⟨rfl, -⟩ | ⟨stored, row, -, rfl, -⟩
        · exact fun _ hc => hc
        · exact fun c hc => Dict.mem_set.mpr (.inr hc)
      exact h.setCertificates
        (h.certificates.replace (clean_certificatePayload hpayload) hcertificates)
        (fun c hc _ => hkept c hc) _
    | accessLists =>
      simp only [bind_eq_ok_iff, pure_eq_ok_iff] at hop
      obtain ⟨⟨payload, identityIds⟩, hpayload, access, haccess, members, hmembers, rfl⟩ := hop
      have hsound := (h.accessLists.replace (clean_accessListDocumentPayload hpayload)
        haccess).replaceMembers hmembers
      refine h.setAccess hsound (fun a ha _ => ?_) _
      rcases replaceAccessList_cases haccess with ⟨rfl, -⟩ | ⟨-, hwrote⟩
      · exact ha
      · exact keys_of_wrote hwrote ha
    | settings =>
      simp only [bind_eq_ok_iff, pure_eq_ok_iff] at hop
      obtain ⟨-, -, -, -, rfl⟩ := hop
      obtain ⟨stored, hstored⟩ : ∃ stored, t.settings.get? id = some stored := by
        cases hget : t.settings.get? id with
        | none => simp [getDocument, plainDocument, hget] at hcurrent
        | some stored => exact ⟨stored, rfl⟩
      exact { h with
        settings :=
          Dict.forall_set h.settings ⟨(h.settings id stored hstored).1, clean_settingRow _⟩ }
    | users =>
      simp only [bind_eq_ok_iff, pure_eq_ok_iff] at hop
      obtain ⟨-, -, rfl⟩ := hop
      exact { h with }

lemma noneIfRefused_eq_ok {α : Type} {x : Result α} {o : Option α} (h : noneIfRefused x = .ok o) :
    ∀ a ∈ o, x = .ok a := by
  intro a ha
  cases x with
  | ok b =>
    obtain rfl := pure_eq_ok_iff.mp h
    rw [Option.some.inj ha]
  | error e =>
    simp only [noneIfRefused] at h
    split at h
    · obtain rfl := pure_eq_ok_iff.mp h
      exact nomatch ha
    · exact absurd h throw_ne_ok

theorem SoundTables.setEnabled (h : SoundTables t) {enabled : Bool}
    (hop : setDocumentEnabled actor now c id enabled t = .ok t') : SoundTables t' := by
  simp only [setDocumentEnabled, Tables.setEnabled, bind_eq_ok_iff] at hop
  obtain ⟨tables, ⟨stored, hstored, hfound⟩, hop⟩ := hop
  obtain rfl := pure_eq_ok_iff.mp hfound
  cases hfilter : stored.filter fun t' => (getResource t'.resources c id).isSome with
  | none =>
    rw [hfilter] at hop
    obtain rfl := pure_eq_ok_iff.mp hop
    exact h
  | some tables =>
    rw [hfilter] at hop
    obtain rfl := pure_eq_ok_iff.mp hop
    have hmem : tables ∈ stored := (Option.filter_eq_some_iff.mp hfilter).1
    have hwritten := noneIfRefused_eq_ok hstored tables hmem
    unfold storeEnabled at hwritten
    split at hwritten
    · obtain ⟨hosts, hhosts, hwritten⟩ := bind_eq_ok_iff.mp hwritten
      obtain rfl := pure_eq_ok_iff.mp hwritten
      exact { h with hosts := h.hosts.setEnabled hhosts }
    · obtain ⟨streams, hstreams, hwritten⟩ := bind_eq_ok_iff.mp hwritten
      obtain rfl := pure_eq_ok_iff.mp hwritten
      exact { h with streams := h.streams.setEnabled hstreams }
    · exact absurd hwritten throw_ne_ok

/-- A certificate is deleted when nothing uses it. -/
lemma SoundTables.deleteCertificate (h : SoundTables t) {stored : CertificateRow}
    {tables : CollectionTables}
    (hop : Tables.deleteCertificate actor id stored t.toCollectionTables = .ok tables) :
    SoundTables { t with toCollectionTables := tables } := by
  simp only [Tables.deleteCertificate, bind_eq_ok_iff, raiseIf_eq_ok_iff, pure_eq_ok_iff] at hop
  obtain ⟨-, -, -, -, -, hunused, rfl⟩ := hop
  refine h.setCertificates (Dict.forall_pop id h.certificates) (fun c hc hassigned => ?_) t.stamps
  have hne : c ≠ id := fun heq => hunused (heq ▸ hassigned)
  exact Dict.mem_pop.mpr ⟨hne, hc⟩

/-- An access list is deleted, with its children, when no host is linked to it. -/
lemma SoundTables.deleteAccessList (h : SoundTables t) {stored : AccessListRow}
    {tables : CollectionTables}
    (hop : Tables.deleteAccessList actor id stored t.toCollectionTables = .ok tables) :
    SoundTables { t with toCollectionTables := tables } := by
  simp only [Tables.deleteAccessList, bind_eq_ok_iff, raiseIf_eq_ok_iff, pure_eq_ok_iff] at hop
  obtain ⟨-, -, -, -, -, hunlinked, rfl⟩ := hop
  have hrules : ∀ a, ∀ r ∈ AccessTables.rulesOf
      { t.access with rules := t.access.rules.deleteWhere fun r => r.accessListId = id } a,
      r ∈ t.access.rulesOf a := by
    intro a r hr
    rw [AccessTables.rulesOf, (perm_sortedBy _ _ _).mem_iff, Table.select, List.mem_filter] at hr ⊢
    rw [Table.values_deleteWhere] at hr
    exact ⟨(List.mem_filter.mp hr.1).1, hr.2⟩
  refine h.setAccess ?_ (fun a ha hlinked => ?_) t.stamps
  · exact
      { clean := Dict.forall_pop id h.accessLists.clean
        rules := fun a r hr => h.accessLists.rules a r (hrules a r hr)
        members := Dict.forall_pop id h.accessLists.members }
  · have hne : a ≠ id := fun heq => hunlinked (heq ▸ hlinked)
    exact Dict.mem_pop.mpr ⟨hne, ha⟩

theorem SoundTables.delete (h : SoundTables t) (hop : deleteDocument actor c id t = .ok t') :
    SoundTables t' := by
  unfold deleteDocument at hop
  split at hop
  · split at hop
    · obtain ⟨-, -, hop⟩ := bind_eq_ok_iff.mp hop
      obtain rfl := pure_eq_ok_iff.mp hop
      exact { h with settings := Dict.forall_pop id h.settings }
    · obtain rfl := pure_eq_ok_iff.mp hop
      exact h
  · obtain ⟨tables, hdelete, hop⟩ := bind_eq_ok_iff.mp hop
    cases tables with
    | none =>
      obtain rfl := pure_eq_ok_iff.mp hop
      exact h
    | some tables =>
      obtain rfl := pure_eq_ok_iff.mp hop
      unfold deleteResource at hdelete
      split at hdelete
      · split at hdelete
        · exact nomatch pure_eq_ok_iff.mp hdelete
        · obtain ⟨hosts, hhosts, hdelete⟩ := bind_eq_ok_iff.mp hdelete
          obtain rfl := Option.some.inj (pure_eq_ok_iff.mp hdelete)
          exact { h with hosts := h.hosts.delete hhosts }
      · split at hdelete
        · exact nomatch pure_eq_ok_iff.mp hdelete
        · obtain ⟨streams, hstreams, hdelete⟩ := bind_eq_ok_iff.mp hdelete
          obtain rfl := Option.some.inj (pure_eq_ok_iff.mp hdelete)
          exact { h with streams := h.streams.delete hstreams }
      · split at hdelete
        · exact nomatch pure_eq_ok_iff.mp hdelete
        · obtain ⟨removed, hremoved, heq⟩ := map_eq_ok_iff.mp hdelete
          obtain rfl := Option.some.inj heq
          exact h.deleteCertificate hremoved
      · split at hdelete
        · exact nomatch pure_eq_ok_iff.mp hdelete
        · obtain ⟨removed, hremoved, heq⟩ := map_eq_ok_iff.mp hdelete
          obtain rfl := Option.some.inj heq
          exact h.deleteAccessList hremoved
      · exact nomatch pure_eq_ok_iff.mp hdelete
      · exact nomatch pure_eq_ok_iff.mp hdelete

end Steps

/-- Every row that calls have stored passes the checks of its collection, and what it names is
there. -/
theorem TablesReached.sound {t : AllTables} (h : TablesReached t) : SoundTables t := by
  induction h with
  | fresh users =>
    exact
      { hosts := ⟨fun _ _ hget => (nomatch hget), Exclusive.empty⟩
        streams := fun _ _ hget => nomatch hget
        certificates := fun _ _ hget => nomatch hget
        accessLists :=
          ⟨fun _ _ hget => (nomatch hget), fun _ _ hr => absurd hr List.not_mem_nil,
            fun _ _ hget => (nomatch hget)⟩
        settings := fun _ _ hget => nomatch hget }
  | users _ _ ih => exact { ih with }
  | create _ hids hop ih => exact ih.create hids hop
  | update _ hcurrent hop ih => exact ih.update hcurrent hop
  | replace _ hop ih => exact ih.replace hop
  | setEnabled _ hop ih => exact ih.setEnabled hop
  | delete _ hop ih => exact ih.delete hop

end Portwyrm.Tables

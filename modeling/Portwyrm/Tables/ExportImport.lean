import Portwyrm.Tables.Restoration

/-!
# Exporting and importing

Whether an instance without resources lists what another one has exported, once it has imported the
bundle.  The hashes of credentials are not exported, settings and streams are numbered anew, and a
resource without an owner is given to the administrator who imports it.
-/

namespace Portwyrm.Tables

open Base Portwyrm.Runtime Portwyrm.Quic Portwyrm.Identity

/-! ## The same content -/

/-- Documents that agree but for their timestamps. -/
def SameContent (d d' : Document) : Prop := ∀ key ∉ stampKeys, d.get? key = d'.get? key

/-- The import of an exported bundle into an instance with the same principals and no resources
succeeds, and the instance lists the same resources. -/
def Reproduced (bcryptHash : ℕ → String → String) (digest : String → String)
    (newId : List ℕ → ℕ) (actor : Option {p : SecurityPrincipal // p.isAdmin = true})
    (replace : Bool) (checksum : Document → String) (clock : ℕ → String)
    (createdAt backend : String) (t : AllTables) : Prop :=
  let imported := importBundle bcryptHash digest newId actor replace checksum clock
    (exportBundle checksum createdAt backend t) { users := t.users }
  (∃ summary, imported.1 = .ok summary) ∧
    ∀ c ∈ portableCollections,
      List.Forall₂ SameContent (listDocuments t c) (listDocuments imported.2 c)

section Content

variable {t t' : AllTables} {c : Collection} {id : ℕ} {d d' : Document}

lemma sameContent_stampDocument {stamp stamp' : Stamp} :
    SameContent (stampDocument stamp d) (stampDocument stamp' d') ↔ SameContent d d' := by
  refine forall_congr' fun key => imp_congr_right fun hkey => ?_
  rw [get?_stampDocument hkey, get?_stampDocument hkey]

/-- Collections list the same when they have the same ids, and the same resource under each. -/
lemma listDocuments_same_iff (hc : c ≠ .users) :
    List.Forall₂ SameContent (listDocuments t c) (listDocuments t' c) ↔
      resourceIds t' c = resourceIds t c ∧
        ∀ id ∈ resourceIds t c, SameContent (listedDocument t c id) (listedDocument t' c id) := by
  constructor
  · intro h
    have hids : (listDocuments t c).map (fun d => d.get? "id") =
        (listDocuments t' c).map fun d => d.get? "id" :=
      Numeral.map_eq_map (h.imp fun _ _ hsame => hsame "id" (by decide))
    have hshown : ∀ t : AllTables, (listDocuments t c).map (fun d => d.get? "id") =
        (resourceIds t c).map fun id => some (idJson id) := by
      intro t
      rw [listDocuments, List.map_map]
      exact List.map_congr_left fun id hid => get?_id_listedDocument hc hid
    have hinjective : Function.Injective fun id : ℕ => some (idJson id) := by
      intro id id' heq
      have hcast : (id : ℤ) = id' := by simpa [idJson] using heq
      exact_mod_cast hcast
    rw [hshown, hshown] at hids
    have hsame := List.map_injective_iff.mpr hinjective hids
    rw [listDocuments, listDocuments, ← hsame, List.forall₂_map_left_iff,
      List.forall₂_map_right_iff, List.forall₂_same] at h
    exact ⟨hsame.symm, h⟩
  · rintro ⟨hids, hsame⟩
    rw [listDocuments, listDocuments, hids, List.forall₂_map_left_iff,
      List.forall₂_map_right_iff, List.forall₂_same]
    exact hsame

/-- Collections have the same ids when they show the same resources. -/
lemma resourceIds_eq (h : ∀ id, (plainDocument t' c id).isSome = (plainDocument t c id).isSome) :
    resourceIds t' c = resourceIds t c := by
  have hperm : (resourceIds t' c).Perm (resourceIds t c) := by
    refine (List.perm_ext_iff_of_nodup (nodup_resourceIds t' c) (nodup_resourceIds t c)).mpr
      fun id => ?_
    rw [mem_resourceIds_iff, mem_resourceIds_iff, h id]
  exact List.Perm.eq_of_pairwise (fun a b _ _ hab hba => absurd hab hba.asymm)
    (ascending_resourceIds t' c) (ascending_resourceIds t c) hperm

end Content

/-! ## What is restored -/

/-- Resources that an import brings back.  Access lists have no credentials, settings have different
keys when they are read back, the targets of streams are valid and their ports exclusive; when an
administrator imports them, hosts and certificates have owners; and settings and streams are
numbered from one without a gap. -/
structure Restorable (actor : Actor) (t : AllTables) : Prop where
  credentials : ∀ id ∈ t.access.lists.rows.keys, t.access.credentialsOf id = []
  keys : ∀ id row id' row', t.settings.get? id = some row → t.settings.get? id' = some row' →
    id ≠ id' → shownKey id row ≠ shownKey id' row'
  targets : ∀ row ∈ t.streams.values, row.Reachable
  ports : Exclusive StreamRow.claims t.streams
  hosts : ∀ row ∈ t.hosts.values, row.ownerPrincipalId = none → actor = none
  certificates : ∀ row ∈ t.certificates.values, row.ownerPrincipalId = none → actor = none
  settingIds : ∃ n, resourceIds t .settings = List.range' 1 n
  streamIds : ∃ n, resourceIds t .streams = List.range' 1 n

/-! ### What the records need -/

section Admitted

variable {t : AllTables} {c : Collection} {id id' : ℕ}

lemma exists_turn (hc : c ∈ portableCollections) (hid : id ∈ resourceIds t c) :
    ∃ done, AtTurn t done c id := by
  obtain ⟨done, rest, hsplit⟩ := List.append_of_mem (mem_bundleTargets_iff.mpr ⟨hc, hid⟩)
  exact ⟨done, rest, by rw [hsplit, List.append_assoc]; rfl⟩

/-- Of two resources of a collection, one comes after the other. -/
lemma exists_turn_after (hc : c ∈ portableCollections) (hid : id ∈ resourceIds t c)
    (hid' : id' ∈ resourceIds t c) (hne : id ≠ id') :
    (∃ done, AtTurn t done c id ∧ id' ∈ idsOf c done) ∨
      ∃ done, AtTurn t done c id' ∧ id ∈ idsOf c done := by
  obtain ⟨done, rest, hsplit⟩ := List.append_of_mem (mem_bundleTargets_iff.mpr ⟨hc, hid⟩)
  have hmem' : (c, id') ∈ done ++ (c, id) :: rest :=
    hsplit ▸ mem_bundleTargets_iff.mpr ⟨hc, hid'⟩
  simp only [List.mem_append, List.mem_cons, Prod.mk.injEq, true_and] at hmem'
  rcases hmem' with hdone | heq | hrest
  · exact .inl ⟨done, ⟨rest, by rw [hsplit, List.append_assoc]; rfl⟩, mem_idsOf_iff.mpr hdone⟩
  · exact absurd heq.symm hne
  · obtain ⟨more, last, rfl⟩ := List.append_of_mem hrest
    refine .inr ⟨done ++ (c, id) :: more, ⟨last, ?_⟩, mem_idsOf_iff.mpr (by simp)⟩
    rw [hsplit]
    simp

lemma mem_resourceIds_settings {row : SettingRow} (h : t.settings.get? id = some row) :
    id ∈ resourceIds t .settings :=
  mem_resourceIds_iff.mpr (by rw [plainDocument, h]; rfl)

lemma mem_resourceIds_streams {row : StreamRow} (h : t.streams.get? id = some row) :
    id ∈ resourceIds t .streams :=
  mem_resourceIds_iff.mpr (by rw [plainDocument, h]; rfl)

/-- Every record is admitted exactly when no access list has credentials, no two settings are read
back with one key, and every stream is valid and has its port for itself. -/
theorem admitsAll_iff_tables : AdmitsAll t ↔
    (∀ id ∈ t.access.lists.rows.keys, t.access.credentialsOf id = []) ∧
    (∀ id row id' row', t.settings.get? id = some row → t.settings.get? id' = some row' →
      id ≠ id' → shownKey id row ≠ shownKey id' row') ∧
    (∀ row ∈ t.streams.values, row.Reachable) ∧ Exclusive StreamRow.claims t.streams := by
  constructor
  · intro hall
    refine ⟨fun id hid => ?_, fun id row id' row' hget hget' hne => ?_, fun row hrow => ?_,
      fun id id' row row' hget hget' hne => ?_⟩
    · have hlisted : id ∈ resourceIds t .accessLists := by
        rw [resourceIds, mem_sortedBy]
        exact hid
      obtain ⟨done, hturn⟩ := exists_turn (by decide) hlisted
      exact hall done .accessLists id hturn
    · rcases exists_turn_after (by decide) (mem_resourceIds_settings hget)
        (mem_resourceIds_settings hget') hne with ⟨done, hturn, hdone⟩ | ⟨done, hturn, hdone⟩
      · exact (hall done .settings id hturn row hget id' hdone row' hget').symm
      · exact hall done .settings id' hturn row' hget' id hdone row hget
    · obtain ⟨id, hget⟩ := Dict.mem_values_iff.mp hrow
      obtain ⟨done, hturn⟩ := exists_turn (by decide) (mem_resourceIds_streams hget)
      exact (hall done .streams id hturn row hget).1
    · rcases exists_turn_after (by decide) (mem_resourceIds_streams hget)
        (mem_resourceIds_streams hget') hne with ⟨done, hturn, hdone⟩ | ⟨done, hturn, hdone⟩
      · exact (hall done .streams id hturn row hget).2 id' hdone row' hget'
      · exact ((hall done .streams id' hturn row' hget').2 id hdone row hget).symm
  · rintro ⟨hcredentials, hkeys, htargets, hports⟩ done c id hturn
    -- a resource before another one has another id
    have hne : ∀ id' ∈ idsOf c done, id' ≠ id := by
      rintro id' hid' rfl
      exact hturn.new (mem_idsOf_iff.mp hid')
    cases c with
    | accessLists =>
      have hlisted := hturn.mem
      rw [resourceIds, mem_sortedBy] at hlisted
      exact hcredentials id hlisted
    | settings =>
      intro row hget id' hid' row' hget'
      exact hkeys id' row' id row hget' hget (hne id' hid')
    | streams =>
      intro row hget
      refine ⟨htargets row (Dict.mem_values_iff.mpr ⟨id, hget⟩), fun id' hid' row' hget' => ?_⟩
      exact hports hget hget' (hne id' hid').symm
    | _ => trivial

end Admitted

/-! ### What is listed afterwards -/

section Listed

variable {actor : Actor} {t t' : AllTables} {kind : HostKind} {id : ℕ}

lemma createOwner_eq_iff {owner : Option ℕ} :
    createOwner actor owner = owner ↔ (owner = none → actor = none) := by
  cases owner <;> cases actor <;> simp [createOwner]

lemma owner_injective {owner owner' : Option ℕ}
    (h : owner.elim .null idJson = owner'.elim .null idJson) : owner = owner' := by
  have hread := congrArg readNat h
  rw [readNat_owner, readNat_owner] at hread
  exact Option.some.inj hread

/-- A restored host has the same content exactly when it has the same owner. -/
lemma sameContent_restoredHost {row : HostRow} :
    SameContent (hostDocument id row) (hostDocument id (restoredHost actor row)) ↔
      createOwner actor row.ownerPrincipalId = row.ownerPrincipalId := by
  constructor
  · intro h
    have howner : ∀ row : HostRow, (hostDocument id row).get? "owner_principal_id" =
        some (row.ownerPrincipalId.elim .null idJson) :=
      fun row => get?_shown (by exact nodup_hostKeys) rfl
    have hsame := h "owner_principal_id" (by decide)
    rw [howner, howner] at hsame
    exact (owner_injective (Option.some.inj hsame)).symm
  · intro h key _
    rw [hostDocument_restoredHost h]

lemma sameContent_restoredCertificate {row : CertificateRow} :
    SameContent (certificateDocument id row)
        (certificateDocument id (restoredCertificate actor row)) ↔
      createOwner actor row.ownerPrincipalId = row.ownerPrincipalId := by
  constructor
  · intro h
    have howner : ∀ row : CertificateRow, (certificateDocument id row).get? "owner_principal_id" =
        some (row.ownerPrincipalId.elim .null idJson) :=
      fun row => get?_shown (by exact nodup_certificateKeys) rfl
    have hsame := h "owner_principal_id" (by decide)
    rw [howner, howner] at hsame
    exact (owner_injective (Option.some.inj hsame)).symm
  · intro h key _
    rw [restoredCertificate, h]

lemma mem_bundleTargets {c : Collection} (hc : c ∈ portableCollections)
    (h : (plainDocument t c id).isSome) : (c, id) ∈ bundleTargets t :=
  mem_bundleTargets_iff.mpr ⟨hc, mem_resourceIds_iff.mpr h⟩

variable (h : Restored actor t (bundleTargets t) t')

include h

lemma getHost_restored (kind : HostKind) (id : ℕ) :
    getHost kind id t'.hosts = (getHost kind id t.hosts).map (restoredHost actor) := by
  have hlisted : ∀ id row, t.hosts.get? id = some row →
      (.hosts row.kind, id) ∈ bundleTargets t := by
    intro id row hrow
    refine mem_bundleTargets (by cases row.kind <;> decide) ?_
    rw [plainDocument, getHost, hrow, Option.filter_some, if_pos (by simp)]
    rfl
  have hget := h.hosts.get?_eq hlisted id
  rw [getHost, hget, getHost]
  cases t.hosts.get? id with
  | none => rfl
  | some row =>
    have hkind : (restoredHost actor row).kind = row.kind := rfl
    simp only [Option.map_some, Option.filter_some, hkind]
    split <;> rfl

lemma hosts_same_iff (kind : HostKind) :
    List.Forall₂ SameContent (listDocuments t (.hosts kind)) (listDocuments t' (.hosts kind)) ↔
      ∀ id row, getHost kind id t.hosts = some row → row.ownerPrincipalId = none →
        actor = none := by
  have hids : resourceIds t' (.hosts kind) = resourceIds t (.hosts kind) :=
    resourceIds_eq fun id => by
      rw [plainDocument, plainDocument, getHost_restored h]
      simp only [Option.isSome_map]
  rw [listDocuments_same_iff (c := .hosts kind) (by rintro ⟨⟩), and_iff_right hids]
  refine forall_congr' fun id => ?_
  rw [mem_resourceIds_iff, listedDocument, listedDocument, sameContent_stampDocument, plainDocument,
    plainDocument, getHost_restored h]
  cases getHost kind id t.hosts with
  | none => simp
  | some row =>
    have hsame : SameContent (hostDocument id row) (hostDocument id (restoredHost actor row)) ↔
        (row.ownerPrincipalId = none → actor = none) :=
      sameContent_restoredHost.trans createOwner_eq_iff
    simpa using hsame

lemma certificates_same_iff :
    List.Forall₂ SameContent (listDocuments t .certificates) (listDocuments t' .certificates) ↔
      ∀ id row, t.certificates.get? id = some row → row.ownerPrincipalId = none → actor = none := by
  have hlisted : ∀ id row, t.certificates.get? id = some row →
      (.certificates, id) ∈ bundleTargets t := by
    intro id row hrow
    exact mem_bundleTargets (by decide) (by rw [plainDocument, hrow]; rfl)
  have hget := h.certificates.get?_eq hlisted
  have hids : resourceIds t' .certificates = resourceIds t .certificates :=
    resourceIds_eq fun id => by
      rw [plainDocument, plainDocument, hget]
      simp only [Option.isSome_map]
  rw [listDocuments_same_iff (by decide), and_iff_right hids]
  refine forall_congr' fun id => ?_
  rw [mem_resourceIds_iff, listedDocument, listedDocument, sameContent_stampDocument, plainDocument,
    plainDocument, hget]
  cases t.certificates.get? id with
  | none => simp
  | some row =>
    have hsame : SameContent (certificateDocument id row)
        (certificateDocument id (restoredCertificate actor row)) ↔
        (row.ownerPrincipalId = none → actor = none) :=
      sameContent_restoredCertificate.trans createOwner_eq_iff
    simpa using hsame

/-- Access lists without credentials are listed as before. -/
lemma accessLists_same
    (hcredentials : ∀ id ∈ t.access.lists.rows.keys, t.access.credentialsOf id = []) :
    List.Forall₂ SameContent (listDocuments t .accessLists) (listDocuments t' .accessLists) := by
  have hlisted : ∀ id row, t.access.lists.rows.get? id = some row →
      (.accessLists, id) ∈ bundleTargets t := by
    intro id row hrow
    exact mem_bundleTargets (by decide) (by rw [plainDocument, Table.get?, hrow]; rfl)
  have hget : ∀ id, t'.access.lists.get? id = t.access.lists.get? id := by
    intro id
    rw [Table.get?, h.lists.get?_eq hlisted id, Option.map_id']
    rfl
  have hdocument : ∀ id, plainDocument t' .accessLists id = plainDocument t .accessLists id := by
    intro id
    rw [plainDocument, plainDocument, hget]
    cases hrow : t.access.lists.get? id with
    | none => rfl
    | some row =>
      have hdone := hlisted id row hrow
      have hitem : accessListItem t'.toCollectionTables id row =
          accessListItem t.toCollectionTables id row := by
        have hnames := hcredentials id (Dict.mem_keys_iff.mpr ⟨row, hrow⟩)
        have hclients := h.clients id hdone
        unfold clientsOf at hclients
        simp only [accessListItem, h.credentials id, hnames, hclients, h.members id hdone]
      rw [Option.map_some, Option.map_some, hitem]
  rw [listDocuments_same_iff (by decide)]
  refine ⟨resourceIds_eq fun id => by rw [hdocument], fun id _ => ?_⟩
  rw [listedDocument, listedDocument, sameContent_stampDocument, hdocument]
  exact fun _ _ => rfl

omit h in
/-- Numbered rows come back under their ids when the ids have no gap. -/
lemma Numbered.get?_eq {ρ : Type} {g : ℕ → ρ → ρ} {rows rows' : Dict ℕ ρ} {ids : List ℕ}
    (h : Numbered g rows ids rows') {n : ℕ} (hids : ids = List.range' 1 n) (hid : id ∈ ids) :
    rows'.get? id = (rows.get? id).map (g id) := by
  obtain ⟨i, hi⟩ := List.mem_iff_getElem?.mp hid
  have hnumber : id = i + 1 := by
    rw [hids, List.getElem?_eq_some_iff] at hi
    obtain ⟨hlt, hi⟩ := hi
    rw [List.getElem_range'] at hi
    omega
  rw [← h.row i id hi, hnumber]

omit h in
lemma sortedBy_range' (n : ℕ) : sortedBy natLe (fun id => id) (List.range' 1 n) =
    List.range' 1 n := by
  have hascending := List.pairwise_lt_range' (s := 1) (n := n) 1 Nat.one_pos
  refine List.Pairwise.insertionSort_eq (hascending.imp fun {a b} hlt => ?_)
  simpa [natLe] using hlt.le

lemma settings_same_iff :
    List.Forall₂ SameContent (listDocuments t .settings) (listDocuments t' .settings) ↔
      ∃ n, resourceIds t .settings = List.range' 1 n := by
  have hnumbered := h.settings
  rw [idsOf_bundleTargets (by decide)] at hnumbered
  have hids : resourceIds t' .settings = List.range' 1 (resourceIds t .settings).length := by
    rw [resourceIds, collectionKeys, hnumbered.keys, sortedBy_range']
  rw [listDocuments_same_iff (by decide), hids]
  constructor
  · rintro ⟨hsame, -⟩
    exact ⟨_, hsame.symm⟩
  · rintro ⟨n, hn⟩
    refine ⟨by rw [hn, List.length_range'], fun id hid => ?_⟩
    rw [listedDocument, listedDocument, sameContent_stampDocument, plainDocument, plainDocument,
      hnumbered.get?_eq hn hid, Option.map_map]
    exact fun _ _ => rfl

lemma streams_same_iff :
    List.Forall₂ SameContent (listDocuments t .streams) (listDocuments t' .streams) ↔
      ∃ n, resourceIds t .streams = List.range' 1 n := by
  have hnumbered := h.streams
  rw [idsOf_bundleTargets (by decide)] at hnumbered
  have hids : resourceIds t' .streams = List.range' 1 (resourceIds t .streams).length := by
    rw [resourceIds, collectionKeys, hnumbered.keys, sortedBy_range']
  rw [listDocuments_same_iff (by decide), hids]
  constructor
  · rintro ⟨hsame, -⟩
    exact ⟨_, hsame.symm⟩
  · rintro ⟨n, hn⟩
    refine ⟨by rw [hn, List.length_range'], fun id hid => ?_⟩
    rw [listedDocument, listedDocument, sameContent_stampDocument, plainDocument, plainDocument,
      hnumbered.get?_eq hn hid, Option.map_map]
    exact fun _ _ => rfl

end Listed

/-! ## The round trip -/

/-- The greatest id that was given, plus one. -/
def nextId (inUse : List ℕ) : ℕ := inUse.foldl max 0 + 1

lemma serial_nextId : Serial nextId := by
  intro n
  induction n with
  | zero => rfl
  | succ n ih =>
    have hmax : (List.range' 1 n).foldl max 0 = n := Nat.succ.inj ih
    rw [nextId, List.range'_concat, List.foldl_append, hmax, List.foldl_cons, List.foldl_nil]
    omega

/-- A stream to a backend. -/
def streamResource (incomingPort : ℤ) : Document := Dict.ofList
  [ ("incoming_port", .number incomingPort), ("forwarding_host", .text "backend"),
    ("forwarding_port", .number 80), ("tcp_forwarding", .bool true) ]

/-- The tables after a stream was created. -/
def withStream (incomingPort : ℤ) (t : AllTables) : AllTables :=
  (createDocument (fun _ s => s) (fun s => s) nextId none "" .streams (streamResource incomingPort)
    t).toOption.getD t

/-- One stream. -/
def oneStream : AllTables := withStream 8080 {}

/-- The second of two streams, after the first one was deleted. -/
def secondStream : AllTables :=
  (deleteDocument none .streams 1 (withStream 8081 oneStream)).toOption.getD {}

lemma TablesReached.withStream {t : AllTables} (h : TablesReached t) {incomingPort : ℤ}
    (hcreated : (createDocument (fun _ s => s) (fun s => s) nextId none "" .streams
      (streamResource incomingPort) t).toOption.isSome = true) :
    TablesReached (Tables.withStream incomingPort t) :=
  h.create (fun _ => Nat.succ_pos _) (eq_getD_of_isSome hcreated)

lemma reached_oneStream : TablesReached oneStream :=
  TablesReached.withStream (TablesReached.fresh .empty) (by decide)

lemma reached_secondStream : TablesReached secondStream := by
  have htwo : TablesReached (withStream 8081 oneStream) :=
    reached_oneStream.withStream (by decide)
  exact htwo.delete (eq_getD_of_isSome (by decide))

end Portwyrm.Tables

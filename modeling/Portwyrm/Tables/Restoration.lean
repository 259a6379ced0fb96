import Portwyrm.Tables.Exports
import Portwyrm.Tables.RestoredRows
import Portwyrm.Tables.TableRuns

/-!
# Restoring an exported bundle

An import of an exported bundle into tables without resources.  It comes to the resources in the
order of the bundle.  A host, a certificate or an access list is created under its own id, a setting
or a stream under the next number, and the tables always hold what was restored of the resources
before.
-/

namespace Portwyrm.Tables

open Base Portwyrm.Runtime Portwyrm.Quic Portwyrm.Identity

/-! ## Rows that are written again -/

section Rows

variable {ρ : Type} {f : ρ → ρ} {g : ℕ → ρ → ρ} {p q : ℕ → ρ → Prop} {ids : List ℕ} {id : ℕ}
  {row : ρ} {rows rows' : Dict ℕ ρ}

/-- The rows that meet a condition, under their ids. -/
def Copied (f : ρ → ρ) (p : ℕ → ρ → Prop) (rows rows' : Dict ℕ ρ) : Prop :=
  ∀ id row', rows'.get? id = some row' ↔ ∃ row, rows.get? id = some row ∧ p id row ∧ f row = row'

lemma Copied.congr (h : Copied f p rows rows') (hp : ∀ id row, q id row ↔ p id row) :
    Copied f q rows rows' := by
  intro id row'
  simp only [h id row', hp]

/-- One more row is copied. -/
lemma Copied.set (h : Copied f p rows rows') (hrow : rows.get? id = some row)
    (hp : ∀ i r, rows.get? i = some r → (q i r ↔ p i r ∨ i = id)) :
    Copied f q rows (rows'.set id (f row)) := by
  intro i row'
  rw [Dict.get?_set]
  by_cases hi : i = id
  · rw [if_pos hi, hi, hrow]
    constructor
    · intro heq
      exact ⟨row, rfl, (hp id row hrow).mpr (.inr rfl), Option.some.inj heq⟩
    · rintro ⟨r, hr, -, rfl⟩
      rw [Option.some.inj hr]
  · rw [if_neg hi, h i row']
    constructor
    · rintro ⟨r, hr, hpr, heq⟩
      exact ⟨r, hr, (hp i r hr).mpr (.inl hpr), heq⟩
    · rintro ⟨r, hr, hqr, heq⟩
      exact ⟨r, hr, ((hp i r hr).mp hqr).resolve_right hi, heq⟩

lemma Copied.not_mem (h : Copied f p rows rows')
    (hid : ∀ row, rows.get? id = some row → ¬ p id row) : id ∉ rows' := by
  intro hmem
  obtain ⟨row', hrow'⟩ := Dict.mem_iff.mp hmem
  obtain ⟨row, hrow, hpr, -⟩ := (h id row').mp hrow'
  exact hid row hrow hpr

/-- All rows are copied. -/
lemma Copied.get?_eq (h : Copied f p rows rows')
    (hall : ∀ id row, rows.get? id = some row → p id row) (id : ℕ) : rows'.get? id = (rows.get? id).map f := by
  refine Option.ext fun row' => ?_
  rw [h id row', Option.map_eq_some_iff]
  exact exists_congr fun row => and_congr_right fun hrow => and_iff_right (hall id row hrow)

/-- The rows of ids, numbered from one. -/
structure Numbered (g : ℕ → ρ → ρ) (rows : Dict ℕ ρ) (ids : List ℕ) (rows' : Dict ℕ ρ) : Prop where
  keys : rows'.keys = List.range' 1 ids.length
  row : ∀ i id, ids[i]? = some id → rows'.get? (i + 1) = (rows.get? id).map (g id)

lemma Numbered.mem_iff (h : Numbered g rows ids rows') {n : ℕ} :
    n ∈ rows' ↔ 1 ≤ n ∧ n ≤ ids.length := by
  rw [Dict.mem_iff, ← Dict.mem_keys_iff, h.keys, List.mem_range'_1]
  omega

/-- One more row is numbered. -/
lemma Numbered.append (h : Numbered g rows ids rows') (hrow : rows.get? id = some row) :
    Numbered g rows (ids ++ [id]) (rows'.set (ids.length + 1) (g id row)) where
  keys := by
    have hnew : ids.length + 1 ∉ rows' := by
      rw [h.mem_iff]
      omega
    rw [Dict.keys_set, if_neg hnew, h.keys, List.length_append, List.length_singleton,
      List.range'_concat, Nat.one_mul, Nat.add_comm 1]
  row i i' hi := by
    rw [Dict.get?_set]
    by_cases hlast : i = ids.length
    · subst hlast
      rw [List.getElem?_concat_length] at hi
      obtain rfl := Option.some.inj hi
      rw [if_pos rfl, hrow]
      rfl
    · have hlt : i < ids.length := by
        have := (List.getElem?_eq_some_iff.mp hi).1
        rw [List.length_append, List.length_singleton] at this
        omega
      rw [if_neg (by omega), h.row i i' (by rwa [List.getElem?_append_left hlt] at hi)]

/-- A numbered row is the row of an id. -/
lemma Numbered.exists_of_get? (h : Numbered g rows ids rows') {n : ℕ} {row' : ρ}
    (hget : rows'.get? n = some row') :
    ∃ id ∈ ids, ∃ row, rows.get? id = some row ∧ g id row = row' := by
  have hn := h.mem_iff.mp (Dict.mem_iff.mpr ⟨row', hget⟩)
  obtain ⟨i, rfl⟩ : ∃ i, n = i + 1 := ⟨n - 1, by omega⟩
  have hi : ids[i]? = some ids[i] := List.getElem?_eq_getElem (by omega)
  rw [h.row i _ hi, Option.map_eq_some_iff] at hget
  exact ⟨ids[i], List.getElem_mem _, hget⟩

lemma Numbered.exists_of_mem (h : Numbered g rows ids rows') (hid : id ∈ ids)
    (hrow : rows.get? id = some row) : ∃ n, n ≤ ids.length ∧ rows'.get? n = some (g id row) := by
  obtain ⟨i, hi⟩ := List.mem_iff_getElem?.mp hid
  have hlt := (List.getElem?_eq_some_iff.mp hi).1
  refine ⟨i + 1, hlt, ?_⟩
  rw [h.row i id hi, hrow]
  rfl

end Rows

/-! ## What an import has restored -/

/-- The clients of an access list, as they are shown. -/
def clientsOf (t : AccessTables) (id : ℕ) : List (String × AccessDirective) :=
  (t.rulesOf id).map fun r => (r.address, r.directive)

/-- Tables in which the resources of a bundle up to one of them are restored. -/
structure Restored (actor : Actor) (t : AllTables) (done : List (Collection × ℕ)) (s : AllTables) :
    Prop where
  hosts : Copied (restoredHost actor) (fun id row => (.hosts row.kind, id) ∈ done) t.hosts s.hosts
  certificates : Copied (restoredCertificate actor) (fun id _ => (.certificates, id) ∈ done)
    t.certificates s.certificates
  lists : Copied (fun row => row) (fun id _ => (.accessLists, id) ∈ done) t.access.lists.rows
    s.access.lists.rows
  clients : ∀ id, (.accessLists, id) ∈ done → clientsOf s.access id = clientsOf t.access id
  credentials : ∀ id, s.access.credentialsOf id = []
  members : ∀ id, (.accessLists, id) ∈ done →
    (s.members.get? id).getD [] = (t.members.get? id).getD []
  settings : Numbered (fun id row => ⟨shownKey id row, row.compat⟩) t.settings
    (idsOf .settings done) s.settings
  streams : Numbered (fun _ row => restoredStream actor row) t.streams (idsOf .streams done)
    s.streams

/-- What a record needs at its turn: an access list has no credentials, the key of a setting is not
taken, and the target of a stream is valid and its port free. -/
def Admits (t : AllTables) (done : List (Collection × ℕ)) (c : Collection) (id : ℕ) : Prop :=
  match c with
  | .accessLists => t.access.credentialsOf id = []
  | .settings => ∀ row ∈ t.settings.get? id, ∀ id' ∈ idsOf .settings done,
      ∀ row' ∈ t.settings.get? id', shownKey id' row' ≠ shownKey id row
  | .streams => ∀ row ∈ t.streams.get? id, row.Reachable ∧ ∀ id' ∈ idsOf .streams done,
      ∀ row' ∈ t.streams.get? id', row.claims.Disjoint row'.claims
  | _ => True

/-- A database that numbers the rows of an empty table from one. -/
def Serial (newId : List ℕ → ℕ) : Prop := ∀ n, newId (List.range' 1 n) = n + 1

section Turn

variable {bcryptHash : ℕ → String → String} {digest : String → String} {newId : List ℕ → ℕ}
  {actor : Actor} {now : String} {t s s' : AllTables} {done : List (Collection × ℕ)}
  {c : Collection} {kind : HostKind} {id : ℕ}

/-- Nothing is restored before the first record. -/
lemma restored_nil (actor : Actor) (t : AllTables) (users : UserTables) :
    Restored actor t [] { users := users } where
  hosts _ _ := iff_of_false nofun fun ⟨_, _, hmem, _⟩ => absurd hmem List.not_mem_nil
  certificates _ _ := iff_of_false nofun fun ⟨_, _, hmem, _⟩ => absurd hmem List.not_mem_nil
  lists _ _ := iff_of_false nofun fun ⟨_, _, hmem, _⟩ => absurd hmem List.not_mem_nil
  clients _ hmem := absurd hmem List.not_mem_nil
  credentials _ := rfl
  members _ hmem := absurd hmem List.not_mem_nil
  settings := ⟨rfl, fun _ _ hi => nomatch hi⟩
  streams := ⟨rfl, fun _ _ hi => nomatch hi⟩

/-- The id of a listed document is given. -/
lemma givenId_listedDocument (hturn : AtTurn t done c id) (inUse : List ℕ) :
    givenId newId (listedDocument t c id) inUse = .ok id := by
  have hid := get?_id_listedDocument hturn.ne_users hturn.mem
  rw [givenId, hid]
  rfl

lemma idsOf_concat_self (done : List (Collection × ℕ)) :
    idsOf c (done ++ [(c, id)]) = idsOf c done ++ [id] := by
  rw [idsOf_append]
  simp [idsOf]

lemma idsOf_concat_of_ne {c' : Collection} (h : c' ≠ c) (done : List (Collection × ℕ)) :
    idsOf c (done ++ [(c', id)]) = idsOf c done := by
  rw [idsOf_append]
  simp [idsOf, h]

lemma mem_concat_of_ne {c' : Collection} {id' : ℕ} (h : c' ≠ c) :
    (c', id') ∈ done ++ [(c, id)] ↔ (c', id') ∈ done := by
  simp [h]

/-! ### What a record of another collection leaves alone -/

section Rest

variable (h : Restored actor t done s)

include h

lemma Restored.hosts_rest (hc : ∀ kind, .hosts kind ≠ c) (id : ℕ) :
    Copied (restoredHost actor) (fun i row => (.hosts row.kind, i) ∈ done ++ [(c, id)]) t.hosts
      s.hosts :=
  h.hosts.congr fun _ row => mem_concat_of_ne (hc row.kind)

lemma Restored.certificates_rest (hc : .certificates ≠ c) (id : ℕ) :
    Copied (restoredCertificate actor) (fun i _ => (.certificates, i) ∈ done ++ [(c, id)])
      t.certificates s.certificates :=
  h.certificates.congr fun _ _ => mem_concat_of_ne hc

lemma Restored.lists_rest (hc : .accessLists ≠ c) (id : ℕ) :
    Copied (fun row => row) (fun i _ => (.accessLists, i) ∈ done ++ [(c, id)]) t.access.lists.rows
      s.access.lists.rows :=
  h.lists.congr fun _ _ => mem_concat_of_ne hc

lemma Restored.clients_rest (hc : .accessLists ≠ c) (id i : ℕ)
    (hi : (.accessLists, i) ∈ done ++ [(c, id)]) : clientsOf s.access i = clientsOf t.access i :=
  h.clients i ((mem_concat_of_ne hc).mp hi)

lemma Restored.members_rest (hc : .accessLists ≠ c) (id i : ℕ)
    (hi : (.accessLists, i) ∈ done ++ [(c, id)]) :
    (s.members.get? i).getD [] = (t.members.get? i).getD [] :=
  h.members i ((mem_concat_of_ne hc).mp hi)

lemma Restored.settings_rest (hc : c ≠ .settings) (id : ℕ) :
    Numbered (fun i row => ⟨shownKey i row, row.compat⟩) t.settings
      (idsOf .settings (done ++ [(c, id)])) s.settings := by
  rw [idsOf_concat_of_ne hc]
  exact h.settings

lemma Restored.streams_rest (hc : c ≠ .streams) (id : ℕ) :
    Numbered (fun _ row => restoredStream actor row) t.streams
      (idsOf .streams (done ++ [(c, id)])) s.streams := by
  rw [idsOf_concat_of_ne hc]
  exact h.streams

end Rest

/-! ### Hosts -/

lemma host_of_turn (hturn : AtTurn t done (.hosts kind) id) :
    ∃ row, t.hosts.get? id = some row ∧ row.kind = kind := by
  have hshown := mem_resourceIds_iff.mp hturn.mem
  rw [plainDocument, Option.isSome_map] at hshown
  obtain ⟨row, hrow⟩ := Option.isSome_iff_exists.mp hshown
  obtain ⟨hget, hkind⟩ := Option.filter_eq_some_iff.mp hrow
  exact ⟨row, hget, by simpa using hkind⟩

lemma listedDocument_host {row : HostRow} (hget : t.hosts.get? id = some row) :
    ∃ stamp, listedDocument t (.hosts row.kind) id = stampDocument stamp (hostDocument id row) := by
  refine ⟨(t.stamps.get? (.hosts row.kind, id)).getD ⟨"", ""⟩, ?_⟩
  have hplain : plainDocument t (.hosts row.kind) id = some (hostDocument id row) := by
    rw [plainDocument, getHost, hget, Option.filter_some, if_pos (by simp)]
    rfl
  rw [listedDocument, hplain, Option.getD_some]

/-- A host comes after its certificate and its access lists, which are restored then. -/
lemma storedHost_of_turn (hsound : SoundTables t) (h : Restored actor t done s)
    (hturn : AtTurn t done (.hosts kind) id) {row : HostRow} (hget : t.hosts.get? id = some row) :
    StoredHost s.certificates.keys s.access.lists.rows.keys row := by
  refine (hsound.hosts.stored id row hget).1.mono (fun c _ hc => ?_) fun a _ ha => ?_
  · obtain ⟨stored, hstored⟩ := Dict.mem_keys_iff.mp hc
    have hlisted : c ∈ resourceIds t .certificates := mem_resourceIds_iff.mpr (by
      rw [plainDocument, hstored]
      rfl)
    have hdone := hturn.referred (by simp [referredCollections]) (by decide) hlisted
    exact Dict.mem_keys_iff.mpr ⟨_, (h.certificates c _).mpr ⟨stored, hstored, hdone, rfl⟩⟩
  · obtain ⟨stored, hstored⟩ := Dict.mem_keys_iff.mp ha
    have hlisted : a ∈ resourceIds t .accessLists := mem_resourceIds_iff.mpr (by
      rw [plainDocument, Table.get?, hstored]
      rfl)
    have hdone := hturn.referred (by simp [referredCollections]) (by decide) hlisted
    exact Dict.mem_keys_iff.mpr ⟨_, (h.lists a _).mpr ⟨stored, hstored, hdone, rfl⟩⟩

lemma Restored.createHost (hactor : ∀ p ∈ actor, p.isAdmin = true) (hsound : SoundTables t)
    (h : Restored actor t done s) (hturn : AtTurn t done (.hosts kind) id) :
    ∃ s', createDocument bcryptHash digest newId actor now (.hosts kind)
        (listedDocument t (.hosts kind) id) s = .ok s' ∧
      Restored actor t (done ++ [(.hosts kind, id)]) s' := by
  obtain ⟨row, hget, rfl⟩ := host_of_turn hturn
  obtain ⟨stamp, hdocument⟩ := listedDocument_host hget
  obtain ⟨-, hclean⟩ := hsound.hosts.stored id row hget
  have hnew : id ∉ s.hosts := by
    refine h.hosts.not_mem fun row' hget' hmem => ?_
    obtain rfl := Option.some.inj (hget.symm.trans hget')
    exact hturn.new hmem
  have hfree : ∀ d ∈ row.sources, d ∉ takenDomains s.hosts id := by
    intro d hd hmem
    obtain ⟨i, other, hne, hother, hd'⟩ := mem_takenDomains_iff.mp hmem
    obtain ⟨stored, hstored, -, rfl⟩ := (h.hosts i other).mp hother
    exact hsound.hosts.domains hget hstored (Ne.symm hne) hd hd'
  have hcreated := createHost_shownHost hactor (storedHost_of_turn hsound h hturn hget) hnew hfree
  have hpayload := hostPayload_hostDocument hclean stamp id
  rw [← hdocument] at hpayload
  refine ⟨stampNew now (.hosts row.kind) id
    { s with hosts := s.hosts.set id (restoredHost actor row) }, ?_, ?_⟩
  · simp only [createDocument, hpayload, givenId_listedDocument hturn, ok_bind, hcreated]
    rfl
  · exact
      { hosts := h.hosts.set hget fun i r hr => by
          simp only [List.mem_append, List.mem_singleton, Prod.mk.injEq, Collection.hosts.injEq]
          refine or_congr_right (and_iff_right_of_imp fun hi => ?_)
          rw [hi, hget] at hr
          rw [Option.some.inj hr]
        certificates := h.certificates_rest (by simp) id
        lists := h.lists_rest (by simp) id
        clients := h.clients_rest (by simp) id
        credentials := h.credentials
        members := h.members_rest (by simp) id
        settings := h.settings_rest (by simp) id
        streams := h.streams_rest (by simp) id }

/-! ### Certificates -/

lemma Restored.createCertificate (hactor : ∀ p ∈ actor, p.isAdmin = true) (hsound : SoundTables t)
    (h : Restored actor t done s) (hturn : AtTurn t done .certificates id) :
    ∃ s', createDocument bcryptHash digest newId actor now .certificates
        (listedDocument t .certificates id) s = .ok s' ∧
      Restored actor t (done ++ [(.certificates, id)]) s' := by
  have hshown := mem_resourceIds_iff.mp hturn.mem
  rw [plainDocument, Option.isSome_map] at hshown
  obtain ⟨row, hget⟩ := Option.isSome_iff_exists.mp hshown
  have hstored := hsound.certificates id row hget
  have hnew : id ∉ s.certificates := h.certificates.not_mem fun _ _ => hturn.new
  have hcreated := createCertificate_projectCertificate hactor hstored hnew
  have hpayload : certificatePayload (listedDocument t .certificates id) =
      .ok (projectCertificate row) := by
    rw [listedDocument, plainDocument, hget]
    exact certificatePayload_certificateDocument hstored.clean _ id
  refine ⟨stampNew now .certificates id
    { s with certificates := s.certificates.set id (restoredCertificate actor row) }, ?_, ?_⟩
  · simp only [createDocument, hpayload, givenId_listedDocument hturn, ok_bind, hcreated]
    rfl
  · exact
      { hosts := h.hosts_rest (by simp) id
        certificates := h.certificates.set hget fun i r _ => by simp
        lists := h.lists_rest (by simp) id
        clients := h.clients_rest (by simp) id
        credentials := h.credentials
        members := h.members_rest (by simp) id
        settings := h.settings_rest (by simp) id
        streams := h.streams_rest (by simp) id }

/-! ### Access lists -/

/-- What is read of an access list of a bundle. -/
lemma payload_of_turn (hsound : SoundTables t) (hturn : AtTurn t done .accessLists id) :
    ∃ row, t.access.lists.get? id = some row ∧
      accessListDocumentPayload (listedDocument t .accessLists id) =
        .ok (shownAccessList (accessListItem t.toCollectionTables id row),
          .of ((t.members.get? id).getD [])) := by
  have hshown := mem_resourceIds_iff.mp hturn.mem
  rw [plainDocument, Option.isSome_map] at hshown
  obtain ⟨row, hget⟩ := Option.isSome_iff_exists.mp hshown
  refine ⟨row, hget, ?_⟩
  rw [listedDocument, plainDocument, hget]
  exact accessListDocumentPayload_accessListDocument (hsound.accessLists.clean id row hget) _ id

lemma Restored.createAccessList (hactor : ∀ p ∈ actor, p.isAdmin = true) (hsound : SoundTables t)
    (h : Restored actor t done s) (hturn : AtTurn t done .accessLists id)
    (hadmits : Admits t done .accessLists id) :
    ∃ s', createDocument bcryptHash digest newId actor now .accessLists
        (listedDocument t .accessLists id) s = .ok s' ∧
      Restored actor t (done ++ [(.accessLists, id)]) s' := by
  obtain ⟨row, hget, hpayload⟩ := payload_of_turn hsound hturn
  have hclients : ∀ client ∈ (accessListItem t.toCollectionTables id row).clients,
      normalizeAddress client.1 = .ok client.1 :=
    List.forall_mem_map.mpr (hsound.accessLists.rules id)
  have hnames : (accessListItem t.toCollectionTables id row).usernames = [] := by
    have hnone : t.access.credentialsOf id = [] := hadmits
    rw [accessListItem, hnone, List.map_nil]
  have hnew : id ∉ s.access.lists.rows := h.lists.not_mem fun _ _ => hturn.new
  obtain ⟨access, haccess⟩ : ∃ access, insertAccessList bcryptHash actor id
      (shownAccessList (accessListItem t.toCollectionTables id row)) s.access = .ok access :=
    insertAccessList_shownAccessList hactor hclients hnames hnew
  obtain ⟨-, hcreated⟩ := created_shownAccessList hclients (h.credentials id) haccess
  have hnodup : ((t.members.get? id).getD []).Nodup := by
    cases hids : t.members.get? id with
    | none => exact List.nodup_nil
    | some ids => exact hsound.accessLists.members id ids hids
  have hmembers : replaceMembers id (.of ((t.members.get? id).getD [])) s.members =
      .ok (s.members.set id ((t.members.get? id).getD [])) := by
    rw [replaceMembers, Member.get_of, Option.getD_some, raiseIf, if_neg (not_not.mpr hnodup)]
    rfl
  refine ⟨stampNew now .accessLists id { s with
    access := access
    members := s.members.set id ((t.members.get? id).getD []) }, ?_, ?_⟩
  · simp only [createDocument, hpayload, givenId_listedDocument hturn, ok_bind, haccess, hmembers]
    rfl
  · have hdone : ∀ i, (Collection.accessLists, i) ∈ done ++ [(.accessLists, id)] → i ≠ id →
        (Collection.accessLists, i) ∈ done := by
      intro i hi hne
      simpa [hne] using hi
    exact
      { hosts := h.hosts_rest (by simp) id
        certificates := h.certificates_rest (by simp) id
        lists := by
          rw [show (stampNew now .accessLists id { s with
              access := access
              members := s.members.set id ((t.members.get? id).getD []) }).access.lists.rows =
            s.access.lists.rows.set id row from hcreated.rows]
          exact h.lists.set hget fun i r _ => by simp
        clients := fun i hi => by
          by_cases hi' : i = id
          · rw [hi']
            exact hcreated.rules
          · refine Eq.trans ?_ (h.clients i (hdone i hi hi'))
            exact congrArg (List.map _) (hcreated.otherRules i hi')
        credentials := fun i => by
          by_cases hi : i = id
          · rw [hi]
            exact hcreated.credentials
          · exact (hcreated.otherCredentials i hi).trans (h.credentials i)
        members := fun i hi => by
          change ((s.members.set id _).get? i).getD [] = _
          by_cases hi' : i = id
          · rw [hi', Dict.get?_set_self, Option.getD_some]
          · rw [Dict.get?_set_of_ne _ _ hi', h.members i (hdone i hi hi')]
        settings := h.settings_rest (by simp) id
        streams := h.streams_rest (by simp) id }

/-- An access list whose credentials are not shown whole is refused. -/
lemma Restored.admits_accessList (hsound : SoundTables t) (h : Restored actor t done s)
    (hturn : AtTurn t done .accessLists id)
    (hop : createDocument bcryptHash digest newId actor now .accessLists
      (listedDocument t .accessLists id) s = .ok s') : Admits t done .accessLists id := by
  obtain ⟨row, hget, hpayload⟩ := payload_of_turn hsound hturn
  have hclients : ∀ client ∈ (accessListItem t.toCollectionTables id row).clients,
      normalizeAddress client.1 = .ok client.1 :=
    List.forall_mem_map.mpr (hsound.accessLists.rules id)
  simp only [createDocument, hpayload, givenId_listedDocument hturn, ok_bind, bind_eq_ok_iff] at hop
  obtain ⟨access, haccess, -⟩ := hop
  obtain ⟨hnames, -⟩ := created_shownAccessList hclients (h.credentials id) haccess
  exact List.map_eq_nil_iff.mp hnames

/-! ### Settings -/

lemma newId_of_numbered {ρ : Type} {g : ℕ → ρ → ρ} {rows rows' : Dict ℕ ρ} {ids : List ℕ}
    (hserial : Serial newId) (h : Numbered g rows ids rows') :
    newId rows'.keys = ids.length + 1 := by
  rw [h.keys, hserial]

/-- What is read of a setting of a bundle. -/
lemma setting_of_turn (hsound : SoundTables t) (hturn : AtTurn t done .settings id) :
    ∃ row, t.settings.get? id = some row ∧
      settingRow (listedDocument t .settings id) = ⟨shownKey id row, row.compat⟩ := by
  have hshown := mem_resourceIds_iff.mp hturn.mem
  rw [plainDocument, Option.isSome_map] at hshown
  obtain ⟨row, hget⟩ := Option.isSome_iff_exists.mp hshown
  refine ⟨row, hget, ?_⟩
  rw [listedDocument, plainDocument, hget]
  exact settingRow_settingDocument (hsound.settings id row hget).2 _ id

lemma Restored.createSetting (hactor : ∀ p ∈ actor, p.isAdmin = true) (hsound : SoundTables t)
    (hserial : Serial newId) (h : Restored actor t done s) (hturn : AtTurn t done .settings id)
    (hadmits : Admits t done .settings id) :
    ∃ s', createDocument bcryptHash digest newId actor now .settings
        (listedDocument t .settings id) s = .ok s' ∧
      Restored actor t (done ++ [(.settings, id)]) s' := by
  obtain ⟨row, hget, hrow⟩ := setting_of_turn hsound hturn
  have hnew : (idsOf .settings done).length + 1 ∉ s.settings := by
    rw [h.settings.mem_iff]
    omega
  have hadmin : requireAdministrator actor = .ok () := by
    refine raiseIf_eq_ok_iff.mpr ?_
    rintro ⟨p, hp, hnot⟩
    exact Bool.noConfusion (hnot.symm.trans (hactor p hp))
  have hkey : ∀ n, checkSetting s.settings n ⟨shownKey id row, row.compat⟩ = .ok () := by
    intro n
    refine raiseIf_eq_ok_iff.mpr ?_
    rintro ⟨⟨i, row'⟩, hentry, -, hsame⟩
    obtain ⟨id', hid', stored, hstored, rfl⟩ :=
      h.settings.exists_of_get? (Dict.mem_entries_iff.mp hentry)
    exact hadmits row hget id' hid' stored hstored hsame
  refine ⟨stampNew now .settings ((idsOf .settings done).length + 1) { s with
    settings := s.settings.set ((idsOf .settings done).length + 1)
      ⟨shownKey id row, row.compat⟩ }, ?_, ?_⟩
  · simp only [createDocument, hrow, newId_of_numbered hserial h.settings, hadmin, hkey, raiseIf,
      if_neg hnew, ok_bind]
    rfl
  · exact
      { hosts := h.hosts_rest (by simp) id
        certificates := h.certificates_rest (by simp) id
        lists := h.lists_rest (by simp) id
        clients := h.clients_rest (by simp) id
        credentials := h.credentials
        members := h.members_rest (by simp) id
        settings := by
          rw [idsOf_concat_self]
          exact h.settings.append hget
        streams := h.streams_rest (by simp) id }

/-- A setting whose key is taken is refused. -/
lemma Restored.admits_setting (hsound : SoundTables t) (hserial : Serial newId)
    (h : Restored actor t done s) (hturn : AtTurn t done .settings id)
    (hop : createDocument bcryptHash digest newId actor now .settings
      (listedDocument t .settings id) s = .ok s') : Admits t done .settings id := by
  obtain ⟨row, hget, hrow⟩ := setting_of_turn hsound hturn
  simp only [createDocument, hrow, newId_of_numbered hserial h.settings, bind_eq_ok_iff,
    checkSetting, raiseIf_eq_ok_iff] at hop
  obtain ⟨-, -, -, hfree, -⟩ := hop
  intro row₀ hrow₀ id' hid' row' hget' hsame
  obtain rfl := Option.some.inj (hget.symm.trans hrow₀)
  obtain ⟨n, hn, hstored⟩ := h.settings.exists_of_mem hid' hget'
  exact hfree ⟨_, Dict.mem_entries_iff.mpr hstored, by omega, hsame⟩

/-! ### Streams -/

/-- What is read of a stream of a bundle, whose certificate is restored. -/
lemma stream_of_turn (hsound : SoundTables t) (h : Restored actor t done s)
    (hturn : AtTurn t done .streams id) :
    ∃ row, t.streams.get? id = some row ∧ StoredStream s.certificates.keys row ∧
      streamPayload (listedDocument t .streams id) = .ok (projectStream row) := by
  have hshown := mem_resourceIds_iff.mp hturn.mem
  rw [plainDocument, Option.isSome_map] at hshown
  obtain ⟨row, hget⟩ := Option.isSome_iff_exists.mp hshown
  have hstored := (hsound.streams id row hget).2
  refine ⟨row, hget, { hstored with certificate := certificateKey_mono hstored.certificate ?_ }, ?_⟩
  · intro c _ hc
    obtain ⟨stored, hstored⟩ := Dict.mem_keys_iff.mp hc
    have hlisted : c ∈ resourceIds t .certificates := mem_resourceIds_iff.mpr (by
      rw [plainDocument, hstored]
      rfl)
    have hdone := hturn.referred (by decide) (by decide) hlisted
    exact Dict.mem_keys_iff.mpr ⟨_, (h.certificates c _).mpr ⟨stored, hstored, hdone, rfl⟩⟩
  · rw [listedDocument, plainDocument, hget]
    exact streamPayload_streamDocument hstored.clean _ id

/-- The port of a stream is free exactly when none of the streams before claims it. -/
lemma unclaimed_iff (h : Restored actor t done s) {row : StreamRow} :
    Unclaimed StreamRow.claims s.streams ((idsOf .streams done).length + 1) row ↔
      ∀ id' ∈ idsOf .streams done, ∀ row' ∈ t.streams.get? id',
        row.claims.Disjoint row'.claims := by
  constructor
  · intro hfree id' hid' row' hget'
    obtain ⟨n, hn, hstored⟩ := h.streams.exists_of_mem hid' hget'
    have hdisjoint : row.claims.Disjoint (restoredStream actor row').claims :=
      hfree hstored (Nat.lt_succ_of_le hn).ne
    exact hdisjoint
  · intro hdisjoint n row' hget' _
    obtain ⟨id', hid', stored, hstored, rfl⟩ := h.streams.exists_of_get? hget'
    exact hdisjoint id' hid' stored hstored

lemma Restored.createStream (hactor : ∀ p ∈ actor, p.isAdmin = true) (hsound : SoundTables t)
    (hserial : Serial newId) (h : Restored actor t done s) (hturn : AtTurn t done .streams id)
    (hadmits : Admits t done .streams id) :
    ∃ s', createDocument bcryptHash digest newId actor now .streams
        (listedDocument t .streams id) s = .ok s' ∧
      Restored actor t (done ++ [(.streams, id)]) s' := by
  obtain ⟨row, hget, hstored, hpayload⟩ := stream_of_turn hsound h hturn
  obtain ⟨hreach, hfree⟩ := hadmits row hget
  have hnew : (idsOf .streams done).length + 1 ∉ s.streams := by
    rw [h.streams.mem_iff]
    omega
  have hcreated := createStream_projectStream hactor hstored hnew hreach
    ((unclaimed_iff h).mpr hfree)
  refine ⟨stampNew now .streams ((idsOf .streams done).length + 1) { s with
    streams := s.streams.set ((idsOf .streams done).length + 1) (restoredStream actor row) },
    ?_, ?_⟩
  · simp only [createDocument, hpayload, newId_of_numbered hserial h.streams, hcreated, ok_bind]
    rfl
  · exact
      { hosts := h.hosts_rest (by simp) id
        certificates := h.certificates_rest (by simp) id
        lists := h.lists_rest (by simp) id
        clients := h.clients_rest (by simp) id
        credentials := h.credentials
        members := h.members_rest (by simp) id
        settings := h.settings_rest (by simp) id
        streams := by
          rw [idsOf_concat_self]
          exact h.streams.append hget }

/-- A stream whose target is refused, or whose port is taken, is refused. -/
lemma Restored.admits_stream (hsound : SoundTables t) (hserial : Serial newId)
    (h : Restored actor t done s) (hturn : AtTurn t done .streams id)
    (hop : createDocument bcryptHash digest newId actor now .streams
      (listedDocument t .streams id) s = .ok s') : Admits t done .streams id := by
  obtain ⟨row, hget, -, hpayload⟩ := stream_of_turn hsound h hturn
  simp only [createDocument, hpayload, newId_of_numbered hserial h.streams, ok_bind,
    bind_eq_ok_iff] at hop
  obtain ⟨streams, hstreams, -⟩ := hop
  obtain ⟨hreach, hfree⟩ := created_projectStream hstreams
  intro row₀ hrow₀
  obtain rfl := Option.some.inj (hget.symm.trans hrow₀)
  exact ⟨hreach, (unclaimed_iff h).mp hfree⟩

/-! ### Any record -/

/-- Nothing is found under the id of a record. -/
lemma Restored.absent (hsound : SoundTables t) (h : Restored actor t done s)
    (hturn : AtTurn t done c id) : getDocument s c id = none := by
  rw [getDocument, Option.map_eq_none_iff]
  cases c with
  | hosts kind =>
    obtain ⟨row, hget, rfl⟩ := host_of_turn hturn
    have hnew : id ∉ s.hosts := by
      refine h.hosts.not_mem fun row' hget' hmem => ?_
      obtain rfl := Option.some.inj (hget.symm.trans hget')
      exact hturn.new hmem
    rw [plainDocument, getHost, Dict.get?_eq_none_iff.mpr hnew]
    rfl
  | streams =>
    have hlt := hturn.length_lt fun i hi => by
      have hshown := mem_resourceIds_iff.mp hi
      rw [plainDocument, Option.isSome_map] at hshown
      obtain ⟨row, hget⟩ := Option.isSome_iff_exists.mp hshown
      exact (hsound.streams i row hget).1
    have hnew : id ∉ s.streams := by
      rw [h.streams.mem_iff]
      omega
    rw [plainDocument, Dict.get?_eq_none_iff.mpr hnew]
    rfl
  | certificates =>
    rw [plainDocument, Dict.get?_eq_none_iff.mpr (h.certificates.not_mem fun _ _ => hturn.new)]
    rfl
  | accessLists =>
    have hnew : s.access.lists.rows.get? id = none :=
      Dict.get?_eq_none_iff.mpr (h.lists.not_mem fun _ _ => hturn.new)
    rw [plainDocument, Table.get?, hnew]
    rfl
  | settings =>
    have hlt := hturn.length_lt fun i hi => by
      have hshown := mem_resourceIds_iff.mp hi
      rw [plainDocument, Option.isSome_map] at hshown
      obtain ⟨row, hget⟩ := Option.isSome_iff_exists.mp hshown
      exact (hsound.settings i row hget).1
    have hnew : id ∉ s.settings := by
      rw [h.settings.mem_iff]
      omega
    rw [plainDocument, Dict.get?_eq_none_iff.mpr hnew]
    rfl
  | users => exact absurd rfl hturn.ne_users

/-- A record that is admitted is created, and restored then. -/
theorem Restored.create (hactor : ∀ p ∈ actor, p.isAdmin = true) (hsound : SoundTables t)
    (hserial : Serial newId) (h : Restored actor t done s) (hturn : AtTurn t done c id)
    (hadmits : Admits t done c id) :
    ∃ s', createDocument bcryptHash digest newId actor now c (listedDocument t c id) s = .ok s' ∧
      Restored actor t (done ++ [(c, id)]) s' := by
  cases c with
  | hosts kind => exact h.createHost hactor hsound hturn
  | streams => exact h.createStream hactor hsound hserial hturn hadmits
  | certificates => exact h.createCertificate hactor hsound hturn
  | accessLists => exact h.createAccessList hactor hsound hturn hadmits
  | settings => exact h.createSetting hactor hsound hserial hturn hadmits
  | users => exact absurd rfl hturn.ne_users

/-- A record that is created is admitted. -/
theorem Restored.admits (hsound : SoundTables t) (hserial : Serial newId)
    (h : Restored actor t done s) (hturn : AtTurn t done c id)
    (hop : createDocument bcryptHash digest newId actor now c (listedDocument t c id) s = .ok s') :
    Admits t done c id := by
  cases c with
  | hosts kind => trivial
  | streams => exact h.admits_stream hsound hserial hturn hop
  | certificates => trivial
  | accessLists => exact h.admits_accessList hsound hturn hop
  | settings => exact h.admits_setting hsound hserial hturn hop
  | users => trivial

end Turn

/-! ## The run of an import -/

section Run

variable {bcryptHash : ℕ → String → String} {digest : String → String} {newId : List ℕ → ℕ}
  {actor : Option {p : SecurityPrincipal // p.isAdmin = true}} {replace : Bool}
  {checksum : Document → String} {clock : ℕ → String} {createdAt backend now : String}
  {t s : AllTables} {done : List (Collection × ℕ)} {c : Collection} {id : ℕ}

lemma target_targetRecord (hc : c ∈ portableCollections) :
    (targetRecord t now (c, id)).target = .ok (c, listedDocument t c id) := by
  have hname : (Collection.ofName? c.section_).filter (· ∈ portableCollections) = some c := by
    simp only [portableCollections, List.mem_cons, List.not_mem_nil, or_false] at hc
    rcases hc with rfl | rfl | rfl | rfl | rfl | rfl | rfl <;> decide
  rw [BundleRecord.target, targetRecord, hname]
  rfl

/-- A record finds nothing, and is created. -/
lemma apply_targetRecord (hsound : SoundTables t)
    (h : Restored (actor.map Subtype.val) t done s) (hturn : AtTurn t done c id) :
    (bundleStore bcryptHash digest newId actor replace).apply s (targetRecord t now (c, id)) =
      (createDocument bcryptHash digest newId (actor.map Subtype.val) now c (listedDocument t c id)
        s).map fun s' => (.absent, s') := by
  have hid := get?_id_listedDocument hturn.ne_users hturn.mem
  have hfind : findRecord isUnchanged s c (listedDocument t c id) = .ok .absent := by
    have hnone : findDocument s c (idJson id) = .ok none := by
      have hresource : resourceId (idJson id) = .ok (some id) := rfl
      rw [findDocument, hresource, ok_bind, Option.bind_some, h.absent hsound hturn]
      rfl
    rw [findRecord, hid]
    dsimp only
    rw [hnone]
    rfl
  simp only [RecordStore.apply, bundleStore, target_targetRecord hturn.portable, ok_bind, hfind]
  change (do
    let s' ← createDocument bcryptHash digest newId (actor.map Subtype.val) now c
      (listedDocument t c id) s
    pure (Finding.absent, s')) = _
  cases createDocument bcryptHash digest newId (actor.map Subtype.val) now c
    (listedDocument t c id) s with
  | error e => rfl
  | ok s' => rfl

/-- Every record of a bundle is admitted at its turn. -/
def AdmitsAll (t : AllTables) : Prop :=
  ∀ done c id, AtTurn t done c id → Admits t done c id

lemma atTurn_take {n : ℕ} (h : (bundleTargets t)[n]? = some (c, id)) :
    AtTurn t ((bundleTargets t).take n) c id ∧
      (bundleTargets t).take (n + 1) = (bundleTargets t).take n ++ [(c, id)] := by
  have htake : (bundleTargets t).take (n + 1) = (bundleTargets t).take n ++ [(c, id)] := by
    rw [List.take_add_one, h]
    rfl
  refine ⟨?_, htake⟩
  rw [AtTurn, ← htake]
  exact List.take_prefix _ _

/-- The records that an import reads. -/
def bundleRecords (clock : ℕ → String) (t : AllTables) : List BundleRecord :=
  (bundleTargets t).zipIdx.map fun e => targetRecord t (clock e.2) e.1

lemma length_bundleRecords (clock : ℕ → String) (t : AllTables) :
    (bundleRecords clock t).length = (bundleTargets t).length := by
  rw [bundleRecords, List.length_map, List.length_zipIdx]

/-- The records are those of the resources. -/
lemma target_of_bundleRecords {n : ℕ} {r : BundleRecord}
    (h : (bundleRecords clock t)[n]? = some r) :
    ∃ c id, (bundleTargets t)[n]? = some (c, id) ∧ r = targetRecord t (clock n) (c, id) := by
  rw [bundleRecords, List.getElem?_map, List.getElem?_zipIdx, Nat.zero_add] at h
  cases htarget : (bundleTargets t)[n]? with
  | none =>
    rw [htarget] at h
    exact nomatch h
  | some target =>
    rw [htarget] at h
    exact ⟨target.1, target.2, rfl, (Option.some.inj h).symm⟩

/-- What the record in a place needs. -/
def AdmitsAt (t : AllTables) (n : ℕ) : Prop :=
  ∀ c id, (bundleTargets t)[n]? = some (c, id) → Admits t ((bundleTargets t).take n) c id

lemma admitsAll_iff : AdmitsAll t ↔ ∀ n < (bundleTargets t).length, AdmitsAt t n := by
  constructor
  · intro hall n _ c id htarget
    exact hall _ c id (atTurn_take htarget).1
  · rintro hall done c id ⟨rest, hrest⟩
    have htarget : (bundleTargets t)[done.length]? = some (c, id) := by
      rw [← hrest]
      simp
    have hdone : (bundleTargets t).take done.length = done := by
      rw [← hrest]
      simp
    have hadmits := hall done.length (List.getElem?_eq_some_iff.mp htarget).1 c id htarget
    rwa [hdone] at hadmits

/-- A record that is admitted leads to the next stage. -/
lemma stage_of_record (hsound : SoundTables t) (hserial : Serial newId) {n : ℕ} {r : BundleRecord}
    (hr : (bundleRecords clock t)[n]? = some r)
    (h : Restored (actor.map Subtype.val) t ((bundleTargets t).take n) s) (hadmits : AdmitsAt t n) :
    ∃ found s', (bundleStore bcryptHash digest newId actor replace).apply s r = .ok (found, s') ∧
      Restored (actor.map Subtype.val) t ((bundleTargets t).take (n + 1)) s' := by
  have hactor : ∀ p ∈ actor.map Subtype.val, p.isAdmin = true := by
    intro p hp
    obtain ⟨p', -, rfl⟩ := Option.map_eq_some_iff.mp hp
    exact p'.2
  obtain ⟨c, id, htarget, rfl⟩ := target_of_bundleRecords hr
  obtain ⟨hturn, htake⟩ := atTurn_take htarget
  obtain ⟨s', hcreated, hrestored⟩ : ∃ s', createDocument bcryptHash digest newId
        (actor.map Subtype.val) (clock n) c (listedDocument t c id) s = .ok s' ∧
      Restored (actor.map Subtype.val) t ((bundleTargets t).take n ++ [(c, id)]) s' :=
    h.create hactor hsound hserial hturn (hadmits c id htarget)
  refine ⟨.absent, s', ?_, htake ▸ hrestored⟩
  rw [apply_targetRecord hsound h hturn, hcreated]
  rfl

/-- A record that is accepted is admitted. -/
lemma admitsAt_of_accepts (hsound : SoundTables t) (hserial : Serial newId) {n : ℕ}
    {r : BundleRecord} (hr : (bundleRecords clock t)[n]? = some r)
    (h : Restored (actor.map Subtype.val) t ((bundleTargets t).take n) s)
    (haccepts : (bundleStore bcryptHash digest newId actor replace).Accepts s r) :
    AdmitsAt t n := by
  intro c id htarget
  obtain ⟨x, hx⟩ := haccepts
  obtain ⟨c', id', htarget', rfl⟩ := target_of_bundleRecords hr
  obtain ⟨rfl, rfl⟩ := Prod.mk.inj (Option.some.inj (htarget'.symm.trans htarget))
  obtain ⟨hturn, -⟩ := atTurn_take htarget
  rw [apply_targetRecord hsound h hturn] at hx
  obtain ⟨s', hcreated, -⟩ := map_eq_ok_iff.mp hx
  exact h.admits hsound hserial hturn hcreated

/-- Of a bundle, an import applies every record exactly when each is admitted, and restores all
resources then. -/
theorem importBundle_exportBundle (bcryptHash : ℕ → String → String) (digest : String → String)
    (actor : Option {p : SecurityPrincipal // p.isAdmin = true}) (replace : Bool)
    (checksum : Document → String) (clock : ℕ → String) (createdAt backend : String)
    (hsound : SoundTables t) (hserial : Serial newId) :
    ((∃ summary, (importBundle bcryptHash digest newId actor replace checksum clock
        (exportBundle checksum createdAt backend t) { users := t.users }).1 = .ok summary) ↔
      AdmitsAll t) ∧
    (AdmitsAll t → Restored (actor.map Subtype.val) t (bundleTargets t)
      (importBundle bcryptHash digest newId actor replace checksum clock
        (exportBundle checksum createdAt backend t) { users := t.users }).2) := by
  have hlength := length_bundleRecords clock t
  have hstart : Restored (actor.map Subtype.val) t ((bundleTargets t).take 0)
      { users := t.users } := restored_nil _ t t.users
  have hstep : ∀ n s r, (bundleRecords clock t)[n]? = some r →
      Restored (actor.map Subtype.val) t ((bundleTargets t).take n) s → AdmitsAt t n →
      ∃ found s', (bundleStore bcryptHash digest newId actor replace).apply s r = .ok (found, s') ∧
        Restored (actor.map Subtype.val) t ((bundleTargets t).take (n + 1)) s' :=
    fun _ _ _ hr h hadmits => stage_of_record hsound hserial hr h hadmits
  rw [importBundle_eq (validateBundle_exportBundle checksum clock createdAt backend t),
    admitsAll_iff, ← hlength]
  change ((∃ summary, ((bundleStore bcryptHash digest newId actor replace).run _
    (bundleRecords clock t)).1.map importSummary = .ok summary) ↔ _) ∧ _
  refine ⟨⟨?_, ?_⟩, ?_⟩
  · rintro ⟨summary, hsummary⟩
    obtain ⟨fs, hfs, -⟩ := map_eq_ok_iff.mp hsummary
    exact RecordStore.conditions_of_run hstep
      (fun _ _ _ hr h haccepts => admitsAt_of_accepts hsound hserial hr h haccepts) hstart ⟨fs, hfs⟩
  · intro hall
    obtain ⟨⟨fs, hfs⟩, -⟩ := RecordStore.run_stages hstep hstart hall
    exact ⟨importSummary fs, by rw [hfs]; rfl⟩
  · intro hall
    obtain ⟨-, hend⟩ := RecordStore.run_stages hstep hstart hall
    rw [hlength, List.take_length] at hend
    exact hend

end Run

end Portwyrm.Tables

import Portwyrm.Tables.HostFrames

/-!
# Members under compatibility aliases

`access_list_id`, `custom_locations` and `force_ssl` of hosts and `credentials` of access lists
are read where the canonical member is missing.  An update lays the payload over the projection of
the stored row, which has every canonical member, so the alias is not read.
-/

namespace Portwyrm.Tables

open Base Portwyrm.Runtime Portwyrm.Identity

/-! ## Hosts -/

/-- The compatibility aliases of hosts. -/
inductive HostAlias
  | accessListId
  | customLocations
  | forceSsl

/-- A member is given, and only under its alias. -/
def HostPayload.GivenAs (payload : HostPayload) : HostAlias → Prop
  | .accessListId => payload.accessListId.isSome = true ∧ payload.accessListIds = none
  | .customLocations => payload.customLocations.isSome = true ∧ payload.locations = none
  | .forceSsl => payload.forceSsl.isSome = true ∧ payload.sslForced = none

/-- A projection shows what a payload gives under an alias: null and 0 name no access list, and
locations show with their defaults. -/
def HostPayload.Shows (shown payload : HostPayload) : HostAlias → Prop
  | .accessListId => shown.accessListId.get.getD 0 = payload.accessListId.get.getD 0
  | .customLocations => ∃ locations,
      (payload.customLocations.get.getD []).mapM storedLocation = .ok locations ∧
        shown.locations = Member.of (locations.map projectLocation)
  | .forceSsl => shown.sslForced = Member.of (payload.forceSsl.truthy false)

section Hosts

variable {certificates accessLists : List ℕ} {kind : HostKind} {payload : HostPayload}
  {stored row : HostRow}

/-- A member under an alias does not reach the row: the projection of the stored row comes first. -/
lemma shows_iff_of_over (hreread : Reread stored) {a : HostAlias} (hgiven : payload.GivenAs a)
    (h : HostStored certificates accessLists kind (payload.over (projectHost stored)) row) :
    (projectHost row).Shows payload a ↔ (projectHost stored).Shows payload a := by
  cases a with
  | accessListId =>
    have hids : (payload.over (projectHost stored)).accessListIds =
        Member.of (stored.accessListIds.map fun id : ℕ => (id : ℤ)) := by
      rw [HostPayload.over, hgiven.2, Option.none_or]
      exact projectHost_accessListIds stored
    have hkept : row.accessListIds = stored.accessListIds := accessListIds_kept hids h.accessListIds
    change ((row.accessListIds.head?.getD 0 : ℕ) : ℤ) = _ ↔
      ((stored.accessListIds.head?.getD 0 : ℕ) : ℤ) = _
    rw [hkept]
  | customLocations =>
    have hlocations := h.locations
    rw [HostPayload.locationList, HostPayload.over, hgiven.2] at hlocations
    change (stored.locations.map projectLocation).mapM storedLocation = _ at hlocations
    rw [mapM_storedLocation hreread.locations] at hlocations
    change (∃ locations, _ ∧ Member.of (row.locations.map projectLocation) = _) ↔
      ∃ locations, _ ∧ Member.of (stored.locations.map projectLocation) = _
    rw [Except.ok.inj hlocations]
  | forceSsl =>
    have hforced := h.forceSsl
    rw [HostPayload.forcesSsl, HostPayload.over, hgiven.2, Option.none_or] at hforced
    change row.forceSsl = stored.forceSsl at hforced
    change Member.of row.forceSsl = _ ↔ Member.of stored.forceSsl = _
    rw [hforced]

/-- Where no row is laid under the payload, the alias is read. -/
theorem shows_of_hostStored {a : HostAlias} (hgiven : payload.GivenAs a)
    (h : HostStored certificates accessLists kind payload row)
    (hlinked : ∀ id ∈ payload.selectedAccessLists, 0 ≤ id) : (projectHost row).Shows payload a := by
  cases a with
  | accessListId =>
    have hids := h.accessListIds
    rw [HostPayload.selectedAccessLists, hgiven.2] at hids hlinked
    change ((row.accessListIds.head?.getD 0 : ℕ) : ℤ) = _
    change row.accessListIds = ((payload.accessListId.get.filter (· ≠ 0)).toList).map Int.toNat
      at hids
    change ∀ id ∈ (payload.accessListId.get.filter (· ≠ 0)).toList, 0 ≤ id at hlinked
    rw [hids]
    cases hid : payload.accessListId.get with
    | none => rfl
    | some id =>
      by_cases hzero : id = 0
      · subst hzero
        rfl
      · have hfilter : Option.filter (· ≠ 0) (some id) = some id := by
          simp [Option.filter, hzero]
        rw [hid, hfilter] at hlinked
        rw [hfilter]
        exact Int.toNat_of_nonneg (hlinked id (by simp))
  | customLocations =>
    have hlocations := h.locations
    rw [HostPayload.locationList, hgiven.2] at hlocations
    exact ⟨row.locations, hlocations, rfl⟩
  | forceSsl =>
    have hforced := h.forceSsl
    rw [HostPayload.forcesSsl, hgiven.2] at hforced
    exact congrArg Member.of hforced

/-- The access lists of a written host are linked by their ids. -/
lemma selected_of_writeHost {owner : Option ℕ → Option ℕ} {excludeId : Option ℕ} {id : ℕ}
    {rows : Dict ℕ HostRow}
    (h : writeHost certificates accessLists kind owner excludeId id payload rows = .ok row) :
    ∀ id ∈ payload.selectedAccessLists, 0 ≤ id := by
  obtain ⟨payload', columns, hpayload, -, -, hchildren⟩ := writeHost_eq_ok_iff.mp h
  obtain ⟨_, _, _, hheld, -⟩ := replaceHostChildren_eq_ok_iff.mp hchildren
  have hknown := hheld.known
  rw [(checked_of_validatePayload hpayload).selected] at hknown
  intro id hid
  by_contra hnegative
  exact hknown ⟨id, hid, fun i _ heq => hnegative (heq ▸ Int.natCast_nonneg i)⟩

/-- A replacement, which has no row under the payload, reads the aliases. -/
theorem shows_of_replaceHost {actor : Actor} {id : ℕ} {rows rows' : Dict ℕ HostRow}
    (hstored : getHost kind id rows = some stored) {a : HostAlias} (hgiven : payload.GivenAs a)
    (h : replaceHost certificates accessLists actor kind id payload rows = .ok rows') :
    ∃ row, getHost kind id rows' = some row ∧ (projectHost row).Shows payload a := by
  rw [replaceHost, hstored] at h
  obtain ⟨row, rfl, hwrite⟩ := storeHost_spec h
  have hrow := (hostStored_of_writeHost hwrite).1
  exact ⟨row, getHost_set hrow.kind_eq,
    shows_of_hostStored hgiven hrow (selected_of_writeHost hwrite)⟩

lemma shows_iff_of_updateHost {actor : Actor} {id : ℕ} {rows rows' : Dict ℕ HostRow}
    (hrows : HostsReached rows) (hstored : getHost kind id rows = some stored) {a : HostAlias}
    (hgiven : payload.GivenAs a)
    (h : updateHost certificates accessLists actor kind id payload rows = .ok rows') :
    ∃ row, getHost kind id rows' = some row ∧
      ((projectHost row).Shows payload a ↔ (projectHost stored).Shows payload a) := by
  rw [updateHost, hstored] at h
  obtain ⟨row, rfl, hwrite⟩ := storeHost_spec h
  have hrow := (hostStored_of_writeHost hwrite).1
  exact ⟨row, getHost_set hrow.kind_eq,
    shows_iff_of_over (hrows.reread _ _ (getHost_eq_some hstored)) hgiven hrow⟩

end Hosts

/-! ## Access lists -/

/-- The names of some credentials. -/
def credentialNames (credentials : Member (List CredentialPayload)) : List String :=
  (credentials.get.getD []).map fun credential => textOr credential.username ""

/-- A projection shows the credentials that a payload gives under the alias; it has their names. -/
def AccessListPayload.ShowsCredentials (shown payload : AccessListPayload) : Prop :=
  credentialNames shown.items = credentialNames payload.credentials

section AccessLists

variable {digest : ℕ → String → String} {id : ℕ} {payload : AccessListPayload}
  {t t' : AccessTables}

/-- The projection shows the names that were written. -/
lemma credentialNames_of_wrote (h : Wrote digest id payload t t') :
    credentialNames (projectAccessList t' id (accessListRow payload)).items =
      credentialNames (payload.items.or payload.credentials) := by
  have hnames : (t'.pairsOf id).map Prod.fst = payload.aggregate.credentials.map Prod.fst := by
    rw [h.pairs, storedPairs, List.map_map]
    calc payload.aggregate.credentials.zipIdx.map _
        = (payload.aggregate.credentials.zipIdx.map Prod.fst).map Prod.fst := by
          rw [List.map_map]
          rfl
      _ = payload.aggregate.credentials.map Prod.fst := by rw [List.zipIdx_map_fst]
  simp only [AccessTables.pairsOf, AccessListPayload.aggregate, List.map_map] at hnames
  simp only [credentialNames, projectAccessList, Member.get_of, Option.getD_some, List.map_map]
  refine Eq.trans (List.map_congr_left fun r _ => ?_) hnames
  exact textOr_empty r.username

/-- The credentials of an update are those of the projection, which names its items. -/
lemma showsCredentials_iff_of_updateAccessList {actor : Actor} {stored : AccessListRow}
    (hstored : t.lists.get? id = some stored) (hcanonical : payload.items = none)
    (h : updateAccessList digest actor id payload t = .ok t') :
    ∃ row, t'.lists.get? id = some row ∧
      ((projectAccessList t' id row).ShowsCredentials payload ↔
        (projectAccessList t id stored).ShowsCredentials payload) := by
  rcases updateAccessList_cases h with ⟨-, hnone⟩ | ⟨stored', hstored', hwrote⟩
  · exact absurd (hstored.symm.trans hnone) (by simp)
  · obtain rfl : stored' = stored := Option.some.inj (hstored'.symm.trans hstored)
    refine ⟨_, hwrote.row, ?_⟩
    have hitems : (payload.over (projectAccessList t id stored')).items =
        (projectAccessList t id stored').items := by
      rw [AccessListPayload.over, hcanonical, Option.none_or]
    have hnames := credentialNames_of_wrote hwrote
    rw [hitems] at hnames
    rw [AccessListPayload.ShowsCredentials, AccessListPayload.ShowsCredentials, hnames]
    rfl

/-- A replacement reads the credentials under their alias. -/
theorem showsCredentials_of_replaceAccessList {actor : Actor} {stored : AccessListRow}
    (hstored : t.lists.get? id = some stored) (hcanonical : payload.items = none)
    (h : replaceAccessList digest actor id payload t = .ok t') :
    ∃ row, t'.lists.get? id = some row ∧
      (projectAccessList t' id row).ShowsCredentials payload := by
  rcases replaceAccessList_cases h with ⟨-, hnone⟩ | ⟨-, hwrote⟩
  · exact absurd (hstored.symm.trans hnone) (by simp)
  · refine ⟨_, hwrote.row, ?_⟩
    have hnames := credentialNames_of_wrote hwrote
    rwa [hcanonical, Option.none_or] at hnames

end AccessLists

/-! ## Updates -/

/-- A member that an update gives under its alias shows afterwards exactly when it showed before. -/
theorem aliases_take_effect_iff (actor : Actor) (id : ℕ) :
    (∀ (payload : HostPayload) (a : HostAlias) {certificates accessLists : List ℕ}
      {kind : HostKind} {rows rows' : Dict ℕ HostRow} {stored : HostRow},
      HostsReached rows → getHost kind id rows = some stored → payload.GivenAs a →
      updateHost certificates accessLists actor kind id payload rows = .ok rows' →
      ∃ row, getHost kind id rows' = some row ∧
        ((projectHost row).Shows payload a ↔ (projectHost stored).Shows payload a)) ∧
    ∀ (payload : AccessListPayload) {digest : ℕ → String → String} {t t' : AccessTables}
      {stored : AccessListRow}, t.lists.get? id = some stored →
      payload.credentials.isSome = true → payload.items = none →
      updateAccessList digest actor id payload t = .ok t' →
      ∃ row, t'.lists.get? id = some row ∧
        ((projectAccessList t' id row).ShowsCredentials payload ↔
          (projectAccessList t id stored).ShowsCredentials payload) :=
  ⟨fun _ _ _ _ _ _ _ _ hrows hstored hgiven h =>
      shows_iff_of_updateHost hrows hstored hgiven h,
    fun _ _ _ _ _ hstored _ hcanonical h =>
      showsCredentials_iff_of_updateAccessList hstored hcanonical h⟩

/-- A dead host as it was created. -/
def createdHosts : Dict ℕ HostRow :=
  (createHost [] [1] none .dead 1 { domainNames := .of ["app.example"] } Dict.empty).toOption.getD
    Dict.empty

/-- The host after an update that gives an access list under the alias. -/
def listedHosts (accessListId : ℤ) : Dict ℕ HostRow :=
  (updateHost [] [1] none .dead 1 { accessListId := .of accessListId } createdHosts).toOption.getD
    Dict.empty

lemma createdHosts_reached : HostsReached createdHosts :=
  HostsReached.create .empty (eq_getD_of_isSome (by decide))

/-- A digest that keeps the password, where no password is hashed. -/
def plainHash (_ : ℕ) (password : String) : String := password

/-- An access list without credentials. -/
def emptyAccess : AccessTables :=
  (createAccessList plainHash none { name := .of "staff" } ⟨.empty, .empty, .empty⟩).toOption.getD
    ⟨.empty, .empty, .empty⟩

/-- The access list after an update that gives no credential under the alias. -/
def clearedAccess : AccessTables :=
  (updateAccessList plainHash none 1 { credentials := .of [] } emptyAccess).toOption.getD
    emptyAccess

/-- An update that names no access list, and one that names no credential. -/
theorem aliases_take_effect_iff_cleared :
    (∃ stored row, getHost .dead 1 createdHosts = some stored ∧
      getHost .dead 1 (listedHosts 0) = some row ∧
      ((projectHost row).Shows { accessListId := .of 0 } .accessListId ↔
        (projectHost stored).Shows { accessListId := .of 0 } .accessListId)) ∧
    ∃ stored row, emptyAccess.lists.get? 1 = some stored ∧ clearedAccess.lists.get? 1 = some row ∧
      ((projectAccessList clearedAccess 1 row).ShowsCredentials { credentials := .of [] } ↔
        (projectAccessList emptyAccess 1 stored).ShowsCredentials { credentials := .of [] }) := by
  constructor
  · obtain ⟨stored, hstored⟩ := Option.isSome_iff_exists.mp
      (show (getHost .dead 1 createdHosts).isSome = true by decide)
    have hupdate : updateHost [] [1] none .dead 1 { accessListId := .of 0 } createdHosts =
        .ok (listedHosts 0) := eq_getD_of_isSome (by decide)
    obtain ⟨row, hrow, hshows⟩ := (aliases_take_effect_iff none 1).1 { accessListId := .of 0 } .accessListId
      createdHosts_reached hstored ⟨rfl, rfl⟩ hupdate
    exact ⟨stored, row, hstored, hrow, hshows⟩
  · obtain ⟨stored, hstored⟩ := Option.isSome_iff_exists.mp
      (show (emptyAccess.lists.get? 1).isSome = true by decide)
    have hupdate : updateAccessList plainHash none 1 { credentials := .of [] } emptyAccess =
        .ok clearedAccess := eq_getD_of_isSome (by decide)
    obtain ⟨row, hrow, hshows⟩ :=
      (aliases_take_effect_iff none 1).2 { credentials := .of [] } hstored rfl rfl hupdate
    exact ⟨stored, row, hstored, hrow, hshows⟩

/-- An accepted update that gives the access list of a host under `access_list_id` leaves the host
without an access list. -/
theorem accessListId_ignored :
    ∃ stored row, HostsReached createdHosts ∧ getHost .dead 1 createdHosts = some stored ∧
      updateHost [] [1] none .dead 1 { accessListId := .of 1 } createdHosts = .ok (listedHosts 1) ∧
      getHost .dead 1 (listedHosts 1) = some row ∧
      ¬ (projectHost row).Shows { accessListId := .of 1 } .accessListId := by
  obtain ⟨stored, hstored⟩ := Option.isSome_iff_exists.mp
    (show (getHost .dead 1 createdHosts).isSome = true by decide)
  obtain ⟨row, hrow⟩ := Option.isSome_iff_exists.mp
    (show (getHost .dead 1 (listedHosts 1)).isSome = true by decide)
  refine ⟨stored, row, createdHosts_reached, hstored, eq_getD_of_isSome (by decide), hrow,
    fun hshows => ?_⟩
  have hshown : ((getHost .dead 1 (listedHosts 1)).map fun row =>
      (projectHost row).accessListId.get.getD 0) = some 0 := by decide
  rw [hrow, Option.map_some, Option.some.injEq] at hshown
  exact absurd (hshown.symm.trans hshows) (by decide)

end Portwyrm.Tables

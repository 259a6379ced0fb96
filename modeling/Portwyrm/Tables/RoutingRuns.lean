import Portwyrm.Tables.RenderRun
import Portwyrm.Tables.TableRuns

/-!
# Runs of writes, switches and deletions

The tables of a generation under all operations of the tables: creates, updates and replacements,
`set_enabled`, and `delete_resource`.
-/

namespace Portwyrm.Tables

open Base Portwyrm.Runtime Portwyrm.Quic Portwyrm.Identity

/-- The tables of a generation among those of all collections. -/
def CollectionTables.routing (t : CollectionTables) (quicRoutes : List QuicRoute) : RoutingTables :=
  ⟨t.hosts, t.streams, quicRoutes, t.access⟩

/-- The tables that accepted calls make of empty ones. -/
inductive RoutingReached (bcryptHash : ℕ → String → String) : RoutingTables → Prop
  | empty : RoutingReached bcryptHash {}
  | call {t t' : RoutingTables} (certificates : List ℕ) (call : RoutingCall)
      (h : RoutingReached bcryptHash t)
      (hop : applyRoutingOp bcryptHash certificates t call = .ok t') :
      RoutingReached bcryptHash t'
  | setEnabled {t t' : CollectionTables} {quicRoutes : List QuicRoute} (actor : Actor)
      (c : Collection) (id : ℕ) (enabled : Bool)
      (h : RoutingReached bcryptHash (t.routing quicRoutes))
      (hop : setEnabled actor c id enabled t = .ok (some t')) :
      RoutingReached bcryptHash (t'.routing quicRoutes)
  | delete {t t' : CollectionTables} {quicRoutes : List QuicRoute} (actor : Actor)
      (c : Collection) (id : ℕ) (h : RoutingReached bcryptHash (t.routing quicRoutes))
      (hop : deleteResource actor c id t = .ok (some t')) :
      RoutingReached bcryptHash (t'.routing quicRoutes)

section Steps

variable {t t' : CollectionTables} {quicRoutes : List QuicRoute} {actor : Actor} {c : Collection}
  {id : ℕ}

/-- A switch that is accepted writes one row of hosts or of streams. -/
lemma setEnabled_cases {enabled : Bool}
    (hop : Tables.setEnabled actor c id enabled t = .ok (some t')) :
    t' = t ∨
    (∃ row, t.hosts.get? id = some row ∧
      t' = { t with hosts := t.hosts.set id { row with enabled := enabled } }) ∨
    ∃ row, t.streams.get? id = some row ∧
      t' = { t with streams := t.streams.set id { row with enabled := enabled } } := by
  simp only [Tables.setEnabled, bind_eq_ok_iff, pure_eq_ok_iff] at hop
  obtain ⟨stored, hstored, hfound⟩ := hop
  obtain rfl : stored = some t' := (Option.filter_eq_some_iff.mp hfound).1
  have hwritten : storeEnabled actor c id enabled t = .ok t' :=
    noneIfRefused_eq_ok hstored t' rfl
  unfold storeEnabled at hwritten
  split at hwritten
  · simp only [bind_eq_ok_iff, pure_eq_ok_iff] at hwritten
    obtain ⟨hosts, hhosts, rfl⟩ := hwritten
    rcases setHostEnabled_spec hhosts with ⟨rfl, -⟩ | ⟨row, hget, rfl⟩
    · exact .inl rfl
    · exact .inr (.inl ⟨row, hget, rfl⟩)
  · simp only [bind_eq_ok_iff, pure_eq_ok_iff] at hwritten
    obtain ⟨streams, hstreams, rfl⟩ := hwritten
    rcases setStreamEnabled_spec hstreams with rfl | ⟨row, hget, rfl⟩
    · exact .inl rfl
    · exact .inr (.inr ⟨row, hget, rfl⟩)
  · exact absurd hwritten throw_ne_ok

/-- A deletion that is accepted takes one row away, and those below an access list. -/
lemma deleteResource_cases (hop : deleteResource actor c id t = .ok (some t')) :
    t' = t ∨ t' = { t with hosts := t.hosts.pop id } ∨
    t' = { t with streams := t.streams.pop id } ∨
    t' = { t with certificates := t.certificates.pop id } ∨
    ∃ stored, Tables.deleteAccessList actor id stored t = .ok t' := by
  unfold deleteResource at hop
  split at hop
  · split at hop
    · exact absurd (pure_eq_ok_iff.mp hop) (by simp)
    · simp only [bind_eq_ok_iff, pure_eq_ok_iff, Option.some.injEq] at hop
      obtain ⟨hosts, hhosts, rfl⟩ := hop
      rcases deleteHost_cases hhosts with rfl | rfl
      · exact .inl rfl
      · exact .inr (.inl rfl)
  · split at hop
    · exact absurd (pure_eq_ok_iff.mp hop) (by simp)
    · simp only [bind_eq_ok_iff, pure_eq_ok_iff, Option.some.injEq] at hop
      obtain ⟨streams, hstreams, rfl⟩ := hop
      rcases deleteStream_cases hstreams with rfl | rfl
      · exact .inl rfl
      · exact .inr (.inr (.inl rfl))
  · split at hop
    · exact absurd (pure_eq_ok_iff.mp hop) (by simp)
    · obtain ⟨removed, hremoved, heq⟩ := map_eq_ok_iff.mp hop
      obtain rfl := Option.some.inj heq
      simp only [Tables.deleteCertificate, bind_eq_ok_iff, pure_eq_ok_iff] at hremoved
      obtain ⟨_, -, _, -, _, -, rfl⟩ := hremoved
      exact .inr (.inr (.inr (.inl rfl)))
  · split at hop
    · exact absurd (pure_eq_ok_iff.mp hop) (by simp)
    · rename_i stored _
      obtain ⟨removed, hremoved, heq⟩ := map_eq_ok_iff.mp hop
      obtain rfl := Option.some.inj heq
      exact .inr (.inr (.inr (.inr ⟨stored, hremoved⟩)))
  · exact absurd (pure_eq_ok_iff.mp hop) (by simp)
  · exact absurd (pure_eq_ok_iff.mp hop) (by simp)

/-! ## What holds of the rows -/

lemma Sound.setHosts {t : RoutingTables} (ht : Sound t) {hosts : Dict ℕ HostRow}
    (h : ∀ id row, hosts.get? id = some row → ValidHost id row ∧
      ∀ i ∈ row.accessListIds, ∃ l, t.access.lists.get? i = some l) :
    Sound { t with hosts := hosts } :=
  { ht with
    hosts := fun id row hget => (h id row hget).1
    selected := fun id row hget => (h id row hget).2 }

lemma Sound.setEnabled (ht : Sound (t.routing quicRoutes)) {enabled : Bool}
    (hop : Tables.setEnabled actor c id enabled t = .ok (some t')) :
    Sound (t'.routing quicRoutes) := by
  rcases setEnabled_cases hop with rfl | ⟨row, hget, rfl⟩ | ⟨row, hget, rfl⟩
  · exact ht
  · refine ht.setHosts (Dict.forall_set (fun i r hr => ⟨ht.hosts i r hr, ht.selected i r hr⟩) ?_)
    have hvalid : ValidHost id row := ht.hosts id row hget
    exact ⟨{ hvalid with }, ht.selected id row hget⟩
  · have hvalid : ValidStream row := ht.streams id row hget
    exact { ht with streams := Dict.forall_set ht.streams { hvalid with } }

/-- An access list that is deleted leaves the rows of all others. -/
lemma Sound.deleteAccessList (ht : Sound (t.routing quicRoutes)) {stored : AccessListRow}
    (hop : Tables.deleteAccessList actor id stored t = .ok t') : Sound (t'.routing quicRoutes) := by
  simp only [Tables.deleteAccessList, bind_eq_ok_iff, raiseIf_eq_ok_iff, pure_eq_ok_iff] at hop
  obtain ⟨_, -, _, -, _, hunlinked, rfl⟩ := hop
  have hrules : ∀ a, ∀ r ∈ AccessTables.rulesOf
      { t.access with rules := t.access.rules.deleteWhere fun r => r.accessListId = id } a,
      r ∈ t.access.rulesOf a := by
    intro a r hr
    rw [AccessTables.rulesOf, mem_sortedBy, Table.select, List.mem_filter] at hr ⊢
    rw [Table.values_deleteWhere] at hr
    exact ⟨(List.mem_filter.mp hr.1).1, hr.2⟩
  have hcredentials : ∀ a, ∀ r ∈ AccessTables.credentialsOf
      { t.access with
        credentials := t.access.credentials.deleteWhere fun r => r.accessListId = id } a,
      r ∈ t.access.credentialsOf a := by
    intro a r hr
    rw [AccessTables.credentialsOf, Table.select, List.mem_filter] at hr ⊢
    rw [Table.values_deleteWhere] at hr
    exact ⟨(List.mem_filter.mp hr.1).1, hr.2⟩
  exact
    { ht with
      selected := by
        intro host row hget i hi
        have hne : i ≠ id := by
          rintro rfl
          exact hunlinked ⟨row, Dict.mem_values_iff.mpr ⟨host, hget⟩, hi⟩
        obtain ⟨l, hl⟩ := ht.selected host row hget i hi
        exact ⟨l, ((Dict.get?_pop _ id i).trans (if_neg hne)).trans hl⟩
      access :=
        { next := ht.access.next
          positive := Dict.forall_pop id ht.access.positive
          rules := fun a r hr => ht.access.rules a r (hrules a r hr)
          credentials := fun a r hr => ht.access.credentials a r (hcredentials a r hr) } }

lemma Sound.delete (ht : Sound (t.routing quicRoutes))
    (hop : deleteResource actor c id t = .ok (some t')) : Sound (t'.routing quicRoutes) := by
  rcases deleteResource_cases hop with rfl | rfl | rfl | rfl | ⟨stored, hstored⟩
  · exact ht
  · exact ht.setHosts (Dict.forall_pop id fun i r hr => ⟨ht.hosts i r hr, ht.selected i r hr⟩)
  · exact { ht with streams := Dict.forall_pop id ht.streams }
  · exact ht
  · exact ht.deleteAccessList hstored

end Steps

/-- The tables that accepted calls make are sound. -/
theorem RoutingReached.sound {bcryptHash : ℕ → String → String} {t : RoutingTables}
    (h : RoutingReached bcryptHash t) : Sound t := by
  induction h with
  | empty => exact sound_empty
  | call certificates call _ hop ih => exact (applyRoutingOp_spec ih hop).1
  | setEnabled actor c id enabled _ hop ih => exact ih.setEnabled hop
  | delete actor c id _ hop ih => exact ih.delete hop

/-! ## Domains -/

/-- A host that is written claims no domain of another host. -/
lemma unclaimed_of_writeHost {certificates accessLists : List ℕ} {kind : HostKind}
    {owner : Option ℕ → Option ℕ} {excludeId : Option ℕ} {id : ℕ} {payload : HostPayload}
    {rows : Dict ℕ HostRow} {row : HostRow}
    (h : writeHost certificates accessLists kind owner excludeId id payload rows = .ok row) :
    Unclaimed HostRow.sources rows id row :=
  unclaimed_of_takenDomains (storedHost_of_writeHost h).2

lemma domains_applyRoutingOp {bcryptHash : ℕ → String → String} {certificates : List ℕ}
    {t t' : RoutingTables} {call : RoutingCall} (ht : Exclusive HostRow.sources t.hosts)
    (h : applyRoutingOp bcryptHash certificates t call = .ok t') :
    Exclusive HostRow.sources t'.hosts := by
  obtain ⟨actor, salts, op⟩ := call
  cases op with
  | createHost kind generated payload =>
    simp only [applyRoutingOp, bind_eq_ok_iff, pure_eq_ok_iff] at h
    obtain ⟨_, h, rfl⟩ := h
    obtain ⟨row, rfl, -, hrow⟩ := createHost_spec h
    exact ht.set_iff.mpr (unclaimed_of_writeHost hrow)
  | updateHost kind id payload =>
    simp only [applyRoutingOp, bind_eq_ok_iff, pure_eq_ok_iff] at h
    obtain ⟨hosts, h, rfl⟩ := h
    rcases updateHost_cases h with ⟨rfl, -⟩ | ⟨stored, row, -, rfl, hrow⟩
    · exact ht
    · exact ht.set_iff.mpr (unclaimed_of_writeHost hrow)
  | replaceHost kind id payload =>
    simp only [applyRoutingOp, bind_eq_ok_iff, pure_eq_ok_iff] at h
    obtain ⟨hosts, h, rfl⟩ := h
    rcases replaceHost_cases h with ⟨rfl, -⟩ | ⟨stored, row, -, rfl, hrow⟩
    · exact ht
    · exact ht.set_iff.mpr (unclaimed_of_writeHost hrow)
  | createStream generated payload | updateStream id payload | replaceStream id payload
  | route op | createAccessList payload | updateAccessList id payload
  | replaceAccessList id payload =>
    simp only [applyRoutingOp, bind_eq_ok_iff, pure_eq_ok_iff] at h
    obtain ⟨_, -, rfl⟩ := h
    exact ht

/-- No two hosts claim one domain, in tables that accepted calls make. -/
theorem RoutingReached.domains {bcryptHash : ℕ → String → String} {t : RoutingTables}
    (h : RoutingReached bcryptHash t) : Exclusive HostRow.sources t.hosts := by
  induction h with
  | empty => exact Exclusive.empty
  | call certificates call _ hop ih => exact domains_applyRoutingOp ih hop
  | @setEnabled t t' routes actor c id enabled _ hop ih =>
    rcases setEnabled_cases hop with rfl | ⟨row, hget, rfl⟩ | ⟨row, -, rfl⟩
    · exact ih
    · have hsame : Unclaimed HostRow.sources t.hosts id row := ih.unclaimed hget
      exact ih.set_iff.mpr (hsame.congr rfl)
    · exact ih
  | @delete t t' routes actor c id _ hop ih =>
    rcases deleteResource_cases hop with rfl | rfl | rfl | rfl | ⟨stored, hstored⟩
    · exact ih
    · exact ih.pop id
    · exact ih
    · exact ih
    · simp only [Tables.deleteAccessList, bind_eq_ok_iff, pure_eq_ok_iff] at hstored
      obtain ⟨_, -, _, -, _, -, rfl⟩ := hstored
      exact ih

end Portwyrm.Tables

import Mathlib.Data.String.Basic
import Portwyrm.Runtime.GenerationStore

/-!
# Rendering does not see the order of its inputs

Every collection that `NginxRenderer.render` reads is sorted before it is written: hosts,
streams and access lists by their ids, the locations of a host by their paths, the access lists
of a host by their ids when they are merged, QUIC routes by their listeners and names.  Where
no two elements share a key, the order that the collection came in is lost, and the whole
generation is the same, down to the order of its files.
-/

namespace Portwyrm.Runtime

open Base

/-! ## Sorting -/

section Sorting

variable {α κ : Type} {le : κ → κ → Bool} {key : α → κ} {l l' : List α}

/-- Two keys can always be compared, and equal ones only are before each other. -/
structure Ranks (le : κ → κ → Bool) : Prop where
  total : ∀ a b, le a b = true ∨ le b a = true
  trans : ∀ a b c, le a b = true → le b c = true → le a c = true
  antisymm : ∀ a b, le a b = true → le b a = true → a = b

lemma pairwise_sortedBy (hle : Ranks le) (key : α → κ) (l : List α) :
    (sortedBy le key l).Pairwise fun a b => le (key a) (key b) = true := by
  have htotal : Std.Total fun a b : α => le (key a) (key b) = true :=
    ⟨fun a b => hle.total (key a) (key b)⟩
  have htrans : IsTrans α fun a b => le (key a) (key b) = true :=
    ⟨fun a b c => hle.trans (key a) (key b) (key c)⟩
  exact List.pairwise_insertionSort _ _

/-- The order of a list is lost in `sorted` where different elements have different keys. -/
lemma sortedBy_eq_of_perm (hle : Ranks le) (hperm : l.Perm l')
    (hkey : ∀ a ∈ l, ∀ b ∈ l, key a = key b → a = b) :
    sortedBy le key l = sortedBy le key l' := by
  have hsorted : (sortedBy le key l).Perm (sortedBy le key l') :=
    ((perm_sortedBy le key l).trans hperm).trans (perm_sortedBy le key l').symm
  refine List.Perm.eq_of_pairwise ?_ (pairwise_sortedBy hle key l) (pairwise_sortedBy hle key l')
    hsorted
  intro a b ha hb hab hba
  exact hkey a (mem_sortedBy.mp ha) b (hperm.mem_iff.mpr (mem_sortedBy.mp hb))
    (hle.antisymm _ _ hab hba)

/-- A list that is sorted already stays as it is. -/
lemma sortedBy_sortedBy (hle : Ranks le) : sortedBy le key (sortedBy le key l) =
    sortedBy le key l :=
  List.Pairwise.insertionSort_eq (pairwise_sortedBy hle key l)

lemma sortedBy_eq_nil : sortedBy le key l = [] ↔ l = [] := by
  rw [← List.length_eq_zero_iff, (perm_sortedBy le key l).length_eq, List.length_eq_zero_iff]

/-- Sorting commutes with a map that leaves the keys alone. -/
lemma map_sortedBy {β : Type} {key' : β → κ} (f : α → β) (hf : ∀ a, key' (f a) = key a) :
    (sortedBy le key l).map f = sortedBy le key' (l.map f) := by
  refine List.map_insertionSort _ _ f l fun a _ b _ => ?_
  show le (key a) (key b) = true ↔ le (key' (f a)) (key' (f b)) = true
  rw [hf a, hf b]

lemma ranks_natLe : Ranks natLe where
  total a b := by simpa [natLe] using Nat.le_total a b
  trans a b c := by simpa [natLe] using Nat.le_trans
  antisymm a b := by simpa [natLe] using Nat.le_antisymm

lemma ranks_textLe : Ranks textLe where
  total a b := by simpa [textLe] using String.le_total a b
  trans a b c := by simpa [textLe] using String.le_trans
  antisymm a b := by simpa [textLe] using String.le_antisymm

lemma ranks_listenerLe : Ranks listenerLe where
  total a b := by
    simp only [listenerLe, natLe, Bool.or_eq_true, Bool.and_eq_true, decide_eq_true_eq, beq_iff_eq]
    rcases lt_trichotomy a.1 b.1 with h | h | h
    · exact .inl (.inl h)
    · exact (le_total a.2 b.2).imp (fun h' => .inr ⟨h, h'⟩) fun h' => .inr ⟨h.symm, h'⟩
    · exact .inr (.inl h)
  trans a b c := by
    simp only [listenerLe, natLe, Bool.or_eq_true, Bool.and_eq_true, decide_eq_true_eq, beq_iff_eq]
    rintro (h | ⟨h, h'⟩) (g | ⟨g, g'⟩)
    · exact .inl (h.trans g)
    · exact .inl (g ▸ h)
    · exact .inl (h ▸ g)
    · exact .inr ⟨h.trans g, h'.trans g'⟩
  antisymm a b := by
    simp only [listenerLe, natLe, Bool.or_eq_true, Bool.and_eq_true, decide_eq_true_eq, beq_iff_eq]
    rintro (h | ⟨h, h'⟩) (g | ⟨g, g'⟩)
    · exact absurd h (lt_asymm g)
    · exact absurd g.symm h.ne
    · exact absurd h.symm g.ne
    · exact Prod.ext h (le_antisymm h' g')

end Sorting

/-! ## Access lists -/

/-- A merged policy depends on the access lists, not on the order in which a host names them. -/
lemma mergeAccessLists_eq_of_perm {lists lists' : List AccessList} (hperm : lists.Perm lists')
    (hids : ∀ a ∈ lists, ∀ b ∈ lists, a.id = b.id → a = b) :
    mergeAccessLists lists = mergeAccessLists lists' := by
  rw [mergeAccessLists, mergeAccessLists, sortedBy_eq_of_perm ranks_natLe hperm hids]

section AccessById

variable {accessLists accessLists' : List AccessList}

lemma id_of_accessById {i : ℕ} {l : AccessList}
    (h : (accessById accessLists).get? i = some l) : l.id = i := by
  obtain ⟨l₁, l₂, hsplit, -⟩ := Dict.get?_ofList_eq_some_iff.mp h
  have hmem : (i, l) ∈ accessLists.map fun l => (l.id, l) := by simp [hsplit]
  obtain ⟨l', -, heq⟩ := List.mem_map.mp hmem
  obtain ⟨hi, rfl⟩ := Prod.mk.inj heq
  exact hi

/-- `access_by_id` answers the same whatever order the access lists come in. -/
lemma accessById_get?_of_perm (hperm : accessLists.Perm accessLists')
    (hids : (accessLists.map AccessList.id).Nodup) :
    (accessById accessLists).get? = (accessById accessLists').get? := by
  have hids' : (accessLists'.map AccessList.id).Nodup := (hperm.map _).nodup_iff.mp hids
  have hmem : ∀ {lists : List AccessList}, (lists.map AccessList.id).Nodup → ∀ i l,
      (accessById lists).get? i = some l ↔ l ∈ lists ∧ l.id = i := by
    intro lists hnodup i l
    have hkeys : ((lists.map fun l => (l.id, l)).map Prod.fst).Nodup := by
      rwa [List.map_map]
    rw [accessById, Dict.ofList_of_nodup hkeys, ← Dict.mem_entries_iff]
    simp only [List.mem_map, Prod.mk.injEq]
    constructor
    · rintro ⟨a, ha, rfl, rfl⟩
      exact ⟨ha, rfl⟩
    · rintro ⟨hl, rfl⟩
      exact ⟨l, hl, rfl, rfl⟩
  funext i
  refine Option.ext fun l => ?_
  rw [hmem hids, hmem hids', hperm.mem_iff]

end AccessById

/-! ## Hosts -/

/-- One host in two orders of its access lists and of its locations. -/
structure RuntimeHost.Reordered (host host' : RuntimeHost) : Prop where
  rest : { host with accessListIds := [], locations := [] } =
    { host' with accessListIds := [], locations := [] }
  accessListIds : host.accessListIds.Perm host'.accessListIds
  locations : host.locations.Perm host'.locations

/-- A host with its access lists and its locations in the order in which they are written. -/
def RuntimeHost.ordered (host : RuntimeHost) : RuntimeHost :=
  { host with
    accessListIds := sortedBy natLe (fun i => i) host.accessListIds
    locations := sortedBy textLe ProxyLocation.path host.locations }

lemma RuntimeHost.Reordered.ordered_eq {host host' : RuntimeHost} (h : host.Reordered host')
    (hpaths : (host.locations.map ProxyLocation.path).Nodup) : host.ordered = host'.ordered := by
  have hids : sortedBy natLe (fun i => i) host.accessListIds = sortedBy natLe (fun i => i) host'.accessListIds :=
    sortedBy_eq_of_perm ranks_natLe h.accessListIds fun _ _ _ _ h => h
  have hlocations : sortedBy textLe ProxyLocation.path host.locations =
      sortedBy textLe ProxyLocation.path host'.locations :=
    sortedBy_eq_of_perm ranks_textLe h.locations fun a ha b hb hkey =>
      List.inj_on_of_nodup_map hpaths ha hb hkey
  have hrest := h.rest
  simp only [RuntimeHost.mk.injEq] at hrest
  simp only [RuntimeHost.ordered, RuntimeHost.mk.injEq]
  grind

section Ordered

variable {byId : Dict ℕ AccessList} (platform : PlatformConfig) (host : RuntimeHost)

lemma perm_selectedLists_ordered (byId : Dict ℕ AccessList) :
    (selectedLists byId host.ordered).Perm (selectedLists byId host) := by
  refine List.Perm.filterMap _ ?_
  simp only [selectedIds, RuntimeHost.ordered, ne_eq, sortedBy_eq_nil]
  split
  · exact perm_sortedBy natLe (fun i => i) host.accessListIds
  · exact List.Perm.refl _

lemma renderProxy_ordered (accessList : Option AccessList) (passwordFile : Option String) :
    renderProxy platform host.ordered accessList passwordFile =
      renderProxy platform host accessList passwordFile := by
  have hdefault : hasDefaultLocation host.ordered = hasDefaultLocation host := by
    simp only [hasDefaultLocation, RuntimeHost.ordered]
    rw [(perm_sortedBy textLe ProxyLocation.path host.locations).any_eq]
  have hlocations : sortedBy textLe ProxyLocation.path host.ordered.locations =
      sortedBy textLe ProxyLocation.path host.locations := sortedBy_sortedBy ranks_textLe
  unfold renderProxy proxyLines
  rw [hdefault, hlocations]
  rfl

/-- The files of a proxy host do not depend on the order of its lists. -/
lemma proxyFiles_ordered (hbyId : ∀ i l, byId.get? i = some l → l.id = i) :
    proxyFiles platform byId host.ordered = proxyFiles platform byId host := by
  have hperm := perm_selectedLists_ordered host byId
  have hids : ∀ a ∈ selectedLists byId host.ordered, ∀ b ∈ selectedLists byId host.ordered,
      a.id = b.id → a = b := by
    intro a ha b hb hab
    obtain ⟨i, -, hi⟩ := List.mem_filterMap.mp ha
    obtain ⟨j, -, hj⟩ := List.mem_filterMap.mp hb
    have hij : i = j := (hbyId i a hi).symm.trans (hab.trans (hbyId j b hj))
    exact Option.some.inj (hi.symm.trans (hij ▸ hj))
  have hpolicy : effectivePolicy byId host.ordered = effectivePolicy byId host :=
    mergeAccessLists_eq_of_perm hperm hids
  have hfile : passwordFile host.ordered (selectedLists byId host.ordered) =
      passwordFile host (selectedLists byId host) := by
    rw [passwordFile, passwordFile, hperm.length_eq]
    rfl
  simp only [proxyFiles]
  rw [hpolicy, hfile]
  refine bind_congr fun effective => ?_
  rw [renderProxy_ordered]
  rfl

end Ordered

/-! ## QUIC routes -/

section Quic

variable {routes routes' : List QuicRoute}

/-- No two routes share a listener and a server name. -/
def DistinctRoutes (routes : List QuicRoute) : Prop :=
  ∀ a ∈ routes, ∀ b ∈ routes, a.listener = b.listener → a.serverName = b.serverName → a = b

/-- The groups, with their listeners in order. -/
lemma quicGroups_eq (routes : List QuicRoute) : quicGroups routes =
    (sortedBy listenerLe id (Dict.fromKeys (routes.map QuicRoute.listener))).map fun listener =>
      (listener, routes.filter fun route => route.listener = listener) :=
  (map_sortedBy _ fun _ => rfl).symm

lemma nodup_fromKeys {κ : Type} [DecidableEq κ] (l : List κ) : (Dict.fromKeys l).Nodup :=
  (Dict.ofList (l.map fun k => (k, ()))).nodup

/-- The routes of the QUIC data plane are written in one order. -/
lemma renderQuicRoutes_eq_of_perm (hperm : routes.Perm routes') (hdistinct : DistinctRoutes routes) :
    renderQuicRoutes routes = renderQuicRoutes routes' := by
  have henabled := hperm.filter QuicRoute.enabled
  have hlisteners : sortedBy listenerLe id
        (Dict.fromKeys ((routes.filter QuicRoute.enabled).map QuicRoute.listener)) =
      sortedBy listenerLe id
        (Dict.fromKeys ((routes'.filter QuicRoute.enabled).map QuicRoute.listener)) := by
    refine sortedBy_eq_of_perm ranks_listenerLe ?_ fun _ _ _ _ => id
    refine (List.perm_ext_iff_of_nodup (nodup_fromKeys _) (nodup_fromKeys _)).mpr fun listener => ?_
    rw [Dict.mem_fromKeys, Dict.mem_fromKeys, (henabled.map _).mem_iff]
  rw [renderQuicRoutes, renderQuicRoutes, quicGroups_eq, quicGroups_eq, hlisteners, List.map_map,
    List.map_map]
  refine congrArg (fun items => jsonObject [("listeners", jsonList items), ("version", "1")] ++ "\n")
    (List.map_congr_left fun listener _ => ?_)
  -- within a group the names are different
  have hgroup := henabled.filter fun route => decide (route.listener = listener)
  have hsorted : sortedBy textLe QuicRoute.serverName
        ((routes.filter QuicRoute.enabled).filter fun route => route.listener = listener) =
      sortedBy textLe QuicRoute.serverName
        ((routes'.filter QuicRoute.enabled).filter fun route => route.listener = listener) := by
    refine sortedBy_eq_of_perm ranks_textLe hgroup fun a ha b hb hname => ?_
    simp only [List.mem_filter, decide_eq_true_eq] at ha hb
    exact hdistinct a ha.1.1 b hb.1.1 (ha.2.trans hb.2.symm) hname
  simp only [Function.comp_apply, quicListenerJson, hsorted]

end Quic

/-! ## Generations -/

/-- The hosts of one collection in two orders, each with its lists in two orders. -/
def ReorderedHosts (hosts hosts' : List RuntimeHost) : Prop :=
  ∃ moved, hosts.Perm moved ∧ List.Forall₂ RuntimeHost.Reordered moved hosts'

/-- The same inputs in two orders. -/
structure RenderInput.Reordered (input input' : RenderInput) : Prop where
  proxyHosts : ReorderedHosts input.proxyHosts input'.proxyHosts
  redirectionHosts : ReorderedHosts input.redirectionHosts input'.redirectionHosts
  deadHosts : ReorderedHosts input.deadHosts input'.deadHosts
  streams : input.streams.Perm input'.streams
  quicPassthroughHosts : input.quicPassthroughHosts.Perm input'.quicPassthroughHosts
  accessLists : input.accessLists.Perm input'.accessLists

/-- Hosts with different ids, each with different paths. -/
structure DistinctHosts (hosts : List RuntimeHost) : Prop where
  ids : (hosts.map RuntimeHost.id).Nodup
  paths : ∀ host ∈ hosts, (host.locations.map ProxyLocation.path).Nodup

/-- The elements of every collection differ in the keys that they are sorted by. -/
structure RenderInput.Distinct (input : RenderInput) : Prop where
  proxyHosts : DistinctHosts input.proxyHosts
  redirectionHosts : DistinctHosts input.redirectionHosts
  deadHosts : DistinctHosts input.deadHosts
  streams : (input.streams.map Stream.id).Nodup
  quicPassthroughHosts : DistinctRoutes input.quicPassthroughHosts
  accessLists : (input.accessLists.map AccessList.id).Nodup

section Hosts

variable {hosts hosts' : List RuntimeHost}

lemma ReorderedHosts.perm_ordered (h : ReorderedHosts hosts hosts') (hd : DistinctHosts hosts) :
    (hosts.map RuntimeHost.ordered).Perm (hosts'.map RuntimeHost.ordered) := by
  obtain ⟨moved, hperm, hforall⟩ := h
  have hmoved : moved.map RuntimeHost.ordered = hosts'.map RuntimeHost.ordered := by
    have hpaths : ∀ host ∈ moved, (host.locations.map ProxyLocation.path).Nodup :=
      fun host hhost => hd.paths host (hperm.mem_iff.mpr hhost)
    clear hperm
    induction hforall with
    | nil => rfl
    | @cons host host' moved hosts' hhost _ ih =>
      rw [List.map_cons, List.map_cons, hhost.ordered_eq (hpaths host List.mem_cons_self),
        ih fun other hother => hpaths other (List.mem_cons_of_mem _ hother)]
  exact hmoved ▸ hperm.map RuntimeHost.ordered

/-- What is made of the hosts one after the other, by their ids, is the same in both orders. -/
lemma ReorderedHosts.map_sortedBy_eq {β : Type} {f : RuntimeHost → β}
    (h : ReorderedHosts hosts hosts') (hd : DistinctHosts hosts)
    (hf : ∀ host, f host.ordered = f host) :
    (sortedBy natLe RuntimeHost.id hosts).map f = (sortedBy natLe RuntimeHost.id hosts').map f := by
  have hordered : ∀ hosts : List RuntimeHost, (sortedBy natLe RuntimeHost.id hosts).map f =
      (sortedBy natLe RuntimeHost.id (hosts.map RuntimeHost.ordered)).map f := by
    intro hosts
    have hmap : (sortedBy natLe RuntimeHost.id hosts).map RuntimeHost.ordered =
        sortedBy natLe RuntimeHost.id (hosts.map RuntimeHost.ordered) := map_sortedBy _ fun _ => rfl
    rw [← hmap, List.map_map]
    exact List.map_congr_left fun host _ => (hf host).symm
  have hids : ((hosts.map RuntimeHost.ordered).map RuntimeHost.id).Nodup := by
    rw [List.map_map]
    exact hd.ids
  rw [hordered hosts, hordered hosts', sortedBy_eq_of_perm ranks_natLe (h.perm_ordered hd)
    fun a ha b hb hkey => List.inj_on_of_nodup_map hids ha hb hkey]

end Hosts

section Render

variable (platform : PlatformConfig)

lemma mapM_eq_mapM_id {α β : Type} (f : α → Result β) (l : List α) :
    l.mapM f = (l.map f).mapM id := by
  rw [List.mapM_map]
  rfl

lemma proxyFiles_congr {byId byId' : Dict ℕ AccessList} (h : byId.get? = byId'.get?) :
    proxyFiles platform byId = proxyFiles platform byId' := by
  funext host
  simp only [proxyFiles, effectivePolicy, selectedLists, h]

/-- The two orders are rendered alike, and refused alike. -/
lemma render_eq_of_reordered {input input' : RenderInput} (h : input.Reordered input')
    (hd : input.Distinct) : render platform input = render platform input' := by
  have haccess : sortedBy natLe AccessList.id input.accessLists =
      sortedBy natLe AccessList.id input'.accessLists :=
    sortedBy_eq_of_perm ranks_natLe h.accessLists fun a ha b hb hkey =>
      List.inj_on_of_nodup_map hd.accessLists ha hb hkey
  have hstreams : sortedBy natLe Stream.id input.streams =
      sortedBy natLe Stream.id input'.streams :=
    sortedBy_eq_of_perm ranks_natLe h.streams fun a ha b hb hkey =>
      List.inj_on_of_nodup_map hd.streams ha hb hkey
  have hbyId := proxyFiles_congr platform (accessById_get?_of_perm h.accessLists hd.accessLists)
  have hkeys : ∀ i l, (accessById input.accessLists).get? i = some l → l.id = i :=
    fun _ _ => id_of_accessById
  have hproxies := h.proxyHosts.map_sortedBy_eq hd.proxyHosts fun host =>
    proxyFiles_ordered platform host hkeys
  have hredirections := h.redirectionHosts.map_sortedBy_eq (f := redirectionFile platform)
    hd.redirectionHosts fun _ => rfl
  have hdeads := h.deadHosts.map_sortedBy_eq (f := deadFile platform) hd.deadHosts fun _ => rfl
  have hquic := renderQuicRoutes_eq_of_perm h.quicPassthroughHosts hd.quicPassthroughHosts
  have hplatform : platformFiles platform input.quicPassthroughHosts =
      platformFiles platform input'.quicPassthroughHosts := by
    simp only [platformFiles, hquic]
  simp only [render]
  rw [hplatform, haccess, hstreams, hredirections, hdeads, mapM_eq_mapM_id (proxyFiles _ _),
    hproxies, hbyId, ← mapM_eq_mapM_id]

/-- **Rendering does not see the order of its inputs**: two orders of the same hosts, streams,
access lists and routes, of the access lists of a host and of its locations give the same files
or the same refusal, and with that the same name of the generation. -/
theorem render_reordered {input input' : RenderInput} (h : input.Reordered input')
    (hd : input.Distinct) : render platform input = render platform input' ∧
      ∀ sha256, (render platform input).bind (generationId sha256) =
        (render platform input').bind (generationId sha256) := by
  have heq := render_eq_of_reordered platform h hd
  exact ⟨heq, fun sha256 => by rw [heq]⟩

end Render

/-- An access list without entries. -/
def openList (i : ℕ) (hi : 0 < i) : AccessList :=
  ⟨i, "team", [], [], false, false, hi, strip_team⟩

/-- A host with two access lists and two locations. -/
def mappedHost : RuntimeHost where
  id := 2
  kind := .proxy
  domainNames := ["a.example"]
  accessListIds := [1, 2]
  locations := [{ path := "/a", forwardHost := "app", forwardPort := 80 },
    { path := "/b", forwardHost := "app", forwardPort := 81 }]

/-- `mappedHost` with both of its lists turned round. -/
def turnedHost : RuntimeHost :=
  { mappedHost with
    accessListIds := mappedHost.accessListIds.reverse
    locations := mappedHost.locations.reverse }

/-- A second host. -/
def plainHost : RuntimeHost := { id := 1, kind := .proxy, domainNames := ["b.example"] }

/-- Two hosts and two access lists. -/
def mappedInput : RenderInput where
  proxyHosts := [mappedHost, plainHost]
  accessLists := [openList 1 Nat.one_pos, openList 2 Nat.two_pos]

/-- `mappedInput` turned round at every level. -/
def turnedInput : RenderInput where
  proxyHosts := [plainHost, turnedHost]
  accessLists := mappedInput.accessLists.reverse

theorem render_turnedInput : render {} mappedInput = render {} turnedInput ∧
    ∀ sha256, (render {} mappedInput).bind (generationId sha256) =
      (render {} turnedInput).bind (generationId sha256) := by
  have hturned : mappedHost.Reordered turnedHost :=
    ⟨rfl, (List.reverse_perm _).symm, (List.reverse_perm _).symm⟩
  have hplain : plainHost.Reordered plainHost := ⟨rfl, List.Perm.refl _, List.Perm.refl _⟩
  have hhosts : ReorderedHosts mappedInput.proxyHosts turnedInput.proxyHosts :=
    ⟨[plainHost, mappedHost], List.Perm.swap _ _ _, .cons hplain (.cons hturned .nil)⟩
  have hnone : ReorderedHosts [] [] := ⟨[], List.Perm.refl _, .nil⟩
  have hfew : DistinctHosts [] := ⟨List.nodup_nil, by simp⟩
  refine render_reordered {} ⟨hhosts, hnone, hnone, List.Perm.refl _, List.Perm.refl _,
    (List.reverse_perm _).symm⟩ ⟨⟨by decide, ?_⟩, hfew, hfew, List.nodup_nil, ?_, by decide⟩
  · intro host hhost
    rcases List.mem_cons.mp hhost with rfl | hhost
    · decide
    · obtain rfl := List.mem_singleton.mp hhost
      decide
  · simp [mappedInput, DistinctRoutes]

end Portwyrm.Runtime

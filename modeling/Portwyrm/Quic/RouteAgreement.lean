import Mathlib.Data.Set.Lattice
import Mathlib.Data.String.Basic
import Mathlib.Order.CompletePartialOrder
import Portwyrm.Quic.ClientName
import Portwyrm.Quic.RouteFile
import Portwyrm.Quic.RouteStore
import Portwyrm.Quic.Router

/-!
# Stored routes and the routes of a router

A router serves one listener, but it reads the routes of all of them, and it looks names up as
they stand.  This file says when a client that reaches a listener still gets what the routes of
that listener say.
-/

namespace Portwyrm.Quic

open Base Portwyrm.Runtime

/-! ## What the routes of a listener say -/

/-- The enabled routes of a listener. -/
def onListener (routes : List QuicRoute) (listener : String × ℕ) : List QuicRoute :=
  routes.filter fun route => route.enabled ∧ route.listener = listener

/-- The names that a route covers: its server name, and for `*.suffix` every name that has some
text in front of `.suffix`. -/
def coveredNames (route : QuicRoute) : Set String :=
  { name | route.serverName = name ∨ ∃ label suffix, label ≠ "" ∧
    route.serverName = "*." ++ suffix ∧ name = label ++ "." ++ suffix }

/-- Where a route leads: target, port, protocol and timeout. -/
def Route.service (route : Route) : String × ℕ × String × ℕ :=
  (route.target, route.targetPort, route.alpn, route.idleTimeoutSeconds)

/-- A lookup of names agrees with the routes of a listener: a name is led where the most specific
route that covers it says, and nowhere when no route covers it. -/
structure Agrees (routes : List QuicRoute) (listener : String × ℕ)
    (lookup : String → Option Route) : Prop where
  covered : ∀ name, IsClientName name → ∀ route ∈ onListener routes listener,
    name ∈ coveredNames route →
    (∀ other ∈ onListener routes listener, name ∈ coveredNames other →
      ¬ coveredNames other ⊂ coveredNames route) →
    (lookup name).map Route.service = some (routeEntry route).service
  uncovered : ∀ name, IsClientName name →
    (∀ route ∈ onListener routes listener, name ∉ coveredNames route) → lookup name = none

/-- Of the enabled routes with its name, a route has the last listener. -/
def LastOfName (routes : List QuicRoute) (route : QuicRoute) : Prop :=
  ∀ other ∈ routes, other.enabled → other.serverName = route.serverName →
    listenerLe other.listener route.listener = true

/-- What makes the flat dictionary of the router right for a listener: no wildcard of the listener
can be asked for, and the last route of every name that can be asked for leads where a route of
the listener with this name leads. -/
structure KeptByFlattening (routes : List QuicRoute) (listener : String × ℕ) : Prop where
  noWildcard : ∀ route ∈ onListener routes listener, IsAscii route.serverName →
    ¬ "*.".toList <+: route.serverName.toList
  own : ∀ route ∈ routes, route.enabled → IsAscii route.serverName → LastOfName routes route →
    ∃ own ∈ onListener routes listener, own.serverName = route.serverName ∧
      (routeEntry own).service = (routeEntry route).service

/-! ## The order of listeners -/

lemma listenerLe_iff {a b : String × ℕ} :
    listenerLe a b = true ↔ a.1 < b.1 ∨ a.1 = b.1 ∧ a.2 ≤ b.2 := by
  simp [listenerLe, natLe]

lemma listenerLe_refl (a : String × ℕ) : listenerLe a a = true :=
  listenerLe_iff.mpr (.inr ⟨rfl, le_rfl⟩)

lemma listenerLe_antisymm {a b : String × ℕ} (h : listenerLe a b = true)
    (h' : listenerLe b a = true) : a = b := by
  rw [listenerLe_iff] at h h'
  rcases h with h | ⟨h1, h2⟩
  · rcases h' with h' | ⟨h1', -⟩
    · exact absurd h' (lt_asymm h)
    · exact absurd h1'.symm h.ne
  · rcases h' with h' | ⟨-, h2'⟩
    · exact absurd h1.symm h'.ne
    · exact Prod.ext h1 (le_antisymm h2 h2')

instance : Std.Total fun a b : (String × ℕ) × List QuicRoute => listenerLe a.1 b.1 = true where
  total a b := by
    rw [listenerLe_iff, listenerLe_iff]
    rcases lt_trichotomy a.1.1 b.1.1 with h | h | h
    · exact .inl (.inl h)
    · exact (le_total a.1.2 b.1.2).imp (fun h' => .inr ⟨h, h'⟩) fun h' => .inr ⟨h.symm, h'⟩
    · exact .inr (.inl h)

instance : IsTrans ((String × ℕ) × List QuicRoute)
    fun a b => listenerLe a.1 b.1 = true where
  trans a b c := by
    rw [listenerLe_iff, listenerLe_iff, listenerLe_iff]
    rintro (h | ⟨h, h'⟩) (g | ⟨g, g'⟩)
    · exact .inl (h.trans g)
    · exact .inl (g ▸ h)
    · exact .inl (h ▸ g)
    · exact .inr ⟨h.trans g, h'.trans g'⟩

/-! ## What the router looks up -/

lemma mem_writtenRoutes {routes : List QuicRoute} {route : QuicRoute} :
    route ∈ writtenRoutes routes ↔ route ∈ routes ∧ route.enabled = true := by
  simp only [writtenRoutes, quicGroups, List.mem_flatMap, mem_sortedBy, List.mem_map,
    Dict.mem_fromKeys, List.mem_filter]
  constructor
  · rintro ⟨_, ⟨listener, -, rfl⟩, hroute⟩
    exact (List.mem_filter.mp hroute).1 |> List.mem_filter.mp
  · intro h
    exact ⟨_, ⟨route.listener, ⟨route, h, rfl⟩, rfl⟩,
      List.mem_filter.mpr ⟨List.mem_filter.mpr h, by simp⟩⟩

/-- The routes stand in the order of their listeners. -/
lemma pairwise_writtenRoutes (routes : List QuicRoute) :
    (writtenRoutes routes).Pairwise fun a b => listenerLe a.listener b.listener = true := by
  rw [writtenRoutes, List.pairwise_flatMap]
  have hgroup : ∀ group ∈ quicGroups (routes.filter QuicRoute.enabled), ∀ route ∈ group.2,
      route.listener = group.1 := by
    intro group hgroup route hroute
    rw [quicGroups, mem_sortedBy] at hgroup
    obtain ⟨listener, -, rfl⟩ := List.mem_map.mp hgroup
    simpa using (List.mem_filter.mp hroute).2
  refine ⟨fun group hmem => ?_, ?_⟩
  · refine List.pairwise_of_forall_mem_list fun a ha b hb => ?_
    rw [hgroup group hmem a (mem_sortedBy.mp ha), hgroup group hmem b (mem_sortedBy.mp hb)]
    exact listenerLe_refl _
  · have hsorted : (quicGroups (routes.filter QuicRoute.enabled)).Pairwise
        fun a b => listenerLe a.1 b.1 = true := List.pairwise_insertionSort _ _
    refine hsorted.imp_of_mem fun {g g'} hg hg' hle a ha b hb => ?_
    rw [hgroup g hg a (mem_sortedBy.mp ha), hgroup g' hg' b (mem_sortedBy.mp hb)]
    exact hle

lemma key_routeEntry {route : QuicRoute} (h : ValidRoute route) :
    (routeEntry route).key = route.serverName := by
  rw [Route.key, routeEntry, casefold_of_isDomain (canonicalServerName_eq_ok h.serverName).1,
    rstripDots_canonical h.serverName]

/-- Rows with one listener and one name are one row. -/
lemma Accepted.eq_of_sniKey {routes : List QuicRoute} (h : Accepted routes) {a b : QuicRoute}
    (ha : a ∈ routes) (hb : b ∈ routes) (hlistener : a.listener = b.listener)
    (hname : a.serverName = b.serverName) : a = b :=
  List.inj_on_of_nodup_map h.unique ha hb (Prod.ext hlistener hname)

/-- The route that the router holds for a name: the last one with this name. -/
theorem get?_writtenRoutes {routes : List QuicRoute} (h : Accepted routes) {name : String}
    {v : Route} :
    (Dict.ofList ((writtenRoutes routes).map fun route =>
      ((routeEntry route).key, routeEntry route))).get? name = some v ↔
      ∃ route ∈ routes, route.enabled = true ∧ route.serverName = name ∧
        LastOfName routes route ∧ v = routeEntry route := by
  have hentries : (writtenRoutes routes).map (fun route =>
      ((routeEntry route).key, routeEntry route)) =
      (writtenRoutes routes).map fun route => (route.serverName, routeEntry route) :=
    List.map_congr_left fun route hroute => by
      rw [key_routeEntry (h.valid route (mem_writtenRoutes.mp hroute).1)]
  rw [hentries]
  have hlast : ∀ v, (Dict.ofList ((writtenRoutes routes).map fun route =>
      (route.serverName, routeEntry route))).get? name = some v →
      ∃ route ∈ routes, route.enabled = true ∧ route.serverName = name ∧
        LastOfName routes route ∧ v = routeEntry route := by
    intro v hget
    obtain ⟨l₁, l₂, hsplit, hlater⟩ := Dict.get?_ofList_eq_some_iff.mp hget
    obtain ⟨r₁, r₂, hroutes, rfl, hbehind⟩ := List.map_eq_append_iff.mp hsplit
    obtain ⟨route, r₂, rfl, heq, rfl⟩ := List.map_eq_cons_iff.mp hbehind
    obtain ⟨rfl, rfl⟩ := Prod.mk.inj heq
    have hmem : route ∈ writtenRoutes routes := by simp [hroutes]
    obtain ⟨hroute, henabled⟩ := mem_writtenRoutes.mp hmem
    refine ⟨route, hroute, henabled, rfl, fun other hother hon hname => ?_, rfl⟩
    have hpairwise := pairwise_writtenRoutes routes
    rw [hroutes, List.pairwise_append] at hpairwise
    have hwhere : other ∈ r₁ ++ route :: r₂ := hroutes ▸ mem_writtenRoutes.mpr ⟨hother, hon⟩
    rcases List.mem_append.mp hwhere with hfirst | hrest
    · exact hpairwise.2.2 other hfirst route (by simp)
    · rcases List.mem_cons.mp hrest with rfl | hrest
      · exact listenerLe_refl _
      · exact absurd hname (hlater _ (List.mem_map_of_mem hrest))
  refine ⟨hlast v, ?_⟩
  rintro ⟨route, hroute, henabled, rfl, hroutelast, rfl⟩
  have hkey : route.serverName ∈ Dict.ofList ((writtenRoutes routes).map fun route =>
      (route.serverName, routeEntry route)) := by
    rw [Dict.mem_ofList_iff, List.map_map]
    exact List.mem_map.mpr ⟨route, mem_writtenRoutes.mpr ⟨hroute, henabled⟩, rfl⟩
  obtain ⟨v, hget⟩ := Dict.mem_iff.mp hkey
  obtain ⟨other, hother, hon, hname, hotherlast, rfl⟩ := hlast v hget
  -- two last routes of one name are one route
  have hlistener : other.listener = route.listener :=
    listenerLe_antisymm (hroutelast other hother hon hname)
      (hotherlast route hroute henabled hname.symm)
  rw [hget, h.eq_of_sniKey hother hroute hlistener hname]

/-- Every name of an enabled route has a last route. -/
lemma exists_lastOfName {routes : List QuicRoute} (h : Accepted routes) {route : QuicRoute}
    (hroute : route ∈ routes) (henabled : route.enabled = true) :
    ∃ last ∈ routes, last.enabled = true ∧ last.serverName = route.serverName ∧
      LastOfName routes last := by
  have hkey : route.serverName ∈ Dict.ofList ((writtenRoutes routes).map fun route =>
      ((routeEntry route).key, routeEntry route)) := by
    rw [Dict.mem_ofList_iff, List.map_map]
    exact List.mem_map.mpr ⟨route, mem_writtenRoutes.mpr ⟨hroute, henabled⟩,
      key_routeEntry (h.valid route hroute)⟩
  obtain ⟨v, hget⟩ := Dict.mem_iff.mp hkey
  obtain ⟨last, hlast, hon, hname, hislast, -⟩ := (get?_writtenRoutes h).mp hget
  exact ⟨last, hlast, hon, hname, hislast⟩

/-! ## Names and wildcards -/

lemma mem_onListener {routes : List QuicRoute} {listener : String × ℕ} {route : QuicRoute} :
    route ∈ onListener routes listener ↔
      route ∈ routes ∧ route.enabled = true ∧ route.listener = listener := by
  simp [onListener]

/-- A route that is no wildcard covers its server name only. -/
lemma mem_coveredNames_iff {route : QuicRoute} (h : ¬ "*.".toList <+: route.serverName.toList)
    {name : String} : name ∈ coveredNames route ↔ route.serverName = name := by
  refine ⟨?_, .inl⟩
  rintro (rfl | ⟨label, suffix, -, hwild, -⟩)
  · rfl
  · exact absurd (hwild ▸ by rw [String.toList_append]; exact List.prefix_append _ _) h

/-- The server name of an accepted route is in canonical form. -/
lemma nameKey_serverName {route : QuicRoute} (h : ValidRoute route) :
    nameKey route.serverName = route.serverName :=
  key_routeEntry h

/-- A name that a client sends is an ASCII text, and so is a wildcard that covers it. -/
lemma isAscii_of_covered {route : QuicRoute} {name : String} (hname : IsClientName name)
    (h : name ∈ coveredNames route) : IsAscii route.serverName := by
  have hascii := hname.canonical.2.1
  rcases h with rfl | ⟨label, suffix, -, hwild, rfl⟩
  · exact hascii
  · intro c hc
    rw [hwild, String.toList_append, List.mem_append] at hc
    rcases hc with hc | hc
    · have hall : ∀ c ∈ "*.".toList, c.toNat < 128 := by decide
      exact hall c hc
    · exact hascii c (by simp [hc])

lemma length_serverName {route : QuicRoute} (h : ValidRoute route) :
    route.serverName.toList.length ≤ 256 := by
  have hbody := (canonicalServerName_eq_ok h.serverName).1.1
  have hdot : ∀ l : List Char, l.length ≤ (dropDot l).length + 1 := by
    intro l
    unfold dropDot
    split
    · rw [List.length_dropLast]
      omega
    · omega
  have hstar : ∀ l : List Char, l.length ≤ (domainBody l).length + 2 := by
    intro l
    unfold domainBody
    split
    · rw [List.length_cons, List.length_cons]
    · omega
  have h1 := hstar route.serverName.toList
  have h2 := hdot (domainBody route.serverName.toList)
  omega

lemma serverName_ne_empty {route : QuicRoute} (h : ValidRoute route) : route.serverName ≠ "" := by
  intro hempty
  have hlabels := (canonicalServerName_eq_ok h.serverName).1.2.1
  rw [hempty] at hlabels
  exact absurd hlabels (by decide)

/-- An ASCII server name can be sent. -/
lemma isClientName_serverName {route : QuicRoute} (h : ValidRoute route)
    (hascii : IsAscii route.serverName) : IsClientName route.serverName :=
  isClientName_of_canonical (serverName_ne_empty h) hascii (nameKey_serverName h)
    (by have := length_serverName h; omega)

/-- A name that the wildcard `*.suffix` covers, as long as one likes. -/
def longName (n : ℕ) (suffix : String) : String :=
  String.ofList (List.replicate n 'a') ++ "." ++ suffix

lemma toList_longName (n : ℕ) (suffix : String) :
    (longName n suffix).toList = List.replicate n 'a' ++ '.' :: suffix.toList := by
  simp [longName, String.toList_append]

lemma exists_suffix {name : String} (h : "*.".toList <+: name.toList) :
    ∃ suffix, name = "*." ++ suffix := by
  obtain ⟨rest, hrest⟩ := h
  refine ⟨String.ofList rest, String.toList_injective ?_⟩
  rw [String.toList_append, ← hrest, String.toList_ofList (l := rest)]

/-- The part of a wildcard behind `*.` does not end in a dot, and folds to itself. -/
lemma suffix_canonical {route : QuicRoute} (h : ValidRoute route) {suffix : String}
    (hwild : route.serverName = "*." ++ suffix) :
    (∃ rest c, suffix.toList = rest ++ [c] ∧ c ≠ '.') ∧
      ∀ c ∈ suffix.toList, Text.foldChar c = [c] := by
  have hlist : route.serverName.toList = ['*', '.'] ++ suffix.toList := by
    rw [hwild, String.toList_append]
    rfl
  refine ⟨?_, fun c hc => ?_⟩
  · have hstrip := congrArg String.toList (rstripDots_canonical h.serverName)
    rw [rstripDots, String.toList_ofList, List.rdropWhile_eq_self_iff] at hstrip
    rcases List.eq_nil_or_concat suffix.toList with hnil | ⟨rest, c, hc⟩
    · rw [hnil, List.append_nil] at hlist
      simp [hlist] at hstrip
    · rw [List.concat_eq_append] at hc
      refine ⟨rest, c, hc, ?_⟩
      simpa [hlist, hc] using hstrip
  · refine foldChar_of_isDomainChar (isDomainChar_of_mem
      (canonicalServerName_eq_ok h.serverName).1 ?_)
    rw [hlist]
    exact List.mem_append_right _ hc

lemma isClientName_longName {route : QuicRoute} (h : ValidRoute route) {suffix : String}
    (hwild : route.serverName = "*." ++ suffix) (hascii : IsAscii route.serverName) {n : ℕ}
    (hn : n < 50000) : IsClientName (longName n suffix) := by
  obtain ⟨⟨rest, c, hlast, hdot⟩, hfold⟩ := suffix_canonical h hwild
  have hlist := toList_longName n suffix
  have hmem : ∀ d ∈ (longName n suffix).toList, d = 'a' ∨ d = '.' ∨ d ∈ suffix.toList := by
    intro d hd
    rw [hlist, List.mem_append, List.mem_cons] at hd
    exact hd.imp_left List.eq_of_mem_replicate
  have hcasefold : Text.casefold (longName n suffix) = longName n suffix := by
    refine (congrArg String.ofList ?_).trans String.ofList_toList
    refine (List.flatMap_congr fun d hd => ?_).trans (List.flatMap_singleton' _)
    rcases hmem d hd with rfl | rfl | hd
    · rfl
    · rfl
    · exact hfold d hd
  refine isClientName_of_canonical ?_ ?_ ?_ ?_
  · intro hempty
    rw [hempty] at hlist
    simp at hlist
  · intro d hd
    rcases hmem d hd with rfl | rfl | hd
    · decide
    · decide
    · exact hascii d (by rw [hwild, String.toList_append]; exact List.mem_append_right _ hd)
  · rw [nameKey, hcasefold, rstripDots, hlist, hlast, ← List.cons_append, ← List.append_assoc,
      List.rdropWhile_concat_neg _ _ _ (by simpa using hdot), List.append_assoc,
      List.cons_append, ← hlast, ← hlist, String.ofList_toList]
  · have hlength := length_serverName h
    rw [hwild, String.toList_append, List.length_append] at hlength
    rw [hlist, List.length_append, List.length_replicate, List.length_cons]
    omega

lemma serverName_ne_longName {route : QuicRoute} (h : ValidRoute route) {n : ℕ} (hn : 256 ≤ n)
    (suffix : String) : route.serverName ≠ longName n suffix := by
  intro heq
  have hlength := length_serverName h
  rw [heq, toList_longName, List.length_append, List.length_replicate, List.length_cons] at hlength
  omega

/-- A wildcard that covers a long name of another one covers all that the other one covers. -/
lemma coveredNames_subset {route other : QuicRoute} (hother : ValidRoute other) {suffix : String}
    (hwild : route.serverName = "*." ++ suffix) {n : ℕ} (hn : 256 ≤ n)
    (h : longName n suffix ∈ coveredNames other) : coveredNames route ⊆ coveredNames other := by
  rcases h with h | ⟨label, suffix', hlabel, hwild', heq⟩
  · exact absurd h (serverName_ne_longName hother hn suffix)
  have hends : suffix = suffix' ∨ ∃ middle, suffix = middle ++ "." ++ suffix' := by
    have hlist := congrArg String.toList heq
    rw [toList_longName, String.toList_append, String.toList_append, List.append_assoc,
      show ".".toList = ['.'] from rfl, List.singleton_append] at hlist
    rcases List.append_eq_append_iff.mp hlist with ⟨as, -, hbehind⟩ | ⟨bs, hlabel, hbehind⟩
    · cases as with
      | nil => exact .inl (String.toList_injective (List.cons.inj hbehind).2)
      | cons c as =>
        refine .inr ⟨String.ofList as, String.toList_injective ?_⟩
        simpa [String.toList_append] using (List.cons.inj hbehind).2
    · cases bs with
      | nil => exact .inl (String.toList_injective (List.cons.inj hbehind).2.symm)
      | cons b bs =>
        have hb : b = 'a' := List.eq_of_mem_replicate (hlabel ▸ by simp : b ∈ List.replicate n 'a')
        exact absurd ((List.cons.inj hbehind).1.trans hb) (by decide)
  have hcovers : ∀ x, x ≠ "" → x ++ "." ++ suffix ∈ coveredNames other := by
    intro x hx
    rcases hends with rfl | ⟨middle, rfl⟩
    · exact .inr ⟨x, suffix, hx, hwild', rfl⟩
    · refine .inr ⟨x ++ "." ++ middle, suffix', ?_, hwild', by simp only [String.append_assoc]⟩
      intro hempty
      simpa [String.toList_append] using congrArg String.toList hempty
  rintro name (rfl | ⟨x, y, hx, hy, rfl⟩)
  · rcases hends with rfl | ⟨middle, rfl⟩
    · exact .inl (hwild'.trans hwild.symm)
    · rw [hwild]
      refine .inr ⟨"*." ++ middle, suffix', ?_, hwild', by simp only [String.append_assoc]⟩
      intro hempty
      simpa [String.toList_append] using congrArg String.toList hempty
  · obtain rfl : y = suffix := (String.append_right_inj _).mp (hy.symm.trans hwild)
    exact hcovers x hx

/-! ## Agreement -/

section Agreement

variable {routes : List QuicRoute} {listener : String × ℕ} {lookup : String → Option Route}

/-- A lookup that finds the last route of each name. -/
def FindsLast (routes : List QuicRoute) (lookup : String → Option Route) : Prop :=
  ∀ name v, lookup name = some v ↔ ∃ route ∈ routes, route.enabled = true ∧
    route.serverName = name ∧ LastOfName routes route ∧ v = routeEntry route

/-- Where no wildcard of the listener can be asked for, a route covers its server name only. -/
lemma KeptByFlattening.serverName_eq
    (hnone : ∀ route ∈ onListener routes listener, IsAscii route.serverName →
      ¬ "*.".toList <+: route.serverName.toList)
    {name : String} (hname : IsClientName name) {route : QuicRoute}
    (hroute : route ∈ onListener routes listener) (hcovers : name ∈ coveredNames route) :
    route.serverName = name :=
  (mem_coveredNames_iff (hnone route hroute (isAscii_of_covered hname hcovers))).mp hcovers

/-- A listener has one enabled route of a name. -/
lemma Accepted.eq_of_mem_onListener (h : Accepted routes) {a b : QuicRoute}
    (ha : a ∈ onListener routes listener) (hb : b ∈ onListener routes listener)
    (hname : a.serverName = b.serverName) : a = b := by
  obtain ⟨ha, -, hla⟩ := mem_onListener.mp ha
  obtain ⟨hb, -, hlb⟩ := mem_onListener.mp hb
  exact h.eq_of_sniKey ha hb (hla.trans hlb.symm) hname

lemma agrees_of_keptByFlattening (h : Accepted routes) (hlookup : FindsLast routes lookup)
    (hkept : KeptByFlattening routes listener) : Agrees routes listener lookup where
  covered := by
    intro name hname route hroute hcovers _
    obtain rfl := KeptByFlattening.serverName_eq hkept.noWildcard hname hroute hcovers
    obtain ⟨hmem, henabled, -⟩ := mem_onListener.mp hroute
    obtain ⟨last, hlast, hon, hlastName, hislast⟩ := exists_lastOfName h hmem henabled
    obtain ⟨own, hown, hownName, hservice⟩ :=
      hkept.own last hlast hon (hlastName ▸ hname.canonical.2.1) hislast
    obtain rfl := h.eq_of_mem_onListener hown hroute (hownName.trans hlastName)
    rw [(hlookup _ _).mpr ⟨last, hlast, hon, hlastName, hislast, rfl⟩, hservice]
    rfl
  uncovered := by
    intro name hname hnone
    cases hget : lookup name with
    | none => rfl
    | some v =>
      obtain ⟨last, hlast, hon, rfl, hislast, -⟩ := (hlookup _ _).mp hget
      obtain ⟨own, hown, hownName, -⟩ := hkept.own last hlast hon hname.canonical.2.1 hislast
      exact absurd (.inl hownName) (hnone own hown)

/-- A wildcard that can be asked for is never found under the names that it covers. -/
lemma noWildcard_of_agrees (h : Accepted routes) (hlookup : FindsLast routes lookup)
    (hagrees : Agrees routes listener lookup) {route : QuicRoute}
    (hroute : route ∈ onListener routes listener) (hascii : IsAscii route.serverName) :
    ¬ "*.".toList <+: route.serverName.toList := by
  intro hprefix
  obtain ⟨suffix, hwild⟩ := exists_suffix hprefix
  have hvalid := h.valid route (mem_onListener.mp hroute).1
  obtain ⟨n, hlow, hhigh⟩ : ∃ n, 256 ≤ n ∧ n < 50000 := ⟨256, le_rfl, by decide⟩
  have hname : IsClientName (longName n suffix) := isClientName_longName hvalid hwild hascii hhigh
  have hcovers : longName n suffix ∈ coveredNames route := by
    refine .inr ⟨String.ofList (List.replicate n 'a'), suffix, ?_, hwild, rfl⟩
    intro hempty
    have hzero : n = 0 := by simpa using congrArg String.toList hempty
    omega
  have hfound := hagrees.covered _ hname route hroute hcovers fun other hother hmem hless =>
    hless.2 (coveredNames_subset (h.valid other (mem_onListener.mp hother).1) hwild hlow hmem)
  cases hget : lookup (longName n suffix) with
  | none => simp [hget] at hfound
  | some v =>
    obtain ⟨last, hlast, -, heq, -⟩ := (hlookup _ _).mp hget
    exact serverName_ne_longName (h.valid last hlast) hlow suffix heq

lemma keptByFlattening_of_agrees (h : Accepted routes) (hlookup : FindsLast routes lookup)
    (hagrees : Agrees routes listener lookup) : KeptByFlattening routes listener where
  noWildcard _ hroute hascii := noWildcard_of_agrees h hlookup hagrees hroute hascii
  own := by
    intro route hroute henabled hascii hislast
    have hname := isClientName_serverName (h.valid route hroute) hascii
    have hget := (hlookup _ _).mpr ⟨route, hroute, henabled, rfl, hislast, rfl⟩
    have hnone : ∀ route ∈ onListener routes listener, IsAscii route.serverName →
        ¬ "*.".toList <+: route.serverName.toList :=
      fun _ hmem hascii => noWildcard_of_agrees h hlookup hagrees hmem hascii
    -- some route of the listener covers the name, for it is led somewhere
    obtain ⟨own, hown, hcovers⟩ : ∃ own ∈ onListener routes listener,
        route.serverName ∈ coveredNames own := by
      by_contra hno
      have := hagrees.uncovered _ hname fun own hown hcovers => hno ⟨own, hown, hcovers⟩
      rw [hget] at this
      exact absurd this (by simp)
    have hownName := KeptByFlattening.serverName_eq hnone hname hown hcovers
    refine ⟨own, hown, hownName, ?_⟩
    have hfound := hagrees.covered _ hname own hown hcovers fun other hother hmem hless => by
      have hother' := KeptByFlattening.serverName_eq hnone hname hother hmem
      obtain rfl := h.eq_of_mem_onListener hother hown (hother'.trans hownName.symm)
      exact hless.ne rfl
    rw [hget] at hfound
    exact (Option.some.inj hfound).symm

end Agreement

/-- After `reload` has read a rendered file, the router finds the last route of each name. -/
lemma findsLast_reload {α : Type} (r : Router α) {mtime : ℚ} (hmtime : mtime ≠ r.configMtime)
    {routes : List QuicRoute} (h : Accepted routes) :
    FindsLast routes (r.reload (some ⟨mtime, some (renderQuicRoutes routes)⟩)).routes.get? := by
  have hread : (r.reload (some ⟨mtime, some (renderQuicRoutes routes)⟩)).routes =
      Dict.ofList ((writtenRoutes routes).map fun route =>
        ((routeEntry route).key, routeEntry route)) := by
    simp only [Router.reload, if_neg hmtime, Option.bind_some, loadRoutes_renderQuicRoutes]
  intro name v
  rw [hread]
  exact get?_writtenRoutes h

/-- The names that a router has read lead where the routes of its listener say if and only if
flattening the listeners into one dictionary loses nothing for this listener. -/
theorem agrees_reload_iff {α : Type} (r : Router α) {mtime : ℚ} (hmtime : mtime ≠ r.configMtime)
    {routes : List QuicRoute} (h : Accepted routes) (listener : String × ℕ) :
    Agrees routes listener
        (r.reload (some ⟨mtime, some (renderQuicRoutes routes)⟩)).routes.get? ↔
      KeptByFlattening routes listener :=
  ⟨keptByFlattening_of_agrees h (findsLast_reload r hmtime h),
    agrees_of_keptByFlattening h (findsLast_reload r hmtime h)⟩

/-- A route on the standard port. -/
def firstRoute : QuicRoute :=
  { id := 1, serverName := "media.example", target := "first", targetPort := 4443 }

/-- The route of another listener, with the same name. -/
def secondRoute : QuicRoute :=
  { firstRoute with id := 2, incomingPort := 8443, target := "second" }

lemma validRoute_firstRoute : ValidRoute firstRoute where
  serverName := by decide
  incomingPort := by decide
  targetPort := by decide
  target := by decide
  alpn := rfl
  idleTimeoutSeconds := by decide

lemma accepted_shared : Accepted [firstRoute, secondRoute] := by
  refine ⟨by decide, ?_, by decide⟩
  intro route hroute
  have hfirst := validRoute_firstRoute
  rcases List.mem_pair.mp hroute with rfl | rfl
  · exact hfirst
  · exact ⟨hfirst.serverName, by decide, by decide, by decide, rfl, by decide⟩

/-- One route is found as it is stored. -/
theorem agrees_reload_single : Agrees [firstRoute] ("0.0.0.0", 443)
    ((Router.init : Router ℕ).reload
      (some ⟨0, some (renderQuicRoutes [firstRoute])⟩)).routes.get? := by
  have haccepted : Accepted [firstRoute] := by
    refine ⟨by decide, fun route hroute => ?_, by decide⟩
    exact List.mem_singleton.mp hroute ▸ validRoute_firstRoute
  refine (agrees_reload_iff Router.init (by decide) haccepted ("0.0.0.0", 443)).mpr ⟨?_, ?_⟩
  · intro route hroute _
    obtain rfl := List.mem_singleton.mp (mem_onListener.mp hroute).1
    decide
  · intro route hroute _ _ _
    obtain rfl := List.mem_singleton.mp hroute
    exact ⟨firstRoute, by decide, rfl, rfl⟩

/-- Of two listeners with one name, the first gets the backend of the second. -/
theorem agrees_reload_shared : Accepted [firstRoute, secondRoute] ∧
    ¬ Agrees [firstRoute, secondRoute] ("0.0.0.0", 443) ((Router.init : Router ℕ).reload
      (some ⟨0, some (renderQuicRoutes [firstRoute, secondRoute])⟩)).routes.get? := by
  refine ⟨accepted_shared, fun hagrees => ?_⟩
  have hkept := keptByFlattening_of_agrees accepted_shared
    (findsLast_reload Router.init (by decide) accepted_shared) hagrees
  have hlast : LastOfName [firstRoute, secondRoute] secondRoute := by
    intro other hother _ _
    rcases List.mem_pair.mp hother with rfl | rfl <;> decide
  obtain ⟨own, hown, -, hservice⟩ := hkept.own secondRoute (by simp) rfl (by decide) hlast
  obtain ⟨hmem, -, hlistener⟩ := mem_onListener.mp hown
  rcases List.mem_pair.mp hmem with rfl | rfl
  · exact absurd hservice (by decide)
  · exact absurd hlistener (by decide)

end Portwyrm.Quic

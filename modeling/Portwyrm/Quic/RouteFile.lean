import Portwyrm.Quic.Config
import Portwyrm.Runtime.NginxPlatform

/-!
# What the router reads of a rendered route file

The document of `render_quic_routes`, read by `QuicRouter.reload`: every enabled route, listener
after listener, in one dictionary by server name.
-/

namespace Portwyrm.Quic

open Base Portwyrm.Runtime

/-! ## JSON texts -/

lemma numeral_jsonUnit {n : ℕ} (h : n < 0x10000) :
    Numeral.numeral 16 [Nat.digitChar (n / 4096), Nat.digitChar (n / 256 % 16),
      Nat.digitChar (n / 16 % 16), Nat.digitChar (n % 16)] = some n := by
  have hdigits : ([n / 4096, n / 256 % 16, n / 16 % 16, n % 16].map Nat.digitChar).mapM
      (Numeral.digitIn 16) = some ([n / 4096, n / 256 % 16, n / 16 % 16, n % 16].map id) := by
    refine Numeral.mapM_map_eq_some fun d hd => Numeral.digitIn_digitChar le_rfl ?_
    simp only [List.mem_cons, List.not_mem_nil, or_false] at hd
    omega
  simp only [List.map_cons, List.map_nil] at hdigits
  rw [Numeral.numeral, hdigits, Option.map_some]
  simp only [Numeral.ofGroups, List.foldl_cons, List.foldl_nil, id]
  congr 1
  omega

lemma units_jsonUnit {n : ℕ} (h : n < 0x10000) (rest : List Char) :
    Json.units (jsonUnit n ++ rest) = (Json.units rest).map fun p => (n :: p.1, p.2) := by
  simp only [jsonUnit, List.cons_append, List.nil_append, Json.units, numeral_jsonUnit h]
  cases Json.units rest <;> rfl

lemma units_letter {c : Char} {n : ℕ} (h : Json.escapes.lookup c = some n) (rest : List Char) :
    Json.units ('\\' :: c :: rest) = (Json.units rest).map fun p => (n :: p.1, p.2) := by
  have hu : c ≠ 'u' := by
    rintro rfl
    rw [show Json.escapes.lookup 'u' = none by decide] at h
    exact absurd h (by simp)
  rw [Json.units]
  · rw [h]
    cases Json.units rest <;> rfl
  · rintro _ _ _ _ _ heq
    exact absurd heq hu

lemma units_printable {c : Char} (h : 32 ≤ c.toNat) (hquote : c ≠ '"') (hslash : c ≠ '\\')
    (rest : List Char) :
    Json.units (c :: rest) = (Json.units rest).map fun p => (c.toNat :: p.1, p.2) := by
  rw [Json.units]
  · rw [if_neg (by omega)]
    cases Json.units rest <;> rfl
  · exact hquote
  · rintro _ _ _ _ _ rfl
    exact absurd rfl hslash
  · rintro _ _ rfl
    exact absurd rfl hslash

/-- Every character is written so that it is read back. -/
lemma isEscape_jsonChar (c : Char) : Json.IsEscape (jsonChar c) c := by
  intro rest
  unfold jsonChar
  split
  · subst_vars; exact units_letter (by decide) rest
  split
  · subst_vars; exact units_letter (by decide) rest
  split
  · subst_vars; exact units_letter (by decide) rest
  split
  · subst_vars; exact units_letter (by decide) rest
  split
  · subst_vars; exact units_letter (by decide) rest
  split
  · rename_i h
    obtain rfl : c = Char.ofNat 8 := by rw [← h, Char.ofNat_toNat]
    exact units_letter (by decide) rest
  split
  · rename_i h
    obtain rfl : c = Char.ofNat 12 := by rw [← h, Char.ofNat_toNat]
    exact units_letter (by decide) rest
  split
  · rename_i hquote hslash _ _ _ _ _ h
    rw [List.singleton_append, units_printable h.1 hquote hslash, Json.utf16, if_pos (by omega)]
    rfl
  split
  · rename_i h
    rw [units_jsonUnit h, Json.utf16, if_pos h]
    rfl
  · rename_i h
    have hvalid : c.toNat < 0xd800 ∨ 0xdfff < c.toNat ∧ c.toNat < 0x110000 := c.valid
    rw [List.append_assoc, units_jsonUnit (by omega), units_jsonUnit (by omega), Json.utf16,
      if_neg h]
    cases Json.units rest <;> rfl

lemma reads_jsonText (s : String) : Json.Reads (jsonText s).toList (.text s) := by
  rw [jsonText, String.toList_ofList]
  exact Json.reads_text isEscape_jsonChar s

lemma reads_toString (n : ℕ) : Json.Reads (toString n).toList (.number n) := by
  rw [show toString n = n.repr from rfl, Nat.toList_repr]
  exact Json.reads_nat n

lemma reads_jsonList {texts : List String} {values : List Json}
    (h : List.Forall₂ (fun t v => Json.Reads t.toList v) texts values) :
    Json.Reads (jsonList texts).toList (.list values) := by
  have hlist : (jsonList texts).toList =
      '[' :: (List.intercalate [','] (texts.map String.toList) ++ [']']) := by
    simp [jsonList, String.toList_intercalate]
  rw [hlist]
  exact Json.reads_list (List.forall₂_map_left_iff.mpr h)

lemma reads_jsonObject {texts : List (String × String)} {values : List (String × Json)}
    (h : List.Forall₂ (fun t v => t.1 = v.1 ∧ Json.Reads t.2.toList v.2) texts values) :
    Json.Reads (jsonObject texts).toList (.object values) := by
  have hlist : (jsonObject texts).toList = '\x7b' :: (List.intercalate [',']
      ((texts.map fun t => (t.1, t.2.toList)).map (Json.memberText jsonChar)) ++ ['\x7d']) := by
    simp [jsonObject, String.toList_intercalate, Json.memberText, jsonText, Function.comp_def]
  rw [hlist]
  exact Json.reads_object isEscape_jsonChar (List.forall₂_map_left_iff.mpr h)

/-! ## The document -/

/-- A route as a JSON value. -/
def routeValue (route : QuicRoute) : Json :=
  .object
    [ ("alpn", .text route.alpn),
      ("idle_timeout_seconds", .number route.idleTimeoutSeconds),
      ("server_name", .text route.serverName),
      ("target", .text route.target),
      ("target_port", .number route.targetPort) ]

/-- A listener and its routes as a JSON value. -/
def listenerValue (group : (String × ℕ) × List QuicRoute) : Json :=
  .object
    [ ("incoming_port", .number group.1.2),
      ("listen_address", .text group.1.1),
      ("routes", .list ((sortedBy textLe QuicRoute.serverName group.2).map routeValue)) ]

/-- The route file as a JSON value. -/
def documentValue (routes : List QuicRoute) : Json :=
  .object
    [ ("listeners",
        .list ((quicGroups (routes.filter QuicRoute.enabled)).map listenerValue)),
      ("version", .number 1) ]

lemma reads_quicRouteJson (route : QuicRoute) :
    Json.Reads (quicRouteJson route).toList (routeValue route) :=
  reads_jsonObject
    (.cons ⟨rfl, reads_jsonText _⟩ (.cons ⟨rfl, reads_toString _⟩ (.cons ⟨rfl, reads_jsonText _⟩
      (.cons ⟨rfl, reads_jsonText _⟩ (.cons ⟨rfl, reads_toString _⟩ .nil)))))

lemma reads_map {β : Type} {write : β → String} {v : β → Json}
    (h : ∀ b, Json.Reads (write b).toList (v b)) (l : List β) :
    List.Forall₂ (fun t v => Json.Reads t.toList v) (l.map write) (l.map v) := by
  rw [List.forall₂_map_left_iff, List.forall₂_map_right_iff, List.forall₂_same]
  exact fun b _ => h b

lemma reads_quicListenerJson (group : (String × ℕ) × List QuicRoute) :
    Json.Reads (quicListenerJson group).toList (listenerValue group) :=
  reads_jsonObject
    (.cons ⟨rfl, reads_toString _⟩ (.cons ⟨rfl, reads_jsonText _⟩
      (.cons ⟨rfl, reads_jsonList (reads_map reads_quicRouteJson _)⟩ .nil)))

/-- The route file is read as the document that was written. -/
lemma loads_renderQuicRoutes (routes : List QuicRoute) :
    Json.loads (renderQuicRoutes routes) = some (documentValue routes) := by
  have hlisteners := reads_jsonList (reads_map reads_quicListenerJson
    (quicGroups (routes.filter QuicRoute.enabled)))
  have hversion : Json.Reads "1".toList (.number 1) := reads_toString 1
  have hdocument : Json.Reads (jsonObject [("listeners", jsonList
      ((quicGroups (routes.filter QuicRoute.enabled)).map quicListenerJson)),
      ("version", "1")]).toList (documentValue routes) :=
    reads_jsonObject (.cons ⟨rfl, hlisteners⟩ (.cons ⟨rfl, hversion⟩ .nil))
  refine Json.loads_of_reads hdocument String.toList_append fun c hc => ?_
  obtain rfl : c = '\n' := by simpa using hc
  rfl

/-! ## The routes in it -/

/-- An entry of `routes`, as the router holds it. -/
def routeEntry (route : QuicRoute) : Route :=
  ⟨route.serverName, route.target, route.targetPort, route.alpn, route.idleTimeoutSeconds⟩

/-- The enabled routes in the order of the document. -/
def writtenRoutes (routes : List QuicRoute) : List QuicRoute :=
  (quicGroups (routes.filter QuicRoute.enabled)).flatMap fun group =>
    sortedBy textLe QuicRoute.serverName group.2

lemma routeOf_routeValue (route : QuicRoute) : routeOf (routeValue route) = some (routeEntry route) := by
  simp [routeOf, routeValue, Route.fieldNames, member, Json.get?, asText, asNat, routeEntry,
    List.lookup_cons]

lemma listenerRoutes_listenerValue (group : (String × ℕ) × List QuicRoute) :
    listenerRoutes (listenerValue group) =
      some ((sortedBy textLe QuicRoute.serverName group.2).map routeEntry) := by
  simp only [listenerRoutes, listenerValue, member, Json.get?, List.reverse_cons, List.reverse_nil,
    List.nil_append, List.cons_append, List.lookup_cons, asList, Option.bind_eq_bind, beq_self_eq_true,
    Option.bind_some]
  exact Numeral.mapM_map_eq_some fun route _ => routeOf_routeValue route

lemma documentRoutes_documentValue (routes : List QuicRoute) :
    documentRoutes (documentValue routes) = some ((writtenRoutes routes).map routeEntry) := by
  have hlisteners := Numeral.mapM_map_eq_some (g := listenerRoutes)
    (l := quicGroups (routes.filter QuicRoute.enabled))
    fun group _ => listenerRoutes_listenerValue group
  simp only [documentRoutes, documentValue, member, Json.get?, List.reverse_cons, List.reverse_nil,
    List.nil_append, List.cons_append, List.lookup_cons, asList, Option.bind_eq_bind,
    Option.bind_some, beq_self_eq_true, show ("listeners" == "version") = false from rfl,
    hlisteners]
  rw [writtenRoutes, List.map_flatMap, List.flatMap_def]
  rfl

/-- What a rendered route file says: the enabled routes, by their server names. -/
theorem loadRoutes_renderQuicRoutes (routes : List QuicRoute) :
    loadRoutes (renderQuicRoutes routes) = some (Dict.ofList
      ((writtenRoutes routes).map fun route => ((routeEntry route).key, routeEntry route))) := by
  simp only [loadRoutes, loads_renderQuicRoutes, documentRoutes_documentValue, Option.bind_eq_bind,
    Option.bind_some, List.map_map, Function.comp_def]

end Portwyrm.Quic

import Portwyrm.Quic.Wire
import Portwyrm.Runtime.NginxPlatform

/-!
# Stored QUIC routes

`portwyrm.tables.quic_passthrough`: canonical server names, the validator of a route, and what
creating, updating, replacing and deleting a route does to the table.  The kind of the target
and the metadata of a route do not reach the renderer and are left out.
-/

namespace Portwyrm.Quic

open Base Portwyrm.Runtime

/-! ## Server names -/

/-- `[a-z0-9]` of `_DOMAIN_RE`, on names in folded case: without regard to case, the class
contains the dotless i. -/
def isAlnum (c : Char) : Bool :=
  (97 ≤ c.toNat && c.toNat ≤ 122) || (48 ≤ c.toNat && c.toNat ≤ 57) || c.toNat == 0x131

/-- One label of `_DOMAIN_RE`. -/
def IsLabel (l : List Char) : Prop :=
  l ≠ [] ∧ l.length ≤ 63 ∧ (∀ c ∈ l.head?, isAlnum c) ∧ (∀ c ∈ l.getLast?, isAlnum c) ∧
    ∀ c ∈ l, isAlnum c ∨ c = '-'

instance (l : List Char) : Decidable (IsLabel l) := inferInstanceAs (Decidable (_ ∧ _))

/-- The part of a name behind `*.`. -/
def domainBody : List Char → List Char
  | '*' :: '.' :: rest => rest
  | l => l

/-- A name without one dot at its end. -/
def dropDot (l : List Char) : List Char := if l.getLast? = some '.' then l.dropLast else l

/-- `_DOMAIN_RE`. -/
def IsDomain (l : List Char) : Prop :=
  let body := dropDot (domainBody l)
  body.length ≤ 253 ∧ 2 ≤ (body.splitOn '.').length ∧ ∀ label ∈ body.splitOn '.', IsLabel label

instance (l : List Char) : Decidable (IsDomain l) := inferInstanceAs (Decidable (_ ∧ _))

/-- `canonical_server_name`. -/
def canonicalServerName (value : String) : Result String :=
  let name := Text.casefold (rstripDots (Text.strip value))
  if IsDomain name.toList then pure name
  else throw (.domainValidationError s!"invalid QUIC server name: {Text.repr value}")

/-- A character of a domain name. -/
def IsDomainChar (c : Char) : Prop := isAlnum c = true ∨ c = '-' ∨ c = '.' ∨ c = '*'

lemma mem_splitOn (sep : Char) {c : Char} {l : List Char} (h : c ∈ l) :
    c = sep ∨ ∃ part ∈ l.splitOn sep, c ∈ part := by
  induction l with
  | nil => simp at h
  | cons a l ih =>
    rw [List.splitOn_cons_eq_if_modifyHead]
    by_cases ha : a = sep
    · rw [if_pos (by simp [ha])]
      rcases List.mem_cons.mp h with rfl | h
      · exact .inl ha
      · rcases ih h with rfl | ⟨part, hpart, hc⟩
        · exact .inl rfl
        · exact .inr ⟨part, List.mem_cons_of_mem _ hpart, hc⟩
    · rw [if_neg (by simp [ha])]
      obtain ⟨first, parts, hsplit⟩ := List.exists_cons_of_ne_nil (List.splitOn_ne_nil sep l)
      rw [hsplit, List.modifyHead_cons]
      rcases List.mem_cons.mp h with rfl | h
      · exact .inr ⟨c :: first, by simp, by simp⟩
      · rcases ih h with rfl | ⟨part, hpart, hc⟩
        · exact .inl rfl
        · rw [hsplit] at hpart
          rcases List.mem_cons.mp hpart with rfl | hpart
          · exact .inr ⟨a :: part, by simp, by simp [hc]⟩
          · exact .inr ⟨part, by simp [hpart], hc⟩

lemma mem_dropDot {c : Char} {l : List Char} (h : c ∈ l) : c = '.' ∨ c ∈ dropDot l := by
  unfold dropDot
  split
  · rename_i hlast
    rw [← List.dropLast_append_getLast? '.' hlast] at h
    simpa [or_comm] using h
  · exact .inr h

lemma mem_domainBody {c : Char} {l : List Char} (h : c ∈ l) :
    c = '*' ∨ c = '.' ∨ c ∈ domainBody l := by
  unfold domainBody
  split
  · simpa [or_assoc] using h
  · exact .inr (.inr h)

lemma isDomainChar_of_mem {l : List Char} (h : IsDomain l) {c : Char} (hc : c ∈ l) :
    IsDomainChar c := by
  rcases mem_domainBody hc with rfl | rfl | hc
  · exact .inr (.inr (.inr rfl))
  · exact .inr (.inr (.inl rfl))
  · rcases mem_dropDot hc with rfl | hc
    · exact .inr (.inr (.inl rfl))
    · rcases mem_splitOn '.' hc with rfl | ⟨label, hlabel, hc⟩
      · exact .inr (.inr (.inl rfl))
      · rcases (h.2.2 label hlabel).2.2.2.2 c hc with hc | hc
        · exact .inl hc
        · exact .inr (.inl hc)

lemma foldChar_of_isDomainChar {c : Char} (h : IsDomainChar c) : Text.foldChar c = [c] := by
  rcases h with h | rfl | rfl | rfl
  · simp only [isAlnum, Bool.or_eq_true, Bool.and_eq_true, decide_eq_true_eq, beq_iff_eq] at h
    have hlookup : Text.asciiFoldings.lookup c.toNat = none := by
      simp only [List.lookup_eq_none_iff, Text.asciiFoldings, List.mem_cons, List.not_mem_nil,
        or_false, bne_iff_ne, ne_eq]
      rintro e he heq
      rw [heq] at h
      rcases he with rfl | rfl | rfl | rfl | rfl | rfl | rfl | rfl | rfl | rfl | rfl <;> omega
    have hupper : ¬ c.isUpper = true := by
      intro hupper
      have hrange : 'A'.val ≤ c.val ∧ c.val ≤ 'Z'.val := of_decide_eq_true hupper
      have h1 : 65 ≤ c.toNat := hrange.1
      have h2 : c.toNat ≤ 90 := hrange.2
      omega
    rw [Text.foldChar, hlookup, Option.getD_none, Text.toLower_of_not_isUpper hupper]
  · decide
  · decide
  · decide

lemma isSpace_of_isDomainChar {c : Char} (h : IsDomainChar c) : Text.isSpace c = false := by
  rcases h with h | rfl | rfl | rfl
  · simp only [isAlnum, Bool.or_eq_true, Bool.and_eq_true, decide_eq_true_eq, beq_iff_eq] at h
    simp only [Text.isSpace, Bool.or_eq_false_iff, Bool.and_eq_false_iff, decide_eq_false_iff_not,
      beq_eq_false_iff_ne]
    omega
  · decide
  · decide
  · decide

lemma ne_dot_of_mem_foldChar {c d : Char} (h : d ∈ Text.foldChar c) (hc : c ≠ '.') : d ≠ '.' := by
  rcases Text.foldChar_cases c with ⟨e, he, hf⟩ | hf
  · have hall : (Text.asciiFoldings.all fun e => e.2.all fun d => d ≠ '.') = true := by decide
    simp only [List.all_eq_true, decide_eq_true_eq] at hall
    exact hall e he d (hf ▸ h)
  · obtain rfl : d = c.toLower := by simpa [hf] using h
    by_cases hu : c.isUpper = true
    · obtain ⟨n, hn, rfl⟩ := Text.exists_of_isUpper hu
      have hall : ∀ n ∈ List.range' 65 26, (Char.ofNat n).toLower ≠ '.' := by decide
      exact hall n hn
    · rwa [Text.toLower_of_not_isUpper hu]

/-- Folding does not put a dot at the end of a text. -/
lemma rstripDots_casefold (s : String) :
    rstripDots (Text.casefold (rstripDots s)) = Text.casefold (rstripDots s) := by
  have hlast : ∀ c ∈ (rstripDots s).toList.getLast?, c ≠ '.' := by
    intro c hc
    rw [rstripDots, String.toList_ofList] at hc
    have hne : s.toList.rdropWhile (· = '.') ≠ [] := by
      intro h
      simp [h] at hc
    rw [List.getLast?_eq_some_getLast hne, Option.mem_some_iff] at hc
    simpa [hc] using List.rdropWhile_last_not (· = '.') s.toList hne
  generalize rstripDots s = t at hlast
  have hself : (t.toList.flatMap Text.foldChar).rdropWhile (· = '.') =
      t.toList.flatMap Text.foldChar := by
    rcases List.eq_nil_or_concat t.toList with ht | ⟨rest, c, ht⟩
    · rw [ht]
      rfl
    · rw [List.concat_eq_append] at ht
      rcases List.eq_nil_or_concat (Text.foldChar c) with hf | ⟨xs, x, hf⟩
      · exact absurd hf (Text.foldChar_ne_nil c)
      · rw [List.concat_eq_append] at hf
        have hx : x ≠ '.' := ne_dot_of_mem_foldChar (hf ▸ by simp) (hlast c (by simp [ht]))
        rw [ht, List.flatMap_append, List.flatMap_singleton, hf, ← List.append_assoc,
          List.rdropWhile_concat_neg _ _ _ (by simpa using hx)]
  rw [rstripDots, Text.casefold, String.toList_ofList, hself]

lemma canonicalServerName_eq_ok {value name : String} (h : canonicalServerName value = .ok name) :
    IsDomain name.toList ∧ name = Text.casefold (rstripDots (Text.strip value)) := by
  unfold canonicalServerName at h
  dsimp only at h
  split at h
  · rename_i hdomain
    obtain rfl := pure_eq_ok_iff.mp h
    exact ⟨hdomain, rfl⟩
  · exact absurd h throw_ne_ok

/-- A domain name in folded case is its own folding. -/
lemma casefold_of_isDomain {name : String} (h : IsDomain name.toList) :
    Text.casefold name = name := by
  rw [Text.casefold]
  refine (congrArg String.ofList ?_).trans (String.ofList_toList)
  calc name.toList.flatMap Text.foldChar = name.toList.flatMap (fun c => [c]) :=
        List.flatMap_congr fun c hc => foldChar_of_isDomainChar (isDomainChar_of_mem h hc)
    _ = name.toList := List.flatMap_singleton' _

/-- A canonical server name has no dot at its end. -/
lemma rstripDots_canonical {value name : String} (h : canonicalServerName value = .ok name) :
    rstripDots name = name := by
  rw [(canonicalServerName_eq_ok h).2, rstripDots_casefold]

/-- A canonical server name is its own canonical form. -/
lemma canonicalServerName_idem {value name : String} (h : canonicalServerName value = .ok name) :
    canonicalServerName name = .ok name := by
  have hdomain := (canonicalServerName_eq_ok h).1
  have hstrip : Text.strip name = name := by
    refine Text.strip_of_stripped ⟨fun c hc => ?_, fun c hc => ?_⟩
    · exact isSpace_of_isDomainChar (isDomainChar_of_mem hdomain (List.mem_of_mem_head? hc))
    · exact isSpace_of_isDomainChar (isDomainChar_of_mem hdomain (List.mem_of_mem_getLast? hc))
  rw [canonicalServerName, hstrip, rstripDots_canonical h, casefold_of_isDomain hdomain,
    if_pos hdomain]
  rfl

/-! ## Validation -/

/-- The fields of a payload for a route. -/
structure RoutePayload where
  id : Option ℕ := none
  listenAddress : Option String := none
  incomingPort : Option ℤ := none
  serverName : Option String := none
  alpn : Option String := none
  target : Option String := none
  targetPort : Option ℤ := none
  idleTimeoutSeconds : Option ℤ := none
  enabled : Option Bool := none

/-- A field that a schema requires. -/
def required {α : Type} (name : String) (value : Option α) : Result α :=
  match value with
  | some a => pure a
  | none => throw (.valueError s!"{name}: field required")

/-- `_port`. -/
def port (value : ℤ) (name : String) : Result ℕ := do
  raiseIf (¬ (1 ≤ value ∧ value ≤ 65535))
    (.domainValidationError s!"{name} must be between 1 and 65535")
  pure value.toNat

/-- `RuntimeRoute(id=int(payload.get("id") or 0), ...)`, with `validate_route`. -/
def validateRoute (payload : RoutePayload) : Result QuicRoute := do
  let serverName ← required "server_name" payload.serverName
  let target ← required "target" payload.target
  let targetPort ← required "target_port" payload.targetPort
  let serverName ← canonicalServerName serverName
  let incomingPort ← port (payload.incomingPort.getD 443) "incoming_port"
  let targetPort ← port targetPort "target_port"
  raiseIf (Text.strip target = "") (.domainValidationError "target is required")
  let alpn := payload.alpn.getD "h3"
  raiseIf (alpn ≠ "h3")
    (.domainValidationError "QUIC passthrough currently requires ALPN h3")
  let idleTimeoutSeconds := payload.idleTimeoutSeconds.getD 1800
  raiseIf (¬ (5 ≤ idleTimeoutSeconds ∧ idleTimeoutSeconds ≤ 86400))
    (.domainValidationError "idle_timeout_seconds must be between 5 and 86400")
  pure
    { id := payload.id.getD 0
      listenAddress := payload.listenAddress.getD "0.0.0.0"
      incomingPort := incomingPort
      serverName := serverName
      alpn := alpn
      target := target
      targetPort := targetPort
      idleTimeoutSeconds := idleTimeoutSeconds.toNat
      enabled := payload.enabled.getD true }

/-- `_wire_projection`. -/
def wireProjection (row : QuicRoute) : RoutePayload where
  id := some row.id
  listenAddress := some row.listenAddress
  incomingPort := some row.incomingPort
  serverName := some row.serverName
  alpn := some row.alpn
  target := some row.target
  targetPort := some row.targetPort
  idleTimeoutSeconds := some row.idleTimeoutSeconds
  enabled := some row.enabled

/-- `{**stored, **payload}`. -/
def RoutePayload.over (payload stored : RoutePayload) : RoutePayload where
  id := payload.id.or stored.id
  listenAddress := payload.listenAddress.or stored.listenAddress
  incomingPort := payload.incomingPort.or stored.incomingPort
  serverName := payload.serverName.or stored.serverName
  alpn := payload.alpn.or stored.alpn
  target := payload.target.or stored.target
  targetPort := payload.targetPort.or stored.targetPort
  idleTimeoutSeconds := payload.idleTimeoutSeconds.or stored.idleTimeoutSeconds
  enabled := payload.enabled.or stored.enabled

/-- What validation makes sure of. -/
structure ValidRoute (route : QuicRoute) : Prop where
  serverName : canonicalServerName route.serverName = .ok route.serverName
  incomingPort : 1 ≤ route.incomingPort ∧ route.incomingPort ≤ 65535
  targetPort : 1 ≤ route.targetPort ∧ route.targetPort ≤ 65535
  target : Text.strip route.target ≠ ""
  alpn : route.alpn = "h3"
  idleTimeoutSeconds : 5 ≤ route.idleTimeoutSeconds ∧ route.idleTimeoutSeconds ≤ 86400

lemma port_eq_ok {value : ℤ} {name : String} {n : ℕ} (h : port value name = .ok n) :
    1 ≤ n ∧ n ≤ 65535 := by
  simp only [port, bind_eq_ok_iff, raiseIf_eq_ok_iff, not_not, pure_eq_ok_iff] at h
  obtain ⟨-, hrange, rfl⟩ := h
  omega

lemma required_eq_ok {α : Type} {name : String} {value : Option α} {a : α}
    (h : required name value = .ok a) : value = some a := by
  cases value with
  | none => exact absurd h throw_ne_ok
  | some b => exact congrArg some (pure_eq_ok_iff.mp h)

lemma validRoute_of_validateRoute {payload : RoutePayload} {route : QuicRoute}
    (h : validateRoute payload = .ok route) : ValidRoute route := by
  simp only [validateRoute, bind_eq_ok_iff, raiseIf_eq_ok_iff, not_not, pure_eq_ok_iff] at h
  obtain ⟨serverName, -, target, -, targetPort, -, name, hname, incomingPort, hincoming, port,
    hport, -, htarget, -, halpn, -, htimeout, rfl⟩ := h
  exact
    { serverName := canonicalServerName_idem hname
      incomingPort := port_eq_ok hincoming
      targetPort := port_eq_ok hport
      target := htarget
      alpn := halpn
      idleTimeoutSeconds := by
        dsimp only
        omega }

lemma port_of_nat {n : ℕ} (name : String) (h : 1 ≤ n ∧ n ≤ 65535) : port n name = .ok n := by
  have hrange : ¬ ¬ (1 ≤ (n : ℤ) ∧ (n : ℤ) ≤ 65535) := by omega
  rw [port, raiseIf, if_neg hrange]
  rfl

/-- A stored route is accepted again as it is. -/
lemma validateRoute_wireProjection {route : QuicRoute} (h : ValidRoute route) :
    validateRoute (wireProjection route) = .ok route := by
  have htimeout : 5 ≤ (route.idleTimeoutSeconds : ℤ) ∧ (route.idleTimeoutSeconds : ℤ) ≤ 86400 := by
    have := h.idleTimeoutSeconds
    omega
  simp only [validateRoute, bind_eq_ok_iff, raiseIf_eq_ok_iff, not_not, pure_eq_ok_iff]
  exact ⟨route.serverName, rfl, route.target, rfl, route.targetPort, rfl, route.serverName,
    h.serverName, route.incomingPort, port_of_nat _ h.incomingPort, route.targetPort,
    port_of_nat _ h.targetPort, (), h.target, (), h.alpn, (), htimeout, rfl⟩

/-! ## The table -/

/-- The columns of `uq_quic_sni`. -/
def sniKey (route : QuicRoute) : (String × ℕ) × String := (route.listener, route.serverName)

/-- `prepare_route`: the row that a payload asks for. -/
def prepareRoute (update : Bool) (rows : List QuicRoute) (payload : RoutePayload) :
    Result QuicRoute := do
  let stored := payload.id.bind fun id => rows.find? fun row => row.id = id
  let payload :=
    match update, stored with
    | true, some row => payload.over (wireProjection row)
    | _, _ => payload
  let route ← validateRoute payload
  raiseIf (∃ row ∈ rows, sniKey row = sniKey route ∧ ∀ id ∈ payload.id, row.id ≠ id)
    (.collisionError s!"QUIC route already owns {route.serverName}:{route.incomingPort}/udp")
  pure route

/-- The handlers of `update` and `replace`: a prepared row takes the place of the stored one. -/
def storeOver (rows : List QuicRoute) (id : Option ℕ) (route : QuicRoute) :
    Result (List QuicRoute) := do
  let id ← required "id" id
  raiseIf (∀ row ∈ rows, row.id ≠ id) (.lookupError s!"QUIC route {id} was not found")
  pure (rows.map fun row => if row.id = id then { route with id := id } else row)

/-- An operation on the table; the database proposes the id of a new row. -/
inductive RouteOp
  | create (generated : ℕ) (payload : RoutePayload)
  | update (payload : RoutePayload)
  | replace (payload : RoutePayload)
  | delete (id : ℕ)

/-- The table after an operation. -/
def applyRouteOp (rows : List QuicRoute) : RouteOp → Result (List QuicRoute)
  | .create generated payload => do
    let route ← prepareRoute false rows payload
    let id := payload.id.getD generated
    raiseIf (∃ row ∈ rows, row.id = id) .integrityError
    pure (rows ++ [{ route with id := id }])
  | .update payload => do storeOver rows payload.id (← prepareRoute true rows payload)
  | .replace payload => do storeOver rows payload.id (← prepareRoute false rows payload)
  | .delete id => pure (rows.filter fun row => row.id ≠ id)

/-- What holds of the table: rows are valid, and no two of them have one id, or one name on one
listener. -/
structure Accepted (rows : List QuicRoute) : Prop where
  ids : (rows.map QuicRoute.id).Nodup
  valid : ∀ route ∈ rows, ValidRoute route
  unique : (rows.map sniKey).Nodup

lemma accepted_nil : Accepted [] := ⟨List.nodup_nil, by simp, List.nodup_nil⟩

lemma ValidRoute.withId {route : QuicRoute} (h : ValidRoute route) (id : ℕ) :
    ValidRoute { route with id := id } :=
  ⟨h.serverName, h.incomingPort, h.targetPort, h.target, h.alpn, h.idleTimeoutSeconds⟩

lemma prepareRoute_eq_ok {update : Bool} {rows : List QuicRoute} {payload : RoutePayload}
    {route : QuicRoute} (h : prepareRoute update rows payload = .ok route) :
    ValidRoute route ∧ ∀ row ∈ rows, sniKey row = sniKey route → ∃ id ∈ payload.id, row.id = id := by
  have hid : ∀ p : RoutePayload, p.id = payload.id → (do
      let route ← validateRoute p
      raiseIf (∃ row ∈ rows, sniKey row = sniKey route ∧ ∀ id ∈ p.id, row.id ≠ id)
        (.collisionError s!"QUIC route already owns {route.serverName}:{route.incomingPort}/udp")
      pure route) = Except.ok route →
      ValidRoute route ∧
        ∀ row ∈ rows, sniKey row = sniKey route → ∃ id ∈ payload.id, row.id = id := by
    intro p hp h
    simp only [bind_eq_ok_iff, raiseIf_eq_ok_iff, pure_eq_ok_iff] at h
    obtain ⟨_, hroute, -, hfree, rfl⟩ := h
    refine ⟨validRoute_of_validateRoute hroute, fun row hrow hkey => ?_⟩
    by_contra hne
    exact hfree ⟨row, hrow, hkey, fun id hid heq => hne ⟨id, hp ▸ hid, heq⟩⟩
  unfold prepareRoute at h
  dsimp only at h
  split at h
  · rename_i row hstored
    refine hid (payload.over (wireProjection row)) ?_ h
    cases hpayload : payload.id with
    | none => simp [hpayload] at hstored
    | some id => simp [RoutePayload.over, hpayload]
  · exact hid payload rfl h

lemma accepted_storeOver {rows rows' : List QuicRoute} {id : Option ℕ} {route : QuicRoute}
    (h : Accepted rows) (hvalid : ValidRoute route)
    (hfree : ∀ row ∈ rows, sniKey row = sniKey route → ∃ i ∈ id, row.id = i)
    (hstore : storeOver rows id route = .ok rows') : Accepted rows' := by
  simp only [storeOver, bind_eq_ok_iff, raiseIf_eq_ok_iff, pure_eq_ok_iff] at hstore
  obtain ⟨id, hid, -, -, rfl⟩ := hstore
  obtain rfl := required_eq_ok hid
  refine ⟨?_, ?_, ?_⟩
  · have hids : (rows.map fun row => if row.id = id then { route with id := id } else row).map
        QuicRoute.id = rows.map QuicRoute.id := by
      rw [List.map_map]
      refine List.map_congr_left fun row _ => ?_
      by_cases hrow : row.id = id <;> simp [hrow]
    rw [hids]
    exact h.ids
  · intro r hr
    obtain ⟨row, hrow, rfl⟩ := List.mem_map.mp hr
    split
    · exact hvalid.withId id
    · exact h.valid row hrow
  · have hboth : rows.Pairwise fun a b => a.id ≠ b.id ∧ sniKey a ≠ sniKey b :=
      (List.pairwise_map.mp h.ids).and (List.pairwise_map.mp h.unique)
    rw [List.map_map, List.Nodup, List.pairwise_map]
    refine hboth.imp_of_mem fun {a b} ha hb hdiffer => ?_
    obtain ⟨hid, hkey⟩ := hdiffer
    have hother : ∀ row ∈ rows, row.id ≠ id → sniKey row ≠ sniKey route := by
      intro row hrow hne heq
      obtain ⟨i, hi, hrowid⟩ := hfree row hrow heq
      exact hne (hrowid.trans (Option.mem_some_iff.mp hi).symm)
    by_cases hida : a.id = id
    · have hidb : b.id ≠ id := fun hidb => hid (hida.trans hidb.symm)
      simp only [Function.comp_apply, if_pos hida, if_neg hidb]
      exact (hother b hb hidb).symm
    · by_cases hidb : b.id = id
      · simp only [Function.comp_apply, if_neg hida, if_pos hidb]
        exact hother a ha hida
      · simp only [Function.comp_apply, if_neg hida, if_neg hidb]
        exact hkey

/-- Every operation keeps the table accepted. -/
theorem accepted_applyRouteOp {rows rows' : List QuicRoute} {op : RouteOp} (h : Accepted rows)
    (hop : applyRouteOp rows op = .ok rows') : Accepted rows' := by
  cases op with
  | create generated payload =>
    simp only [applyRouteOp, bind_eq_ok_iff, raiseIf_eq_ok_iff, pure_eq_ok_iff] at hop
    obtain ⟨route, hprepare, -, hnew, rfl⟩ := hop
    obtain ⟨hvalid, hfree⟩ := prepareRoute_eq_ok hprepare
    refine ⟨?_, ?_, ?_⟩
    · rw [List.map_append, List.map_singleton]
      refine List.nodup_append.mpr ⟨h.ids, List.nodup_singleton _, ?_⟩
      intro a ha b hb heq
      obtain ⟨row, hrow, rfl⟩ := List.mem_map.mp ha
      exact hnew ⟨row, hrow, heq.trans (List.mem_singleton.mp hb)⟩
    · intro r hr
      rcases List.mem_append.mp hr with hr | hr
      · exact h.valid r hr
      · exact List.mem_singleton.mp hr ▸ hvalid.withId _
    · rw [List.map_append, List.map_singleton]
      refine List.nodup_append.mpr ⟨h.unique, List.nodup_singleton _, ?_⟩
      intro a ha b hb heq
      obtain ⟨row, hrow, rfl⟩ := List.mem_map.mp ha
      -- a row of the same name would have to have the id of the payload, which is new
      obtain ⟨id, hid, hrowid⟩ := hfree row hrow (heq.trans (List.mem_singleton.mp hb))
      exact hnew ⟨row, hrow, by rw [hrowid, Option.mem_def.mp hid, Option.getD_some]⟩
  | update payload =>
    simp only [applyRouteOp, bind_eq_ok_iff] at hop
    obtain ⟨route, hprepare, hstore⟩ := hop
    obtain ⟨hvalid, hfree⟩ := prepareRoute_eq_ok hprepare
    exact accepted_storeOver h hvalid hfree hstore
  | replace payload =>
    simp only [applyRouteOp, bind_eq_ok_iff] at hop
    obtain ⟨route, hprepare, hstore⟩ := hop
    obtain ⟨hvalid, hfree⟩ := prepareRoute_eq_ok hprepare
    exact accepted_storeOver h hvalid hfree hstore
  | delete id =>
    obtain rfl := pure_eq_ok_iff.mp hop
    refine ⟨?_, ?_, ?_⟩
    · exact h.ids.sublist (List.filter_sublist.map _)
    · exact fun r hr => h.valid r (List.mem_of_mem_filter hr)
    · exact h.unique.sublist (List.filter_sublist.map _)

end Portwyrm.Quic

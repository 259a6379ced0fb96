import Portwyrm.Base.Claims
import Portwyrm.Tables.Fields
import Portwyrm.Tables.Lifecycle

/-!
# Stream routes

`StreamRouteStore` of `portwyrm.tables.routing`, and the operations of `TableResources` on
streams.  Creating and updating a stream ask whether its port is free; replacing it does not, and
the database only keeps equal protocols apart.
-/

namespace Portwyrm.Tables

open Base Portwyrm.Runtime Portwyrm.Quic Portwyrm.Identity

/-! ## Payloads and rows -/

/-- The fields of a payload for a stream; what no operation reads is kept as an extension. -/
structure StreamPayload where
  ownerPrincipalId : Member ℕ := none
  tcpForwarding : Member Bool := none
  udpForwarding : Member Bool := none
  incomingPort : Member ℤ := none
  targetKind : Member String := none
  forwardingHost : Member String := none
  forwardingPort : Member ℤ := none
  certificateId : Member ℤ := none
  enabled : Member Bool := none
  extensions : Dict String Json := Dict.empty

/-- `{**stored, **payload}`. -/
def StreamPayload.over (payload stored : StreamPayload) : StreamPayload where
  ownerPrincipalId := payload.ownerPrincipalId.or stored.ownerPrincipalId
  tcpForwarding := payload.tcpForwarding.or stored.tcpForwarding
  udpForwarding := payload.udpForwarding.or stored.udpForwarding
  incomingPort := payload.incomingPort.or stored.incomingPort
  targetKind := payload.targetKind.or stored.targetKind
  forwardingHost := payload.forwardingHost.or stored.forwardingHost
  forwardingPort := payload.forwardingPort.or stored.forwardingPort
  certificateId := payload.certificateId.or stored.certificateId
  enabled := payload.enabled.or stored.enabled
  extensions := stored.extensions.update payload.extensions

/-- What `_values` makes of a payload: columns that the database has not accepted yet. -/
structure StreamValues where
  ownerPrincipalId : Option ℕ
  protocol : StreamProtocol
  incomingPort : ℤ
  targetKind : String
  target : String
  targetPort : ℤ
  certificateId : Option ℤ
  enabled : Bool
  compat : StreamPayload

/-- A row of `stream_routes`. -/
structure StreamRow where
  ownerPrincipalId : Option ℕ
  protocol : StreamProtocol
  incomingPort : ℕ
  targetKind : TargetKind
  target : String
  targetPort : ℕ
  certificateId : Option ℕ
  enabled : Bool
  compat : StreamPayload

/-- `_values("streams", payload)`. -/
def streamValues (payload : StreamPayload) : StreamValues where
  ownerPrincipalId := payload.ownerPrincipalId.get
  protocol :=
    if payload.tcpForwarding.truthy false ∧ payload.udpForwarding.truthy false then .tcpUdp
    else if payload.udpForwarding.truthy false then .udp
    else .tcp
  incomingPort := intOr payload.incomingPort.get 0
  targetKind := textOr payload.targetKind.get "dns"
  target := textOr payload.forwardingHost.get ""
  targetPort := intOr payload.forwardingPort.get 0
  certificateId := payload.certificateId.get.filter (· ≠ 0)
  enabled := payload.enabled.truthy true
  compat := payload

/-- `_project("streams", row)`: the metadata of the row under its columns. -/
def projectStream (row : StreamRow) : StreamPayload :=
  { row.compat with
    incomingPort := .of row.incomingPort
    forwardingHost := .of row.target
    forwardingPort := .of row.targetPort
    targetKind := .of row.targetKind.value
    tcpForwarding := .of (row.protocol = .tcp ∨ row.protocol = .tcpUdp)
    udpForwarding := .of (row.protocol = .udp ∨ row.protocol = .tcpUdp)
    enabled := .of row.enabled }

/-- The text of a protocol. -/
def protocolText : StreamProtocol → String
  | .tcp => "tcp"
  | .udp => "udp"
  | .tcpUdp => "tcp+udp"

/-- A transport that a stream listens on. -/
inductive Transport
  | tcp
  | udp
deriving DecidableEq, Repr

/-- The text of a transport. -/
def Transport.value : Transport → String
  | .tcp => "tcp"
  | .udp => "udp"

/-- The transports of a protocol. -/
def transports : StreamProtocol → List Transport
  | .tcp => [.tcp]
  | .udp => [.udp]
  | .tcpUdp => [.tcp, .udp]

/-- The pairs of a port and a transport that a stream claims. -/
def portClaims (port : ℕ) (protocol : StreamProtocol) : List (ℕ × Transport) :=
  (transports protocol).map fun transport => (port, transport)

/-- What a stored stream claims. -/
def StreamRow.claims (row : StreamRow) : List (ℕ × Transport) :=
  portClaims row.incomingPort row.protocol

/-- The protocols that `_assert_port_available` looks for. -/
def conflicts : StreamProtocol → List StreamProtocol
  | .tcp => [.tcp, .tcpUdp]
  | .udp => [.udp, .tcpUdp]
  | .tcpUdp => [.tcp, .udp, .tcpUdp]

/-- The conflicting protocols are those with a common transport. -/
lemma disjoint_portClaims {port port' : ℕ} {p p' : StreamProtocol} :
    (portClaims port p).Disjoint (portClaims port' p') ↔ port = port' → p' ∉ conflicts p := by
  constructor
  · rintro h rfl hmem
    have hcommon : ∃ t, t ∈ transports p ∧ t ∈ transports p' := by
      cases p <;> cases p' <;> first | exact absurd hmem (by decide) | decide +revert
    obtain ⟨t, ht, ht'⟩ := hcommon
    exact h (List.mem_map.mpr ⟨t, ht, rfl⟩) (List.mem_map.mpr ⟨t, ht', rfl⟩)
  · intro h claim hclaim hclaim'
    obtain ⟨t, ht, rfl⟩ := List.mem_map.mp hclaim
    obtain ⟨t', ht', heq⟩ := List.mem_map.mp hclaim'
    obtain ⟨rfl, rfl⟩ := Prod.mk.inj heq
    refine h rfl ?_
    cases p <;> cases p' <;> cases t' <;> first | decide | simp [transports] at ht ht'

/-! ## Operations -/

/-- `StreamRouteStore.validate`, with `_assert_port_available`; a stored row does not compete with
itself. -/
def validateStream (rows : Dict ℕ StreamRow) (excludeId : Option ℕ) (values : StreamValues) :
    Result Unit := do
  let incomingPort ← port values.incomingPort "incoming_port"
  let _ ← port values.targetPort "target_port"
  let kind ← parseTargetKind values.targetKind
  let _ ← target values.target kind "target"
  raiseIf (∃ entry ∈ rows.entries, excludeId ≠ some entry.1 ∧
      entry.2.incomingPort = incomingPort ∧ entry.2.protocol ∈ conflicts values.protocol)
    (.collisionError
      s!"stream port {incomingPort}/{protocolText values.protocol} is already in use")

/-- The constraints of `stream_routes`, for a row that is stored under an id. -/
def checkStream (certificates : List ℕ) (rows : Dict ℕ StreamRow) (id : ℕ)
    (values : StreamValues) : Result StreamRow := do
  let certificateId ← certificateKey certificates values.certificateId
  match TargetKind.ofValue? values.targetKind with
  | none => throw .integrityError
  | some kind => do
    raiseIf (¬ (1 ≤ values.incomingPort ∧ values.incomingPort ≤ 65535)) .integrityError
    raiseIf (¬ (1 ≤ values.targetPort ∧ values.targetPort ≤ 65535)) .integrityError
    raiseIf (certificateId ≠ none ∧ values.protocol = .udp) .integrityError
    raiseIf (∃ entry ∈ rows.entries, entry.1 ≠ id ∧
        entry.2.incomingPort = values.incomingPort ∧ entry.2.protocol = values.protocol)
      .integrityError
    pure
      { ownerPrincipalId := values.ownerPrincipalId
        protocol := values.protocol
        incomingPort := values.incomingPort.toNat
        targetKind := kind
        target := values.target
        targetPort := values.targetPort.toNat
        certificateId := certificateId
        enabled := values.enabled
        compat := values.compat }

/-- What the checks of the constraints have found, and the row that they leave. -/
lemma checkStream_eq_ok {certificates : List ℕ} {rows : Dict ℕ StreamRow} {id : ℕ}
    {values : StreamValues} {row : StreamRow}
    (h : checkStream certificates rows id values = .ok row) :
    ∃ certificateId kind, certificateKey certificates values.certificateId = .ok certificateId ∧
      TargetKind.ofValue? values.targetKind = some kind ∧
      (1 ≤ values.incomingPort ∧ values.incomingPort ≤ 65535) ∧
      (1 ≤ values.targetPort ∧ values.targetPort ≤ 65535) ∧
      ¬ (certificateId ≠ none ∧ values.protocol = .udp) ∧
      row =
        { ownerPrincipalId := values.ownerPrincipalId
          protocol := values.protocol
          incomingPort := values.incomingPort.toNat
          targetKind := kind
          target := values.target
          targetPort := values.targetPort.toNat
          certificateId := certificateId
          enabled := values.enabled
          compat := values.compat } := by
  simp only [checkStream, bind_eq_ok_iff] at h
  obtain ⟨certificateId, hkey, h⟩ := h
  split at h
  · exact absurd h throw_ne_ok
  · rename_i kind hkind
    simp only [bind_eq_ok_iff, raiseIf_eq_ok_iff, not_not, pure_eq_ok_iff] at h
    obtain ⟨-, hincoming, -, hport, -, htls, -, -, rfl⟩ := h
    exact ⟨certificateId, kind, hkey, hkind, hincoming, hport, htls, rfl⟩

section Operations

variable (certificates : List ℕ) (actor : Actor)

/-- `create_resource("streams", payload)`; the database generates the id. -/
def createStream (generated : ℕ) (payload : StreamPayload) (rows : Dict ℕ StreamRow) :
    Result (Dict ℕ StreamRow) := do
  let values := streamValues payload
  validateStream rows none values
  enforceAuthorization actor "streams" .create
  raiseIf (generated ∈ rows) .integrityError
  let owned := { values with ownerPrincipalId := createOwner actor values.ownerPrincipalId }
  let row ← checkStream certificates rows generated owned
  pure (rows.set generated row)

/-- The `update` and `replace` operations of the table, for a row that is there; the metadata of a
stream has no `extensions`. -/
def storeStream (id : ℕ) (stored : StreamRow) (values : StreamValues)
    (rows : Dict ℕ StreamRow) : Result (Dict ℕ StreamRow) := do
  enforceAuthorization actor "streams" .update
  enforceOwnership actor stored.ownerPrincipalId Dict.empty
  let row ← checkStream certificates rows id values
  pure (rows.set id row)

/-- `update_resource("streams", id, payload)`. -/
def updateStream (id : ℕ) (payload : StreamPayload) (rows : Dict ℕ StreamRow) :
    Result (Dict ℕ StreamRow) :=
  match rows.get? id with
  | none => pure rows
  | some stored => do
    let values := streamValues (payload.over (projectStream stored))
    validateStream rows (some id) values
    storeStream certificates actor id stored values rows

/-- `replace_resource("streams", id, payload)`. -/
def replaceStream (id : ℕ) (payload : StreamPayload) (rows : Dict ℕ StreamRow) :
    Result (Dict ℕ StreamRow) :=
  match rows.get? id with
  | none => pure rows
  | some stored => storeStream certificates actor id stored (streamValues payload) rows

/-- `set_enabled("streams", id, enabled)`: an update with the enabled column alone. -/
def setStreamEnabled (id : ℕ) (enabled : Bool) (rows : Dict ℕ StreamRow) :
    Result (Dict ℕ StreamRow) :=
  match rows.get? id with
  | none => pure rows
  | some stored => do
    enforceAuthorization actor "streams" .update
    enforceOwnership actor stored.ownerPrincipalId Dict.empty
    pure (rows.set id { stored with enabled := enabled })

/-- `delete_resource("streams", id)`. -/
def deleteStream (id : ℕ) (rows : Dict ℕ StreamRow) : Result (Dict ℕ StreamRow) :=
  match rows.get? id with
  | none => pure rows
  | some stored => do
    enforceAuthorization actor "streams" .delete
    enforceOwnership actor stored.ownerPrincipalId Dict.empty
    pure (rows.pop id)

end Operations

/-! ## What the operations store -/

section Stored

variable {certificates : List ℕ} {actor : Actor} {id : ℕ} {payload : StreamPayload}
  {values : StreamValues} {stored : StreamRow} {rows rows' : Dict ℕ StreamRow}

/-- A stream that is created is validated, and its row is checked under a new id. -/
lemma createStream_spec (h : createStream certificates actor id payload rows = .ok rows') :
    ∃ row, rows' = rows.set id row ∧ rows.get? id = none ∧
      validateStream rows none (streamValues payload) = .ok () ∧
      checkStream certificates rows id
        { streamValues payload with
          ownerPrincipalId := createOwner actor (streamValues payload).ownerPrincipalId } =
        .ok row := by
  simp only [createStream, bind_eq_ok_iff, raiseIf_eq_ok_iff, pure_eq_ok_iff] at h
  obtain ⟨_, hvalid, -, -, -, hnew, row, hrow, rfl⟩ := h
  exact ⟨row, rfl, Dict.get?_eq_none_iff.mpr hnew, hvalid, hrow⟩

/-- What the `update` and `replace` operations store is a row that is checked. -/
lemma storeStream_spec (h : storeStream certificates actor id stored values rows = .ok rows') :
    ∃ row, rows' = rows.set id row ∧ checkStream certificates rows id values = .ok row := by
  simp only [storeStream, bind_eq_ok_iff, pure_eq_ok_iff] at h
  obtain ⟨-, -, -, -, row, hrow, rfl⟩ := h
  exact ⟨row, rfl, hrow⟩

/-- An update validates the payload over what is shown of the stream, if there is one. -/
lemma updateStream_cases (h : updateStream certificates actor id payload rows = .ok rows') :
    rows' = rows ∧ rows.get? id = none ∨
    ∃ stored row, rows.get? id = some stored ∧ rows' = rows.set id row ∧
      validateStream rows (some id) (streamValues (payload.over (projectStream stored))) = .ok () ∧
      checkStream certificates rows id (streamValues (payload.over (projectStream stored))) =
        .ok row := by
  unfold updateStream at h
  split at h
  · rename_i hnone
    exact .inl ⟨(pure_eq_ok_iff.mp h).symm, hnone⟩
  · rename_i stored hstored
    obtain ⟨_, hvalid, hstore⟩ := bind_eq_ok_iff.mp h
    obtain ⟨row, hrows, hrow⟩ := storeStream_spec hstore
    exact .inr ⟨stored, row, hstored, hrows, hvalid, hrow⟩

/-- A replacement validates nothing before the row is checked. -/
lemma replaceStream_cases (h : replaceStream certificates actor id payload rows = .ok rows') :
    rows' = rows ∧ rows.get? id = none ∨
    ∃ stored row, rows.get? id = some stored ∧ rows' = rows.set id row ∧
      checkStream certificates rows id (streamValues payload) = .ok row := by
  unfold replaceStream at h
  split at h
  · rename_i hnone
    exact .inl ⟨(pure_eq_ok_iff.mp h).symm, hnone⟩
  · rename_i stored hstored
    obtain ⟨row, hrows, hrow⟩ := storeStream_spec h
    exact .inr ⟨stored, row, hstored, hrows, hrow⟩

/-- A toggle changes the flag of the row. -/
lemma setStreamEnabled_spec {enabled : Bool}
    (h : setStreamEnabled actor id enabled rows = .ok rows') :
    rows' = rows ∨ ∃ stored, rows.get? id = some stored ∧
      rows' = rows.set id { stored with enabled := enabled } := by
  unfold setStreamEnabled at h
  split at h
  · exact .inl (pure_eq_ok_iff.mp h).symm
  · rename_i stored hstored
    simp only [bind_eq_ok_iff, pure_eq_ok_iff] at h
    obtain ⟨-, -, -, -, rfl⟩ := h
    exact .inr ⟨stored, hstored, rfl⟩

/-- A stream that is deleted leaves the table. -/
lemma deleteStream_cases (h : deleteStream actor id rows = .ok rows') :
    rows' = rows ∨ rows' = rows.pop id := by
  unfold deleteStream at h
  split at h
  · exact .inl (pure_eq_ok_iff.mp h).symm
  · simp only [bind_eq_ok_iff, pure_eq_ok_iff] at h
    obtain ⟨-, -, -, -, rfl⟩ := h
    exact .inr rfl

end Stored

/-- An operation of `TableResources` on streams. -/
inductive StreamOp
  | create (generated : ℕ) (payload : StreamPayload)
  | update (id : ℕ) (payload : StreamPayload)
  | replace (id : ℕ) (payload : StreamPayload)
  | setEnabled (id : ℕ) (enabled : Bool)
  | delete (id : ℕ)

/-- The table after an operation. -/
def applyStreamOp (certificates : List ℕ) (actor : Actor) (rows : Dict ℕ StreamRow) :
    StreamOp → Result (Dict ℕ StreamRow)
  | .create generated payload => createStream certificates actor generated payload rows
  | .update id payload => updateStream certificates actor id payload rows
  | .replace id payload => replaceStream certificates actor id payload rows
  | .setEnabled id enabled => setStreamEnabled actor id enabled rows
  | .delete id => deleteStream actor id rows

/-- One call: a refused operation leaves the table as it is. -/
def streamStep (certificates : List ℕ) (rows : Dict ℕ StreamRow) (call : Actor × StreamOp) :
    Dict ℕ StreamRow :=
  match applyStreamOp certificates call.1 rows call.2 with
  | .ok rows' => rows'
  | .error _ => rows

/-- The table after a sequence of calls, from the empty one. -/
def streamRun (certificates : List ℕ) (calls : List (Actor × StreamOp)) : Dict ℕ StreamRow :=
  calls.foldl (streamStep certificates) Dict.empty

end Portwyrm.Tables

import Portwyrm.Tables.Streams

/-!
# Ports of streams

Whether two stored streams can claim one port for one transport.  Every operation but the
replacement of a stream keeps the claims of streams apart.
-/

namespace Portwyrm.Tables

open Base Portwyrm.Runtime Portwyrm.Quic Portwyrm.Identity

/-- What a payload claims once it is stored. -/
def StreamPayload.claims (payload : StreamPayload) : List (ℕ × Transport) :=
  portClaims (streamValues payload).incomingPort.toNat (streamValues payload).protocol

/-- No other stream claims what a replacement claims. -/
def LeavesClaims (rows : Dict ℕ StreamRow) : StreamOp → Prop
  | .replace id payload => ∀ other row, rows.get? other = some row → other ≠ id →
      payload.claims.Disjoint row.claims
  | _ => True

/-! ## The check of the inventory -/

/-- The loop of `HostInventory.validate` over the claims of streams. -/
def claimPorts (claims : List (ℕ × Transport)) : List (ℕ × Transport) → Result Unit
  | [] => pure ()
  | claim :: rest => do
    raiseIf (claim ∈ claims)
      (.collisionError s!"stream port {claim.1}/{claim.2.value} is already in use")
    claimPorts (claim :: claims) rest

/-- The part of `HostInventory.validate` about streams. -/
def inventoryStreams (streams : List StreamRow) : Result Unit :=
  claimPorts [] (streams.flatMap StreamRow.claims)

lemma nodup_portClaims (port : ℕ) (protocol : StreamProtocol) :
    (portClaims port protocol).Nodup := by
  cases protocol <;> simp [portClaims, transports]

lemma claimPorts_eq_ok_iff {claimed claims : List (ℕ × Transport)} {u : Unit} :
    claimPorts claimed claims = .ok u ↔ claims.Nodup ∧ ∀ claim ∈ claims, claim ∉ claimed := by
  induction claims generalizing claimed with
  | nil => simp [claimPorts]
  | cons claim rest ih =>
    rw [List.nodup_cons, List.forall_mem_cons]
    simp only [claimPorts, bind_eq_ok_iff, raiseIf_eq_ok_iff, exists_const, ih, List.mem_cons,
      not_or]
    constructor
    · rintro ⟨hclaim, hnodup, hrest⟩
      exact ⟨⟨fun hmem => (hrest claim hmem).1 rfl, hnodup⟩, hclaim, fun c hc => (hrest c hc).2⟩
    · rintro ⟨⟨hnew, hnodup⟩, hclaim, hrest⟩
      exact ⟨hclaim, hnodup, fun c hc => ⟨fun heq => hnew (heq ▸ hc), hrest c hc⟩⟩

/-- The inventory accepts the streams of a table exactly when their claims are exclusive. -/
theorem inventoryStreams_eq_ok_iff {rows : Dict ℕ StreamRow} {u : Unit} :
    inventoryStreams rows.values = .ok u ↔ Exclusive StreamRow.claims rows := by
  rw [inventoryStreams, claimPorts_eq_ok_iff, Exclusive.iff_pairwise, List.nodup_flatMap]
  constructor
  · rintro ⟨⟨-, hpairwise⟩, -⟩
    exact hpairwise
  · intro hpairwise
    exact ⟨⟨fun row _ => nodup_portClaims _ _, hpairwise⟩, by simp⟩

/-! ## One operation -/

section Operations

variable {certificates : List ℕ} {actor : Actor} {rows rows' : Dict ℕ StreamRow} {id : ℕ}

lemma port_eq_ok_toNat {value : ℤ} {name : String} {n : ℕ} (h : port value name = .ok n) :
    n = value.toNat := by
  simp only [port, bind_eq_ok_iff, pure_eq_ok_iff] at h
  obtain ⟨-, -, rfl⟩ := h
  rfl

/-- A stored row claims what its values say. -/
lemma claims_of_checkStream {values : StreamValues} {row : StreamRow}
    (h : checkStream certificates rows id values = .ok row) :
    row.claims = portClaims values.incomingPort.toNat values.protocol := by
  obtain ⟨-, -, -, -, -, -, -, rfl⟩ := checkStream_eq_ok h
  rfl

/-- The validator finds the claims of the values free. -/
lemma unclaimed_of_validateStream {excludeId : Option ℕ} {values : StreamValues} {row : StreamRow}
    {u : Unit} (h : validateStream rows excludeId values = .ok u)
    (hrow : row.claims = portClaims values.incomingPort.toNat values.protocol)
    (hid : ∀ id' ∈ excludeId, id' = id) : Unclaimed StreamRow.claims rows id row := by
  simp only [validateStream, bind_eq_ok_iff, raiseIf_eq_ok_iff] at h
  obtain ⟨incomingPort, hport, -, -, -, -, -, -, hfree⟩ := h
  obtain rfl := port_eq_ok_toNat hport
  intro other row' hget hne
  rw [hrow, StreamRow.claims, disjoint_portClaims]
  intro hport hconflict
  refine hfree ⟨(other, row'), Dict.mem_entries_iff.mpr hget, ?_, hport.symm, hconflict⟩
  exact fun hexclude => hne (hid other hexclude)

/-- What an operation does to the table: nothing, or it stores one row, or it deletes one.  A row
that is stored claims what was found free, or what it claimed before, or what a replacement
says. -/
lemma applyStreamOp_cases {op : StreamOp}
    (h : applyStreamOp certificates actor rows op = .ok rows') :
    rows' = rows ∨
    (∃ id row, rows' = rows.set id row ∧ (Unclaimed StreamRow.claims rows id row ∨
      (∃ stored, rows.get? id = some stored ∧ row.claims = stored.claims) ∨
      ∃ payload, op = .replace id payload ∧ row.claims = payload.claims)) ∨
    ∃ id, rows' = rows.pop id := by
  cases op with
  | create generated payload =>
    obtain ⟨row, rfl, -, hvalid, hrow⟩ := createStream_spec h
    refine .inr (.inl ⟨generated, row, rfl, .inl ?_⟩)
    have hclaims := claims_of_checkStream hrow
    exact unclaimed_of_validateStream hvalid hclaims (by simp)
  | update id payload =>
    rcases updateStream_cases h with ⟨rfl, -⟩ | ⟨stored, row, -, rfl, hvalid, hrow⟩
    · exact .inl rfl
    · refine .inr (.inl ⟨id, row, rfl, .inl ?_⟩)
      exact unclaimed_of_validateStream hvalid (claims_of_checkStream hrow) (by simp)
  | replace id payload =>
    rcases replaceStream_cases h with ⟨rfl, -⟩ | ⟨stored, row, -, rfl, hrow⟩
    · exact .inl rfl
    · exact .inr (.inl ⟨id, row, rfl, .inr (.inr ⟨payload, rfl, claims_of_checkStream hrow⟩)⟩)
  | setEnabled id enabled =>
    rcases setStreamEnabled_spec h with rfl | ⟨stored, hget, rfl⟩
    · exact .inl rfl
    · exact .inr (.inl ⟨id, _, rfl, .inr (.inl ⟨stored, hget, rfl⟩)⟩)
  | delete id =>
    rcases deleteStream_cases h with rfl | rfl
    · exact .inl rfl
    · exact .inr (.inr ⟨id, rfl⟩)

/-- An operation that leaves the claims of others alone keeps claims exclusive. -/
lemma exclusive_applyStreamOp {op : StreamOp} (hrows : Exclusive StreamRow.claims rows)
    (hop : LeavesClaims rows op) (h : applyStreamOp certificates actor rows op = .ok rows') :
    Exclusive StreamRow.claims rows' := by
  rcases applyStreamOp_cases h with rfl | ⟨id, row, rfl, hrow⟩ | ⟨id, rfl⟩
  · exact hrows
  · refine hrows.set_iff.mpr ?_
    rcases hrow with hfree | ⟨stored, hget, hclaims⟩ | ⟨payload, rfl, hclaims⟩
    · exact hfree
    · exact (hrows.unclaimed hget).congr hclaims
    · intro other row' hget hne
      rw [hclaims]
      exact hop other row' hget hne
  · exact hrows.pop id

/-- A replacement keeps claims exclusive exactly when it leaves the claims of others alone. -/
theorem exclusive_replaceStream_iff {payload : StreamPayload}
    (hrows : Exclusive StreamRow.claims rows) (hmem : id ∈ rows)
    (h : replaceStream certificates actor id payload rows = .ok rows') :
    Exclusive StreamRow.claims rows' ↔ LeavesClaims rows (.replace id payload) := by
  obtain ⟨stored, hstored⟩ := Dict.mem_iff.mp hmem
  simp only [replaceStream, hstored, storeStream, bind_eq_ok_iff, pure_eq_ok_iff] at h
  obtain ⟨-, -, -, -, row, hrow, rfl⟩ := h
  have hclaims : row.claims = payload.claims := claims_of_checkStream hrow
  rw [hrows.set_iff, Unclaimed, hclaims]
  rfl

end Operations

/-! ## Runs -/

lemma streamRun_append (certificates : List ℕ) (calls : List (Actor × StreamOp))
    (call : Actor × StreamOp) :
    streamRun certificates (calls ++ [call]) =
      streamStep certificates (streamRun certificates calls) call := by
  simp [streamRun]

/-- Along a run whose replacements leave the claims of other streams alone, no two stored streams
ever claim the same port for the same transport. -/
theorem exclusive_streamRun {certificates : List ℕ} {calls : List (Actor × StreamOp)}
    (h : ∀ before call, before ++ [call] <+: calls →
      LeavesClaims (streamRun certificates before) call.2) :
    ∀ before, before <+: calls → Exclusive StreamRow.claims (streamRun certificates before) := by
  intro before
  induction before using List.reverseRecOn with
  | nil => exact fun _ => Exclusive.empty
  | append_singleton before call ih =>
    intro hbefore
    have hrows := ih ((List.prefix_append before [call]).trans hbefore)
    rw [streamRun_append, streamStep]
    split
    · rename_i rows' hstep
      exact exclusive_applyStreamOp hrows (h before call hbefore) hstep
    · exact hrows

/-! ### A replacement that is not checked -/

/-- A payload for a stream to a backend. -/
def backendStream (incomingPort : ℤ) (tcp udp : Bool) : StreamPayload where
  tcpForwarding := .of tcp
  udpForwarding := .of udp
  incomingPort := .of incomingPort
  forwardingHost := .of "backend"
  forwardingPort := .of 53

/-- One stream on TCP and one on UDP share a port. -/
def sharedPort : List (Actor × StreamOp) :=
  [(none, .create 1 (backendStream 443 true false)), (none, .create 2 (backendStream 443 false true))]

/-- The second stream moves to another port. -/
theorem exclusive_streamRun_moved : Exclusive StreamRow.claims
    (streamRun [] (sharedPort ++ [(none, .replace 2 (backendStream 444 true true))])) := by
  refine exclusive_streamRun (fun before call hprefix => ?_) _ (List.prefix_refl _)
  obtain ⟨rest, hrest⟩ := hprefix
  match before, hrest with
  | [], hrest =>
    obtain rfl := (List.cons.inj hrest).1
    trivial
  | [first], hrest =>
    obtain rfl := (List.cons.inj (List.cons.inj hrest).2).1
    trivial
  | [first, second], hrest =>
    obtain ⟨hfirst, hrest₁⟩ := List.cons.inj hrest
    obtain ⟨hsecond, hrest₂⟩ := List.cons.inj hrest₁
    subst hfirst hsecond
    obtain rfl := (List.cons.inj hrest₂).1
    have hentries : ∀ e ∈ (streamRun [] sharedPort).entries, e.1 ≠ 2 →
        ∀ claim ∈ (backendStream 444 true true).claims, claim ∉ e.2.claims := by decide
    intro other row hget hne claim hclaim hclaim'
    exact hentries _ (Dict.mem_entries_iff.mpr hget) hne claim hclaim hclaim'
  | first :: second :: third :: more, hrest =>
    have hlength := congrArg List.length hrest
    simp [sharedPort] at hlength

/-- The second stream takes both transports: the inventory refuses the table that results. -/
theorem streamRun_shared : ¬ ∀ (certificates : List ℕ) (calls : List (Actor × StreamOp)),
    Exclusive StreamRow.claims (streamRun certificates calls) := by
  intro h
  have hexclusive := h [] (sharedPort ++ [(none, .replace 2 (backendStream 443 true true))])
  have hrefused : inventoryStreams (streamRun []
      (sharedPort ++ [(none, .replace 2 (backendStream 443 true true))])).values ≠ .ok () := by
    decide
  exact hrefused (inventoryStreams_eq_ok_iff.mpr hexclusive)

end Portwyrm.Tables

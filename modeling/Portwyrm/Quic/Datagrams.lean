import Portwyrm.Quic.Frame
import Portwyrm.Quic.FrameScan

/-!
# Datagrams from anywhere

`datagram_received` with the exceptions that the parsers raise and the handlers that catch them.  No
datagram gets an exception past the handlers, and a datagram that does not complete a ClientHello for
a route changes nothing but what is kept for its own key.
-/

namespace Portwyrm.Quic

open Base

/-! ## Handlers -/

/-- `try … except`: a call that raises an exception of a kind gives nothing, and all other exceptions
go on. -/
def catching {β : Type} (caught : Exc → Bool) (x : Result β) : Result (Option β) :=
  match x with
  | .ok b => pure (some b)
  | .error e => if caught e then pure none else throw e

lemma catching_eq {β : Type} {caught : Exc → Bool} {x : Result β}
    (h : Raises (fun e => caught e = true) x) : catching caught x = .ok x.toOption := by
  cases x with
  | ok b => rfl
  | error e =>
    rw [catching, if_pos (h e rfl)]
    rfl

/-- `except QuicParseError`. -/
def isParseError : Exc → Bool
  | .quicParseError _ => true
  | _ => false

/-- `except (QuicParseError, IndexError, UnicodeError)`. -/
def isMalformed : Exc → Bool
  | .quicParseError _ | .indexError | .unicodeError => true
  | _ => false

namespace Raising

variable {α : Type} [DecidableEq α] (C : Cryptography)

/-- `_session_for_datagram`. -/
def sessionForDatagram (data : Bytes) (addr : α) (r : Router α) : Result (Option (Key α)) :=
  if data = [] then pure none
  else if isLong data = true then do
    match ← catching isParseError (initialConnectionIds data) with
    | none => pure none
    | some (dcid, _) =>
      let owner := (r.sessionsByServerCid.get? dcid).filter fun key =>
        (r.sessions.get? key).any fun session => session.client = addr
      match owner with
      | some key => pure (some key)
      | none => pure (if (addr, dcid) ∈ r.sessions then some (addr, dcid) else none)
  else
    let keys := (r.sessionsByAddr.get? addr).getD .empty
    let owner := r.serverCidLengths.findSome? fun length =>
      (r.sessionsByServerCid.get? (slice data 1 (1 + length))).filter (· ∈ keys)
    match owner with
    | some key => pure (some key)
    | none =>
      match keys.keys with
      | [key] => pure (some key)
      | _ => pure none

/-- `datagram_received` for an Initial packet that has been put in its queue.  The `try` holds the
decryption, the frames and the ClientHello; what is left of it when the ClientHello is not complete
are the frames. -/
def inspect (key : Key α) (clientScid data : Bytes) (r : Router α) : Result (Router α) := do
  let crypto ← catching isMalformed do
    let plaintext ← decryptInitial C data
    Router.foldCrypto ((r.pendingCrypto.get? key).getD .empty) plaintext
  match crypto with
  | none => pure r
  | some crypto =>
    let r := { r with pendingCrypto := r.pendingCrypto.set key crypto }
    match ← catching isMalformed (parseClientHello (assembleCrypto crypto)) with
    | none => pure r
    | some (serverName, alpns) => pure (r.route key clientScid serverName alpns)

/-- `datagram_received` for a long header of no session. -/
def receiveInitial (now : ℚ) (key : Key α) (clientScid : Bytes) (datagram : Datagram α)
    (r : Router α) : Result (Router α) :=
  let queue := (r.pending.get? key).getD []
  if key ∈ r.opening then
    pure { r with
      pending := r.pending.set key (if queue.length < 8 then queue ++ [datagram] else queue) }
  else if key ∉ r.pending ∧ 2048 ≤ r.pending.size then pure r
  else
    let r := { r with
      pendingStarted := r.pendingStarted.set key ((r.pendingStarted.get? key).getD now)
      pendingSeen := r.pendingSeen.set key now }
    if 8 ≤ queue.length then pure (r.dropPending key)
    else
      let r := { r with pending := r.pending.set key (queue ++ [datagram]) }
      inspect C key clientScid datagram.data r

/-- `datagram_received`. -/
def datagramReceived (now : ℚ) (data : Bytes) (addr : α) (r : Router α) : Result (Router α) := do
  let datagram : Datagram α := ⟨r.arrivals, addr, data⟩
  let r := { r with arrivals := r.arrivals + 1 }
  match ← sessionForDatagram data addr r with
  | some key => pure (r.forward now key datagram)
  | none =>
    if isLong data = false then pure r
    else
      match ← catching isParseError (initialConnectionIds data) with
      | none => pure r
      | some (initialDcid, clientScid) =>
        receiveInitial C now (addr, initialDcid) clientScid datagram r

end Raising

/-! ## What the parsers raise -/

lemma isParseError_of {e : Exc} (h : IsParseError e) : isParseError e = true := by
  obtain ⟨text, rfl⟩ := h
  rfl

lemma isMalformed_of {e : Exc} (h : IsParseError e) : isMalformed e = true := by
  obtain ⟨text, rfl⟩ := h
  rfl

/-- The exceptions that the `try` of `datagram_received` catches. -/
def Malformed (e : Exc) : Prop := isMalformed e = true

lemma raises_byteAt (data : Bytes) (offset : ℕ) : Raises Malformed (byteAt data offset) := by
  unfold byteAt
  split
  · exact .pure _
  · exact .throw rfl

/-- The bytes that connection ids are read from are there: no index is out of range. -/
lemma raises_initialConnectionIds (datagram : Bytes) :
    Raises IsParseError (initialConnectionIds datagram) := by
  have hbyte : ∀ offset, offset < datagram.length →
      Raises IsParseError (byteAt datagram offset) := by
    intro offset hlt
    rw [byteAt, List.getElem?_eq_getElem hlt]
    exact .pure _
  unfold initialConnectionIds
  refine .bind (.raiseIf ⟨_, rfl⟩) fun _ hlong => ?_
  rw [raiseIf_eq_ok_iff, not_or] at hlong
  refine .bind (hbyte 5 (by omega)) fun dcidLength _ => ?_
  refine .bind (.raiseIf ⟨_, rfl⟩) fun _ hoffset => ?_
  rw [raiseIf_eq_ok_iff] at hoffset
  refine .bind (hbyte _ (by omega)) fun scidLength _ => ?_
  exact .bind (.raiseIf ⟨_, rfl⟩) fun _ _ => .pure _

lemma raises_initialKeys (C : Cryptography) (version : ℕ) (dcid : Bytes) :
    Raises Malformed (initialKeys C version dcid) := by
  unfold initialKeys
  split
  · exact .throw rfl
  · exact .pure _

lemma raises_decryptInitial (C : Cryptography) (datagram : Bytes) :
    Raises Malformed (decryptInitial C datagram) := by
  have hvarint : ∀ offset, Raises Malformed (varint datagram offset) := fun offset =>
    (raises_varint datagram offset).imp fun _ => isMalformed_of
  unfold decryptInitial
  refine .bind (.raiseIf rfl) fun _ _ => ?_
  refine .bind (raises_byteAt _ _) fun dcidLength _ => ?_
  refine .bind (.raiseIf rfl) fun _ _ => ?_
  refine .bind (raises_byteAt _ _) fun scidLength _ => ?_
  refine .bind (hvarint _) fun token _ => ?_
  refine .bind (hvarint _) fun packet _ => ?_
  refine .bind (.raiseIf rfl) fun _ _ => ?_
  refine .bind (raises_initialKeys C _ _) fun keys _ => ?_
  refine .bind (raises_byteAt _ _) fun first _ => ?_
  refine .bind (raises_byteAt _ _) fun masked _ => ?_
  dsimp only
  split
  · exact .pure _
  · exact .throw rfl

lemma raises_foldCrypto (fragments : Dict ℕ Bytes) (plaintext : Bytes) :
    Raises Malformed (Router.foldCrypto fragments plaintext) := by
  have hends : ScanEnds plaintext 0 Dict.empty (cryptoFragments plaintext) :=
    scanEnds_fragmentsFrom (Nat.sub_le _ _)
  exact .bind (hends.raises.imp fun _ => isMalformed_of) fun _ _ => .pure _

lemma raises_decodeAscii (data : Bytes) : Raises Malformed (decodeAscii data) :=
  .bind (.raiseIf rfl) fun _ _ => .pure _

lemma raises_alpnsFrom (value : Bytes) (rounds cursor : ℕ) :
    Raises Malformed (alpnsFrom value rounds cursor) := by
  induction rounds generalizing cursor with
  | zero => exact .pure _
  | succ rounds ih =>
    rw [alpnsFrom]
    split
    · exact .pure _
    · exact .bind (raises_decodeAscii _) fun _ _ => .bind (ih _) fun _ _ => .pure _

lemma raises_extensionsFrom (body : Bytes) (stop rounds offset : ℕ) (serverName : String)
    (alpns : List String) :
    Raises Malformed (extensionsFrom body stop rounds offset serverName alpns) := by
  induction rounds generalizing offset serverName alpns with
  | zero => exact .pure _
  | succ rounds ih =>
    rw [extensionsFrom]
    split
    · exact .pure _
    · dsimp only
      split
      · exact .bind (raises_decodeAscii _) fun _ _ => ih _ _ _
      · split
        · exact .bind (raises_alpnsFrom _ _ _) fun _ _ => ih _ _ _
        · exact ih _ _ _

lemma raises_parseClientHello (crypto : Bytes) : Raises Malformed (parseClientHello crypto) := by
  unfold parseClientHello
  refine .bind (.raiseIf rfl) fun _ _ => ?_
  refine .bind (.raiseIf rfl) fun _ _ => ?_
  refine .bind (raises_byteAt _ _) fun sessionLength _ => ?_
  refine .bind (raises_byteAt _ _) fun compressionLength _ => ?_
  refine .bind (raises_extensionsFrom _ _ _ _ _ _) fun read _ => ?_
  exact .bind (.raiseIf rfl) fun _ _ => .pure _

/-! ## No exception leaves the handlers -/

section Handlers

variable {α : Type} [DecidableEq α] (C : Cryptography)

lemma catching_initialConnectionIds (datagram : Bytes) :
    catching isParseError (initialConnectionIds datagram) =
      .ok (initialConnectionIds datagram).toOption :=
  catching_eq ((raises_initialConnectionIds datagram).imp fun _ => isParseError_of)

lemma raising_sessionForDatagram (data : Bytes) (addr : α) (r : Router α) :
    Raising.sessionForDatagram data addr r = .ok (r.sessionForDatagram data addr) := by
  unfold Raising.sessionForDatagram Router.sessionForDatagram
  split
  · rfl
  · split
    · rw [catching_initialConnectionIds, ok_bind]
      cases initialConnectionIds data with
      | error e => rfl
      | ok ids =>
        dsimp only [Except.toOption]
        generalize Option.filter _ _ = owner
        cases owner <;> rfl
    · dsimp only
      generalize List.findSome? _ _ = owner
      cases owner with
      | some key => rfl
      | none =>
        generalize Dict.keys _ = keys
        rcases keys with _ | ⟨key, _ | ⟨key', rest⟩⟩ <;> rfl

lemma raising_inspect (key : Key α) (clientScid data : Bytes) (r : Router α) :
    Raising.inspect C key clientScid data r = .ok (r.inspect C key clientScid data) := by
  have hframes : Raises Malformed (decryptInitial C data >>=
      Router.foldCrypto ((r.pendingCrypto.get? key).getD .empty)) :=
    .bind (raises_decryptInitial C data) fun plaintext _ => raises_foldCrypto _ plaintext
  unfold Raising.inspect Router.inspect
  rw [catching_eq hframes, ok_bind]
  cases decryptInitial C data >>=
      Router.foldCrypto ((r.pendingCrypto.get? key).getD .empty) with
  | error e => rfl
  | ok crypto =>
    dsimp only [Except.toOption]
    rw [catching_eq (raises_parseClientHello (assembleCrypto crypto)), ok_bind]
    cases parseClientHello (assembleCrypto crypto) with
    | error e => rfl
    | ok read => rfl

lemma raising_receiveInitial (now : ℚ) (key : Key α) (clientScid : Bytes) (datagram : Datagram α)
    (r : Router α) :
    Raising.receiveInitial C now key clientScid datagram r =
      .ok (r.receiveInitial C now key clientScid datagram) := by
  unfold Raising.receiveInitial Router.receiveInitial
  dsimp only
  split
  · rfl
  · split
    · rfl
    · split
      · rfl
      · exact raising_inspect C key clientScid datagram.data _

/-- `datagram_received` comes to its end on all bytes from all addresses, in every state. -/
lemma raising_datagramReceived (now : ℚ) (data : Bytes) (addr : α) (r : Router α) :
    Raising.datagramReceived C now data addr r = .ok (r.datagramReceived C now data addr) := by
  unfold Raising.datagramReceived Router.datagramReceived
  dsimp only
  rw [raising_sessionForDatagram, ok_bind]
  cases Router.sessionForDatagram data addr _ with
  | some key => rfl
  | none =>
    dsimp only
    split
    · rfl
    · rw [catching_initialConnectionIds, ok_bind]
      cases initialConnectionIds data with
      | error e => rfl
      | ok ids => exact raising_receiveInitial C now (addr, ids.1) ids.2 _ _

end Handlers

/-! ## What a datagram can change -/

variable {α : Type}

/-- The key of a datagram that is not of a session. -/
def IsKeyOf (data : Bytes) (addr : α) (key : Key α) : Prop :=
  ∃ clientScid, key.1 = addr ∧ initialConnectionIds data = .ok (key.2, clientScid)

/-- The pending tables hold the same for a key. -/
structure SamePending [DecidableEq α] (key : Key α) (r r' : Router α) : Prop where
  pending : r'.pending.get? key = r.pending.get? key
  pendingCrypto : r'.pendingCrypto.get? key = r.pendingCrypto.get? key
  pendingSeen : r'.pendingSeen.get? key = r.pendingSeen.get? key
  pendingStarted : r'.pendingStarted.get? key = r.pendingStarted.get? key

variable [DecidableEq α]

/-- A datagram completes a ClientHello of its key that names a route and offers its protocol. -/
def Completes (C : Cryptography) (data : Bytes) (addr : α) (r : Router α) : Prop :=
  ∃ dcid clientScid plaintext fragments serverName alpns route,
    initialConnectionIds data = .ok (dcid, clientScid) ∧
    decryptInitial C data = .ok plaintext ∧
    cryptoFragments plaintext = .ok fragments ∧
    parseClientHello (assembleCrypto
      (((r.pendingCrypto.get? (addr, dcid)).getD .empty).update fragments)) =
        .ok (serverName, alpns) ∧
    r.routes.get? serverName = some route ∧ route.alpn ∈ alpns

/-- What a datagram leaves alone. -/
structure Contained (now : ℚ) (data : Bytes) (addr : α) (r r' : Router α) : Prop where
  routes : r'.routes = r.routes
  configMtime : r'.configMtime = r.configMtime
  sessionsByAddr : r'.sessionsByAddr = r.sessionsByAddr
  sessionsByServerCid : r'.sessionsByServerCid = r.sessionsByServerCid
  serverCidLengthCounts : r'.serverCidLengthCounts = r.serverCidLengthCounts
  serverCidLengths : r'.serverCidLengths = r.serverCidLengths
  /-- The sessions are the same but for the time at which the one was seen that the datagram has
  gone to. -/
  sessions : r'.sessions = r.sessions ∧ r'.traffic = r.traffic ∨
    ∃ key session, r.sessions.get? key = some session ∧
      r'.sessions = r.sessions.set key { session with lastSeen := now } ∧
      r'.traffic = r.traffic ++ [.toUpstream session.upstream ⟨r.arrivals, addr, data⟩]
  pending : ∀ key, ¬ IsKeyOf data addr key → SamePending key r r'
  awaitingFirstUpstream : r'.awaitingFirstUpstream = r.awaitingFirstUpstream
  ingressPauseTimers : r'.ingressPauseTimers = r.ingressPauseTimers

variable {C : Cryptography} {now : ℚ} {key other : Key α} {r : Router α}

lemma SamePending.refl (key : Key α) (r : Router α) : SamePending key r r := ⟨rfl, rfl, rfl, rfl⟩

lemma SamePending.trans {r' r'' : Router α} (h : SamePending key r r')
    (h' : SamePending key r' r'') : SamePending key r r'' where
  pending := h'.pending.trans h.pending
  pendingCrypto := h'.pendingCrypto.trans h.pendingCrypto
  pendingSeen := h'.pendingSeen.trans h.pendingSeen
  pendingStarted := h'.pendingStarted.trans h.pendingStarted

lemma samePending_dropPending (h : other ≠ key) : SamePending other r (r.dropPending key) := by
  constructor <;> exact (Dict.get?_pop _ _ _).trans (if_neg h)

lemma samePending_route (h : other ≠ key) (clientScid : Bytes) (serverName : String)
    (alpns : List String) : SamePending other r (r.route key clientScid serverName alpns) := by
  unfold Router.route
  dsimp only
  split <;> constructor <;> first | rfl | exact (Dict.get?_pop _ _ _).trans (if_neg h)

lemma samePending_inspect (h : other ≠ key) (clientScid data : Bytes) :
    SamePending other r (r.inspect C key clientScid data) := by
  unfold Router.inspect
  dsimp only
  split
  · exact .refl other r
  · have hcrypto : ∀ crypto,
        SamePending other r { r with pendingCrypto := r.pendingCrypto.set key crypto } :=
      fun crypto => ⟨rfl, Dict.get?_set_of_ne _ _ h, rfl, rfl⟩
    split
    · exact hcrypto _
    · exact (hcrypto _).trans (samePending_route h _ _ _)

lemma samePending_receiveInitial (h : other ≠ key) (clientScid : Bytes) (datagram : Datagram α) :
    SamePending other r (r.receiveInitial C now key clientScid datagram) := by
  unfold Router.receiveInitial
  dsimp only
  split
  · exact ⟨Dict.get?_set_of_ne _ _ h, rfl, rfl, rfl⟩
  · split
    · exact .refl other r
    · have hseen : SamePending other r { r with
          pendingStarted := r.pendingStarted.set key ((r.pendingStarted.get? key).getD now)
          pendingSeen := r.pendingSeen.set key now } :=
        ⟨rfl, rfl, Dict.get?_set_of_ne _ _ h, Dict.get?_set_of_ne _ _ h⟩
      refine hseen.trans ?_
      split
      · exact samePending_dropPending h
      · refine SamePending.trans ?_ (samePending_inspect h _ _)
        exact ⟨Dict.get?_set_of_ne _ _ h, rfl, rfl, rfl⟩

/-- A connection is opened behind a complete ClientHello only. -/
lemma opens_inspect {clientScid data : Bytes}
    (h : ¬ ∃ plaintext fragments serverName alpns route,
      decryptInitial C data = .ok plaintext ∧ cryptoFragments plaintext = .ok fragments ∧
      parseClientHello (assembleCrypto
        (((r.pendingCrypto.get? key).getD .empty).update fragments)) = .ok (serverName, alpns) ∧
      r.routes.get? serverName = some route ∧ route.alpn ∈ alpns) :
    (r.inspect C key clientScid data).opening = r.opening ∧
      (r.inspect C key clientScid data).tasks = r.tasks := by
  unfold Router.inspect
  dsimp only
  split
  · exact ⟨rfl, rfl⟩
  · rename_i crypto hcrypto
    obtain ⟨plaintext, hplaintext, hfold⟩ := bind_eq_ok_iff.mp hcrypto
    obtain ⟨fragments, hfragments, hadded⟩ := bind_eq_ok_iff.mp hfold
    obtain rfl := pure_eq_ok_iff.mp hadded
    split
    · exact ⟨rfl, rfl⟩
    · rename_i serverName alpns hhello
      unfold Router.route
      dsimp only
      split
      · exact ⟨rfl, rfl⟩
      · rename_i route hroute
        obtain ⟨hroute, halpn⟩ := Option.filter_eq_some_iff.mp hroute
        exact absurd ⟨plaintext, fragments, serverName, alpns, route, hplaintext, hfragments, hhello,
          hroute, of_decide_eq_true halpn⟩ h

lemma opens_receiveInitial {data : Bytes} {addr : α} {dcid clientScid : Bytes}
    (hids : initialConnectionIds data = .ok (dcid, clientScid)) (h : ¬ Completes C data addr r)
    (arrival : ℕ) :
    (r.receiveInitial C now (addr, dcid) clientScid ⟨arrival, addr, data⟩).opening = r.opening ∧
      (r.receiveInitial C now (addr, dcid) clientScid ⟨arrival, addr, data⟩).tasks = r.tasks := by
  unfold Router.receiveInitial
  dsimp only
  split
  · exact ⟨rfl, rfl⟩
  · split
    · exact ⟨rfl, rfl⟩
    · split
      · exact ⟨rfl, rfl⟩
      · refine opens_inspect fun hhello => h ?_
        obtain ⟨plaintext, fragments, serverName, alpns, route, hread⟩ := hhello
        exact ⟨dcid, clientScid, plaintext, fragments, serverName, alpns, route, hids, hread⟩

variable {r' : Router α} {data : Bytes} {addr : α}

/-- A call that counts the datagram and writes to the pending tables of its key only. -/
lemma OnlyHandshakes.contained (h : OnlyHandshakes { r with arrivals := r.arrivals + 1 } r')
    (hpending : ∀ key, ¬ IsKeyOf data addr key →
      SamePending key { r with arrivals := r.arrivals + 1 } r') :
    Contained now data addr r r' where
  routes := by rw [h]
  configMtime := by rw [h]
  sessionsByAddr := h.sameIndex.sessionsByAddr
  sessionsByServerCid := h.sameIndex.sessionsByServerCid
  serverCidLengthCounts := h.sameIndex.serverCidLengthCounts
  serverCidLengths := h.sameIndex.serverCidLengths
  sessions := .inl ⟨h.sameIndex.sessions, h.sameIngress.traffic⟩
  pending key hkey :=
    have hsame := hpending key hkey
    ⟨hsame.pending, hsame.pendingCrypto, hsame.pendingSeen, hsame.pendingStarted⟩
  awaitingFirstUpstream := h.sameIngress.awaitingFirstUpstream
  ingressPauseTimers := h.sameIngress.ingressPauseTimers

lemma contained_forward : Contained now data addr r
    ({ r with arrivals := r.arrivals + 1 }.forward now key ⟨r.arrivals, addr, data⟩) := by
  unfold Router.forward Router.updateSession
  dsimp only
  cases hsession : r.sessions.get? key with
  | none => exact (OnlyHandshakes.refl _).contained fun _ _ => .refl _ _
  | some session =>
    exact ⟨rfl, rfl, rfl, rfl, rfl, rfl, .inr ⟨key, session, hsession, rfl, rfl⟩,
      fun _ _ => ⟨rfl, rfl, rfl, rfl⟩, rfl, rfl⟩

lemma opens_forward (datagram : Datagram α) :
    (r.forward now key datagram).opening = r.opening ∧
      (r.forward now key datagram).tasks = r.tasks := by
  unfold Router.forward Router.updateSession
  cases r.sessions.get? key with
  | none => exact ⟨rfl, rfl⟩
  | some session => exact ⟨rfl, rfl⟩

/-- No datagram breaks the listener: the call ends, it leaves the routes, the indices, the sessions
and the pending connections of other keys as they are, and without a complete ClientHello of a route
it opens nothing. -/
theorem datagramReceived_contained (C : Cryptography) (now : ℚ) (data : Bytes) (addr : α)
    (r : Router α) :
    ∃ r', Raising.datagramReceived C now data addr r = .ok r' ∧ Contained now data addr r r' ∧
      (¬ Completes C data addr r → r'.opening = r.opening ∧ r'.tasks = r.tasks) := by
  refine ⟨_, raising_datagramReceived C now data addr r, ?_⟩
  have hcounted : Contained now data addr r { r with arrivals := r.arrivals + 1 } :=
    (OnlyHandshakes.refl _).contained fun _ _ => .refl _ _
  unfold Router.datagramReceived
  dsimp only
  split
  · exact ⟨contained_forward, fun _ => opens_forward _⟩
  · split
    · exact ⟨hcounted, fun _ => ⟨rfl, rfl⟩⟩
    · split
      · exact ⟨hcounted, fun _ => ⟨rfl, rfl⟩⟩
      · rename_i dcid clientScid hids
        refine ⟨(onlyHandshakes_receiveInitial C now _ _).contained fun other hother => ?_,
          fun h => opens_receiveInitial (r := { r with arrivals := r.arrivals + 1 }) hids h _⟩
        -- the tables are written at the key that the datagram itself names
        refine samePending_receiveInitial (fun heq => hother ?_) _ _
        rw [heq]
        exact ⟨clientScid, rfl, hids⟩

end Portwyrm.Quic

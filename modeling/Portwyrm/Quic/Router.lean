import Mathlib.Data.Rat.Init
import Portwyrm.Quic.Config

/-!
# The QUIC router

`Session`, `UpstreamProtocol` and `QuicRouter` of `portwyrm.runtime.quic_router`: what each
callback of the event loop, and each part of the coroutine `_open` between two awaits, does to
the state of the router.

Client addresses are values of a type with decidable equality, and times are numbers.  An
upstream socket is named by a number, and every datagram from the public socket carries the
number of its arrival; the last three fields of the state record what goes through the sockets.
-/

namespace Portwyrm.Quic

open Base

/-- The key of a session: the address of the client, and the destination connection id that
the client has chosen. -/
abbrev Key (α : Type) := α × Bytes

/-- A datagram from the public socket. -/
structure Datagram (α : Type) where
  arrival : ℕ
  source : α
  data : Bytes
deriving DecidableEq

/-- `Session`. -/
structure Session (α : Type) where
  upstream : ℕ
  timeout : ℕ
  client : α
  clientScid : Bytes
  serverCids : Dict.KeySet Bytes
  lastSeen : ℚ
  openedAt : ℚ
  upstreamDatagramsReceived : ℕ

/-- The arguments of a call of `_open`, and whether the call waits for its socket. -/
structure OpenTask (α : Type) where
  key : Key α
  route : Route
  clientScid : Bytes
  connecting : Bool
deriving DecidableEq

/-- What goes through the sockets of the router. -/
inductive Traffic (α : Type)
  /-- A socket towards the upstream of a session is open. -/
  | opened (upstream : ℕ) (key : Key α)
  /-- A datagram comes from the upstream of a live session. -/
  | fromUpstream (upstream : ℕ) (data : Bytes)
  | toUpstream (upstream : ℕ) (datagram : Datagram α)
  | toClient (client : α) (data : Bytes)
  | pauseReading
  | resumeReading
  | closed (upstream : ℕ)
deriving DecidableEq

/-- The state of a `QuicRouter`. -/
structure Router (α : Type) where
  /-- Whether the public transport is there. -/
  transport : Bool
  sessions : Dict (Key α) (Session α)
  sessionsByAddr : Dict α (Dict.KeySet (Key α))
  sessionsByServerCid : Dict Bytes (Key α)
  serverCidLengthCounts : Dict ℕ ℕ
  serverCidLengths : List ℕ
  pending : Dict (Key α) (List (Datagram α))
  pendingCrypto : Dict (Key α) (Dict ℕ Bytes)
  pendingSeen : Dict (Key α) ℚ
  pendingStarted : Dict (Key α) ℚ
  opening : Dict.KeySet (Key α)
  routes : Dict String Route
  configMtime : ℚ
  tasks : List (OpenTask α)
  awaitingFirstUpstream : Dict.KeySet (Key α)
  ingressPauseTimers : Dict (Key α) ℚ
  /-- Whether the public transport has been lost. -/
  lost : Bool
  arrivals : ℕ
  nextUpstream : ℕ
  traffic : List (Traffic α)

/-- The route file as `reload` finds it: its modification time, and its text where it can be
read. -/
structure ConfigFile where
  mtime : ℚ
  text : Option String

namespace Router

variable {α : Type}

/-- `QuicRouter.__init__`. -/
def init : Router α where
  transport := false
  sessions := .empty
  sessionsByAddr := .empty
  sessionsByServerCid := .empty
  serverCidLengthCounts := .empty
  serverCidLengths := []
  pending := .empty
  pendingCrypto := .empty
  pendingSeen := .empty
  pendingStarted := .empty
  opening := .empty
  routes := .empty
  configMtime := -1
  tasks := []
  awaitingFirstUpstream := .empty
  ingressPauseTimers := .empty
  lost := false
  arrivals := 0
  nextUpstream := 0
  traffic := []

/-- Something goes through a socket. -/
def emit (t : Traffic α) (r : Router α) : Router α := { r with traffic := r.traffic ++ [t] }

variable [DecidableEq α]

/-! ## Ingress pause -/

/-- `_pause_ingress_for_first_upstream`. -/
def pauseIngress (now : ℚ) (key : Key α) (r : Router α) : Router α :=
  if key ∈ r.awaitingFirstUpstream then r
  else
    let r := { r with awaitingFirstUpstream := r.awaitingFirstUpstream.add key }
    let r := if r.awaitingFirstUpstream.size = 1 ∧ r.transport = true then r.emit .pauseReading else r
    { r with ingressPauseTimers := r.ingressPauseTimers.set key (now + 1 / 4) }

/-- `_release_ingress_pause`. -/
def releaseIngressPause (key : Key α) (r : Router α) : Router α :=
  if key ∉ r.awaitingFirstUpstream then r
  else
    let r := { r with
      awaitingFirstUpstream := r.awaitingFirstUpstream.pop key
      ingressPauseTimers := r.ingressPauseTimers.pop key }
    if r.awaitingFirstUpstream.size = 0 ∧ r.transport = true then r.emit .resumeReading else r

/-! ## Sessions and their indices -/

/-- A change of the session object of a key. -/
def updateSession (key : Key α) (f : Session α → Session α) (r : Router α) : Router α :=
  match r.sessions.get? key with
  | none => r
  | some session => { r with sessions := r.sessions.set key (f session) }

/-- `tuple(sorted(counts, reverse=True))`. -/
def sortedLengths (counts : Dict ℕ ℕ) : List ℕ := counts.keys.insertionSort fun a b => b ≤ a

/-- `_index_server_connection_id`. -/
def indexServerConnectionId (key : Key α) (r : Router α) (cid : Bytes) : Router α :=
  match r.sessions.get? key with
  | none => r
  | some _ =>
    match r.sessionsByServerCid.get? cid with
    -- an id that is taken stays with its owner
    | some _ => r
    | none =>
      let r := r.updateSession key fun session =>
        { session with serverCids := session.serverCids.add cid }
      let counts := r.serverCidLengthCounts.set cid.length
        ((r.serverCidLengthCounts.get? cid.length).getD 0 + 1)
      { r with
        sessionsByServerCid := r.sessionsByServerCid.set cid key
        serverCidLengthCounts := counts
        serverCidLengths := sortedLengths counts }

/-- `_register_server_connection_id`. -/
def registerServerConnectionId (key : Key α) (datagram : Bytes) (r : Router α) : Router α :=
  if isLong datagram = false then r
  else
    match initialConnectionIds datagram with
    | .error _ => r
    | .ok (_, serverScid) => if serverScid = [] then r else r.indexServerConnectionId key serverScid

/-- `_remove_server_cid_length`. -/
def removeServerCidLength (length : ℕ) (r : Router α) : Router α :=
  let count := (r.serverCidLengthCounts.get? length).getD 0
  let counts :=
    if count ≤ 1 then r.serverCidLengthCounts.pop length
    else r.serverCidLengthCounts.set length (count - 1)
  { r with serverCidLengthCounts := counts, serverCidLengths := sortedLengths counts }

/-- `_add_session`. -/
def addSession (key : Key α) (session : Session α) (r : Router α) : Router α :=
  let r := { r with
    sessions := r.sessions.set key session
    sessionsByAddr := r.sessionsByAddr.set session.client
      (((r.sessionsByAddr.get? session.client).getD .empty).add key) }
  session.serverCids.keys.foldl (indexServerConnectionId key) r

/-- A session that goes leaves the index of its address. -/
def discardAddr (key : Key α) (client : α) (r : Router α) : Router α :=
  match r.sessionsByAddr.get? client with
  | none => r
  | some keys =>
    let keys := keys.pop key
    { r with sessionsByAddr :=
        if keys.size = 0 then r.sessionsByAddr.pop client else r.sessionsByAddr.set client keys }

/-- A session that goes leaves the index of a connection id. -/
def discardServerCid (key : Key α) (r : Router α) (cid : Bytes) : Router α :=
  if r.sessionsByServerCid.get? cid = some key then
    removeServerCidLength cid.length { r with sessionsByServerCid := r.sessionsByServerCid.pop cid }
  else r

/-- `_remove_session`. -/
def removeSession (key : Key α) (r : Router α) : Router α :=
  match r.sessions.get? key with
  | none => r
  | some session =>
    let r := { r with sessions := r.sessions.pop key }
    let r := r.releaseIngressPause key
    let r := r.discardAddr key session.client
    let r := session.serverCids.keys.foldl (discardServerCid key) r
    r.emit (.closed session.upstream)

/-! ## Upstream datagrams -/

/-- `UpstreamProtocol.datagram_received`. -/
def upstreamReceived (now : ℚ) (key : Key α) (data : Bytes) (r : Router α) : Router α :=
  match r.sessions.get? key with
  | none => r
  | some session =>
    let received := session.upstreamDatagramsReceived + 1
    let r := r.updateSession key fun session => { session with upstreamDatagramsReceived := received }
    let r := r.emit (.fromUpstream session.upstream data)
    let r := r.registerServerConnectionId key data
    let r := if r.transport = true then r.emit (.toClient session.client data) else r
    let r := if received = 1 then r.releaseIngressPause key else r
    r.updateSession key fun session => { session with lastSeen := now }

/-! ## Client datagrams -/

/-- `_session_for_datagram`. -/
def sessionForDatagram (data : Bytes) (addr : α) (r : Router α) : Option (Key α) :=
  if data = [] then none
  else if isLong data = true then
    match initialConnectionIds data with
    | .error _ => none
    | .ok (dcid, _) =>
      let owner := (r.sessionsByServerCid.get? dcid).filter fun key =>
        (r.sessions.get? key).any fun session => session.client = addr
      match owner with
      | some key => some key
      | none => if (addr, dcid) ∈ r.sessions then some (addr, dcid) else none
  else
    let keys := (r.sessionsByAddr.get? addr).getD .empty
    let owner := r.serverCidLengths.findSome? fun length =>
      (r.sessionsByServerCid.get? (slice data 1 (1 + length))).filter (· ∈ keys)
    match owner with
    | some key => some key
    | none =>
      match keys.keys with
      | [key] => some key
      | _ => none

/-- `datagram_received` for a datagram of a session. -/
def forward (now : ℚ) (key : Key α) (datagram : Datagram α) (r : Router α) : Router α :=
  match r.sessions.get? key with
  | none => r
  | some session =>
    (r.updateSession key fun session => { session with lastSeen := now }).emit
      (.toUpstream session.upstream datagram)

/-- Forget a connection that is not open yet. -/
def dropPending (key : Key α) (r : Router α) : Router α :=
  { r with
    pending := r.pending.pop key
    pendingCrypto := r.pendingCrypto.pop key
    pendingSeen := r.pendingSeen.pop key
    pendingStarted := r.pendingStarted.pop key }

/-- `datagram_received` behind a complete ClientHello: the coroutine `_open` is started when
the name is that of a route. -/
def route (key : Key α) (clientScid : Bytes) (serverName : String) (alpns : List String)
    (r : Router α) : Router α :=
  let r := { r with
    pendingCrypto := r.pendingCrypto.pop key
    pendingSeen := r.pendingSeen.pop key }
  match (r.routes.get? serverName).filter fun route => route.alpn ∈ alpns with
  | none => { r with
      pending := r.pending.pop key
      pendingStarted := r.pendingStarted.pop key }
  | some route => { r with
      opening := r.opening.add key
      tasks := r.tasks ++ [⟨key, route, clientScid, false⟩] }

/-- Add the CRYPTO frames of a plaintext to those of the packets before. -/
def foldCrypto (fragments : Dict ℕ Bytes) (plaintext : Bytes) : Result (Dict ℕ Bytes) := do
  let added ← cryptoFragments plaintext
  pure (fragments.update added)

section ClientDatagrams

variable (C : Cryptography)

/-- `datagram_received` for an Initial packet that has been put in its queue. -/
def inspect (key : Key α) (clientScid data : Bytes) (r : Router α) : Router α :=
  let crypto := do
    let plaintext ← decryptInitial C data
    foldCrypto ((r.pendingCrypto.get? key).getD .empty) plaintext
  match crypto with
  | .error _ => r
  | .ok crypto =>
    let r := { r with pendingCrypto := r.pendingCrypto.set key crypto }
    match parseClientHello (assembleCrypto crypto) with
    | .error _ => r
    | .ok (serverName, alpns) => r.route key clientScid serverName alpns

/-- `datagram_received` for a long header of no session. -/
def receiveInitial (now : ℚ) (key : Key α) (clientScid : Bytes) (datagram : Datagram α)
    (r : Router α) : Router α :=
  let queue := (r.pending.get? key).getD []
  if key ∈ r.opening then
    { r with pending := r.pending.set key (if queue.length < 8 then queue ++ [datagram] else queue) }
  else if key ∉ r.pending ∧ 2048 ≤ r.pending.size then r
  else
    let r := { r with
      pendingStarted := r.pendingStarted.set key ((r.pendingStarted.get? key).getD now)
      pendingSeen := r.pendingSeen.set key now }
    if 8 ≤ queue.length then r.dropPending key
    else
      let r := { r with pending := r.pending.set key (queue ++ [datagram]) }
      r.inspect C key clientScid datagram.data

/-- `datagram_received`. -/
def datagramReceived (now : ℚ) (data : Bytes) (addr : α) (r : Router α) : Router α :=
  let datagram : Datagram α := ⟨r.arrivals, addr, data⟩
  let r := { r with arrivals := r.arrivals + 1 }
  match r.sessionForDatagram data addr with
  | some key => r.forward now key datagram
  | none =>
    if isLong data = false then r
    else
      match initialConnectionIds data with
      | .error _ => r
      | .ok (initialDcid, clientScid) => r.receiveInitial C now (addr, initialDcid) clientScid datagram

end ClientDatagrams

/-! ## Opening a session -/

/-- The end of a call of `_open`. -/
def finishOpen (task : OpenTask α) (r : Router α) : Router α :=
  { r with opening := r.opening.pop task.key, tasks := r.tasks.erase task }

/-- `_open` up to the wait for its socket. -/
def openStart (task : OpenTask α) (r : Router α) : Router α :=
  if task.key ∈ r.sessions then r.finishOpen task
  else { r with tasks := r.tasks.erase task ++ [{ task with connecting := true }] }

omit [DecidableEq α] in
/-- The session that `_open` creates. -/
def newSession (now : ℚ) (upstream : ℕ) (task : OpenTask α) : Session α where
  upstream := upstream
  timeout := task.route.idleTimeoutSeconds
  client := task.key.1
  clientScid := task.clientScid
  serverCids := .empty
  lastSeen := now
  openedAt := now
  upstreamDatagramsReceived := 0

/-- `_open` behind the wait, when the socket is there. -/
def openSucceeds (now : ℚ) (task : OpenTask α) (r : Router α) : Router α :=
  let upstream := r.nextUpstream
  let r := { r with nextUpstream := upstream + 1 }.emit (.opened upstream task.key)
  let r := r.addSession task.key (newSession now upstream task)
  let queue := (r.pending.get? task.key).getD []
  let r := { r with
    pendingCrypto := r.pendingCrypto.pop task.key
    pendingSeen := r.pendingSeen.pop task.key
    pendingStarted := r.pendingStarted.pop task.key }
  let r := r.pauseIngress now task.key
  let r := { r with
    pending := r.pending.pop task.key
    traffic := r.traffic ++ queue.map (Traffic.toUpstream upstream) }
  r.finishOpen task

/-- `_open` behind the wait, when it ends in an `OSError` or a `ValueError`. -/
def openFails (task : OpenTask α) (r : Router α) : Router α :=
  ((r.dropPending task.key).releaseIngressPause task.key).finishOpen task

/-- `_open` when it is cancelled: a call that has not started does not clean up. -/
def openCancelled (task : OpenTask α) (r : Router α) : Router α :=
  if task.connecting then r.finishOpen task else { r with tasks := r.tasks.erase task }

/-! ## Maintenance -/

/-- A pass of `_reaper`. -/
def reap (now : ℚ) (r : Router α) : Router α :=
  let r := r.pendingSeen.entries.foldl
    (fun r e => if 10 < now - e.2 then r.dropPending e.1 else r) r
  r.sessions.entries.foldl
    (fun r e => if (e.2.timeout : ℚ) < now - e.2.lastSeen then r.removeSession e.1 else r) r

omit [DecidableEq α] in
/-- `reload`. -/
def reload (file : Option ConfigFile) (r : Router α) : Router α :=
  match file with
  | none => r
  | some file =>
    if file.mtime = r.configMtime then r
    else
      match file.text.bind loadRoutes with
      | none => r
      | some routes => { r with routes, configMtime := file.mtime }

omit [DecidableEq α] in
/-- `connection_made`. -/
def connectionMade (file : Option ConfigFile) (r : Router α) : Router α :=
  { r with transport := true }.reload file

/-- `connection_lost`. -/
def connectionLost (r : Router α) : Router α :=
  { r with
    awaitingFirstUpstream := .empty
    ingressPauseTimers := .empty
    lost := true
    traffic := r.traffic ++ r.sessions.values.map fun session => Traffic.closed session.upstream }

end Router

/-! ## Runs -/

/-- What the event loop lets the router do next. -/
inductive Event (α : Type)
  | clientDatagram (now : ℚ) (data : Bytes) (addr : α)
  | upstreamDatagram (now : ℚ) (key : Key α) (data : Bytes)
  | openStart (task : OpenTask α)
  | openSucceeds (now : ℚ) (task : OpenTask α)
  | openFails (task : OpenTask α)
  | openCancelled (task : OpenTask α)
  | reap (now : ℚ)
  | timerExpired (key : Key α)
  | reload (file : Option ConfigFile)
  | connectionLost

variable {α : Type} [DecidableEq α]

/-- When an event can happen.  A timer that has been cancelled does not expire, and nothing
but the cancelled tasks runs once the transport is lost. -/
def Event.Enabled (r : Router α) : Event α → Prop
  | .openStart task => r.lost = false ∧ task ∈ r.tasks ∧ task.connecting = false
  | .openSucceeds _ task | .openFails task => r.lost = false ∧ task ∈ r.tasks ∧ task.connecting = true
  | .openCancelled task => r.lost = true ∧ task ∈ r.tasks
  | .timerExpired key => r.lost = false ∧ key ∈ r.ingressPauseTimers
  | _ => r.lost = false

section Runs

variable (C : Cryptography)

/-- What an event does. -/
def Event.apply : Event α → Router α → Router α
  | .clientDatagram now data addr => Router.datagramReceived C now data addr
  | .upstreamDatagram now key data => Router.upstreamReceived now key data
  | .openStart task => Router.openStart task
  | .openSucceeds now task => Router.openSucceeds now task
  | .openFails task => Router.openFails task
  | .openCancelled task => Router.openCancelled task
  | .reap now => Router.reap now
  | .timerExpired key => Router.releaseIngressPause key
  | .reload file => Router.reload file
  | .connectionLost => Router.connectionLost

/-- The states that a router with a public transport can reach. -/
inductive Reachable : Router α → Prop
  | made (file : Option ConfigFile) : Reachable (Router.init.connectionMade file)
  | step {r : Router α} (h : Reachable r) (e : Event α) (he : e.Enabled r) :
      Reachable (e.apply C r)

end Runs

end Portwyrm.Quic

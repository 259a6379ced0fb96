import Portwyrm.Base.Numeral
import Portwyrm.Base.Text

/-!
# Probing an upstream

`UpstreamProber.probe`: the name is resolved, a connection is opened, for `https` with TLS, and a
`HEAD` request is sent on it.  What each call of the network comes to is a parameter, and so is
what the clocks say.

A socket is the prober's own until a writer has taken it over.  Whatever has been opened is closed
on the way out.
-/

namespace Portwyrm.Runtime

open Base

/-! ## States and phases -/

/-- `ReachabilityState`. -/
inductive ReachabilityState
  | unknown
  | probing
  | online
  | offline
  | stale
deriving DecidableEq

/-- The text of a state. -/
def ReachabilityState.value : ReachabilityState → String
  | .unknown => "unknown"
  | .probing => "probing"
  | .online => "online"
  | .offline => "offline"
  | .stale => "stale"

lemma ReachabilityState.value_injective {a b : ReachabilityState} (h : a.value = b.value) :
    a = b := by
  revert h
  cases a <;> cases b <;> decide

/-- `ProbePhase`. -/
inductive ProbePhase
  | dns
  | connect
  | tls
  | http
deriving DecidableEq

/-- The text of a phase. -/
def ProbePhase.value : ProbePhase → String
  | .dns => "dns"
  | .connect => "connect"
  | .tls => "tls"
  | .http => "http"

/-- `ProbeTarget`. -/
structure ProbeTarget where
  host : String
  port : ℕ
  scheme : String := "http"

/-- `ProbeResult`. -/
structure ProbeResult where
  status : ReachabilityState
  phase : ProbePhase
  checkedAt : ℤ
  latencyMs : Option ℤ := none
  httpStatus : Option ℕ := none
  errorCode : Option String := none
  errorDetail : Option String := none
deriving DecidableEq

/-! ## The network -/

/-- What keeps a call from returning. -/
inductive Interruption
  /-- An exception, with the name of its type, its text, and whether it is an `OSError`. -/
  | raised (typeName text : String) (isOSError : Bool)
  /-- The task is cancelled while it waits. -/
  | cancelled
deriving DecidableEq

/-- What the calls of one probe come to. -/
structure Network where
  getaddrinfo : Except Interruption (List String)
  socket : String → Except Interruption Unit
  sockConnect : String → Except Interruption Unit
  openConnection : Except Interruption Unit
  drain : Except Interruption Unit
  readline : Except Interruption (List UInt8)
  waitClosed : Except Interruption Unit
  /-- The text of the error for a host that is not written in ASCII. -/
  encodeError : String

/-- A call that opens or closes something. -/
inductive SocketCall
  | openSocket
  | openWriter
  | closeWriter
  | closeSocket
deriving DecidableEq

/-- The variables of `probe`, and the calls on sockets so far. -/
structure ProbeState where
  phase : ProbePhase := .dns
  rawSocket : Bool := false
  writer : Bool := false
  calls : List SocketCall := []

/-- A part of a probe. -/
def Probing (α : Type) := ProbeState → Except Interruption α × ProbeState

namespace Probing

variable {α β : Type}

/-- One part behind another; an interruption skips the rest. -/
def bind (x : Probing α) (f : α → Probing β) : Probing β := fun s =>
  match x s with
  | (.ok a, s') => f a s'
  | (.error e, s') => (.error e, s')

instance : Monad Probing where
  pure a := fun s => (.ok a, s)
  bind := bind

/-- A call of the network that leaves the variables alone. -/
def await (outcome : Except Interruption α) : Probing α := fun s => (outcome, s)

/-- Assignments to the variables. -/
def assign (f : ProbeState → ProbeState) : Probing Unit := fun s => (.ok (), f s)

variable {s : ProbeState}

@[simp] lemma bind_assign (g : ProbeState → ProbeState) (f : Unit → Probing β) :
    (assign g >>= f) s = f () (g s) := rfl

lemma bind_of_ok {x : Probing α} {f : α → Probing β} {s' : ProbeState} {a : α}
    (h : x s = (.ok a, s')) : (x >>= f) s = f a s' := by
  have hbind : (x >>= f) s = bind x f s := rfl
  rw [hbind, bind, h]

lemma bind_of_error {x : Probing α} {f : α → Probing β} {s' : ProbeState} {e : Interruption}
    (h : x s = (.error e, s')) : (x >>= f) s = (.error e, s') := by
  have hbind : (x >>= f) s = bind x f s := rfl
  rw [hbind, bind, h]

end Probing

/-! ## One probe -/

/-- `line.decode("ascii", errors="replace")`. -/
def decodeAscii (line : List UInt8) : String :=
  String.ofList (line.map fun b => if b < 128 then Char.ofNat b.toNat else '\uFFFD')

/-- The most digits that `int` reads. -/
def maxIntDigits : ℕ := 4300

/-- What `int` raises for more digits than that. -/
def tooManyDigits (digits : ℕ) : Interruption :=
  .raised "ValueError" (s!"Exceeds the limit ({maxIntDigits} digits) for integer string conversion: " ++
    s!"value has {digits} digits; use sys.set_int_max_str_digits() to increase the limit") false

/-- What `probe` raises for a line that is no status line. -/
def invalidStatusLine : Interruption :=
  .raised "ValueError" "upstream did not return a valid HTTP status line" false

/-- The number in a status line. -/
def httpStatusOf (line : List UInt8) : Except Interruption ℕ :=
  match Text.words (decodeAscii line) with
  | version :: code :: _ =>
    if "HTTP/".toList <+: version.toList then
      match Numeral.numeral 10 code.toList with
      | some n =>
        if code.toList.length ≤ maxIntDigits then .ok n
        else .error (tooManyDigits code.toList.length)
      | none => .error invalidStatusLine
    else .error invalidStatusLine
  | _ => .error invalidStatusLine

/-- `request.encode("ascii", errors="strict")`: the host is the only part that may be refused. -/
def encodeRequest (net : Network) (target : ProbeTarget) : Except Interruption Unit :=
  if ∀ c ∈ target.host.toList, c.toNat < 128 then .ok ()
  else .error (.raised "UnicodeEncodeError" net.encodeError false)

section Probe

variable (net : Network) (target : ProbeTarget)

/-- `addresses[0]`, when there are any. -/
def firstAddress : List String → Except Interruption String
  | [] => .error (.raised "OSError" "DNS returned no addresses" true)
  | address :: _ => .ok address

/-- The name is resolved, and a socket is connected with its first address. -/
def connectFirst : Probing Unit := do
  let addresses ← Probing.await net.getaddrinfo
  let address ← Probing.await (firstAddress addresses)
  Probing.assign fun s => { s with phase := .connect }
  Probing.await (net.socket address)
  Probing.assign fun s => { s with rawSocket := true, calls := s.calls ++ [.openSocket] }
  Probing.await (net.sockConnect address)

/-- A writer takes the socket over. -/
def openWriter : Probing Unit := do
  Probing.assign fun s =>
    if Text.casefold target.scheme = "https" then { s with phase := .tls } else s
  Probing.await net.openConnection
  Probing.assign fun s =>
    { s with writer := true, rawSocket := false, calls := s.calls ++ [.openWriter] }

/-- The request is sent, and the first line of the answer is read. -/
def request : Probing ℕ := do
  Probing.assign fun s => { s with phase := .http }
  Probing.await (encodeRequest net target)
  Probing.await net.drain
  let line ← Probing.await net.readline
  Probing.await (httpStatusOf line)

/-- The body of the `try`. -/
def exchange : Probing ℕ := do
  connectFirst net
  openWriter net target
  request net target

/-- `with contextlib.suppress(OSError, ssl.SSLError)`. -/
def suppressed : Except Interruption Unit → Except Interruption Unit
  | .error (.raised _ _ true) => .ok ()
  | outcome => outcome

/-- The `finally` part. -/
def closeAll : Probing Unit := do
  let s ← (fun s => (.ok s, s) : Probing ProbeState)
  if s.writer = true then
    Probing.assign fun s => { s with calls := s.calls ++ [.closeWriter] }
    Probing.await (suppressed net.waitClosed)
  if s.rawSocket = true then
    Probing.assign fun s => { s with calls := s.calls ++ [.closeSocket] }

/-- `" ".join(str(exc).split())[:500] or type(exc).__name__`. -/
def errorDetail (typeName text : String) : String :=
  let detail := String.ofList ((" ".intercalate (Text.words text)).toList.take 500)
  if detail = "" then typeName else detail

/-- What `probe` makes of the body of the `try`, `elapsed` being what the clock makes of the time
that has passed. -/
def resultOf (checkedAt elapsed : ℤ) (phase : ProbePhase) :
    Except Interruption ℕ → Except Interruption ProbeResult
  | .ok status => .ok
    { status := .online
      phase := .http
      checkedAt := checkedAt
      latencyMs := some (max 0 elapsed)
      httpStatus := some status }
  | .error (.raised typeName text _) => .ok
    { status := .offline
      phase := phase
      checkedAt := checkedAt
      latencyMs := some (max 0 elapsed)
      errorCode := some typeName
      errorDetail := some (errorDetail typeName text) }
  | .error .cancelled => .error .cancelled

/-- `UpstreamProber.probe`. -/
def probe (checkedAt elapsed : ℤ) : Except Interruption ProbeResult × ProbeState :=
  let exchanged := exchange net target {}
  match closeAll net exchanged.2 with
  | (.ok _, s) => (resultOf checkedAt elapsed exchanged.2.phase exchanged.1, s)
  | (.error e, s) => (.error e, s)

end Probe

/-! ## How a probe ends -/

section Ends

variable {net : Network} {target : ProbeTarget}

/-- The network connects the prober with the first address of the host. -/
def Connects (net : Network) : Prop :=
  ∃ address rest, net.getaddrinfo = .ok (address :: rest) ∧ net.socket address = .ok () ∧
    net.sockConnect address = .ok ()

/-- The phase in which the connection is opened. -/
def ProbeTarget.openingPhase (target : ProbeTarget) : ProbePhase :=
  if Text.casefold target.scheme = "https" then .tls else .connect

/-- The request on an open connection, and what is read in answer to it. -/
def answered (net : Network) (target : ProbeTarget) : Except Interruption ℕ := do
  encodeRequest net target
  net.drain
  let line ← net.readline
  httpStatusOf line

/-- The ways in which the body of the `try` ends. -/
inductive Exchanged (net : Network) (target : ProbeTarget) :
    Except Interruption ℕ × ProbeState → Prop
  | unresolved (e : Interruption) (h : net.getaddrinfo = .error e) :
      Exchanged net target (.error e, {})
  | noAddress (h : net.getaddrinfo = .ok []) :
      Exchanged net target (.error (.raised "OSError" "DNS returned no addresses" true), {})
  | noSocket (address : String) (rest : List String) (e : Interruption)
      (h : net.getaddrinfo = .ok (address :: rest)) (hsocket : net.socket address = .error e) :
      Exchanged net target (.error e, { phase := .connect })
  | refused (address : String) (rest : List String) (e : Interruption)
      (h : net.getaddrinfo = .ok (address :: rest)) (hsocket : net.socket address = .ok ())
      (hconnect : net.sockConnect address = .error e) :
      Exchanged net target
        (.error e, { phase := .connect, rawSocket := true, calls := [.openSocket] })
  | notOpened (e : Interruption) (h : Connects net) (hopen : net.openConnection = .error e) :
      Exchanged net target
        (.error e, { phase := target.openingPhase, rawSocket := true, calls := [.openSocket] })
  | opened (h : Connects net) (hopen : net.openConnection = .ok ()) :
      Exchanged net target
        (answered net target,
          { phase := .http, writer := true, calls := [.openSocket, .openWriter] })

lemma request_apply (s : ProbeState) :
    request net target s = (answered net target, { s with phase := .http }) := by
  unfold request answered
  rcases encodeRequest net target with e | ⟨⟩
  · rfl
  rcases net.drain with e | ⟨⟩
  · rfl
  rcases net.readline with e | line
  · rfl
  · rfl

lemma openWriter_apply (s : ProbeState) (hphase : s.phase = .connect) :
    openWriter net target s = (net.openConnection,
      match net.openConnection with
      | .ok _ => ⟨target.openingPhase, false, true, s.calls ++ [.openWriter]⟩
      | .error _ => { s with phase := target.openingPhase }) := by
  have hopening : (if Text.casefold target.scheme = "https" then { s with phase := .tls } else s) =
      { s with phase := target.openingPhase } := by
    unfold ProbeTarget.openingPhase
    split
    · rfl
    · rw [← hphase]
  unfold openWriter
  rw [Probing.bind_assign, hopening]
  rcases net.openConnection with e | ⟨⟩
  · rfl
  · rfl

lemma exchange_of_error {e : Interruption} {s : ProbeState}
    (h : connectFirst net {} = (.error e, s)) : exchange net target {} = (.error e, s) :=
  Probing.bind_of_error h

lemma exchanged (net : Network) (target : ProbeTarget) :
    Exchanged net target (exchange net target {}) := by
  rcases haddresses : net.getaddrinfo with e | addresses
  · have hfirst : connectFirst net {} = (.error e, {}) := by
      rw [connectFirst, haddresses]
      rfl
    exact exchange_of_error hfirst ▸ .unresolved e haddresses
  rcases addresses with _ | ⟨address, rest⟩
  · have hfirst : connectFirst net {} =
        (.error (.raised "OSError" "DNS returned no addresses" true), {}) := by
      rw [connectFirst, haddresses]
      rfl
    exact exchange_of_error hfirst ▸ .noAddress haddresses
  rcases hsocket : net.socket address with e | ⟨⟩
  · have hfirst : connectFirst net {} = (.error e, { phase := .connect }) := by
      rw [connectFirst, haddresses]
      show (Probing.await (net.socket address) >>= _) _ = _
      rw [hsocket]
      rfl
    exact exchange_of_error hfirst ▸ .noSocket address rest e haddresses hsocket
  -- from here on there is a socket
  have hfirst : connectFirst net {} = (net.sockConnect address,
      { phase := .connect, rawSocket := true, calls := [.openSocket] }) := by
    rw [connectFirst, haddresses]
    show (Probing.await (net.socket address) >>= _) _ = _
    rw [hsocket]
    rfl
  rcases hconnect : net.sockConnect address with e | ⟨⟩
  · rw [hconnect] at hfirst
    exact exchange_of_error hfirst ▸ .refused address rest e haddresses hsocket hconnect
  have hconnects : Connects net := ⟨address, rest, haddresses, hsocket, hconnect⟩
  rw [hconnect] at hfirst
  have hopen : openWriter net target
      { phase := .connect, rawSocket := true, calls := [.openSocket] } = _ :=
    openWriter_apply _ rfl
  have hrest : exchange net target {} = (openWriter net target >>= fun _ => request net target)
      { phase := .connect, rawSocket := true, calls := [.openSocket] } :=
    Probing.bind_of_ok hfirst
  rw [hrest]
  rcases hopened : net.openConnection with e | ⟨⟩
  · rw [hopened] at hopen
    exact Probing.bind_of_error hopen ▸ .notOpened e hconnects hopened
  · rw [hopened] at hopen
    rw [Probing.bind_of_ok hopen, request_apply]
    exact .opened hconnects hopened

end Ends

/-! ## What a probe tells -/

section Exact

variable {net : Network} {target : ProbeTarget} {checkedAt elapsed : ℤ}

/-- A status line with a status. -/
def IsStatusLine (line : List UInt8) (status : ℕ) : Prop :=
  ∃ version code rest, Text.words (decodeAscii line) = version :: code :: rest ∧
    "HTTP/".toList <+: version.toList ∧ Numeral.numeral 10 code.toList = some status ∧
    code.toList.length ≤ maxIntDigits

/-- The upstream answers the request with a status. -/
structure Answers (net : Network) (target : ProbeTarget) (status : ℕ) : Prop where
  connects : Connects net
  opens : net.openConnection = .ok ()
  ascii : ∀ c ∈ target.host.toList, c.toNat < 128
  drains : net.drain = .ok ()
  line : ∃ line, net.readline = .ok line ∧ IsStatusLine line status

/-- A call of a phase is interrupted, the calls before it having returned. -/
def Interrupts (net : Network) (target : ProbeTarget) (e : Interruption) : ProbePhase → Prop
  | .dns => net.getaddrinfo = .error e ∨
      net.getaddrinfo = .ok [] ∧ e = .raised "OSError" "DNS returned no addresses" true
  | .connect => (∃ address rest, net.getaddrinfo = .ok (address :: rest) ∧
      (net.socket address = .error e ∨
        net.socket address = .ok () ∧ net.sockConnect address = .error e)) ∨
      target.openingPhase = .connect ∧ Connects net ∧ net.openConnection = .error e
  | .tls => target.openingPhase = .tls ∧ Connects net ∧ net.openConnection = .error e
  | .http => Connects net ∧ net.openConnection = .ok () ∧ answered net target = .error e

/-- Everything that has been opened is closed, once. -/
def Released (calls : List SocketCall) : Prop :=
  calls = [] ∨ calls = [.openSocket, .closeSocket] ∨
    calls = [.openSocket, .openWriter, .closeWriter]

/-- A result without an answer tells which call has failed, and how. -/
structure Offline (net : Network) (target : ProbeTarget) (result : ProbeResult) : Prop where
  status : result.status = .offline
  httpStatus : result.httpStatus = none
  error : ∃ typeName text isOSError,
    Interrupts net target (.raised typeName text isOSError) result.phase ∧
    result.errorCode = some typeName ∧ result.errorDetail = some (errorDetail typeName text)

lemma httpStatusOf_eq_ok_iff {line : List UInt8} {status : ℕ} :
    httpStatusOf line = .ok status ↔ IsStatusLine line status := by
  unfold httpStatusOf IsStatusLine
  rcases Text.words (decodeAscii line) with _ | ⟨version, _ | ⟨code, rest⟩⟩
  · simp
  · simp
  · simp only [List.cons.injEq]
    by_cases hversion : "HTTP/".toList <+: version.toList
    swap
    · rw [if_neg hversion]
      refine iff_of_false (by rintro ⟨⟩) ?_
      rintro ⟨_, _, _, ⟨rfl, rfl, rfl⟩, h, -⟩
      exact hversion h
    rw [if_pos hversion]
    rcases hcode : Numeral.numeral 10 code.toList with _ | n
    · refine iff_of_false (by rintro ⟨⟩) ?_
      rintro ⟨_, _, _, ⟨rfl, rfl, rfl⟩, -, h, -⟩
      rw [hcode] at h
      cases h
    by_cases hlength : code.toList.length ≤ maxIntDigits
    · simp only [if_pos hlength]
      constructor
      · rintro ⟨⟩
        exact ⟨version, code, rest, ⟨rfl, rfl, rfl⟩, hversion, hcode, hlength⟩
      · rintro ⟨_, _, _, ⟨rfl, rfl, rfl⟩, -, h, -⟩
        rw [hcode] at h
        exact congrArg Except.ok (Option.some.inj h)
    · simp only [if_neg hlength]
      refine iff_of_false (by rintro ⟨⟩) ?_
      rintro ⟨_, _, _, ⟨rfl, rfl, rfl⟩, -, -, h⟩
      exact hlength h

lemma answered_eq_ok_iff {status : ℕ} : answered net target = .ok status ↔
    (∀ c ∈ target.host.toList, c.toNat < 128) ∧ net.drain = .ok () ∧
      ∃ line, net.readline = .ok line ∧ IsStatusLine line status := by
  unfold answered encodeRequest
  by_cases hascii : ∀ c ∈ target.host.toList, c.toNat < 128
  swap
  · rw [if_neg hascii]
    exact iff_of_false (by rintro ⟨⟩) fun h => hascii h.1
  rw [if_pos hascii, and_iff_right hascii]
  rcases net.drain with e | ⟨⟩
  · exact iff_of_false (by rintro ⟨⟩) fun h => by cases h.1
  rcases net.readline with e | line
  · refine iff_of_false (by rintro ⟨⟩) ?_
    rintro ⟨-, line, ⟨⟩, -⟩
  · refine httpStatusOf_eq_ok_iff.trans ⟨fun h => ⟨rfl, line, rfl, h⟩, ?_⟩
    rintro ⟨-, _, ⟨⟩, h⟩
    exact h

lemma answers_iff {status : ℕ} : Answers net target status ↔
    Connects net ∧ net.openConnection = .ok () ∧ answered net target = .ok status := by
  rw [answered_eq_ok_iff]
  constructor
  · intro h
    exact ⟨h.connects, h.opens, h.ascii, h.drains, h.line⟩
  · rintro ⟨hconnects, hopens, hascii, hdrains, hline⟩
    exact ⟨hconnects, hopens, hascii, hdrains, hline⟩

/-- A body that ends in an interruption ends in the phase of the interrupted call. -/
lemma interrupts_of_exchange {e : Interruption}
    (h : (exchange net target {}).1 = .error e) :
    Interrupts net target e (exchange net target {}).2.phase := by
  have hcase := exchanged net target
  generalize exchange net target {} = r at h hcase
  cases hcase with
  | unresolved e' hresolve =>
    obtain rfl := Except.error.inj h
    exact .inl hresolve
  | noAddress hresolve => exact .inr ⟨hresolve, (Except.error.inj h).symm⟩
  | noSocket address rest e' hresolve hsocket =>
    obtain rfl := Except.error.inj h
    exact .inl ⟨address, rest, hresolve, .inl hsocket⟩
  | refused address rest e' hresolve hsocket hconnect =>
    obtain rfl := Except.error.inj h
    exact .inl ⟨address, rest, hresolve, .inr ⟨hsocket, hconnect⟩⟩
  | notOpened e' hconnects hopen =>
    obtain rfl := Except.error.inj h
    dsimp only
    rcases hphase : target.openingPhase with _ | _ | _ | _
    · exact absurd hphase (by unfold ProbeTarget.openingPhase; split <;> decide)
    · exact .inr ⟨hphase, hconnects, hopen⟩
    · exact ⟨hphase, hconnects, hopen⟩
    · exact absurd hphase (by unfold ProbeTarget.openingPhase; split <;> decide)
  | opened hconnects hopen => exact ⟨hconnects, hopen, h⟩

/-- A body that returns has had an answer. -/
lemma exchange_eq_ok_iff {status : ℕ} :
    (exchange net target {}).1 = .ok status ↔ Answers net target status := by
  rw [answers_iff]
  have hcase := exchanged net target
  generalize exchange net target {} = r at hcase
  cases hcase with
  | unresolved e hresolve =>
    refine iff_of_false (by rintro ⟨⟩) ?_
    rintro ⟨⟨address, rest, h, -⟩, -⟩
    rw [hresolve] at h
    cases h
  | noAddress hresolve =>
    refine iff_of_false (by rintro ⟨⟩) ?_
    rintro ⟨⟨address, rest, h, -⟩, -⟩
    rw [hresolve] at h
    cases h
  | noSocket address rest e hresolve hsocket =>
    refine iff_of_false (by rintro ⟨⟩) ?_
    rintro ⟨⟨address', rest', h, h', -⟩, -⟩
    rw [hresolve] at h
    obtain ⟨⟩ := h
    rw [hsocket] at h'
    cases h'
  | refused address rest e hresolve hsocket hconnect =>
    refine iff_of_false (by rintro ⟨⟩) ?_
    rintro ⟨⟨address', rest', h, -, h'⟩, -⟩
    rw [hresolve] at h
    obtain ⟨⟩ := h
    rw [hconnect] at h'
    cases h'
  | notOpened e hconnects hopen =>
    refine iff_of_false (by rintro ⟨⟩) ?_
    rintro ⟨-, h, -⟩
    rw [hopen] at h
    cases h
  | opened hconnects hopen =>
    exact ⟨fun h => ⟨hconnects, hopen, h⟩, fun h => h.2.2⟩

/-- What the `finally` part does to an open writer. -/
lemma closeAll_writer : closeAll net ⟨.http, false, true, [.openSocket, .openWriter]⟩ =
    (suppressed net.waitClosed,
      ⟨.http, false, true, [.openSocket, .openWriter, .closeWriter]⟩) := by
  unfold closeAll
  rcases suppressed net.waitClosed with e | ⟨⟩
  · rfl
  · rfl

/-- The `finally` part closes what is open, and raises what closing the writer raises. -/
lemma closeAll_exchange : Released (closeAll net (exchange net target {}).2).2.calls ∧
    ((closeAll net (exchange net target {}).2).1 = .ok () ∨
      (closeAll net (exchange net target {}).2).1 = suppressed net.waitClosed) := by
  have hcase := exchanged net target
  generalize exchange net target {} = r at hcase
  cases hcase with
  | unresolved => exact ⟨.inl rfl, .inl rfl⟩
  | noAddress => exact ⟨.inl rfl, .inl rfl⟩
  | noSocket => exact ⟨.inl rfl, .inl rfl⟩
  | refused => exact ⟨.inr (.inl rfl), .inl rfl⟩
  | notOpened => exact ⟨.inr (.inl rfl), .inl rfl⟩
  | opened =>
    rw [closeAll_writer]
    exact ⟨.inr (.inr rfl), .inr rfl⟩

/-- Behind an answer there is a writer to close. -/
lemma closeAll_of_answers {status : ℕ} (h : Answers net target status) :
    (closeAll net (exchange net target {}).2).1 = suppressed net.waitClosed := by
  have hok := exchange_eq_ok_iff.mpr h
  have hopens := h.opens
  have hcase := exchanged net target
  generalize exchange net target {} = r at hcase hok
  cases hcase with
  | unresolved | noAddress | noSocket | refused => cases hok
  | notOpened => cases hok
  | opened => rw [closeAll_writer]

/-- A probe that returns has gone through its clean-up. -/
lemma probe_eq_ok_iff {result : ProbeResult} :
    (probe net target checkedAt elapsed).1 = .ok result ↔
      (closeAll net (exchange net target {}).2).1 = .ok () ∧
        resultOf checkedAt elapsed (exchange net target {}).2.phase (exchange net target {}).1 =
          .ok result := by
  unfold probe
  dsimp only
  rcases hclosed : closeAll net (exchange net target {}).2 with ⟨e | ⟨⟩, s⟩
  · simp
  · simp

/-- A probe that returns has an answer to tell, or which call has failed. -/
lemma told_of_probe {result : ProbeResult}
    (h : (probe net target checkedAt elapsed).1 = .ok result) : result.checkedAt = checkedAt ∧
      (result.status = .online ∧ result.errorCode = none ∧
          (∃ status, Answers net target status ∧ result.httpStatus = some status) ∨
        Offline net target result) := by
  obtain ⟨-, h⟩ := probe_eq_ok_iff.mp h
  rcases hexchange : (exchange net target {}).1 with (⟨typeName, text, isOSError⟩ | _) | n
  · have hinterrupts := interrupts_of_exchange hexchange
    rw [hexchange] at h
    obtain rfl := Except.ok.inj h
    exact ⟨rfl, .inr ⟨rfl, rfl, typeName, text, isOSError, hinterrupts, rfl, rfl⟩⟩
  · rw [hexchange] at h
    cases h
  · rw [hexchange] at h
    obtain rfl := Except.ok.inj h
    exact ⟨rfl, .inl ⟨rfl, rfl, n, exchange_eq_ok_iff.mp hexchange, rfl⟩⟩

/-- A host that has answered is told to be online, unless the clean-up raises. -/
lemma probe_of_answers {status : ℕ} (h : Answers net target status) :
    (probe net target checkedAt elapsed).1 = (suppressed net.waitClosed).map fun _ =>
      ⟨.online, .http, checkedAt, some (max 0 elapsed), some status, none, none⟩ := by
  have hclosed := closeAll_of_answers h
  unfold probe
  dsimp only
  rcases hclose : closeAll net (exchange net target {}).2 with ⟨e | ⟨⟩, s⟩
  · rw [hclose] at hclosed
    rw [← hclosed]
    rfl
  · rw [hclose] at hclosed
    rw [← hclosed, exchange_eq_ok_iff.mpr h]
    rfl

/-- A probe raises when it is cancelled, or when the clean-up raises. -/
lemma raised_of_probe {e : Interruption} (h : (probe net target checkedAt elapsed).1 = .error e) :
    (∃ phase, Interrupts net target .cancelled phase) ∨ suppressed net.waitClosed = .error e := by
  have hclosed : (closeAll net (exchange net target {}).2).1 = .ok () ∨
      (closeAll net (exchange net target {}).2).1 = suppressed net.waitClosed :=
    closeAll_exchange.2
  unfold probe at h
  dsimp only at h
  rcases hclose : closeAll net (exchange net target {}).2 with ⟨e' | ⟨⟩, s⟩
  · rw [hclose] at h hclosed
    obtain rfl := Except.error.inj h
    exact .inr (hclosed.resolve_left (by rintro ⟨⟩)).symm
  · rw [hclose] at h
    rcases hexchange : (exchange net target {}).1 with (⟨typeName, text, isOSError⟩ | _) | n
    · rw [hexchange] at h
      cases h
    · exact .inl ⟨_, interrupts_of_exchange hexchange⟩
    · rw [hexchange] at h
      cases h

lemma released_of_probe : Released (probe net target checkedAt elapsed).2.calls := by
  have hcalls : (probe net target checkedAt elapsed).2 =
      (closeAll net (exchange net target {}).2).2 := by
    unfold probe
    dsimp only
    rcases closeAll net (exchange net target {}).2 with ⟨e | ⟨⟩, s⟩ <;> rfl
  rw [hcalls]
  exact closeAll_exchange.1

/-- What a probe tells is exact.  Whatever the calls of the network come to, and wherever they are
cancelled: everything that has been opened is closed once; the upstream is reported online with a
status if and only if it has answered the request with a status line of that status; otherwise the
report names the phase and the exception of the call that has failed; and the probe itself raises
only when it is cancelled, or when the closing of the writer raises something else than an
`OSError`. -/
theorem probe_exact (net : Network) (target : ProbeTarget) (checkedAt elapsed : ℤ) :
    Released (probe net target checkedAt elapsed).2.calls ∧
    (∀ status, (∃ result, (probe net target checkedAt elapsed).1 = .ok result ∧
        result.status = .online ∧ result.httpStatus = some status) ↔
      Answers net target status ∧ suppressed net.waitClosed = .ok ()) ∧
    (∀ result, (probe net target checkedAt elapsed).1 = .ok result →
      result.checkedAt = checkedAt ∧
        (result.status = .online ∧ result.errorCode = none ∨ Offline net target result)) ∧
    ∀ e, (probe net target checkedAt elapsed).1 = .error e →
      (∃ phase, Interrupts net target .cancelled phase) ∨ suppressed net.waitClosed = .error e := by
  refine ⟨released_of_probe, fun status => ⟨?_, ?_⟩, fun result h => ?_, fun e => raised_of_probe⟩
  · rintro ⟨result, hresult, honline, hstatus⟩
    obtain ⟨-, ⟨-, -, status', hanswers, hstatus'⟩ | hoffline⟩ := told_of_probe hresult
    · obtain rfl := Option.some.inj (hstatus'.symm.trans hstatus)
      refine ⟨hanswers, (closeAll_of_answers hanswers).symm.trans ?_⟩
      exact (probe_eq_ok_iff.mp hresult).1
    · exact absurd (honline.symm.trans hoffline.status) (by decide)
  · rintro ⟨hanswers, hsuppressed⟩
    have hresult : (probe net target checkedAt elapsed).1 = _ := probe_of_answers hanswers
    rw [hsuppressed] at hresult
    exact ⟨_, hresult, rfl, rfl⟩
  · obtain ⟨hchecked, ⟨honline, herror, -⟩ | hoffline⟩ := told_of_probe h
    · exact ⟨hchecked, .inl ⟨honline, herror⟩⟩
    · exact ⟨hchecked, .inr hoffline⟩

end Exact

end Portwyrm.Runtime

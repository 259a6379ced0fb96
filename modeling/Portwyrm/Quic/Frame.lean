import Portwyrm.Quic.Router

/-!
# What the operations of the router leave alone

The state of the router falls into three groups of tables: the sessions with their indices, the
connections that are being opened, and the pause of the public socket.  Most operations write to
one group only.
-/

namespace Portwyrm.Quic

open Base

variable {α : Type}

/-- Only the sessions and their indices differ. -/
def OnlyIndex (r r' : Router α) : Prop :=
  r' = { r with
    sessions := r'.sessions
    sessionsByAddr := r'.sessionsByAddr
    sessionsByServerCid := r'.sessionsByServerCid
    serverCidLengthCounts := r'.serverCidLengthCounts
    serverCidLengths := r'.serverCidLengths }

/-- Only the connections that are being opened differ. -/
def OnlyHandshakes (r r' : Router α) : Prop :=
  r' = { r with
    pending := r'.pending
    pendingCrypto := r'.pendingCrypto
    pendingSeen := r'.pendingSeen
    pendingStarted := r'.pendingStarted
    opening := r'.opening
    tasks := r'.tasks }

/-- Only the pause of the public socket differs, and what has gone through the sockets. -/
def OnlyIngress (r r' : Router α) : Prop :=
  r' = { r with
    awaitingFirstUpstream := r'.awaitingFirstUpstream
    ingressPauseTimers := r'.ingressPauseTimers
    traffic := r'.traffic }

/-- The sessions and their indices are the same. -/
structure SameIndex (r r' : Router α) : Prop where
  sessions : r'.sessions = r.sessions
  sessionsByAddr : r'.sessionsByAddr = r.sessionsByAddr
  sessionsByServerCid : r'.sessionsByServerCid = r.sessionsByServerCid
  serverCidLengthCounts : r'.serverCidLengthCounts = r.serverCidLengthCounts
  serverCidLengths : r'.serverCidLengths = r.serverCidLengths

/-- The connections that are being opened are the same. -/
structure SameHandshakes (r r' : Router α) : Prop where
  pending : r'.pending = r.pending
  pendingCrypto : r'.pendingCrypto = r.pendingCrypto
  pendingSeen : r'.pendingSeen = r.pendingSeen
  pendingStarted : r'.pendingStarted = r.pendingStarted
  opening : r'.opening = r.opening
  tasks : r'.tasks = r.tasks

/-- The pause of the public socket is the same, and nothing has gone through the sockets. -/
structure SameIngress (r r' : Router α) : Prop where
  awaitingFirstUpstream : r'.awaitingFirstUpstream = r.awaitingFirstUpstream
  ingressPauseTimers : r'.ingressPauseTimers = r.ingressPauseTimers
  traffic : r'.traffic = r.traffic
  transport : r'.transport = r.transport
  lost : r'.lost = r.lost

variable {r r' r'' : Router α}

lemma OnlyIndex.refl (r : Router α) : OnlyIndex r r := rfl

lemma OnlyIndex.trans (h : OnlyIndex r r') (h' : OnlyIndex r' r'') : OnlyIndex r r'' := by
  unfold OnlyIndex at h h' ⊢
  rw [h'] at ⊢
  rw [h]

lemma OnlyHandshakes.refl (r : Router α) : OnlyHandshakes r r := rfl

lemma OnlyHandshakes.trans (h : OnlyHandshakes r r') (h' : OnlyHandshakes r' r'') :
    OnlyHandshakes r r'' := by
  unfold OnlyHandshakes at h h' ⊢
  rw [h'] at ⊢
  rw [h]

lemma OnlyIndex.sameHandshakes (h : OnlyIndex r r') : SameHandshakes r r' := by
  constructor <;> rw [h]

lemma OnlyIndex.sameIngress (h : OnlyIndex r r') : SameIngress r r' := by
  constructor <;> rw [h]

lemma OnlyHandshakes.sameIndex (h : OnlyHandshakes r r') : SameIndex r r' := by
  constructor <;> rw [h]

lemma OnlyHandshakes.sameIngress (h : OnlyHandshakes r r') : SameIngress r r' := by
  constructor <;> rw [h]

lemma OnlyIngress.sameIndex (h : OnlyIngress r r') : SameIndex r r' := by
  constructor <;> rw [h]

lemma OnlyIngress.sameHandshakes (h : OnlyIngress r r') : SameHandshakes r r' := by
  constructor <;> rw [h]

lemma SameHandshakes.trans (h : SameHandshakes r r') (h' : SameHandshakes r' r'') :
    SameHandshakes r r'' where
  pending := h'.pending.trans h.pending
  pendingCrypto := h'.pendingCrypto.trans h.pendingCrypto
  pendingSeen := h'.pendingSeen.trans h.pendingSeen
  pendingStarted := h'.pendingStarted.trans h.pendingStarted
  opening := h'.opening.trans h.opening
  tasks := h'.tasks.trans h.tasks

/-! ## The operations -/

section Operations

variable [DecidableEq α] {key : Key α}

omit [DecidableEq α] in
lemma onlyIndex_foldl {β : Type} {f : Router α → β → Router α}
    (h : ∀ r b, OnlyIndex r (f r b)) (l : List β) (r : Router α) : OnlyIndex r (l.foldl f r) := by
  induction l generalizing r with
  | nil => exact .refl r
  | cons b l ih => exact (h r b).trans (ih _)

lemma onlyIndex_updateSession (f : Session α → Session α) :
    OnlyIndex r (r.updateSession key f) := by
  unfold Router.updateSession
  split <;> rfl

lemma onlyIndex_indexServerConnectionId (cid : Bytes) :
    OnlyIndex r (r.indexServerConnectionId key cid) := by
  unfold Router.indexServerConnectionId
  split
  · rfl
  · split
    · rfl
    · exact (onlyIndex_updateSession _).trans rfl

lemma onlyIndex_registerServerConnectionId (key : Key α) (data : Bytes) :
    OnlyIndex r (r.registerServerConnectionId key data) := by
  unfold Router.registerServerConnectionId
  split
  · rfl
  · split
    · rfl
    · split
      · rfl
      · exact onlyIndex_indexServerConnectionId _

lemma onlyIndex_addSession (session : Session α) : OnlyIndex r (r.addSession key session) := by
  refine OnlyIndex.trans ?_ (onlyIndex_foldl (fun _ _ => onlyIndex_indexServerConnectionId _) _ _)
  rfl

omit [DecidableEq α] in
lemma onlyIndex_removeServerCidLength (length : ℕ) :
    OnlyIndex r (r.removeServerCidLength length) := rfl

lemma onlyIndex_discardAddr (client : α) : OnlyIndex r (r.discardAddr key client) := by
  unfold Router.discardAddr
  split <;> rfl

lemma onlyIndex_discardServerCid (cid : Bytes) : OnlyIndex r (r.discardServerCid key cid) := by
  unfold Router.discardServerCid
  split
  · refine OnlyIndex.trans ?_ (onlyIndex_removeServerCidLength _)
    rfl
  · rfl

omit [DecidableEq α] in
lemma onlyIngress_emit (t : Traffic α) : OnlyIngress r (r.emit t) := rfl

lemma onlyIngress_pauseIngress (now : ℚ) : OnlyIngress r (r.pauseIngress now key) := by
  unfold Router.pauseIngress
  split
  · rfl
  · dsimp only
    split <;> rfl

lemma onlyIngress_releaseIngressPause : OnlyIngress r (r.releaseIngressPause key) := by
  unfold Router.releaseIngressPause
  split
  · rfl
  · dsimp only
    split <;> rfl

lemma onlyHandshakes_dropPending : OnlyHandshakes r (r.dropPending key) := rfl

lemma onlyHandshakes_route (clientScid : Bytes) (serverName : String) (alpns : List String) :
    OnlyHandshakes r (r.route key clientScid serverName alpns) := by
  unfold Router.route
  dsimp only
  split <;> rfl

lemma sameHandshakes_removeSession : SameHandshakes r (r.removeSession key) := by
  unfold Router.removeSession
  split
  · exact ⟨rfl, rfl, rfl, rfl, rfl, rfl⟩
  · have hpop : SameHandshakes r { r with sessions := r.sessions.pop key } :=
      ⟨rfl, rfl, rfl, rfl, rfl, rfl⟩
    refine SameHandshakes.trans ?_ (onlyIngress_emit _).sameHandshakes
    refine SameHandshakes.trans ?_ (onlyIndex_foldl (f := Router.discardServerCid key)
      (fun _ cid => onlyIndex_discardServerCid cid) _ _).sameHandshakes
    refine SameHandshakes.trans ?_ (onlyIndex_discardAddr _).sameHandshakes
    exact hpop.trans onlyIngress_releaseIngressPause.sameHandshakes

variable (C : Cryptography)

lemma onlyHandshakes_inspect (clientScid data : Bytes) :
    OnlyHandshakes r (r.inspect C key clientScid data) := by
  unfold Router.inspect
  dsimp only
  split
  · rfl
  · split
    · rfl
    · refine OnlyHandshakes.trans ?_ (onlyHandshakes_route _ _ _)
      rfl

lemma onlyHandshakes_receiveInitial (now : ℚ) (clientScid : Bytes) (datagram : Datagram α) :
    OnlyHandshakes r (r.receiveInitial C now key clientScid datagram) := by
  unfold Router.receiveInitial
  dsimp only
  split
  · rfl
  · split
    · rfl
    · split
      · rfl
      · refine OnlyHandshakes.trans ?_ (onlyHandshakes_inspect C _ _)
        rfl

lemma onlyHandshakes_finishOpen (task : OpenTask α) : OnlyHandshakes r (r.finishOpen task) := rfl

lemma onlyHandshakes_openStart (task : OpenTask α) : OnlyHandshakes r (r.openStart task) := by
  unfold Router.openStart
  split <;> rfl

lemma onlyHandshakes_openCancelled (task : OpenTask α) :
    OnlyHandshakes r (r.openCancelled task) := by
  unfold Router.openCancelled
  split <;> rfl

omit [DecidableEq α] in
/-- Reading the route file changes the routes only. -/
lemma reload_eq (file : Option ConfigFile) : ∃ routes mtime,
    r.reload file = { r with routes := routes, configMtime := mtime } := by
  unfold Router.reload
  split
  · exact ⟨_, _, rfl⟩
  · split
    · exact ⟨_, _, rfl⟩
    · split <;> exact ⟨_, _, rfl⟩

end Operations

end Portwyrm.Quic

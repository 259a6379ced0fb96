import Mathlib.Data.List.Chain
import Portwyrm.Quic.Forwarding

/-!
# The pause of the public socket

Each session that opens waits for the first datagram of its upstream, and reading from the
public socket is paused as long as any session waits.  A wait ends with this datagram, with its
timer, with the session, or with the failure of the call that opens it.
-/

namespace Portwyrm.Quic

open Base

variable {α : Type}

/-- Whether reading is paused: at the start, and behind each switch. -/
def readings (traffic : List (Traffic α)) : List Bool :=
  false :: traffic.filterMap fun
    | .pauseReading => some true
    | .resumeReading => some false
    | _ => none

/-- Reading is paused while a session waits, and each switch changes something. -/
structure Switched (r : Router α) : Prop where
  transport : r.transport = true
  alternate : (readings r.traffic).IsChain (· ≠ ·)
  last : (readings r.traffic).getLast? = some (decide (0 < r.awaitingFirstUpstream.size))

variable [DecidableEq α]

/-- The sessions that wait have a timer, and nothing from their upstreams. -/
structure Waiting (r : Router α) : Prop where
  timers : ∀ k, k ∈ r.ingressPauseTimers ↔ k ∈ r.awaitingFirstUpstream
  silent : ∀ k ∈ r.awaitingFirstUpstream,
    (r.sessions.get? k).map Session.upstreamDatagramsReceived = some 0

variable {r r' : Router α} {key : Key α}

omit [DecidableEq α] in
lemma readings_append (t t' : List (Traffic α)) :
    readings (t ++ t') = readings t ++ (readings t').tail := by
  simp [readings]

omit [DecidableEq α] in
lemma Switched.congr (h : Switched r) (htransport : r'.transport = r.transport)
    (hreadings : readings r'.traffic = readings r.traffic)
    (hawaiting : r'.awaitingFirstUpstream = r.awaitingFirstUpstream) : Switched r' where
  transport := by rw [htransport]; exact h.transport
  alternate := by rw [hreadings]; exact h.alternate
  last := by rw [hreadings, hawaiting]; exact h.last

omit [DecidableEq α] in
lemma Switched.congr_ingress (h : Switched r) (heq : SameIngress r r') : Switched r' :=
  h.congr heq.transport (by rw [heq.traffic]) heq.awaitingFirstUpstream

omit [DecidableEq α] in
/-- Traffic that is no switch. -/
lemma Switched.emit (h : Switched r) {t : Traffic α} (ht : readings [t] = [false]) :
    Switched (r.emit t) := by
  refine h.congr rfl ?_ rfl
  show readings (r.traffic ++ [t]) = _
  rw [readings_append, ht, List.tail_cons, List.append_nil]

omit [DecidableEq α] in
/-- A switch, from the other position. -/
lemma readings_switch (h : Switched r) {b : Bool} {t : Traffic α} (ht : readings [t] = [false, b])
    (hb : decide (0 < r.awaitingFirstUpstream.size) ≠ b) :
    (readings (r.traffic ++ [t])).IsChain (· ≠ ·) ∧ (readings (r.traffic ++ [t])).getLast? = some b := by
  rw [readings_append, ht, List.tail_cons]
  refine ⟨h.alternate.append (List.isChain_singleton b) fun x hx y hy => ?_, List.getLast?_concat⟩
  rw [h.last, Option.mem_some_iff] at hx
  rw [List.head?_singleton, Option.mem_some_iff] at hy
  rw [← hx, ← hy]
  exact hb

lemma size_pos_iff {κ β : Type} [DecidableEq κ] {d : Dict κ β} : 0 < d.size ↔ ∃ k, k ∈ d := by
  rw [Nat.pos_iff_ne_zero, ne_eq, size_eq_zero_iff, not_forall_not]

/-! ## Pause and release -/

lemma Switched.pauseIngress (h : Switched r) (now : ℚ) : Switched (r.pauseIngress now key) := by
  unfold Router.pauseIngress
  split
  · exact h
  · rename_i hkey
    have hsize : (r.awaitingFirstUpstream.add key).size = r.awaitingFirstUpstream.size + 1 :=
      Dict.size_set_of_not_mem () hkey
    dsimp only
    by_cases hfirst : r.awaitingFirstUpstream.size = 0
    · -- the first session that waits
      have hcond : (r.awaitingFirstUpstream.add key).size = 1 ∧ r.transport = true :=
        ⟨by omega, h.transport⟩
      rw [if_pos hcond]
      have hswitch := readings_switch h (t := .pauseReading) (b := true) rfl (by simp [hfirst])
      refine ⟨h.transport, hswitch.1, ?_⟩
      show (readings (r.traffic ++ [.pauseReading])).getLast? =
        some (decide (0 < (r.awaitingFirstUpstream.add key).size))
      rw [hswitch.2, hsize]
      simp
    · have hcond : ¬ ((r.awaitingFirstUpstream.add key).size = 1 ∧ r.transport = true) := by
        omega
      rw [if_neg hcond]
      refine ⟨h.transport, h.alternate, ?_⟩
      show (readings r.traffic).getLast? = some (decide (0 < (r.awaitingFirstUpstream.add key).size))
      rw [h.last, hsize]
      simp only [Option.some.injEq, decide_eq_decide]
      omega

lemma Switched.releaseIngressPause (h : Switched r) : Switched (r.releaseIngressPause key) := by
  unfold Router.releaseIngressPause
  split
  · exact h
  · rename_i hkey
    have hsome : 0 < r.awaitingFirstUpstream.size := size_pos_iff.mpr ⟨key, not_not.mp hkey⟩
    dsimp only
    by_cases hlast : (r.awaitingFirstUpstream.pop key).size = 0
    · -- the last session that waits
      rw [if_pos ⟨hlast, h.transport⟩]
      have hswitch := readings_switch h (t := .resumeReading) (b := false) rfl (by simp [hsome])
      refine ⟨h.transport, hswitch.1, ?_⟩
      show (readings (r.traffic ++ [.resumeReading])).getLast? =
        some (decide (0 < (r.awaitingFirstUpstream.pop key).size))
      rw [hswitch.2, hlast]
      rfl
    · rw [if_neg fun hcond => hlast hcond.1]
      refine ⟨h.transport, h.alternate, ?_⟩
      show (readings r.traffic).getLast? = some (decide (0 < (r.awaitingFirstUpstream.pop key).size))
      rw [h.last]
      simp only [Option.some.injEq, decide_eq_decide]
      omega

lemma mem_releaseIngressPause {k : Key α} :
    k ∈ (r.releaseIngressPause key).awaitingFirstUpstream ↔ k ≠ key ∧ k ∈ r.awaitingFirstUpstream := by
  unfold Router.releaseIngressPause
  split
  · rename_i hkey
    exact ne_and_mem_iff_of_not_mem hkey k
  · dsimp only
    split <;> exact Dict.mem_pop

lemma Waiting.congr (h : Waiting r) (heq : SameIngress r r')
    (hsessions : ∀ k, (r'.sessions.get? k).map Session.upstreamDatagramsReceived =
      (r.sessions.get? k).map Session.upstreamDatagramsReceived) : Waiting r' where
  timers := by rw [heq.ingressPauseTimers, heq.awaitingFirstUpstream]; exact h.timers
  silent k hk := by
    rw [heq.awaitingFirstUpstream] at hk
    rw [hsessions]
    exact h.silent k hk

/-- The waits that a release leaves: those of other sessions. -/
lemma timers_releaseIngressPause
    (htimers : ∀ k, k ∈ r.ingressPauseTimers ↔ k ∈ r.awaitingFirstUpstream) (k : Key α) :
    k ∈ (r.releaseIngressPause key).ingressPauseTimers ↔
      k ∈ (r.releaseIngressPause key).awaitingFirstUpstream := by
  unfold Router.releaseIngressPause
  split
  · exact htimers k
  · dsimp only
    split
    · show k ∈ r.ingressPauseTimers.pop key ↔ k ∈ r.awaitingFirstUpstream.pop key
      rw [Dict.mem_pop, Dict.mem_pop, htimers]
    · show k ∈ r.ingressPauseTimers.pop key ↔ k ∈ r.awaitingFirstUpstream.pop key
      rw [Dict.mem_pop, Dict.mem_pop, htimers]

/-- A wait ends; the session may have gone, or have heard of its upstream. -/
lemma Waiting.release
    (htimers : ∀ k, k ∈ r.ingressPauseTimers ↔ k ∈ r.awaitingFirstUpstream)
    (hsilent : ∀ k ∈ r.awaitingFirstUpstream, k ≠ key →
      (r.sessions.get? k).map Session.upstreamDatagramsReceived = some 0) :
    Waiting (r.releaseIngressPause key) where
  timers := timers_releaseIngressPause htimers
  silent k hk := by
    obtain ⟨hne, hk⟩ := mem_releaseIngressPause.mp hk
    rw [onlyIngress_releaseIngressPause.sameIndex.sessions]
    exact hsilent k hk hne

lemma Waiting.releaseIngressPause (h : Waiting r) : Waiting (r.releaseIngressPause key) :=
  .release h.timers fun k hk _ => h.silent k hk

lemma Waiting.pauseIngress (h : Waiting r) (now : ℚ)
    (hkey : (r.sessions.get? key).map Session.upstreamDatagramsReceived = some 0) :
    Waiting (r.pauseIngress now key) := by
  unfold Router.pauseIngress
  split
  · exact h
  · dsimp only
    have hwaiting : ∀ traffic, Waiting { r with
        awaitingFirstUpstream := r.awaitingFirstUpstream.add key
        ingressPauseTimers := r.ingressPauseTimers.set key (now + 1 / 4)
        traffic := traffic } := by
      intro traffic
      refine ⟨fun k => ?_, fun k hk => ?_⟩
      · show k ∈ r.ingressPauseTimers.set key _ ↔ k ∈ r.awaitingFirstUpstream.add key
        rw [Dict.mem_set, Dict.mem_add, h.timers]
      · rcases Dict.mem_add.mp hk with rfl | hk
        · exact hkey
        · exact h.silent k hk
    split
    · exact hwaiting _
    · exact hwaiting _

/-! ## The operations -/

/-- The pause of the public socket is in order. -/
structure IngressOk (r : Router α) : Prop where
  switched : Switched r
  waiting : Waiting r

lemma IngressOk.congr (h : IngressOk r) (heq : SameIngress r r')
    (hsessions : ∀ k, (r'.sessions.get? k).map Session.upstreamDatagramsReceived =
      (r.sessions.get? k).map Session.upstreamDatagramsReceived) : IngressOk r' :=
  ⟨h.switched.congr_ingress heq, h.waiting.congr heq hsessions⟩

lemma IngressOk.congr_handshakes (h : IngressOk r) (heq : OnlyHandshakes r r') : IngressOk r' :=
  h.congr heq.sameIngress fun k => by rw [heq.sameIndex.sessions]

lemma IngressOk.emit (h : IngressOk r) {t : Traffic α} (ht : readings [t] = [false]) :
    IngressOk (r.emit t) :=
  ⟨h.switched.emit ht, h.waiting.timers, h.waiting.silent⟩

lemma IngressOk.releaseIngressPause (h : IngressOk r) : IngressOk (r.releaseIngressPause key) :=
  ⟨h.switched.releaseIngressPause, h.waiting.releaseIngressPause⟩

lemma IngressOk.datagramReceived (h : IngressOk r) (C : Cryptography) (now : ℚ) (data : Bytes)
    (addr : α) : IngressOk (r.datagramReceived C now data addr) := by
  have harrived : IngressOk { r with arrivals := r.arrivals + 1 } :=
    h.congr ⟨rfl, rfl, rfl, rfl, rfl⟩ fun _ => rfl
  unfold Router.datagramReceived
  dsimp only
  split
  · unfold Router.forward
    split
    · exact harrived
    · refine IngressOk.emit (harrived.congr (onlyIndex_updateSession _).sameIngress fun k => ?_) rfl
      exact map_sessions_updateSession Session.upstreamDatagramsReceived
        (fun session => { session with lastSeen := now }) (fun _ => rfl) k
  · split
    · exact harrived
    · split
      · exact harrived
      · exact harrived.congr_handshakes (onlyHandshakes_receiveInitial C _ _ _)

/-- The first datagram of an upstream ends the wait of its session; later ones find no wait. -/
lemma IngressOk.upstreamReceived (h : IngressOk r) (now : ℚ) (data : Bytes) :
    IngressOk (r.upstreamReceived now key data) := by
  unfold Router.upstreamReceived
  cases hget : r.sessions.get? key with
  | none => exact h
  | some session =>
    dsimp only
    let counted := r.updateSession key fun s =>
      { s with upstreamDatagramsReceived := session.upstreamDatagramsReceived + 1 }
    let registered := (counted.emit (.fromUpstream session.upstream data)).registerServerConnectionId
      key data
    have hregistered : SameIngress (counted.emit (.fromUpstream session.upstream data)) registered :=
      (onlyIndex_registerServerConnectionId key data).sameIngress
    have hcounted : SameIngress r counted := (onlyIndex_updateSession _).sameIngress
    have hswitched : Switched registered :=
      ((h.switched.congr_ingress hcounted).emit rfl).congr_ingress hregistered
    have hawaiting : registered.awaitingFirstUpstream = r.awaitingFirstUpstream :=
      hregistered.awaitingFirstUpstream.trans hcounted.awaitingFirstUpstream
    have htimers : ∀ k, k ∈ registered.ingressPauseTimers ↔ k ∈ registered.awaitingFirstUpstream := by
      intro k
      have htimers : registered.ingressPauseTimers = r.ingressPauseTimers :=
        hregistered.ingressPauseTimers.trans hcounted.ingressPauseTimers
      rw [htimers, hawaiting]
      exact h.waiting.timers k
    have hsilent : ∀ k ∈ registered.awaitingFirstUpstream, k ≠ key →
        (registered.sessions.get? k).map Session.upstreamDatagramsReceived = some 0 := by
      intro k hk hne
      rw [hawaiting] at hk
      have hothers : (registered.sessions.get? k).map Session.upstreamDatagramsReceived =
          (counted.sessions.get? k).map Session.upstreamDatagramsReceived :=
        map_sessions_registerServerConnectionId _ (fun _ _ => rfl) data k
      rw [hothers, sessions_updateSession, if_neg hne]
      exact h.waiting.silent k hk
    have hsent : Switched (registered.emit (.toClient session.client data)) := hswitched.emit rfl
    rw [if_pos (show registered.transport = true from hswitched.transport)]
    suffices hok : IngressOk (if session.upstreamDatagramsReceived + 1 = 1 then
        (registered.emit (.toClient session.client data)).releaseIngressPause key
        else registered.emit (.toClient session.client data)) from
      hok.congr (onlyIndex_updateSession _).sameIngress fun k =>
        map_sessions_updateSession Session.upstreamDatagramsReceived
          (fun s => { s with lastSeen := now }) (fun _ => rfl) k
    split
    · exact ⟨hsent.releaseIngressPause, .release htimers hsilent⟩
    · rename_i hlater
      refine ⟨hsent, htimers, fun k hk => hsilent k hk ?_⟩
      rintro rfl
      have hk : k ∈ registered.awaitingFirstUpstream := hk
      rw [hawaiting] at hk
      have hzero := h.waiting.silent k hk
      rw [hget, Option.map_some, Option.some.injEq] at hzero
      omega

/-- A wait ends with its session. -/
lemma IngressOk.removeSession (h : IngressOk r) (hindexed : Indexed r) :
    IngressOk (r.removeSession key) := by
  have hsessions : (r.removeSession key).sessions = r.sessions.pop key :=
    hindexed.removeSession_spec.2
  unfold Router.removeSession at hsessions ⊢
  cases hget : r.sessions.get? key with
  | none => exact h
  | some session =>
    rw [hget] at hsessions
    dsimp only at hsessions ⊢
    let popped : Router α := { r with sessions := r.sessions.pop key }
    let released := popped.releaseIngressPause key
    let removed := session.serverCids.keys.foldl (Router.discardServerCid key)
      (released.discardAddr key session.client)
    have hindex : OnlyIndex released removed := (onlyIndex_discardAddr session.client).trans
      (onlyIndex_foldl (fun _ cid => onlyIndex_discardServerCid cid) _ _)
    have hswitched : Switched released := by
      have hpopped : Switched popped := h.switched.congr_ingress ⟨rfl, rfl, rfl, rfl, rfl⟩
      exact hpopped.releaseIngressPause
    have hwaiting : Waiting released := by
      refine .release h.waiting.timers fun k hk hne => ?_
      show ((r.sessions.pop key).get? k).map Session.upstreamDatagramsReceived = some 0
      rw [Dict.get?_pop, if_neg hne]
      exact h.waiting.silent k hk
    have hremoved : removed.sessions = released.sessions := by
      have hreleased : released.sessions = popped.sessions :=
        onlyIngress_releaseIngressPause.sameIndex.sessions
      rw [hreleased]
      exact hsessions
    refine IngressOk.emit ⟨hswitched.congr_ingress hindex.sameIngress,
      hwaiting.congr hindex.sameIngress fun k => ?_⟩ rfl
    rw [hremoved]

lemma IngressOk.openSucceeds (h : IngressOk r) (now : ℚ) (task : OpenTask α)
    (hfresh : task.key ∉ r.sessions) : IngressOk (r.openSucceeds now task) := by
  let added := (Router.emit (.opened r.nextUpstream task.key)
    { r with nextUpstream := r.nextUpstream + 1 }).addSession task.key
      (Router.newSession now r.nextUpstream task)
  have hemitted : Switched (r.emit (.opened r.nextUpstream task.key)) := h.switched.emit rfl
  have hswitched : Switched added := hemitted.congr rfl rfl rfl
  have hkey : (added.sessions.get? task.key).map Session.upstreamDatagramsReceived = some 0 := by
    show ((r.sessions.set task.key _).get? task.key).map Session.upstreamDatagramsReceived = some 0
    rw [Dict.get?_set_self]
    rfl
  have hwaiting : Waiting added := by
    refine ⟨h.waiting.timers, fun k hk => ?_⟩
    show ((r.sessions.set task.key _).get? k).map Session.upstreamDatagramsReceived = some 0
    have hlive := h.waiting.silent k hk
    rw [Dict.get?_set, if_neg]
    · exact hlive
    · rintro rfl
      rw [Dict.get?_eq_none_iff.mpr hfresh] at hlive
      exact absurd hlive (by simp)
  let forgotten : Router α := { added with
    pendingCrypto := added.pendingCrypto.pop task.key
    pendingSeen := added.pendingSeen.pop task.key
    pendingStarted := added.pendingStarted.pop task.key }
  have hforgotten : IngressOk forgotten := by
    have hadded : IngressOk added := ⟨hswitched, hwaiting⟩
    exact hadded.congr ⟨rfl, rfl, rfl, rfl, rfl⟩ fun _ => rfl
  have hbefore : IngressOk (r.beforeFlush now task) :=
    ⟨hforgotten.switched.pauseIngress now, hforgotten.waiting.pauseIngress now hkey⟩
  rw [openSucceeds_eq]
  refine IngressOk.congr_handshakes ?_ (onlyHandshakes_finishOpen task)
  refine ⟨hbefore.switched.congr rfl ?_ rfl, hbefore.waiting.timers, hbefore.waiting.silent⟩
  have hqueue : ∀ queue : List (Datagram α),
      (readings (queue.map (Traffic.toUpstream r.nextUpstream))).tail = [] := by
    intro queue
    induction queue with
    | nil => rfl
    | cons datagram queue ih => exact ih
  rw [readings_append, hqueue, List.append_nil]

lemma IngressOk.openFails (h : IngressOk r) (task : OpenTask α) : IngressOk (r.openFails task) := by
  have hdropped : IngressOk (r.dropPending task.key) := h.congr_handshakes onlyHandshakes_dropPending
  exact hdropped.releaseIngressPause.congr_handshakes (onlyHandshakes_finishOpen task)

/-! ## Runs -/

lemma IngressOk.foldl {β : Type} {f : Router α → β → Router α}
    (hf : ∀ r b, IngressOk r ∧ SessionsOk r → IngressOk (f r b) ∧ SessionsOk (f r b)) (l : List β)
    (h : IngressOk r ∧ SessionsOk r) : IngressOk (l.foldl f r) ∧ SessionsOk (l.foldl f r) := by
  induction l generalizing r with
  | nil => exact h
  | cons b l ih => exact ih (hf r b h)

lemma IngressOk.reap (h : IngressOk r) (hok : SessionsOk r) (now : ℚ) : IngressOk (r.reap now) := by
  unfold Router.reap
  refine (IngressOk.foldl (fun r e h => ?_) _ (IngressOk.foldl (fun r e h => ?_) _ ⟨h, hok⟩)).1
  · split
    · exact ⟨h.1.removeSession h.2.indexed, h.2.removeSession⟩
    · exact h
  · split
    · exact ⟨h.1.congr_handshakes onlyHandshakes_dropPending, h.2.dropPending⟩
    · exact h

/-- What one event preserves, as long as the public transport is not lost. -/
lemma IngressOk.step (h : r.lost = false → IngressOk r) (hok : SessionsOk r) (C : Cryptography)
    (e : Event α) (he : e.Enabled r) (hlost : (e.apply C r).lost = false) :
    IngressOk (e.apply C r) := by
  cases e with
  | clientDatagram now data addr => exact (h he).datagramReceived C now data addr
  | upstreamDatagram now key data => exact (h he).upstreamReceived now data
  | openStart task => exact (h he.1).congr_handshakes (onlyHandshakes_openStart task)
  | openSucceeds now task =>
    exact (h he.1).openSucceeds now task (hok.opens.fresh _ (hok.opens.opening task he.2.1))
  | openFails task => exact (h he.1).openFails task
  | openCancelled task =>
    have hsame : (r.openCancelled task).lost = r.lost :=
      (onlyHandshakes_openCancelled task).sameIngress.lost
    have hlost : (r.openCancelled task).lost = false := hlost
    rw [hsame, he.1] at hlost
    exact absurd hlost (by simp)
  | reap now => exact (h he).reap hok now
  | timerExpired key => exact (h he.1).releaseIngressPause
  | reload file =>
    obtain ⟨routes, mtime, heq⟩ := reload_eq (r := r) file
    rw [Event.apply, heq]
    exact (h he).congr ⟨rfl, rfl, rfl, rfl, rfl⟩ fun _ => rfl
  | connectionLost => exact absurd hlost (by simp [Event.apply, Router.connectionLost])

lemma ingressOk_made (file : Option ConfigFile) :
    IngressOk ((Router.init : Router α).connectionMade file) := by
  obtain ⟨routes, mtime, heq⟩ :=
    reload_eq (r := { (Router.init : Router α) with transport := true }) file
  rw [Router.connectionMade, heq]
  refine ⟨⟨rfl, List.isChain_singleton false, rfl⟩, fun k => ?_, fun k hk => ?_⟩
  · simp [Router.init]
  · exact absurd hk (Dict.not_mem_empty k)

lemma reachable_ingressOk {C : Cryptography} (h : Reachable C r) :
    r.lost = false → IngressOk r := by
  induction h with
  | made file => exact fun _ => ingressOk_made file
  | step h e he ih => exact IngressOk.step ih (reachable_sessionsOk h) C e he

/-- The pause of the public socket, in every reachable state before the socket is lost: reading
is paused exactly while a session waits for its upstream, each wait has a timer and belongs to a
live session that its upstream has not answered, and pauses and resumptions alternate. -/
theorem ingressPause {C : Cryptography} (h : Reachable C r) (hlost : r.lost = false) :
    ((readings r.traffic).getLast? = some true ↔ ∃ k, k ∈ r.awaitingFirstUpstream) ∧
    (∀ k, k ∈ r.ingressPauseTimers ↔ k ∈ r.awaitingFirstUpstream) ∧
    (∀ k ∈ r.awaitingFirstUpstream, ∃ s, r.sessions.get? k = some s ∧
      s.upstreamDatagramsReceived = 0) ∧
    (readings r.traffic).IsChain (· ≠ ·) := by
  have hok := reachable_ingressOk h hlost
  refine ⟨?_, hok.waiting.timers, fun k hk => Option.map_eq_some_iff.mp (hok.waiting.silent k hk),
    hok.switched.alternate⟩
  rw [hok.switched.last, Option.some.injEq, decide_eq_true_eq]
  exact size_pos_iff

/-- A session that has just been opened waits. -/
theorem ingressPause_opened : ∃ r, sampleRun (openEvents 5 7) = some r ∧
    (5, [7]) ∈ r.awaitingFirstUpstream ∧ (readings r.traffic).getLast? = some true := by
  have hrun : (sampleRun (openEvents 5 7)).any fun r =>
      r.lost = false ∧ (5, [7]) ∈ r.awaitingFirstUpstream := by decide +kernel
  obtain ⟨r, hr, hstate⟩ := (Option.any_eq_true _ _).mp hrun
  obtain ⟨hlost, hawaiting⟩ := of_decide_eq_true hstate
  exact ⟨r, hr, hawaiting, (ingressPause (reachable_sampleRun hr) hlost).1.mpr ⟨_, hawaiting⟩⟩

end Portwyrm.Quic

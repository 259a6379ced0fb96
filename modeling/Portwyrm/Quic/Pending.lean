import Portwyrm.Quic.Index

/-!
# Connections that are not open yet

Four tables and a set describe the connections for which no session exists yet.  They are edited
on every path from the first Initial packet of a client to the session, or to the moment where
the router gives up; this file shows that the paths leave them in agreement.
-/

namespace Portwyrm.Quic

open Base

variable {α : Type} [DecidableEq α]

/-- The tables of the connections that are not open yet agree. -/
structure PendingOk (r : Router α) : Prop where
  started : ∀ k, k ∈ r.pendingStarted ↔ k ∈ r.pending
  opening : ∀ k ∈ r.opening, k ∈ r.pending
  /-- The reaper sees a connection until `_open` takes it over. -/
  seen : ∀ k, k ∈ r.pendingSeen ↔ k ∈ r.pending ∧ k ∉ r.opening
  crypto : ∀ k ∈ r.pendingCrypto, k ∈ r.pendingSeen
  queues : ∀ k queue, r.pending.get? k = some queue → 1 ≤ queue.length ∧ queue.length ≤ 8
  size : r.pending.size ≤ 2048

variable {r r' : Router α} {key : Key α}

lemma PendingOk.congr (h : PendingOk r) (heq : SameHandshakes r r') : PendingOk r' where
  started := by rw [heq.pendingStarted, heq.pending]; exact h.started
  opening := by rw [heq.opening, heq.pending]; exact h.opening
  seen := by rw [heq.pendingSeen, heq.pending, heq.opening]; exact h.seen
  crypto := by rw [heq.pendingCrypto, heq.pendingSeen]; exact h.crypto
  queues := by rw [heq.pending]; exact h.queues
  size := by rw [heq.pending]; exact h.size

/-- A connection is forgotten in all the tables. -/
lemma PendingOk.forget (h : PendingOk r) (key : Key α)
    (hpending : r'.pending = r.pending.pop key)
    (hcrypto : ∀ k ∈ r'.pendingCrypto, k ≠ key ∧ k ∈ r.pendingCrypto)
    (hseen : ∀ k, k ∈ r'.pendingSeen ↔ k ≠ key ∧ k ∈ r.pendingSeen)
    (hstarted : ∀ k, k ∈ r'.pendingStarted ↔ k ≠ key ∧ k ∈ r.pendingStarted)
    (hopening : ∀ k, k ∈ r'.opening ↔ k ≠ key ∧ k ∈ r.opening) : PendingOk r' where
  started k := by rw [hstarted, hpending, Dict.mem_pop, h.started]
  opening k hk := by
    obtain ⟨hne, hk⟩ := (hopening k).mp hk
    rw [hpending]
    exact Dict.mem_pop.mpr ⟨hne, h.opening k hk⟩
  seen k := by
    rw [hseen, hpending, Dict.mem_pop, hopening, h.seen]
    tauto
  crypto k hk := by
    obtain ⟨hne, hk⟩ := hcrypto k hk
    exact (hseen k).mpr ⟨hne, h.crypto k hk⟩
  queues k queue hget := by
    rw [hpending, Dict.get?_pop] at hget
    split at hget
    · exact absurd hget (by simp)
    · exact h.queues k queue hget
  size := by
    rw [hpending]
    exact (Dict.size_pop_le _ _).trans h.size

omit [DecidableEq α] in
lemma ne_and_mem_iff_of_not_mem {s : Dict.KeySet (Key α)} (h : key ∉ s) (k : Key α) :
    k ∈ s ↔ k ≠ key ∧ k ∈ s := by
  constructor
  · intro hk
    refine ⟨?_, hk⟩
    rintro rfl
    exact h hk
  · exact And.right

/-- The router gives up on a connection that `_open` has not taken over. -/
lemma PendingOk.dropPending (h : PendingOk r) (hopening : key ∉ r.opening) :
    PendingOk (r.dropPending key) :=
  h.forget key rfl (fun _ => Dict.mem_pop.mp) (fun _ => Dict.mem_pop) (fun _ => Dict.mem_pop)
    (ne_and_mem_iff_of_not_mem hopening)

/-! ## Client datagrams -/

/-- A datagram of a connection that is being opened: a full queue stays as it is. -/
lemma PendingOk.queueOpening (h : PendingOk r) (hkey : key ∈ r.opening) (datagram : Datagram α) :
    PendingOk { r with
      pending := r.pending.set key
        (if ((r.pending.get? key).getD []).length < 8 then (r.pending.get? key).getD [] ++ [datagram]
          else (r.pending.get? key).getD []) } := by
  have hmem : key ∈ r.pending := h.opening key hkey
  obtain ⟨queue, hqueue⟩ := Dict.mem_iff.mp hmem
  have hlength := h.queues key queue hqueue
  rw [hqueue, Option.getD_some]
  have hiff : ∀ q k, k ∈ r.pending.set key q ↔ k ∈ r.pending := by
    intro q k
    rw [Dict.mem_set]
    constructor
    · rintro (rfl | hk)
      · exact hmem
      · exact hk
    · exact .inr
  refine ⟨fun k => ?_, fun k hk => ?_, fun k => ?_, h.crypto, fun k q hget => ?_, ?_⟩
  · rw [hiff]
    exact h.started k
  · rw [hiff]
    exact h.opening k hk
  · rw [hiff]
    exact h.seen k
  · dsimp only at hget
    rw [Dict.get?_set] at hget
    split at hget
    · rw [← Option.some.inj hget]
      split
      · rw [List.length_append, List.length_singleton]
        omega
      · exact hlength
    · exact h.queues k q hget
  · rw [Dict.size_set_of_mem _ hmem]
    exact h.size

/-- A datagram of a connection that is not being opened joins its queue. -/
lemma PendingOk.enqueue (h : PendingOk r) (hkey : key ∉ r.opening)
    (hroom : key ∈ r.pending ∨ r.pending.size < 2048) {queue : List (Datagram α)}
    (hqueue : queue.length < 8) (datagram : Datagram α) (started seen : ℚ) :
    PendingOk { r with
      pendingStarted := r.pendingStarted.set key started
      pendingSeen := r.pendingSeen.set key seen
      pending := r.pending.set key (queue ++ [datagram]) } where
  started k := by rw [Dict.mem_set, Dict.mem_set, h.started]
  opening k hk := Dict.mem_set.mpr (.inr (h.opening k hk))
  seen k := by
    rw [Dict.mem_set, Dict.mem_set, h.seen]
    constructor
    · rintro (rfl | hk)
      · exact ⟨.inl rfl, hkey⟩
      · exact ⟨.inr hk.1, hk.2⟩
    · rintro ⟨rfl | hk, hopening⟩
      · exact .inl rfl
      · exact .inr ⟨hk, hopening⟩
  crypto k hk := Dict.mem_set.mpr (.inr (h.crypto k hk))
  queues k q hget := by
    dsimp only at hget
    rw [Dict.get?_set] at hget
    split at hget
    · rw [← Option.some.inj hget, List.length_append, List.length_singleton]
      omega
    · exact h.queues k q hget
  size := by
    show (r.pending.set key (queue ++ [datagram])).size ≤ 2048
    by_cases hmem : key ∈ r.pending
    · rw [Dict.size_set_of_mem _ hmem]
      exact h.size
    · have hsize : r.pending.size < 2048 := hroom.resolve_left hmem
      rw [Dict.size_set_of_not_mem _ hmem]
      omega

/-- Behind a complete ClientHello a connection is given up, or `_open` takes it over. -/
lemma PendingOk.route (h : PendingOk r) (hkey : key ∉ r.opening) (hpending : key ∈ r.pending)
    (clientScid : Bytes) (serverName : String) (alpns : List String) :
    PendingOk (r.route key clientScid serverName alpns) := by
  unfold Router.route
  dsimp only
  split
  · exact h.dropPending hkey
  · refine ⟨h.started, fun k hk => ?_, fun k => ?_, fun k hk => ?_, h.queues, h.size⟩
    · rcases Dict.mem_add.mp hk with rfl | hk
      · exact hpending
      · exact h.opening k hk
    · rw [Dict.mem_pop, h.seen, Dict.mem_add]
      tauto
    · obtain ⟨hne, hk⟩ := Dict.mem_pop.mp hk
      exact Dict.mem_pop.mpr ⟨hne, h.crypto k hk⟩

lemma PendingOk.inspect (h : PendingOk r) (C : Cryptography) (hkey : key ∉ r.opening)
    (hpending : key ∈ r.pending) (clientScid data : Bytes) :
    PendingOk (r.inspect C key clientScid data) := by
  unfold Router.inspect
  dsimp only
  split
  · exact h
  · rename_i crypto hcrypto
    have hfolded : PendingOk { r with pendingCrypto := r.pendingCrypto.set key crypto } := by
      refine ⟨h.started, h.opening, h.seen, fun k hk => ?_, h.queues, h.size⟩
      rcases Dict.mem_set.mp hk with rfl | hk
      · exact (h.seen k).mpr ⟨hpending, hkey⟩
      · exact h.crypto k hk
    split
    · exact hfolded
    · exact hfolded.route hkey hpending _ _ _

lemma PendingOk.receiveInitial (h : PendingOk r) (C : Cryptography) (now : ℚ) (clientScid : Bytes)
    (datagram : Datagram α) : PendingOk (r.receiveInitial C now key clientScid datagram) := by
  unfold Router.receiveInitial
  dsimp only
  split
  · rename_i hkey
    exact h.queueOpening hkey datagram
  · rename_i hkey
    split
    · exact h
    · rename_i hroom
      split
      · -- the queue is full: the reaper must not find what the datagram has just refreshed
        refine h.forget key rfl (fun _ => Dict.mem_pop.mp) (fun k => ?_) (fun k => ?_)
          (ne_and_mem_iff_of_not_mem hkey)
        · show k ∈ (r.pendingSeen.set key now).pop key ↔ _
          rw [Dict.mem_pop, Dict.mem_set]
          tauto
        · show k ∈ (r.pendingStarted.set key _).pop key ↔ _
          rw [Dict.mem_pop, Dict.mem_set]
          tauto
      · rename_i hfull
        have hspace : key ∈ r.pending ∨ r.pending.size < 2048 := by
          by_cases hmem : key ∈ r.pending
          · exact .inl hmem
          · exact .inr (not_le.mp fun hle => hroom ⟨hmem, hle⟩)
        have hqueued := h.enqueue hkey hspace (not_le.mp hfull) datagram
          ((r.pendingStarted.get? key).getD now) now
        exact hqueued.inspect C hkey (Dict.mem_set.mpr (.inl rfl)) clientScid datagram.data

lemma sameHandshakes_forward (now : ℚ) (datagram : Datagram α) :
    SameHandshakes r (r.forward now key datagram) := by
  unfold Router.forward
  split
  · exact (OnlyIndex.refl r).sameHandshakes
  · exact (onlyIndex_updateSession _).sameHandshakes.trans (onlyIngress_emit _).sameHandshakes

lemma PendingOk.datagramReceived (h : PendingOk r) (C : Cryptography) (now : ℚ) (data : Bytes)
    (addr : α) : PendingOk (r.datagramReceived C now data addr) := by
  have harrived : PendingOk { r with arrivals := r.arrivals + 1 } :=
    h.congr ⟨rfl, rfl, rfl, rfl, rfl, rfl⟩
  unfold Router.datagramReceived
  dsimp only
  split
  · exact harrived.congr (sameHandshakes_forward now _)
  · split
    · exact harrived
    · split
      · exact harrived
      · exact harrived.receiveInitial C now _ _

/-! ## The calls of `_open` -/

lemma PendingOk.openStart (h : PendingOk r) (hopens : Opens r) {task : OpenTask α}
    (htask : task ∈ r.tasks) : PendingOk (r.openStart task) := by
  have hfresh : task.key ∉ r.sessions := hopens.fresh _ (hopens.opening task htask)
  rw [Router.openStart, if_neg hfresh]
  exact ⟨h.started, h.opening, h.seen, h.crypto, h.queues, h.size⟩

/-- A session takes the place of the connection. -/
lemma PendingOk.openSucceeds (h : PendingOk r) (now : ℚ) (task : OpenTask α) :
    PendingOk (r.openSucceeds now task) := by
  let opened := Router.emit (.opened r.nextUpstream task.key)
    { r with nextUpstream := r.nextUpstream + 1 }
  let added := opened.addSession task.key (Router.newSession now r.nextUpstream task)
  let forgotten : Router α := { added with
    pendingCrypto := added.pendingCrypto.pop task.key
    pendingSeen := added.pendingSeen.pop task.key
    pendingStarted := added.pendingStarted.pop task.key }
  have hadded : SameHandshakes opened added := (onlyIndex_addSession _).sameHandshakes
  have hpaused : SameHandshakes forgotten (forgotten.pauseIngress now task.key) :=
    (onlyIngress_pauseIngress now).sameHandshakes
  have hpending : (r.openSucceeds now task).pending = r.pending.pop task.key :=
    congrArg (Dict.pop · task.key) (hpaused.pending.trans hadded.pending)
  have hcrypto : (r.openSucceeds now task).pendingCrypto = r.pendingCrypto.pop task.key :=
    hpaused.pendingCrypto.trans (congrArg (Dict.pop · task.key) hadded.pendingCrypto)
  have hseen : (r.openSucceeds now task).pendingSeen = r.pendingSeen.pop task.key :=
    hpaused.pendingSeen.trans (congrArg (Dict.pop · task.key) hadded.pendingSeen)
  have hstarted : (r.openSucceeds now task).pendingStarted = r.pendingStarted.pop task.key :=
    hpaused.pendingStarted.trans (congrArg (Dict.pop · task.key) hadded.pendingStarted)
  refine h.forget task.key hpending (fun k hk => ?_) (fun k => ?_) (fun k => ?_) (fun k => ?_)
  · rw [hcrypto] at hk
    exact Dict.mem_pop.mp hk
  · rw [hseen]
    exact Dict.mem_pop
  · rw [hstarted]
    exact Dict.mem_pop
  · rw [(handshakes_openSucceeds now task).2]
    exact Dict.mem_pop

lemma PendingOk.openFails (h : PendingOk r) (task : OpenTask α) :
    PendingOk (r.openFails task) := by
  have hreleased : SameHandshakes (r.dropPending task.key)
      ((r.dropPending task.key).releaseIngressPause task.key) :=
    onlyIngress_releaseIngressPause.sameHandshakes
  refine h.forget task.key hreleased.pending (fun k hk => ?_) (fun k => ?_) (fun k => ?_)
    (fun k => ?_)
  · have hk : k ∈ ((r.dropPending task.key).releaseIngressPause task.key).pendingCrypto := hk
    rw [hreleased.pendingCrypto] at hk
    exact Dict.mem_pop.mp hk
  · show k ∈ ((r.dropPending task.key).releaseIngressPause task.key).pendingSeen ↔ _
    rw [hreleased.pendingSeen]
    exact Dict.mem_pop
  · show k ∈ ((r.dropPending task.key).releaseIngressPause task.key).pendingStarted ↔ _
    rw [hreleased.pendingStarted]
    exact Dict.mem_pop
  · show k ∈ ((r.dropPending task.key).releaseIngressPause task.key).opening.pop task.key ↔ _
    rw [hreleased.opening]
    exact Dict.mem_pop

/-! ## The reaper -/

/-- The reaper drops connections that `_open` has not taken over. -/
lemma PendingOk.dropStale (now : ℚ) (entries : List (Key α × ℚ)) (h : PendingOk r)
    (hentries : ∀ e ∈ entries, e.1 ∉ r.opening) :
    PendingOk (entries.foldl
      (fun r e => if 10 < now - e.2 then r.dropPending e.1 else r) r) := by
  induction entries generalizing r with
  | nil => exact h
  | cons e entries ih =>
    have hrest : ∀ e' ∈ entries, e'.1 ∉ r.opening := fun e' he' =>
      hentries e' (List.mem_cons_of_mem _ he')
    rw [List.foldl_cons]
    split
    · exact ih (h.dropPending (hentries e List.mem_cons_self)) hrest
    · exact ih h hrest

lemma sameHandshakes_removeStale (now : ℚ) (entries : List (Key α × Session α)) (r : Router α) :
    SameHandshakes r (entries.foldl
      (fun r e => if (e.2.timeout : ℚ) < now - e.2.lastSeen then r.removeSession e.1 else r) r) := by
  induction entries generalizing r with
  | nil => exact (OnlyIndex.refl r).sameHandshakes
  | cons e entries ih =>
    rw [List.foldl_cons]
    split
    · exact sameHandshakes_removeSession.trans (ih _)
    · exact ih r

lemma PendingOk.reap (h : PendingOk r) (now : ℚ) : PendingOk (r.reap now) := by
  have hentries : ∀ e ∈ r.pendingSeen.entries, e.1 ∉ r.opening := by
    intro e he
    have hseen : e.1 ∈ r.pendingSeen := List.mem_map.mpr ⟨e, he, rfl⟩
    exact ((h.seen e.1).mp hseen).2
  exact (h.dropStale now _ hentries).congr (sameHandshakes_removeStale now _ _)

/-! ## Runs -/

lemma sameHandshakes_upstreamReceived (now : ℚ) (data : Bytes) :
    SameHandshakes r (r.upstreamReceived now key data) := by
  unfold Router.upstreamReceived
  split
  · exact (OnlyIndex.refl r).sameHandshakes
  · rename_i session hget
    have hregistered : SameHandshakes r (((r.updateSession key fun s =>
        { s with upstreamDatagramsReceived := session.upstreamDatagramsReceived + 1 }).emit
        (.fromUpstream session.upstream data)).registerServerConnectionId key data) :=
      ((onlyIndex_updateSession _).sameHandshakes.trans (onlyIngress_emit _).sameHandshakes).trans
        (onlyIndex_registerServerConnectionId key data).sameHandshakes
    have hsent := hregistered.trans
      (onlyIngress_emit (.toClient session.client data)).sameHandshakes
    refine SameHandshakes.trans ?_ (onlyIndex_updateSession _).sameHandshakes
    split
    · refine SameHandshakes.trans ?_ onlyIngress_releaseIngressPause.sameHandshakes
      split
      · exact hsent
      · exact hregistered
    · split
      · exact hsent
      · exact hregistered

/-- What one event preserves, as long as the public transport is not lost. -/
lemma PendingOk.step (h : r.lost = false → PendingOk r) (hok : SessionsOk r) (C : Cryptography)
    (e : Event α) (he : e.Enabled r) (hlost : (e.apply C r).lost = false) :
    PendingOk (e.apply C r) := by
  cases e with
  | clientDatagram now data addr => exact (h he).datagramReceived C now data addr
  | upstreamDatagram now key data => exact (h he).congr (sameHandshakes_upstreamReceived now data)
  | openStart task => exact (h he.1).openStart hok.opens he.2.1
  | openSucceeds now task => exact (h he.1).openSucceeds now task
  | openFails task => exact (h he.1).openFails task
  | openCancelled task =>
    have hsame : (r.openCancelled task).lost = r.lost :=
      (onlyHandshakes_openCancelled task).sameIngress.lost
    have hlost : (r.openCancelled task).lost = false := hlost
    rw [hsame, he.1] at hlost
    exact absurd hlost (by simp)
  | reap now => exact (h he).reap now
  | timerExpired key => exact (h he.1).congr onlyIngress_releaseIngressPause.sameHandshakes
  | reload file =>
    obtain ⟨routes, mtime, heq⟩ := reload_eq (r := r) file
    rw [Event.apply, heq]
    exact (h he).congr ⟨rfl, rfl, rfl, rfl, rfl, rfl⟩
  | connectionLost => exact absurd hlost (by simp [Event.apply, Router.connectionLost])

lemma pendingOk_made (file : Option ConfigFile) :
    PendingOk ((Router.init : Router α).connectionMade file) := by
  obtain ⟨routes, mtime, heq⟩ :=
    reload_eq (r := { (Router.init : Router α) with transport := true }) file
  rw [Router.connectionMade, heq]
  refine ⟨fun k => ?_, fun k hk => ?_, fun k => ?_, fun k hk => ?_, fun k queue hget => ?_, ?_⟩
  · simp [Router.init]
  · exact absurd hk (Dict.not_mem_empty k)
  · simp [Router.init]
  · exact absurd hk (Dict.not_mem_empty k)
  · exact absurd hget (by simp [Router.init])
  · exact Nat.zero_le _

lemma reachable_pendingOk {C : Cryptography} (h : Reachable C r) :
    r.lost = false → PendingOk r := by
  induction h with
  | made file => exact fun _ => pendingOk_made file
  | step h e he ih => exact PendingOk.step ih (reachable_sessionsOk h) C e he

/-- The connections that are not open yet, in every reachable state before the public transport
is lost: each has a time at which it started and a queue of one to eight datagrams, `_open`
works on some of them, and the reaper sees the others. -/
theorem pendingBookkeeping {C : Cryptography} (h : Reachable C r) (hlost : r.lost = false) :
    (∀ k, k ∈ r.pendingStarted ↔ k ∈ r.pending) ∧
    (∀ k ∈ r.opening, k ∈ r.pending ∧ k ∉ r.sessions) ∧
    (∀ k, k ∈ r.pendingSeen ↔ k ∈ r.pending ∧ k ∉ r.opening) ∧
    (∀ k ∈ r.pendingCrypto, k ∈ r.pendingSeen) ∧
    (∀ k queue, r.pending.get? k = some queue → 1 ≤ queue.length ∧ queue.length ≤ 8) ∧
    r.pending.size ≤ 2048 := by
  have hok := reachable_pendingOk h hlost
  have hfresh := (reachable_sessionsOk h).opens.fresh
  exact ⟨hok.started, fun k hk => ⟨hok.opening k hk, hfresh k hk⟩, hok.seen, hok.crypto,
    hok.queues, hok.size⟩

/-- A connection that `_open` works on is out of sight of the reaper. -/
theorem pendingBookkeeping_opening : ∃ r, sampleRun [.clientDatagram 0 (initialPacket 7) 5] = some r ∧
    (5, [7]) ∈ r.opening ∧ (5, [7]) ∈ r.pending ∧ (5, [7]) ∉ r.pendingSeen := by
  have hrun : (sampleRun [.clientDatagram 0 (initialPacket 7) 5]).any fun r =>
      r.lost = false ∧ (5, [7]) ∈ r.opening := by decide +kernel
  obtain ⟨r, hr, hstate⟩ := (Option.any_eq_true _ _).mp hrun
  obtain ⟨hlost, hopening⟩ := of_decide_eq_true hstate
  obtain ⟨-, hpending, hseen, -⟩ := pendingBookkeeping (reachable_sampleRun hr) hlost
  refine ⟨r, hr, hopening, (hpending _ hopening).1, ?_⟩
  rw [hseen]
  exact fun h => h.2 hopening

end Portwyrm.Quic

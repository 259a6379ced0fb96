import Portwyrm.Quic.Pending

/-!
# Forwarding

Where the datagrams of the clients go.  A datagram that belongs to a session is forwarded at
once; the first ones of a connection wait in a queue, and go to the upstream when it is there.
Arrival numbers tell the datagrams apart, and give them their order.
-/

namespace Portwyrm.Quic

open Base

variable {α : Type}

/-- The datagrams that go to upstreams, in order. -/
def sent (traffic : List (Traffic α)) : List (ℕ × Datagram α) :=
  traffic.filterMap fun
    | .toUpstream upstream datagram => some (upstream, datagram)
    | _ => none

/-- The datagrams that go to one upstream, in order. -/
def sentTo (upstream : ℕ) (traffic : List (Traffic α)) : List (Datagram α) :=
  ((sent traffic).filter fun e => e.1 = upstream).map Prod.snd

/-- The sockets towards upstreams, each with the key of its session. -/
def opened (traffic : List (Traffic α)) : List (ℕ × Key α) :=
  traffic.filterMap fun
    | .opened upstream key => some (upstream, key)
    | _ => none

lemma sent_append (t t' : List (Traffic α)) : sent (t ++ t') = sent t ++ sent t' :=
  List.filterMap_append

lemma opened_append (t t' : List (Traffic α)) : opened (t ++ t') = opened t ++ opened t' :=
  List.filterMap_append

lemma sent_queue (upstream : ℕ) (queue : List (Datagram α)) :
    sent (queue.map (Traffic.toUpstream upstream)) = queue.map (Prod.mk upstream) := by
  induction queue with
  | nil => rfl
  | cons datagram queue ih =>
    rw [List.map_cons, List.map_cons, ← ih]
    rfl

lemma opened_queue (upstream : ℕ) (queue : List (Datagram α)) :
    opened (queue.map (Traffic.toUpstream upstream)) = [] := by
  induction queue with
  | nil => rfl
  | cons datagram queue ih =>
    rw [List.map_cons, ← ih]
    rfl

/-! ## Forwarding in a state -/

variable [DecidableEq α]

/-- What has been forwarded, and what waits. -/
structure Forwarding (r : Router α) : Prop where
  /-- A number is used for one socket. -/
  sockets : ((opened r.traffic).map Prod.fst).Nodup
  fresh : ∀ u k, (u, k) ∈ opened r.traffic → u < r.nextUpstream
  session : ∀ k u, (r.sessions.get? k).map Session.upstream = some u → (u, k) ∈ opened r.traffic
  /-- A datagram goes to a session of the address that it comes from. -/
  source : ∀ u d, (u, d) ∈ sent r.traffic → ∃ k, (u, k) ∈ opened r.traffic ∧ k.1 = d.source
  arrived : ∀ u d, (u, d) ∈ sent r.traffic → d.arrival < r.arrivals
  once : ((sent r.traffic).map fun e => e.2.arrival).Nodup
  ordered : ∀ u, (sentTo u r.traffic).Pairwise fun d d' => d.arrival < d'.arrival
  queueOrdered : ∀ k queue, r.pending.get? k = some queue →
    queue.Pairwise fun d d' => d.arrival < d'.arrival
  /-- A datagram that waits has not been sent. -/
  queued : ∀ k queue, r.pending.get? k = some queue → ∀ d ∈ queue, d.source = k.1 ∧
    d.arrival < r.arrivals ∧ ∀ e ∈ sent r.traffic, e.2.arrival ≠ d.arrival
  /-- A datagram waits in one queue. -/
  queuedOnce : ∀ k k' queue queue', r.pending.get? k = some queue → r.pending.get? k' = some queue' →
    ∀ d ∈ queue, ∀ d' ∈ queue', d.arrival = d'.arrival → k = k'

variable {r r' r'' : Router α} {key : Key α}

variable {β : Type} {g : Session α → β}

/-- Nothing is forwarded; sessions and connections may leave, and a part `g` of the sessions
that stay is the same. -/
structure Quiet (g : Session α → β) (r r' : Router α) : Prop where
  sent : sent r'.traffic = sent r.traffic
  opened : opened r'.traffic = opened r.traffic
  arrivals : r'.arrivals = r.arrivals
  nextUpstream : r'.nextUpstream = r.nextUpstream
  pending : ∀ k queue, r'.pending.get? k = some queue → r.pending.get? k = some queue
  sessions : ∀ k b, (r'.sessions.get? k).map g = some b → (r.sessions.get? k).map g = some b
  traffic : r.traffic <+: r'.traffic

lemma Quiet.refl (r : Router α) : Quiet g r r :=
  ⟨rfl, rfl, rfl, rfl, fun _ _ => id, fun _ _ => id, List.prefix_refl _⟩

lemma Quiet.trans (h : Quiet g r r') (h' : Quiet g r' r'') : Quiet g r r'' where
  sent := h'.sent.trans h.sent
  opened := h'.opened.trans h.opened
  arrivals := h'.arrivals.trans h.arrivals
  nextUpstream := h'.nextUpstream.trans h.nextUpstream
  pending k queue hget := h.pending k queue (h'.pending k queue hget)
  sessions k u hget := h.sessions k u (h'.sessions k u hget)
  traffic := h.traffic.trans h'.traffic

lemma Forwarding.congr (h : Forwarding r) (heq : Quiet Session.upstream r r') : Forwarding r' where
  sockets := by rw [heq.opened]; exact h.sockets
  fresh := by rw [heq.opened, heq.nextUpstream]; exact h.fresh
  session k u hget := by
    rw [heq.opened]
    exact h.session k u (heq.sessions k u hget)
  source := by rw [heq.sent, heq.opened]; exact h.source
  arrived := by rw [heq.sent, heq.arrivals]; exact h.arrived
  once := by rw [heq.sent]; exact h.once
  ordered := by
    unfold sentTo
    rw [heq.sent]
    exact h.ordered
  queueOrdered k queue hget := h.queueOrdered k queue (heq.pending k queue hget)
  queued k queue hget := by
    rw [heq.arrivals, heq.sent]
    exact h.queued k queue (heq.pending k queue hget)
  queuedOnce k k' queue queue' hget hget' :=
    h.queuedOnce k k' queue queue' (heq.pending k queue hget) (heq.pending k' queue' hget')

/-! ## Operations that forward nothing -/

lemma quiet_of_onlyIndex (h : OnlyIndex r r') (hsessions : ∀ k b,
    (r'.sessions.get? k).map g = some b → (r.sessions.get? k).map g = some b) : Quiet g r r' where
  sent := by rw [h.sameIngress.traffic]
  opened := by rw [h.sameIngress.traffic]
  arrivals := by rw [h]
  nextUpstream := by rw [h]
  pending k queue hget := by rwa [h.sameHandshakes.pending] at hget
  sessions := hsessions
  traffic := by simp only [h.sameIngress.traffic, List.prefix_refl]

lemma quiet_of_onlyHandshakes (h : OnlyHandshakes r r')
    (hpending : ∀ k queue, r'.pending.get? k = some queue → r.pending.get? k = some queue) :
    Quiet g r r' where
  sent := by rw [h.sameIngress.traffic]
  opened := by rw [h.sameIngress.traffic]
  arrivals := by rw [h]
  nextUpstream := by rw [h]
  pending := hpending
  sessions k u hget := by rwa [h.sameIndex.sessions] at hget
  traffic := by simp only [h.sameIngress.traffic, List.prefix_refl]

lemma quiet_of_onlyIngress (h : OnlyIngress r r') (hsent : sent r'.traffic = sent r.traffic)
    (hopened : opened r'.traffic = opened r.traffic) (htraffic : r.traffic <+: r'.traffic) :
    Quiet g r r' where
  sent := hsent
  opened := hopened
  arrivals := by rw [h]
  nextUpstream := by rw [h]
  pending k queue hget := by rwa [h.sameHandshakes.pending] at hget
  sessions k u hget := by rwa [h.sameIndex.sessions] at hget
  traffic := htraffic

/-- A change of a session that keeps a part of it. -/
lemma map_sessions_updateSession (g : Session α → β) (f : Session α → Session α)
    (hg : ∀ s, g (f s) = g s) (k : Key α) :
    ((r.updateSession key f).sessions.get? k).map g = (r.sessions.get? k).map g := by
  rw [sessions_updateSession]
  split
  · rename_i hk
    rw [hk, Option.map_map]
    congr 1
    funext s
    exact hg s
  · rfl

/-- Connection ids are a part of their own. -/
lemma map_sessions_registerServerConnectionId (g : Session α → β)
    (hg : ∀ s cids, g { s with serverCids := cids } = g s) (data : Bytes) (k : Key α) :
    ((r.registerServerConnectionId key data).sessions.get? k).map g =
      (r.sessions.get? k).map g := by
  unfold Router.registerServerConnectionId
  split
  · rfl
  · split
    · rfl
    · split
      · rfl
      · unfold Router.indexServerConnectionId
        split
        · rfl
        · split
          · rfl
          · exact map_sessions_updateSession g _ (fun s => hg s _) k

lemma quiet_updateSession (f : Session α → Session α) (hf : ∀ s, g (f s) = g s) :
    Quiet g r (r.updateSession key f) :=
  quiet_of_onlyIndex (onlyIndex_updateSession f) fun k u hget => by
    rwa [map_sessions_updateSession g f hf] at hget

lemma quiet_registerServerConnectionId (hg : ∀ s cids, g { s with serverCids := cids } = g s)
    (key : Key α) (data : Bytes) : Quiet g r (r.registerServerConnectionId key data) :=
  quiet_of_onlyIndex (onlyIndex_registerServerConnectionId key data) fun k u hget => by
    rwa [map_sessions_registerServerConnectionId g hg] at hget

omit [DecidableEq α] in
/-- Traffic that neither forwards a datagram nor opens a socket. -/
lemma sent_emit {t : Traffic α} (ht : sent [t] = []) : sent (r.emit t).traffic = sent r.traffic := by
  show sent (r.traffic ++ [t]) = _
  rw [sent_append, ht, List.append_nil]

omit [DecidableEq α] in
lemma opened_emit {t : Traffic α} (ht : opened [t] = []) :
    opened (r.emit t).traffic = opened r.traffic := by
  show opened (r.traffic ++ [t]) = _
  rw [opened_append, ht, List.append_nil]

lemma quiet_emit {t : Traffic α} (hsent : sent [t] = []) (hopened : opened [t] = []) :
    Quiet g r (r.emit t) :=
  quiet_of_onlyIngress (onlyIngress_emit t) (sent_emit hsent) (opened_emit hopened)
    (List.prefix_append _ _)

lemma quiet_pauseIngress (now : ℚ) : Quiet g r (r.pauseIngress now key) := by
  unfold Router.pauseIngress
  split
  · exact .refl r
  · dsimp only
    split
    · exact quiet_of_onlyIngress rfl (sent_emit rfl) (opened_emit rfl) (List.prefix_append _ _)
    · exact quiet_of_onlyIngress rfl rfl rfl (List.prefix_refl _)

lemma quiet_releaseIngressPause : Quiet g r (r.releaseIngressPause key) := by
  unfold Router.releaseIngressPause
  split
  · exact .refl r
  · dsimp only
    split
    · exact quiet_of_onlyIngress rfl (sent_emit rfl) (opened_emit rfl) (List.prefix_append _ _)
    · exact quiet_of_onlyIngress rfl rfl rfl (List.prefix_refl _)

lemma get?_of_get?_pop {κ γ : Type} [DecidableEq κ] {d : Dict κ γ} {k k' : κ} {v : γ}
    (h : (d.pop k).get? k' = some v) : d.get? k' = some v := by
  rw [Dict.get?_pop] at h
  split at h
  · exact absurd h (by simp)
  · exact h

lemma quiet_dropPending : Quiet g r (r.dropPending key) :=
  quiet_of_onlyHandshakes rfl fun _ _ => get?_of_get?_pop

lemma quiet_route (clientScid : Bytes) (serverName : String) (alpns : List String) :
    Quiet g r (r.route key clientScid serverName alpns) := by
  refine quiet_of_onlyHandshakes (onlyHandshakes_route _ _ _) fun k queue hget => ?_
  unfold Router.route at hget
  dsimp only at hget
  split at hget
  · exact get?_of_get?_pop hget
  · exact hget

lemma quiet_inspect (C : Cryptography) (clientScid data : Bytes) :
    Quiet g r (r.inspect C key clientScid data) := by
  unfold Router.inspect
  dsimp only
  split
  · exact .refl r
  · rename_i crypto hcrypto
    have hfolded : Quiet g r { r with pendingCrypto := r.pendingCrypto.set key crypto } :=
      quiet_of_onlyHandshakes rfl fun _ _ => id
    split
    · exact hfolded
    · exact hfolded.trans (quiet_route _ _ _)

lemma quiet_foldl {γ : Type} {f : Router α → γ → Router α} (h : ∀ r b, Quiet g r (f r b))
    (l : List γ) (r : Router α) : Quiet g r (l.foldl f r) := by
  induction l generalizing r with
  | nil => exact .refl r
  | cons b l ih => exact (h r b).trans (ih _)

lemma quiet_discardAddr (client : α) : Quiet g r (r.discardAddr key client) := by
  refine quiet_of_onlyIndex (onlyIndex_discardAddr client) fun k u hget => ?_
  unfold Router.discardAddr at hget
  split at hget <;> exact hget

lemma quiet_discardServerCid (cid : Bytes) : Quiet g r (r.discardServerCid key cid) := by
  refine quiet_of_onlyIndex (onlyIndex_discardServerCid cid) fun k u hget => ?_
  unfold Router.discardServerCid at hget
  split at hget <;> exact hget

lemma quiet_removeSession : Quiet g r (r.removeSession key) := by
  unfold Router.removeSession
  split
  · exact .refl r
  · have hpop : Quiet g r { r with sessions := r.sessions.pop key } := by
      refine quiet_of_onlyIndex rfl fun k u hget => ?_
      obtain ⟨s, hs, hu⟩ := Option.map_eq_some_iff.mp hget
      exact Option.map_eq_some_iff.mpr ⟨s, get?_of_get?_pop hs, hu⟩
    refine Quiet.trans ?_ (quiet_emit rfl rfl)
    refine Quiet.trans ?_ (quiet_foldl (fun _ => quiet_discardServerCid) _ _)
    exact (hpop.trans quiet_releaseIngressPause).trans (quiet_discardAddr _)

lemma quiet_upstreamReceived (now : ℚ) (data : Bytes) :
    Quiet Session.upstream r (r.upstreamReceived now key data) := by
  unfold Router.upstreamReceived
  split
  · exact .refl r
  · rename_i session hget
    have hcounted : Quiet Session.upstream r (r.updateSession key fun s =>
        { s with upstreamDatagramsReceived := session.upstreamDatagramsReceived + 1 }) :=
      quiet_updateSession _ fun _ => rfl
    have hregistered := (hcounted.trans
      (quiet_emit (t := .fromUpstream session.upstream data) rfl rfl)).trans
      (quiet_registerServerConnectionId (fun _ _ => rfl) key data)
    have hsent := hregistered.trans (quiet_emit (t := .toClient session.client data) rfl rfl)
    refine Quiet.trans ?_ (quiet_updateSession _ fun _ => rfl)
    split
    · refine Quiet.trans ?_ quiet_releaseIngressPause
      split
      · exact hsent
      · exact hregistered
    · split
      · exact hsent
      · exact hregistered

lemma quiet_finishOpen (task : OpenTask α) : Quiet g r (r.finishOpen task) :=
  quiet_of_onlyHandshakes (onlyHandshakes_finishOpen task) fun _ _ => id

lemma quiet_openStart (task : OpenTask α) : Quiet g r (r.openStart task) := by
  unfold Router.openStart
  split
  · exact quiet_finishOpen task
  · exact quiet_of_onlyHandshakes rfl fun _ _ => id

lemma quiet_openFails (task : OpenTask α) : Quiet g r (r.openFails task) :=
  (quiet_dropPending.trans quiet_releaseIngressPause).trans (quiet_finishOpen task)

lemma quiet_openCancelled (task : OpenTask α) : Quiet g r (r.openCancelled task) := by
  unfold Router.openCancelled
  split
  · exact quiet_finishOpen task
  · exact quiet_of_onlyHandshakes rfl fun _ _ => id

lemma quiet_reap (now : ℚ) : Quiet g r (r.reap now) := by
  unfold Router.reap
  dsimp only
  refine (quiet_foldl (fun r e => ?_) _ r).trans (quiet_foldl (fun r e => ?_) _ _)
  · split
    · exact quiet_dropPending
    · exact .refl r
  · split
    · exact quiet_removeSession
    · exact .refl r

lemma quiet_reload (file : Option ConfigFile) : Quiet g r (r.reload file) := by
  obtain ⟨routes, mtime, heq⟩ := reload_eq (r := r) file
  rw [heq]
  exact ⟨rfl, rfl, rfl, rfl, fun _ _ => id, fun _ _ => id, List.prefix_refl _⟩

lemma quiet_connectionLost : Quiet g r r.connectionLost := by
  have hclosed : ∀ l : List (Session α),
      sent (l.map fun session => Traffic.closed (α := α) session.upstream) = [] ∧
      opened (l.map fun session => Traffic.closed (α := α) session.upstream) = [] := by
    intro l
    induction l with
    | nil => exact ⟨rfl, rfl⟩
    | cons session l ih => exact ih
  obtain ⟨hsent, hopened⟩ := hclosed r.sessions.values
  refine ⟨?_, ?_, rfl, rfl, fun _ _ => id, fun _ _ => id, List.prefix_append _ _⟩
  · rw [Router.connectionLost, sent_append, hsent, List.append_nil]
  · rw [Router.connectionLost, opened_append, hopened, List.append_nil]

/-! ## Datagrams of clients -/

/-- A datagram arrives. -/
lemma Forwarding.arrive (h : Forwarding r) : Forwarding { r with arrivals := r.arrivals + 1 } where
  sockets := h.sockets
  fresh := h.fresh
  session := h.session
  source := h.source
  arrived u d hd := (h.arrived u d hd).trans (Nat.lt_succ_self _)
  once := h.once
  ordered := h.ordered
  queueOrdered := h.queueOrdered
  queued k queue hget d hd := by
    obtain ⟨hsource, hlt, hne⟩ := h.queued k queue hget d hd
    exact ⟨hsource, hlt.trans (Nat.lt_succ_self _), hne⟩
  queuedOnce := h.queuedOnce

omit [DecidableEq α] in
lemma sentTo_append_batch (u v : ℕ) (t t' : List (Traffic α)) (batch : List (Datagram α))
    (ht : sent t' = sent t ++ batch.map (Prod.mk v)) :
    sentTo u t' = sentTo u t ++ if v = u then batch else [] := by
  have hbatch : ((batch.map (Prod.mk v)).filter fun e => e.1 = u).map Prod.snd =
      if v = u then batch else [] := by
    rw [List.filter_map, List.map_map]
    by_cases hv : v = u
    · rw [if_pos hv, List.filter_eq_self.mpr (by simp [hv])]
      exact List.map_id' _
    · rw [if_neg hv, List.filter_eq_nil_iff.mpr (by simp [hv]), List.map_nil]
  rw [sentTo, ht, List.filter_append, List.map_append, hbatch, sentTo]

/-- Datagrams go to an upstream of their address.  What has gone there before is older, and
what still waits is something else. -/
lemma Forwarding.send (h : Forwarding r) (u : ℕ) (batch : List (Datagram α))
    (hsent : sent r'.traffic = sent r.traffic ++ batch.map (Prod.mk u))
    (hopened : opened r'.traffic = opened r.traffic) (harrivals : r'.arrivals = r.arrivals)
    (hnext : r'.nextUpstream = r.nextUpstream)
    (hsessions : ∀ k u, (r'.sessions.get? k).map Session.upstream = some u →
      (r.sessions.get? k).map Session.upstream = some u)
    (hpending : ∀ k queue, r'.pending.get? k = some queue → r.pending.get? k = some queue ∧
      ∀ d ∈ queue, ∀ d' ∈ batch, d'.arrival ≠ d.arrival)
    (hsource : ∃ k, (u, k) ∈ opened r.traffic ∧ ∀ d ∈ batch, k.1 = d.source)
    (hbatch : batch.Pairwise fun d d' => d.arrival < d'.arrival)
    (hnew : ∀ d ∈ batch, d.arrival < r.arrivals ∧ ∀ e ∈ sent r.traffic,
      e.2.arrival ≠ d.arrival ∧ (e.1 = u → e.2.arrival < d.arrival)) : Forwarding r' where
  sockets := by rw [hopened]; exact h.sockets
  fresh := by rw [hopened, hnext]; exact h.fresh
  session k u hget := by
    rw [hopened]
    exact h.session k u (hsessions k u hget)
  source v d hd := by
    rw [hopened]
    rw [hsent, List.mem_append] at hd
    rcases hd with hd | hd
    · exact h.source v d hd
    · obtain ⟨d', hd', heq⟩ := List.mem_map.mp hd
      obtain ⟨rfl, rfl⟩ := Prod.mk.injEq .. ▸ heq
      obtain ⟨k, hk, hbatch⟩ := hsource
      exact ⟨k, hk, hbatch d' hd'⟩
  arrived v d hd := by
    rw [harrivals]
    rw [hsent, List.mem_append] at hd
    rcases hd with hd | hd
    · exact h.arrived v d hd
    · obtain ⟨d', hd', heq⟩ := List.mem_map.mp hd
      obtain ⟨rfl, rfl⟩ := Prod.mk.injEq .. ▸ heq
      exact (hnew d' hd').1
  once := by
    rw [hsent, List.map_append, List.map_map]
    refine List.nodup_append.mpr ⟨h.once, ?_, ?_⟩
    · exact List.pairwise_map.mpr (hbatch.imp ne_of_lt)
    · intro n hn m hm hnm
      obtain ⟨e, he, rfl⟩ := List.mem_map.mp hn
      obtain ⟨d, hd, rfl⟩ := List.mem_map.mp hm
      exact ((hnew d hd).2 e he).1 hnm
  ordered v := by
    rw [sentTo_append_batch v u _ _ batch hsent]
    by_cases hv : u = v
    · rw [if_pos hv]
      refine List.pairwise_append.mpr ⟨h.ordered v, hbatch, fun d hd d' hd' => ?_⟩
      obtain ⟨e, he, rfl⟩ := List.mem_map.mp hd
      obtain ⟨he, heu⟩ := List.mem_filter.mp he
      exact ((hnew d' hd').2 e he).2 ((of_decide_eq_true heu).trans hv.symm)
    · rw [if_neg hv, List.append_nil]
      exact h.ordered v
  queueOrdered k queue hget := h.queueOrdered k queue (hpending k queue hget).1
  queued k queue hget d hd := by
    obtain ⟨hget, hne⟩ := hpending k queue hget
    obtain ⟨hk, hlt, hold⟩ := h.queued k queue hget d hd
    rw [harrivals, hsent]
    refine ⟨hk, hlt, fun e he => ?_⟩
    rcases List.mem_append.mp he with he | he
    · exact hold e he
    · obtain ⟨d', hd', rfl⟩ := List.mem_map.mp he
      exact hne d hd d' hd'
  queuedOnce k k' queue queue' hget hget' :=
    h.queuedOnce k k' queue queue' (hpending k queue hget).1 (hpending k' queue' hget').1

/-- A datagram of a session goes to its upstream at once. -/
lemma Forwarding.forward (h : Forwarding r) (now : ℚ) {datagram : Datagram α}
    (harrival : datagram.arrival = r.arrivals) (hsource : datagram.source = key.1) :
    Forwarding (Router.forward now key datagram { r with arrivals := r.arrivals + 1 }) := by
  unfold Router.forward
  cases hget : r.sessions.get? key with
  | none => exact h.arrive
  | some session =>
    let touched := Router.updateSession key (fun session => { session with lastSeen := now })
      { r with arrivals := r.arrivals + 1 }
    have hquiet : Quiet Session.upstream { r with arrivals := r.arrivals + 1 } touched :=
      quiet_updateSession _ fun _ => rfl
    have hsent : sent touched.traffic = sent r.traffic := hquiet.sent
    refine (h.arrive.congr hquiet).send session.upstream [datagram] ?_ ?_ rfl rfl
      (fun _ _ => id) (fun k queue hqueue => ⟨hqueue, ?_⟩) ?_ (List.pairwise_singleton _ _) ?_
    · exact sent_append _ _
    · exact opened_emit rfl
    · intro d hd d' hd'
      have hlt := (h.queued k queue (hquiet.pending k queue hqueue) d hd).2.1
      rw [List.mem_singleton.mp hd', harrival]
      exact (ne_of_lt hlt).symm
    · refine ⟨key, ?_, fun d hd => ?_⟩
      · rw [hquiet.opened]
        exact h.session key session.upstream (by rw [hget]; rfl)
      · rw [List.mem_singleton.mp hd, hsource]
    · intro d hd
      rw [List.mem_singleton.mp hd, harrival, hquiet.arrivals, hsent]
      refine ⟨Nat.lt_succ_self _, fun e he => ?_⟩
      have hlt := h.arrived e.1 e.2 he
      exact ⟨ne_of_lt hlt, fun _ => hlt⟩

/-- A datagram of a connection that is not open yet joins its queue. -/
lemma Forwarding.enqueue (h : Forwarding r) {datagram : Datagram α}
    (harrival : datagram.arrival = r.arrivals) (hsource : datagram.source = key.1) :
    Forwarding { r with
      arrivals := r.arrivals + 1
      pending := r.pending.set key ((r.pending.get? key).getD [] ++ [datagram]) } := by
  -- the datagrams of a queue are those that were there, and the one that arrives
  have hcases : ∀ k queue, (r.pending.set key ((r.pending.get? key).getD [] ++ [datagram])).get? k
      = some queue → ∀ d ∈ queue, (∃ old, r.pending.get? k = some old ∧ d ∈ old) ∨
        k = key ∧ d = datagram := by
    intro k queue hget d hd
    rw [Dict.get?_set] at hget
    split at hget
    · rename_i hk
      rw [← Option.some.inj hget, List.mem_append, List.mem_singleton] at hd
      rcases hd with hd | hd
      · cases hold : r.pending.get? key with
        | none => exact absurd hd (by simp [hold])
        | some old => exact .inl ⟨old, by rw [hk, hold], by simpa [hold] using hd⟩
      · exact .inr ⟨hk, hd⟩
    · exact .inl ⟨queue, hget, hd⟩
  have hold : ∀ k queue, r.pending.get? k = some queue → ∀ d ∈ queue, d.arrival < r.arrivals :=
    fun k queue hget d hd => (h.queued k queue hget d hd).2.1
  refine ⟨h.sockets, h.fresh, h.session, h.source, h.arrive.arrived, h.once, h.ordered, ?_, ?_, ?_⟩
  · intro k queue hget
    dsimp only at hget
    rw [Dict.get?_set] at hget
    split at hget
    · rw [← Option.some.inj hget]
      cases hqueue : r.pending.get? key with
      | none => exact List.pairwise_singleton _ _
      | some queue =>
        refine List.pairwise_append.mpr
          ⟨h.queueOrdered key queue hqueue, List.pairwise_singleton _ _, fun d hd d' hd' => ?_⟩
        rw [List.mem_singleton.mp hd', harrival]
        exact hold key queue hqueue d hd
    · exact h.queueOrdered k queue hget
  · intro k queue hget d hd
    show d.source = k.1 ∧ d.arrival < r.arrivals + 1 ∧ ∀ e ∈ sent r.traffic, e.2.arrival ≠ d.arrival
    rcases hcases k queue hget d hd with ⟨old, hget, hd⟩ | ⟨rfl, rfl⟩
    · obtain ⟨hk, hlt, hne⟩ := h.queued k old hget d hd
      exact ⟨hk, by omega, hne⟩
    · refine ⟨hsource, by omega, fun e he => ?_⟩
      have hlt := h.arrived e.1 e.2 he
      omega
  · intro k k' queue queue' hget hget' d hd d' hd' heq
    rcases hcases k queue hget d hd with ⟨old, ho, hd⟩ | ⟨rfl, rfl⟩
    · rcases hcases k' queue' hget' d' hd' with ⟨old', ho', hd'⟩ | ⟨rfl, rfl⟩
      · exact h.queuedOnce k k' old old' ho ho' d hd d' hd' heq
      · have hlt := hold k old ho d hd
        omega
    · rcases hcases k' queue' hget' d' hd' with ⟨old', ho', hd'⟩ | ⟨rfl, -⟩
      · have hlt := hold k' old' ho' d' hd'
        omega
      · rfl

lemma Forwarding.receiveInitial (h : Forwarding r) (C : Cryptography) (now : ℚ) (clientScid : Bytes)
    {datagram : Datagram α} (harrival : datagram.arrival = r.arrivals)
    (hsource : datagram.source = key.1) :
    Forwarding (Router.receiveInitial C now key clientScid datagram
      { r with arrivals := r.arrivals + 1 }) := by
  have hqueued := h.enqueue harrival hsource
  unfold Router.receiveInitial
  dsimp only
  split
  · split
    · exact hqueued
    · -- the queue is full, and is stored as it was found
      rename_i hkey hfull
      cases hget : r.pending.get? key with
      | none => exact absurd hfull (by simp [hget])
      | some queue =>
        refine h.arrive.congr (quiet_of_onlyHandshakes rfl fun k q hq => ?_)
        rw [Dict.get?_set] at hq
        split at hq
        · rename_i hk
          rw [hk, ← Option.some.inj hq]
          exact hget
        · exact hq
  · split
    · exact h.arrive
    · split
      · exact h.arrive.congr (quiet_of_onlyHandshakes rfl fun _ _ => get?_of_get?_pop)
      · refine Forwarding.congr ?_ (quiet_inspect C _ _)
        exact hqueued.congr (quiet_of_onlyHandshakes rfl fun _ _ => id)

/-- The session of a datagram is one of its address. -/
lemma client_of_sessionForDatagram (h : Indexed r) {data : Bytes} {addr : α}
    (hkey : r.sessionForDatagram data addr = some key) : key.1 = addr := by
  unfold Router.sessionForDatagram at hkey
  split at hkey
  · exact absurd hkey (by simp)
  · split at hkey
    · split at hkey
      · exact absurd hkey (by simp)
      · rename_i dcid scid hids
        dsimp only at hkey
        split at hkey
        · rename_i owner howner
          obtain ⟨-, hsession⟩ := Option.filter_eq_some_iff.mp howner
          obtain ⟨s, hs, hclient⟩ := (Option.any_eq_true _ _).mp hsession
          rw [← Option.some.inj hkey, ← h.client _ s hs]
          exact of_decide_eq_true hclient
        · split at hkey
          · rw [← Option.some.inj hkey]
          · exact absurd hkey (by simp)
    · dsimp only at hkey
      split at hkey
      · rename_i owner howner
        obtain ⟨n, -, hn⟩ := List.exists_of_findSome?_eq_some howner
        obtain ⟨-, hmem⟩ := Option.filter_eq_some_iff.mp hn
        rw [← Option.some.inj hkey]
        exact (h.addr.mem_getD.mp (of_decide_eq_true hmem)).2
      · split at hkey
        · rename_i owner howner
          have hmem : owner ∈ (r.sessionsByAddr.get? addr).getD .empty := by
            show owner ∈ Dict.keys _
            rw [howner]
            exact List.mem_singleton_self _
          rw [← Option.some.inj hkey]
          exact (h.addr.mem_getD.mp hmem).2
        · exact absurd hkey (by simp)

lemma Forwarding.datagramReceived (h : Forwarding r) (hindexed : Indexed r) (C : Cryptography)
    (now : ℚ) (data : Bytes) (addr : α) : Forwarding (r.datagramReceived C now data addr) := by
  unfold Router.datagramReceived
  dsimp only
  split
  · rename_i key hkey
    have hclient : key.1 = addr := client_of_sessionForDatagram (r := r) hindexed hkey
    exact h.forward now rfl hclient.symm
  · split
    · exact h.arrive
    · split
      · exact h.arrive
      · exact h.receiveInitial C now _ rfl rfl

/-! ## Opening a session -/

/-- The state in which `_open` sends the queue: the session is there, and reading is paused. -/
def Router.beforeFlush (now : ℚ) (task : OpenTask α) (r : Router α) : Router α :=
  let added := (Router.emit (.opened r.nextUpstream task.key)
    { r with nextUpstream := r.nextUpstream + 1 }).addSession task.key
      (Router.newSession now r.nextUpstream task)
  Router.pauseIngress now task.key { added with
    pendingCrypto := added.pendingCrypto.pop task.key
    pendingSeen := added.pendingSeen.pop task.key
    pendingStarted := added.pendingStarted.pop task.key }

lemma openSucceeds_eq (now : ℚ) (task : OpenTask α) :
    r.openSucceeds now task = Router.finishOpen task { r.beforeFlush now task with
      pending := (r.beforeFlush now task).pending.pop task.key
      traffic := (r.beforeFlush now task).traffic ++
        ((r.pending.get? task.key).getD []).map (Traffic.toUpstream r.nextUpstream) } := rfl

/-- A new socket gets a number of its own. -/
lemma Forwarding.beforeFlush (h : Forwarding r) (now : ℚ) (task : OpenTask α) :
    Forwarding (r.beforeFlush now task) ∧
    opened (r.beforeFlush now task).traffic = opened r.traffic ++ [(r.nextUpstream, task.key)] ∧
    sent (r.beforeFlush now task).traffic = sent r.traffic ∧
    (r.beforeFlush now task).pending = r.pending ∧
    (r.beforeFlush now task).arrivals = r.arrivals := by
  let emitted := Router.emit (.opened r.nextUpstream task.key)
    { r with nextUpstream := r.nextUpstream + 1 }
  let added := emitted.addSession task.key (Router.newSession now r.nextUpstream task)
  let forgotten : Router α := { added with
    pendingCrypto := added.pendingCrypto.pop task.key
    pendingSeen := added.pendingSeen.pop task.key
    pendingStarted := added.pendingStarted.pop task.key }
  have hopened : opened added.traffic = opened r.traffic ++ [(r.nextUpstream, task.key)] :=
    opened_append r.traffic _
  have hsent : sent added.traffic = sent r.traffic := sent_emit (r := r) rfl
  have hlt : ∀ u k, (u, k) ∈ opened r.traffic → u ≠ r.nextUpstream := fun u k hk =>
    ne_of_lt (h.fresh u k hk)
  have hadded : Forwarding added := by
    refine ⟨?_, fun u k hk => ?_, fun k u hget => ?_, fun u d hd => ?_, fun u d hd => ?_, ?_,
      fun u => ?_, h.queueOrdered, fun k queue hget d hd => ?_, h.queuedOnce⟩
    · rw [hopened, List.map_append]
      refine List.nodup_append.mpr ⟨h.sockets, List.nodup_singleton _, fun u hu v hv => ?_⟩
      obtain ⟨⟨u, k⟩, hk, rfl⟩ := List.mem_map.mp hu
      rw [List.mem_singleton.mp hv]
      exact hlt u k hk
    · rw [hopened, List.mem_append, List.mem_singleton] at hk
      show u < r.nextUpstream + 1
      rcases hk with hk | hk
      · have hu := h.fresh u k hk
        omega
      · rw [(Prod.mk.inj hk).1]
        exact Nat.lt_succ_self _
    · rw [hopened, List.mem_append, List.mem_singleton]
      have hget : ((r.sessions.set task.key (Router.newSession now r.nextUpstream task)).get? k).map
          Session.upstream = some u := hget
      rw [Dict.get?_set] at hget
      split at hget
      · rename_i hk
        have hu : r.nextUpstream = u := Option.some.inj hget
        exact .inr (by rw [hk, hu])
      · exact .inl (h.session k u hget)
    · rw [hsent] at hd
      obtain ⟨k, hk, hclient⟩ := h.source u d hd
      exact ⟨k, by rw [hopened]; exact List.mem_append_left _ hk, hclient⟩
    · rw [hsent] at hd
      exact h.arrived u d hd
    · rw [hsent]
      exact h.once
    · rw [sentTo, hsent]
      exact h.ordered u
    · rw [hsent]
      exact h.queued k queue hget d hd
  have hforgotten : Quiet Session.upstream added forgotten :=
    ⟨rfl, rfl, rfl, rfl, fun _ _ => id, fun _ _ => id, List.prefix_refl _⟩
  have hquiet : Quiet Session.upstream added (r.beforeFlush now task) :=
    hforgotten.trans (quiet_pauseIngress now)
  have hpending : (r.beforeFlush now task).pending = forgotten.pending :=
    (onlyIngress_pauseIngress now).sameHandshakes.pending
  exact ⟨hadded.congr hquiet, hquiet.opened.trans hopened, hquiet.sent.trans hsent, hpending,
    hquiet.arrivals⟩

/-- The queue of a connection goes to its upstream, where nothing has gone before. -/
lemma Forwarding.openSucceeds (h : Forwarding r) (now : ℚ) (task : OpenTask α) :
    Forwarding (r.openSucceeds now task) := by
  obtain ⟨hstate, hopened, hsent, hpending, harrivals⟩ := h.beforeFlush now task
  rw [openSucceeds_eq]
  refine Forwarding.congr ?_ (quiet_finishOpen task)
  refine hstate.send r.nextUpstream ((r.pending.get? task.key).getD []) ?_ ?_ rfl rfl
    (fun _ _ => id) (fun k queue hget => ?_) ?_ ?_ (fun d hd => ?_)
  · rw [sent_append, sent_queue]
  · rw [opened_append, opened_queue, List.append_nil]
  · have hget : ((r.beforeFlush now task).pending.pop task.key).get? k = some queue := hget
    refine ⟨get?_of_get?_pop hget, fun d hd d' hd' heq => ?_⟩
    rw [hpending, Dict.get?_pop] at hget
    split at hget
    · exact absurd hget (by simp)
    · rename_i hk
      cases hqueue : r.pending.get? task.key with
      | none => exact absurd hd' (by simp [hqueue])
      | some batch =>
        have hd' : d' ∈ batch := by simpa [hqueue] using hd'
        exact hk (h.queuedOnce k task.key queue batch hget hqueue d hd d' hd' heq.symm)
  · refine ⟨task.key, ?_, fun d hd => ?_⟩
    · rw [hopened]
      exact List.mem_append_right _ (List.mem_singleton_self _)
    · cases hqueue : r.pending.get? task.key with
      | none => exact absurd hd (by simp [hqueue])
      | some batch =>
        have hd : d ∈ batch := by simpa [hqueue] using hd
        exact (h.queued task.key batch hqueue d hd).1.symm
  · cases hqueue : r.pending.get? task.key with
    | none => exact List.Pairwise.nil
    | some batch => exact h.queueOrdered task.key batch hqueue
  · cases hqueue : r.pending.get? task.key with
    | none => exact absurd hd (by simp [hqueue])
    | some batch =>
      have hd : d ∈ batch := by simpa [hqueue] using hd
      obtain ⟨-, hlt, hne⟩ := h.queued task.key batch hqueue d hd
      rw [harrivals, hsent]
      refine ⟨hlt, fun e he => ⟨hne e he, fun hu => ?_⟩⟩
      obtain ⟨k, hk, -⟩ := h.source e.1 e.2 he
      have hfresh := h.fresh e.1 k hk
      omega

/-! ## Runs -/

/-- What one event preserves. -/
lemma Forwarding.step (h : Forwarding r) (hok : SessionsOk r) (C : Cryptography) (e : Event α) :
    Forwarding (e.apply C r) := by
  cases e with
  | clientDatagram now data addr => exact h.datagramReceived hok.indexed C now data addr
  | upstreamDatagram now key data => exact h.congr (quiet_upstreamReceived now data)
  | openStart task => exact h.congr (quiet_openStart task)
  | openSucceeds now task => exact h.openSucceeds now task
  | openFails task => exact h.congr (quiet_openFails task)
  | openCancelled task => exact h.congr (quiet_openCancelled task)
  | reap now => exact h.congr (quiet_reap now)
  | timerExpired key => exact h.congr quiet_releaseIngressPause
  | reload file => exact h.congr (quiet_reload file)
  | connectionLost => exact h.congr quiet_connectionLost

lemma forwarding_init : Forwarding (Router.init : Router α) where
  sockets := List.nodup_nil
  fresh u k hk := absurd hk List.not_mem_nil
  session k u hget := absurd hget (by simp [Router.init])
  source u d hd := absurd hd List.not_mem_nil
  arrived u d hd := absurd hd List.not_mem_nil
  once := List.nodup_nil
  ordered u := List.Pairwise.nil
  queueOrdered k queue hget := absurd hget (by simp [Router.init])
  queued k queue hget := absurd hget (by simp [Router.init])
  queuedOnce k k' queue queue' hget := absurd hget (by simp [Router.init])

lemma reachable_forwarding {C : Cryptography} (h : Reachable C r) : Forwarding r := by
  induction h with
  | made file =>
    have hmade : Quiet Session.upstream (Router.init : Router α) { (Router.init : Router α) with transport := true } :=
      ⟨rfl, rfl, rfl, rfl, fun _ _ => id, fun _ _ => id, List.prefix_refl _⟩
    exact forwarding_init.congr (hmade.trans (quiet_reload file))
  | step h e he ih => exact ih.step (reachable_sessionsOk h) C e

/-- The states that can follow a state. -/
inductive Steps (C : Cryptography) (r : Router α) : Router α → Prop
  | refl : Steps C r r
  | step {r' : Router α} (h : Steps C r r') (e : Event α) (he : e.Enabled r') :
      Steps C r (e.apply C r')

lemma Reachable.steps {C : Cryptography} (h : Reachable C r) (hsteps : Steps C r r') :
    Reachable C r' := by
  induction hsteps with
  | refl => exact h
  | step _ e he ih => exact ih.step e he

lemma sent_openSucceeds (h : Forwarding r) (now : ℚ) (task : OpenTask α) :
    sent (r.openSucceeds now task).traffic = sent r.traffic ++
      ((r.pending.get? task.key).getD []).map (Prod.mk r.nextUpstream) := by
  obtain ⟨-, -, hsent, -, -⟩ := h.beforeFlush now task
  show sent ((r.beforeFlush now task).traffic ++ _) = _
  rw [sent_append, sent_queue, hsent]
  rfl

lemma traffic_forward (now : ℚ) (datagram : Datagram α) :
    r.traffic <+: (r.forward now key datagram).traffic := by
  unfold Router.forward
  split
  · exact List.prefix_refl _
  · have htouched : Quiet Session.upstream r
        (r.updateSession key fun session => { session with lastSeen := now }) :=
      quiet_updateSession _ fun _ => rfl
    exact htouched.traffic.trans (List.prefix_append _ _)

lemma traffic_datagramReceived (C : Cryptography) (now : ℚ) (data : Bytes) (addr : α) :
    r.traffic <+: (r.datagramReceived C now data addr).traffic := by
  unfold Router.datagramReceived
  dsimp only
  split
  · exact traffic_forward (r := { r with arrivals := r.arrivals + 1 }) now _
  · split
    · exact List.prefix_refl _
    · split
      · exact List.prefix_refl _
      · simp only [(onlyHandshakes_receiveInitial C now _ _).sameIngress.traffic,
          List.prefix_refl]

lemma traffic_openSucceeds (now : ℚ) (task : OpenTask α) :
    r.traffic <+: (r.openSucceeds now task).traffic := by
  rw [openSucceeds_eq]
  have hpaused : ∀ r' : Router α, r'.traffic <+: (r'.pauseIngress now task.key).traffic := fun r' =>
    (quiet_pauseIngress now : Quiet Session.upstream r' _).traffic
  refine List.IsPrefix.trans ?_ (List.prefix_append _ _)
  refine List.IsPrefix.trans ?_ (hpaused _)
  exact List.prefix_append _ _

/-- What has gone through the sockets is not undone. -/
lemma traffic_prefix_apply (C : Cryptography) (e : Event α) :
    r.traffic <+: (e.apply C r).traffic := by
  have hquiet : ∀ {r'}, Quiet Session.upstream r r' → r.traffic <+: r'.traffic := Quiet.traffic
  cases e with
  | clientDatagram now data addr => exact traffic_datagramReceived C now data addr
  | upstreamDatagram now key data => exact hquiet (quiet_upstreamReceived now data)
  | openStart task => exact hquiet (quiet_openStart task)
  | openSucceeds now task => exact traffic_openSucceeds now task
  | openFails task => exact hquiet (quiet_openFails task)
  | openCancelled task => exact hquiet (quiet_openCancelled task)
  | reap now => exact hquiet (quiet_reap now)
  | timerExpired key => exact hquiet quiet_releaseIngressPause
  | reload file => exact hquiet (quiet_reload file)
  | connectionLost => exact hquiet quiet_connectionLost

lemma traffic_prefix_steps {C : Cryptography} (hsteps : Steps C r r') : r.traffic <+: r'.traffic := by
  induction hsteps with
  | refl => exact List.prefix_refl _
  | step _ e _ ih => exact ih.trans (traffic_prefix_apply C e)

lemma sentTo_eq_nil_of_fresh (h : Forwarding r) : sentTo r.nextUpstream r.traffic = [] := by
  rw [sentTo, List.map_eq_nil_iff, List.filter_eq_nil_iff]
  intro e he heq
  obtain ⟨k, hk, -⟩ := h.source e.1 e.2 he
  have hlt := h.fresh e.1 k hk
  have hu := of_decide_eq_true heq
  omega

/-- The queue of a connection is the first that goes to its upstream. -/
lemma sentTo_steps_openSucceeds {C : Cryptography} (h : Reachable C r) {now : ℚ}
    {task : OpenTask α} (hsteps : Steps C (r.openSucceeds now task) r') : ∃ later,
      sentTo r.nextUpstream r'.traffic = (r.pending.get? task.key).getD [] ++ later := by
  have hforwarding := reachable_forwarding h
  obtain ⟨later, hlater⟩ := traffic_prefix_steps hsteps
  have hflushed : sentTo r.nextUpstream (r.openSucceeds now task).traffic =
      (r.pending.get? task.key).getD [] := by
    rw [sentTo_append_batch _ _ _ _ _ (sent_openSucceeds hforwarding now task), if_pos rfl,
      sentTo_eq_nil_of_fresh hforwarding, List.nil_append]
  refine ⟨sentTo r.nextUpstream later, ?_⟩
  rw [← hflushed, ← hlater, sentTo, sent_append, List.filter_append, List.map_append]
  rfl

/-! ## Short headers -/

/-- A connection id of a session of an address. -/
def Owns (r : Router α) (addr : α) (cid : Bytes) (key : Key α) : Prop :=
  ∃ s, r.sessions.get? key = some s ∧ s.client = addr ∧ cid ∈ s.serverCids

lemma Indexed.owner_unique (h : Indexed r) {addr : α} {cid : Bytes} {k k' : Key α}
    (hk : Owns r addr cid k) (hk' : Owns r addr cid k') : k = k' := by
  obtain ⟨s, hs, -, hcid⟩ := hk
  obtain ⟨s', hs', -, hcid'⟩ := hk'
  have hget := (h.cid cid k).mpr ⟨s, hs, hcid⟩
  have hget' := (h.cid cid k').mpr ⟨s', hs', hcid'⟩
  exact Option.some.inj (hget.symm.trans hget')

lemma Indexed.length_mem (h : Indexed r) {addr : α} {cid : Bytes} {k : Key α}
    (hk : Owns r addr cid k) : cid.length ∈ r.serverCidLengths := by
  obtain ⟨s, hs, -, hcid⟩ := hk
  have hget := (h.cid cid k).mpr ⟨s, hs, hcid⟩
  have hmem : cid ∈ r.sessionsByServerCid := Dict.mem_iff.mpr ⟨k, hget⟩
  refine (h.lengths.lengths_spec.2 _).mpr (ne_of_gt ?_)
  exact List.countP_pos_iff.mpr ⟨cid, hmem, by simp⟩

/-- The lookup of one length. -/
lemma Indexed.lookup_eq_some_iff (h : Indexed r) {addr : α} {data : Bytes} {n : ℕ} :
    ((r.sessionsByServerCid.get? (slice data 1 (1 + n))).filter
      (· ∈ (r.sessionsByAddr.get? addr).getD .empty)) = some key ↔
    Owns r addr (data.tail.take n) key := by
  have hslice : slice data 1 (1 + n) = data.tail.take n := by
    rw [slice, List.drop_one, Nat.add_sub_cancel_left]
  rw [hslice, Option.filter_eq_some_iff, h.cid, decide_eq_true_eq, h.addr.mem_getD]
  constructor
  · rintro ⟨⟨s, hs, hcid⟩, -, rfl⟩
    exact ⟨s, hs, h.client key s hs, hcid⟩
  · rintro ⟨s, hs, rfl, hcid⟩
    exact ⟨⟨s, hs, hcid⟩, Dict.mem_iff.mpr ⟨s, hs⟩, (h.client key s hs).symm⟩

/-- The session with the longest connection id that the bytes behind the first one start with. -/
def LongestOwner (r : Router α) (addr : α) (data : Bytes) (key : Key α) : Prop :=
  ∃ cid, Owns r addr cid key ∧ cid <+: data.tail ∧
    ∀ cid' key', Owns r addr cid' key' → cid' <+: data.tail → cid'.length ≤ cid.length

lemma Indexed.findSome?_eq_some (h : Indexed r) {addr : α} {data : Bytes}
    (hfind : (r.serverCidLengths.findSome? fun length =>
      (r.sessionsByServerCid.get? (slice data 1 (1 + length))).filter
        (· ∈ (r.sessionsByAddr.get? addr).getD .empty)) = some key) :
    LongestOwner r addr data key := by
  obtain ⟨longer, n, shorter, hlengths, hn, hlonger⟩ := List.findSome?_eq_some_iff.mp hfind
  have howns := h.lookup_eq_some_iff.mp hn
  refine ⟨data.tail.take n, howns, List.take_prefix _ _, fun cid' key' howns' hprefix => ?_⟩
  have htake : data.tail.take cid'.length = cid' := (List.prefix_iff_eq_take.mp hprefix).symm
  -- the lengths descend, so a longer one has been tried before
  have hle : cid'.length ≤ n := by
    by_contra hlt
    have hmem := h.length_mem howns'
    have hsorted := h.lengths.lengths_spec.1
    rw [hlengths] at hmem hsorted
    rcases List.mem_append.mp hmem with hmem | hmem
    · have hnone := hlonger _ hmem
      rw [h.lookup_eq_some_iff.mpr (by rw [htake]; exact howns')] at hnone
      exact absurd hnone (by simp)
    · rcases List.mem_cons.mp hmem with heq | hmem
      · omega
      · have hgt := List.rel_of_pairwise_cons (List.pairwise_append.mp hsorted).2.1 hmem
        omega
  have hlength := hprefix.length_le
  rw [List.length_take]
  omega

/-- A short header from an address with several sessions. -/
lemma sessionForDatagram_short (h : Indexed r) {data : Bytes} {addr : α} (hdata : data ≠ [])
    (hshort : isLong data = false)
    (hseveral : ∃ k₁ ∈ r.sessions, ∃ k₂ ∈ r.sessions, k₁ ≠ k₂ ∧ k₁.1 = addr ∧ k₂.1 = addr) :
    r.sessionForDatagram data addr = some key ↔ LongestOwner r addr data key := by
  have hfind : r.sessionForDatagram data addr = r.serverCidLengths.findSome? fun length =>
      (r.sessionsByServerCid.get? (slice data 1 (1 + length))).filter
        (· ∈ (r.sessionsByAddr.get? addr).getD .empty) := by
    rw [Router.sessionForDatagram, if_neg hdata, if_neg (by simp [hshort])]
    dsimp only
    split
    · rename_i owner howner
      exact howner.symm
    · rename_i howner
      rw [howner]
      split
      · rename_i only honly
        obtain ⟨k₁, hk₁, k₂, hk₂, hne, ha₁, ha₂⟩ := hseveral
        have hmem : ∀ k ∈ r.sessions, k.1 = addr → k = only := by
          intro k hk ha
          have hk : k ∈ ((r.sessionsByAddr.get? addr).getD .empty).keys :=
            h.addr.mem_getD.mpr ⟨hk, ha⟩
          rw [honly] at hk
          exact List.mem_singleton.mp hk
        exact absurd ((hmem k₁ hk₁ ha₁).trans (hmem k₂ hk₂ ha₂).symm) hne
      · rfl
  rw [hfind]
  refine ⟨h.findSome?_eq_some, ?_⟩
  rintro ⟨cid, howns, hprefix, hlongest⟩
  have htake : data.tail.take cid.length = cid := (List.prefix_iff_eq_take.mp hprefix).symm
  have hlookup := h.lookup_eq_some_iff.mpr (htake.symm ▸ howns : Owns r addr _ key)
  cases hfound : r.serverCidLengths.findSome? fun length =>
      (r.sessionsByServerCid.get? (slice data 1 (1 + length))).filter
        (· ∈ (r.sessionsByAddr.get? addr).getD .empty) with
  | none =>
    have hnone := List.findSome?_eq_none_iff.mp hfound _ (h.length_mem howns)
    rw [hlookup] at hnone
    exact absurd hnone (by simp)
  | some key' =>
    obtain ⟨cid', howns', hprefix', hlongest'⟩ := h.findSome?_eq_some hfound
    have hlength : cid'.length = cid.length :=
      le_antisymm (hlongest cid' key' howns' hprefix') (hlongest' cid key howns hprefix)
    have hcid : cid' = cid := by
      rw [List.prefix_iff_eq_take.mp hprefix', hlength, htake]
    have hsame : key' = key := h.owner_unique (hcid ▸ howns') howns
    rw [hsame]

/-- A short header from an address with several sessions goes to one session, or nowhere. -/
lemma datagramReceived_short (h : Indexed r) (C : Cryptography) (now : ℚ) {data : Bytes} {addr : α}
    (hdata : data ≠ []) (hshort : isLong data = false)
    (hseveral : ∃ k₁ ∈ r.sessions, ∃ k₂ ∈ r.sessions, k₁ ≠ k₂ ∧ k₁.1 = addr ∧ k₂.1 = addr) :
    (∀ k s, LongestOwner r addr data k → r.sessions.get? k = some s →
      (r.datagramReceived C now data addr).traffic =
        r.traffic ++ [.toUpstream s.upstream ⟨r.arrivals, addr, data⟩]) ∧
    ((∀ k, ¬ LongestOwner r addr data k) →
      r.datagramReceived C now data addr = { r with arrivals := r.arrivals + 1 }) := by
  have harrived : Indexed { r with arrivals := r.arrivals + 1 } := h.congr ⟨rfl, rfl, rfl, rfl, rfl⟩
  have hfind : ∀ k, ({ r with arrivals := r.arrivals + 1 } : Router α).sessionForDatagram data addr =
      some k ↔ LongestOwner r addr data k := fun k =>
    sessionForDatagram_short harrived hdata hshort hseveral
  refine ⟨fun k s hlongest hget => ?_, fun hnone => ?_⟩
  · rw [Router.datagramReceived, (hfind k).mpr hlongest]
    dsimp only
    rw [Router.forward]
    dsimp only
    rw [hget]
    show (Router.updateSession k _ _).traffic ++ _ = _
    rw [(onlyIndex_updateSession _).sameIngress.traffic]
  · have hlookup : ({ r with arrivals := r.arrivals + 1 } : Router α).sessionForDatagram data addr =
        none := by
      rw [Option.eq_none_iff_forall_ne_some]
      exact fun k hk => hnone k ((hfind k).mp hk)
    rw [Router.datagramReceived, hlookup]
    dsimp only
    rw [if_pos hshort]

/-- Forwarding over every run: a datagram goes to one upstream at most, and once; a socket
belongs to one session, and what goes through it comes from the client of the session, in the
order of arrival; a session that opens sends the queue of its connection before all else; and a
short header from an address with several sessions goes to the one with the longest connection
id that fits, or to nobody. -/
theorem forwarding {C : Cryptography} (h : Reachable C r) :
    ((sent r.traffic).map fun e => e.2.arrival).Nodup ∧
    ((opened r.traffic).map Prod.fst).Nodup ∧
    (∀ k s, r.sessions.get? k = some s → (s.upstream, k) ∈ opened r.traffic ∧ s.client = k.1) ∧
    (∀ u d, (u, d) ∈ sent r.traffic → ∃ k, (u, k) ∈ opened r.traffic ∧ k.1 = d.source) ∧
    (∀ u, (sentTo u r.traffic).Pairwise fun d d' => d.arrival < d'.arrival) ∧
    (∀ now task, (Event.openSucceeds now task).Enabled r →
      ∀ r', Steps C (r.openSucceeds now task) r' → ∃ later,
        sentTo r.nextUpstream r'.traffic = (r.pending.get? task.key).getD [] ++ later) ∧
    ∀ now data addr, data ≠ [] → isLong data = false →
      (∃ k₁ ∈ r.sessions, ∃ k₂ ∈ r.sessions, k₁ ≠ k₂ ∧ k₁.1 = addr ∧ k₂.1 = addr) →
      (∀ k s, LongestOwner r addr data k → r.sessions.get? k = some s →
        (r.datagramReceived C now data addr).traffic =
          r.traffic ++ [.toUpstream s.upstream ⟨r.arrivals, addr, data⟩]) ∧
      ((∀ k, ¬ LongestOwner r addr data k) →
        r.datagramReceived C now data addr = { r with arrivals := r.arrivals + 1 }) := by
  have hok := reachable_forwarding h
  have hindexed := (reachable_sessionsOk h).indexed
  refine ⟨hok.once, hok.sockets, fun k s hs => ⟨hok.session k s.upstream ?_, hindexed.client k s hs⟩,
    hok.source, hok.ordered, fun now task _ r' => sentTo_steps_openSucceeds h,
    fun now data addr => datagramReceived_short hindexed C now⟩
  rw [hs]
  rfl

/-- Two sessions of one client, and a short header with the connection id of the first. -/
theorem forwarding_short : ∃ r, sampleRun (openEvents 5 7 ++ openEvents 5 8 ++
      [.upstreamDatagram 0 (5, [7]) (serverReply 9),
        .upstreamDatagram 0 (5, [8]) (serverReply 10)]) = some r ∧
    (r.datagramReceived plainCryptography 0 [0x40, 9, 1] 5).traffic =
      r.traffic ++ [.toUpstream 0 ⟨r.arrivals, 5, [0x40, 9, 1]⟩] := by
  have hrun : (sampleRun (openEvents 5 7 ++ openEvents 5 8 ++
      [.upstreamDatagram 0 (5, [7]) (serverReply 9),
        .upstreamDatagram 0 (5, [8]) (serverReply 10)])).any fun r =>
      r.serverCidLengths = [1] ∧ (5, [8]) ∈ r.sessions ∧
      (r.sessions.get? (5, [7])).any fun s =>
        s.upstream = 0 ∧ s.client = 5 ∧ [9] ∈ s.serverCids := by decide +kernel
  obtain ⟨r, hr, hstate⟩ := (Option.any_eq_true _ _).mp hrun
  obtain ⟨hlengths, hother, hsession⟩ := of_decide_eq_true hstate
  obtain ⟨s, hs, hsession⟩ := (Option.any_eq_true _ _).mp hsession
  obtain ⟨hupstream, hclient, hcid⟩ := of_decide_eq_true hsession
  have hreachable := reachable_sampleRun hr
  have hseveral : ∃ k₁ ∈ r.sessions, ∃ k₂ ∈ r.sessions, k₁ ≠ k₂ ∧ k₁.1 = 5 ∧ k₂.1 = 5 :=
    ⟨(5, [7]), Dict.mem_iff.mpr ⟨s, hs⟩, (5, [8]), hother, by decide, rfl, rfl⟩
  have hlongest : LongestOwner r 5 [0x40, 9, 1] (5, [7]) := by
    refine ⟨[9], ⟨s, hs, hclient, hcid⟩, by decide, fun cid key howns _ => ?_⟩
    have hmem := (reachable_sessionsOk hreachable).indexed.length_mem howns
    rw [hlengths, List.mem_singleton] at hmem
    rw [hmem]
    decide
  obtain ⟨-, -, -, -, -, -, hshort⟩ := forwarding hreachable
  refine ⟨r, hr, ?_⟩
  rw [((hshort 0 [0x40, 9, 1] 5 (by decide) (by decide) hseveral).1 _ s hlongest hs), hupstream]

end Portwyrm.Quic

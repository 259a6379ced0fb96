import Portwyrm.Quic.Forwarding

/-!
# Connection ids of servers

A server chooses connection ids of its own, and the client uses them from then on.  The router
indexes the first owner of each id: an id that is empty, or that another session has, is left
alone.  This file says for which ids the datagrams of the client find their session.
-/

namespace Portwyrm.Quic

open Base

variable {α : Type} [DecidableEq α] {r r' : Router α} {key : Key α} {cid : Bytes}

/-- What tells a session from another, and its connection ids. -/
def Session.ids (s : Session α) : ℕ × Dict.KeySet Bytes := (s.upstream, s.serverCids)

/-- A datagram of an upstream brings a new connection id. -/
structure Registers (r : Router α) (key : Key α) (data cid : Bytes) : Prop where
  long : isLong data = true
  ids : ∃ dcid, initialConnectionIds data = .ok (dcid, cid)
  ne : cid ≠ []
  live : key ∈ r.sessions
  free : r.sessionsByServerCid.get? cid = none

/-! ## Registration -/

lemma sessions_of_registers {data : Bytes} (h : Registers r key data cid) {s : Session α}
    (hs : r.sessions.get? key = some s) : (r.registerServerConnectionId key data).sessions =
      r.sessions.set key { s with serverCids := s.serverCids.add cid } := by
  obtain ⟨dcid, hids⟩ := h.ids
  unfold Router.registerServerConnectionId
  rw [if_neg (by simp [h.long]), hids]
  dsimp only
  rw [if_neg h.ne]
  unfold Router.indexServerConnectionId
  rw [hs, h.free]
  dsimp only
  rw [Router.updateSession, hs]

lemma sessions_of_not_registers {data : Bytes} (h : ∀ cid, ¬ Registers r key data cid) :
    (r.registerServerConnectionId key data).sessions = r.sessions := by
  unfold Router.registerServerConnectionId
  split
  · rfl
  · rename_i hlong
    split
    · rfl
    · rename_i dcid cid hids
      split
      · rfl
      · rename_i hne
        unfold Router.indexServerConnectionId
        split
        · rfl
        · rename_i s hs
          split
          · rfl
          · rename_i hfree
            refine absurd ?_ (h cid)
            exact ⟨by simpa using hlong, ⟨dcid, hids⟩, hne, Dict.mem_iff.mpr ⟨s, hs⟩, hfree⟩

/-- An upstream datagram changes the connection ids of a session as its registration does. -/
lemma ids_upstreamReceived (r : Router α) (key : Key α) (now : ℚ) (data : Bytes) : ∃ r₁ : Router α,
    (∀ k, (r₁.sessions.get? k).map Session.ids = (r.sessions.get? k).map Session.ids) ∧
    r₁.sessionsByServerCid = r.sessionsByServerCid ∧
    ∀ k, ((r.upstreamReceived now key data).sessions.get? k).map Session.ids =
      ((r₁.registerServerConnectionId key data).sessions.get? k).map Session.ids := by
  unfold Router.upstreamReceived
  split
  · rename_i hnone
    have hnot : ∀ cid, ¬ Registers r key data cid := fun cid h =>
      Dict.get?_eq_none_iff.mp hnone h.live
    exact ⟨r, fun _ => rfl, rfl, fun k => by rw [sessions_of_not_registers hnot]⟩
  · rename_i session hget
    let counted := r.updateSession key fun s =>
      { s with upstreamDatagramsReceived := session.upstreamDatagramsReceived + 1 }
    have hcids : counted.sessionsByServerCid = r.sessionsByServerCid := by
      show (r.updateSession key _).sessionsByServerCid = _
      unfold Router.updateSession
      split <;> rfl
    have hcounted : ∀ k, (counted.sessions.get? k).map Session.ids =
        (r.sessions.get? k).map Session.ids := by
      intro k
      exact map_sessions_updateSession Session.ids
        (fun s => { s with upstreamDatagramsReceived := session.upstreamDatagramsReceived + 1 })
        (fun _ => rfl) k
    refine ⟨counted.emit (.fromUpstream session.upstream data), hcounted, hcids, fun k => ?_⟩
    dsimp only
    rw [map_sessions_updateSession Session.ids (fun s => { s with lastSeen := now }) fun _ => rfl]
    split
    · rw [onlyIngress_releaseIngressPause.sameIndex.sessions]
      split <;> rfl
    · split <;> rfl

/-- What an upstream datagram leaves of the connection ids: all that were there, and the one
that it brings. -/
lemma session_upstreamReceived (now : ℚ) (data : Bytes) {k : Key α} {s' : Session α}
    (hs' : (r.upstreamReceived now key data).sessions.get? k = some s') : ∃ s,
    r.sessions.get? k = some s ∧ s.upstream = s'.upstream ∧
    (∀ c ∈ s.serverCids, c ∈ s'.serverCids) ∧
    (∀ c ∈ s'.serverCids, c ∈ s.serverCids ∨ k = key ∧ Registers r key data c) ∧
    (k = key → ∀ c, Registers r key data c → c ∈ s'.serverCids) := by
  obtain ⟨r₁, hids, hcids, hregister⟩ := ids_upstreamReceived r key now data
  have hlive : ∀ k, k ∈ r₁.sessions ↔ k ∈ r.sessions := by
    intro k
    have h := congrArg Option.isSome (hids k)
    rw [Option.isSome_map, Option.isSome_map] at h
    rw [Dict.mem_iff, Dict.mem_iff, ← Option.isSome_iff_exists, ← Option.isSome_iff_exists, h]
  have hregisters : ∀ c, Registers r₁ key data c ↔ Registers r key data c := fun c =>
    ⟨fun h => ⟨h.long, h.ids, h.ne, (hlive key).mp h.live, hcids ▸ h.free⟩,
      fun h => ⟨h.long, h.ids, h.ne, (hlive key).mpr h.live, hcids.symm ▸ h.free⟩⟩
  have hget := hregister k
  rw [hs', Option.map_some] at hget
  by_cases hany : ∃ c, k = key ∧ Registers r key data c
  · obtain ⟨c, rfl, hc⟩ := hany
    obtain ⟨s₁, hs₁⟩ := Dict.mem_iff.mp ((hregisters c).mpr hc).live
    have hsame := hids k
    rw [hs₁] at hsame
    obtain ⟨s, hs, heq⟩ := Option.map_eq_some_iff.mp hsame.symm
    obtain ⟨hupstream, hserver⟩ := Prod.mk.inj heq
    rw [sessions_of_registers ((hregisters c).mpr hc) hs₁, Dict.get?_set_self, Option.map_some] at hget
    obtain ⟨hupstream', hserver'⟩ := Prod.mk.inj (Option.some.inj hget)
    have hunique : ∀ c', Registers r k data c' → c' = c := by
      intro c' hc'
      obtain ⟨d, hd⟩ := hc.ids
      obtain ⟨d', hd'⟩ := hc'.ids
      exact (Prod.mk.inj (Except.ok.inj (hd'.symm.trans hd))).2
    have hmem : ∀ c', c' ∈ s'.serverCids ↔ c' = c ∨ c' ∈ s.serverCids := fun c' => by
      rw [hserver', hserver]
      exact Dict.mem_add
    refine ⟨s, hs, hupstream.trans hupstream'.symm, fun c' hc' => (hmem c').mpr (.inr hc'),
      fun c' hc' => ?_, fun _ c' hc' => (hmem c').mpr (.inl (hunique c' hc'))⟩
    rcases (hmem c').mp hc' with rfl | hc'
    · exact .inr ⟨rfl, hc⟩
    · exact .inl hc'
  · -- nothing is registered for this session
    have hsame : ((r₁.registerServerConnectionId key data).sessions.get? k).map Session.ids =
        (r₁.sessions.get? k).map Session.ids := by
      by_cases hreg : ∃ c, Registers r₁ key data c
      · obtain ⟨c, hc⟩ := hreg
        have hk : k ≠ key := fun hk => hany ⟨c, hk, (hregisters c).mp hc⟩
        obtain ⟨s₁, hs₁⟩ := Dict.mem_iff.mp hc.live
        rw [sessions_of_registers hc hs₁, Dict.get?_set_of_ne _ _ hk]
      · rw [sessions_of_not_registers (not_exists.mp hreg)]
    rw [hsame, hids] at hget
    obtain ⟨s, hs, heq⟩ := Option.map_eq_some_iff.mp hget.symm
    obtain ⟨hupstream, hserver⟩ := Prod.mk.inj heq
    rw [← hserver]
    exact ⟨s, hs, hupstream, fun _ => id, fun _ => .inl, fun hk c hc => absurd ⟨c, hk, hc⟩ hany⟩

/-! ## One event -/

lemma ids_datagramReceived (C : Cryptography) (now : ℚ) (data : Bytes) (addr : α) (k : Key α) :
    ((r.datagramReceived C now data addr).sessions.get? k).map Session.ids =
      (r.sessions.get? k).map Session.ids := by
  unfold Router.datagramReceived
  dsimp only
  split
  · unfold Router.forward
    split
    · rfl
    · show ((Router.updateSession _ (fun session => { session with lastSeen := now })
        { r with arrivals := r.arrivals + 1 }).sessions.get? k).map Session.ids = _
      rw [map_sessions_updateSession Session.ids (fun s => { s with lastSeen := now }) fun _ => rfl]
  · split
    · rfl
    · split
      · rfl
      · rw [(onlyHandshakes_receiveInitial C now _ _).sameIndex.sessions]

lemma session_of_ids {k : Key α} {s' : Session α} (hs' : r'.sessions.get? k = some s')
    (h : ∀ k b, (r'.sessions.get? k).map Session.ids = some b →
      (r.sessions.get? k).map Session.ids = some b) :
    ∃ s, r.sessions.get? k = some s ∧ s.upstream = s'.upstream ∧ s.serverCids = s'.serverCids := by
  obtain ⟨s, hs, heq⟩ := Option.map_eq_some_iff.mp (h k s'.ids (by rw [hs']; rfl))
  obtain ⟨hupstream, hcids⟩ := Prod.mk.inj heq
  exact ⟨s, hs, hupstream, hcids⟩

/-- A session behind an event: it was there, or it is new.  Its connection ids stay, and only an
upstream datagram of the session brings one more. -/
lemma session_apply (C : Cryptography) (e : Event α) {k : Key α} {s' : Session α}
    (hs' : (e.apply C r).sessions.get? k = some s') :
    (∃ s, r.sessions.get? k = some s ∧ s.upstream = s'.upstream ∧
      (∀ c ∈ s.serverCids, c ∈ s'.serverCids) ∧
      ∀ c ∈ s'.serverCids, c ∈ s.serverCids ∨
        ∃ now data, e = .upstreamDatagram now k data ∧ Registers r k data c) ∨
    s'.upstream = r.nextUpstream ∧ ∀ c, c ∉ s'.serverCids := by
  have hkept : (∀ k b, ((e.apply C r).sessions.get? k).map Session.ids = some b →
      (r.sessions.get? k).map Session.ids = some b) → ∃ s, r.sessions.get? k = some s ∧
        s.upstream = s'.upstream ∧ (∀ c ∈ s.serverCids, c ∈ s'.serverCids) ∧
        ∀ c ∈ s'.serverCids, c ∈ s.serverCids ∨
          ∃ now data, e = .upstreamDatagram now k data ∧ Registers r k data c := by
    intro hids
    obtain ⟨s, hs, hupstream, hcids⟩ := session_of_ids hs' hids
    rw [← hcids]
    exact ⟨s, hs, hupstream, fun _ => id, fun _ => .inl⟩
  cases e with
  | clientDatagram now data addr =>
    exact .inl (hkept fun k b hb => by rwa [Event.apply, ids_datagramReceived] at hb)
  | upstreamDatagram now key data =>
    obtain ⟨s, hs, hupstream, hkeep, hnew, -⟩ := session_upstreamReceived now data hs'
    refine .inl ⟨s, hs, hupstream, hkeep, fun c hc => ?_⟩
    rcases hnew c hc with hc | ⟨rfl, hc⟩
    · exact .inl hc
    · exact .inr ⟨now, data, rfl, hc⟩
  | openStart task => exact .inl (hkept (quiet_openStart task).sessions)
  | openSucceeds now task =>
    rw [Event.apply, sessions_openSucceeds, Dict.get?_set] at hs'
    split at hs'
    · rw [← Option.some.inj hs']
      exact .inr ⟨rfl, Dict.not_mem_empty⟩
    · exact .inl ⟨s', hs', rfl, fun _ => id, fun _ => .inl⟩
  | openFails task => exact .inl (hkept (quiet_openFails task).sessions)
  | openCancelled task => exact .inl (hkept (quiet_openCancelled task).sessions)
  | reap now => exact .inl (hkept (quiet_reap now).sessions)
  | timerExpired key => exact .inl (hkept quiet_releaseIngressPause.sessions)
  | reload file => exact .inl (hkept (quiet_reload file).sessions)
  | connectionLost => exact .inl (hkept quiet_connectionLost.sessions)

lemma nextUpstream_apply (C : Cryptography) (e : Event α) :
    r.nextUpstream ≤ (e.apply C r).nextUpstream := by
  have hquiet : ∀ {r'}, Quiet Session.upstream r r' → r.nextUpstream ≤ r'.nextUpstream := fun heq =>
    heq.nextUpstream.ge
  cases e with
  | clientDatagram now data addr =>
    show _ ≤ (r.datagramReceived C now data addr).nextUpstream
    unfold Router.datagramReceived
    dsimp only
    split
    · unfold Router.forward
      split
      · exact le_rfl
      · show _ ≤ (Router.updateSession _ _ _).nextUpstream
        rw [onlyIndex_updateSession]
    · split
      · exact le_rfl
      · split
        · exact le_rfl
        · rw [onlyHandshakes_receiveInitial]
  | upstreamDatagram now key data => exact hquiet (quiet_upstreamReceived now data)
  | openStart task => exact hquiet (quiet_openStart task)
  | openSucceeds now task =>
    have hpaused : (r.openSucceeds now task).nextUpstream = r.nextUpstream + 1 := by
      show (Router.pauseIngress _ _ _).nextUpstream = _
      rw [onlyIngress_pauseIngress]
      rfl
    rw [Event.apply, hpaused]
    exact Nat.le_succ _
  | openFails task => exact hquiet (quiet_openFails task)
  | openCancelled task => exact hquiet (quiet_openCancelled task)
  | reap now => exact hquiet (quiet_reap now)
  | timerExpired key => exact hquiet quiet_releaseIngressPause
  | reload file => exact hquiet (quiet_reload file)
  | connectionLost => exact hquiet quiet_connectionLost

/-! ## Runs -/

/-- The upstream of a socket has used a connection id. -/
def Used (r : Router α) (upstream : ℕ) (cid : Bytes) : Prop :=
  ∃ data dcid, .fromUpstream upstream data ∈ r.traffic ∧ isLong data = true ∧
    initialConnectionIds data = .ok (dcid, cid)

/-- Earlier in a run, the upstream of a session has used a connection id that no other session
held at that moment. -/
def UsedFree (C : Cryptography) (r : Router α) (key : Key α) (upstream : ℕ) (cid : Bytes) : Prop :=
  ∃ r₀ now data dcid s₀, Reachable C r₀ ∧ (Event.upstreamDatagram now key data).Enabled r₀ ∧
    r₀.sessions.get? key = some s₀ ∧ s₀.upstream = upstream ∧ isLong data = true ∧
    initialConnectionIds data = .ok (dcid, cid) ∧
    (∀ k s, r₀.sessions.get? k = some s → cid ∈ s.serverCids → k = key) ∧
    Steps C (r₀.upstreamReceived now key data) r

/-- Where the connection ids of a session come from. -/
lemma usedFree_of_mem {C : Cryptography} (h : Reachable C r) {s : Session α}
    (hs : r.sessions.get? key = some s) (hcid : cid ∈ s.serverCids) :
    cid ≠ [] ∧ UsedFree C r key s.upstream cid := by
  induction h generalizing s with
  | made file =>
    obtain ⟨routes, mtime, heq⟩ :=
      reload_eq (r := { (Router.init : Router α) with transport := true }) file
    rw [Router.connectionMade, heq] at hs
    exact absurd hs (by simp [Router.init])
  | @step r h e he ih =>
    rcases session_apply C e hs with ⟨s₁, hs₁, hupstream, -, hnew⟩ | ⟨-, hempty⟩
    · rcases hnew cid hcid with hold | ⟨now, data, rfl, hregisters⟩
      · obtain ⟨hne, r₀, now, data, dcid, s₀, hr₀, he₀, hs₀, hsame, hlong, hids, hfree, hsteps⟩ :=
          ih hs₁ hold
        exact ⟨hne, r₀, now, data, dcid, s₀, hr₀, he₀, hs₀, hsame.trans hupstream, hlong, hids, hfree,
          hsteps.step e he⟩
      · obtain ⟨dcid, hids⟩ := hregisters.ids
        refine ⟨hregisters.ne, r, now, data, dcid, s₁, h, he, hs₁, hupstream, hregisters.long, hids,
          fun k s hk hmem => ?_, .refl⟩
        have howner := ((reachable_sessionsOk h).indexed.cid cid k).mpr ⟨s, hk, hmem⟩
        rw [hregisters.free] at howner
        exact absurd howner (by simp)
    · exact absurd hcid (hempty cid)

/-- A connection id stays with its session. -/
lemma mem_of_usedFree {C : Cryptography} {s : Session α} (hs : r.sessions.get? key = some s)
    (hne : cid ≠ []) (hused : UsedFree C r key s.upstream cid) : cid ∈ s.serverCids := by
  obtain ⟨r₀, now, data, dcid, s₀, hr₀, he₀, hs₀, hsame, hlong, hids, hfree, hsteps⟩ := hused
  have hindexed := (reachable_sessionsOk hr₀).indexed
  have hfresh : s.upstream < r₀.nextUpstream := by
    have hopened := (reachable_forwarding hr₀).session key s₀.upstream (by rw [hs₀]; rfl)
    rw [← hsame]
    exact (reachable_forwarding hr₀).fresh _ _ hopened
  suffices hrun : s.upstream < r.nextUpstream ∧
      ∀ s', r.sessions.get? key = some s' → s'.upstream = s.upstream → cid ∈ s'.serverCids from
    hrun.2 s hs rfl
  clear hs
  induction hsteps with
  | refl =>
    refine ⟨hfresh.trans_le (nextUpstream_apply C (.upstreamDatagram now key data)),
      fun s' hs' hupstream => ?_⟩
    obtain ⟨s₁, hs₁, -, hkeep, -, hnew⟩ := session_upstreamReceived now data hs'
    by_cases hfound : ∃ k, r₀.sessionsByServerCid.get? cid = some k
    · obtain ⟨k, hk⟩ := hfound
      obtain ⟨s₂, hs₂, hmem⟩ := (hindexed.cid cid k).mp hk
      obtain rfl := hfree k s₂ hs₂ hmem
      rw [hs₁] at hs₂
      exact hkeep cid (Option.some.inj hs₂ ▸ hmem)
    · refine hnew rfl cid ⟨hlong, ⟨dcid, hids⟩, hne, Dict.mem_iff.mpr ⟨s₀, hs₀⟩, ?_⟩
      exact Option.eq_none_iff_forall_ne_some.mpr (not_exists.mp hfound)
  | step _ e he ih =>
    obtain ⟨hlt, hmem⟩ := ih
    refine ⟨hlt.trans_le (nextUpstream_apply C e), fun s' hs' hupstream => ?_⟩
    rcases session_apply C e hs' with ⟨s₁, hs₁, hupstream₁, hkeep, -⟩ | ⟨hnext, -⟩
    · exact hkeep cid (hmem s₁ hs₁ (hupstream₁.trans hupstream))
    · omega

lemma fromUpstream_mem_upstreamReceived (now : ℚ) (data : Bytes) {s : Session α}
    (hs : r.sessions.get? key = some s) :
    .fromUpstream s.upstream data ∈ (r.upstreamReceived now key data).traffic := by
  have hmem : ∀ t (r : Router α), .fromUpstream s.upstream data ∈ r.traffic →
      .fromUpstream s.upstream data ∈ (r.emit t).traffic := fun t r h => List.mem_append_left _ h
  have hrelease : ∀ r : Router α, .fromUpstream s.upstream data ∈ r.traffic →
      .fromUpstream s.upstream data ∈ (r.releaseIngressPause key).traffic := by
    intro r h
    unfold Router.releaseIngressPause
    split
    · exact h
    · dsimp only
      split
      · exact hmem _ _ h
      · exact h
  unfold Router.upstreamReceived
  rw [hs]
  dsimp only
  rw [(onlyIndex_updateSession _).sameIngress.traffic]
  have hregistered : .fromUpstream s.upstream data ∈ (((r.updateSession key fun session =>
      { session with upstreamDatagramsReceived := s.upstreamDatagramsReceived + 1 }).emit
      (.fromUpstream s.upstream data)).registerServerConnectionId key data).traffic := by
    rw [(onlyIndex_registerServerConnectionId key data).sameIngress.traffic]
    exact List.mem_append_right _ (List.mem_singleton_self _)
  split
  · refine hrelease _ ?_
    split
    · exact hmem _ _ hregistered
    · exact hregistered
  · split
    · exact hmem _ _ hregistered
    · exact hregistered

lemma used_of_usedFree {C : Cryptography} {upstream : ℕ} (h : UsedFree C r key upstream cid) :
    Used r upstream cid := by
  obtain ⟨r₀, now, data, dcid, s₀, -, -, hs₀, rfl, hlong, hids, -, hsteps⟩ := h
  have hmem := fromUpstream_mem_upstreamReceived now data hs₀
  exact ⟨data, dcid, (traffic_prefix_steps hsteps).subset hmem, hlong, hids⟩

/-! ## Lookup -/

/-- The session of a long header: the owner of its destination connection id when the address is
right, else the one that the client has opened with this id. -/
lemma sessionForDatagram_long {data clientScid : Bytes} {addr : α} (hlong : isLong data = true)
    (hids : initialConnectionIds data = .ok (cid, clientScid)) :
    r.sessionForDatagram data addr = some key ↔
      (r.sessionsByServerCid.get? cid = some key ∧ ∃ s, r.sessions.get? key = some s ∧ s.client = addr) ∨
      (key = (addr, cid) ∧ key ∈ r.sessions ∧ ∀ k s, r.sessionsByServerCid.get? cid = some k →
        r.sessions.get? k = some s → s.client ≠ addr) := by
  have hdata : data ≠ [] := by
    rintro rfl
    exact absurd hlong (by simp [isLong])
  have howner : ∀ k, ((r.sessionsByServerCid.get? cid).filter fun k =>
      (r.sessions.get? k).any fun s => s.client = addr) = some k ↔
      r.sessionsByServerCid.get? cid = some k ∧ ∃ s, r.sessions.get? k = some s ∧ s.client = addr := by
    intro k
    rw [Option.filter_eq_some_iff, Option.any_eq_true]
    simp only [decide_eq_true_eq]
  rw [Router.sessionForDatagram, if_neg hdata, if_pos hlong, hids]
  dsimp only
  split
  · rename_i k hk
    obtain ⟨hget, s, hs, hclient⟩ := (howner k).mp hk
    constructor
    · intro heq
      obtain rfl := Option.some.inj heq
      exact .inl ⟨hget, s, hs, hclient⟩
    · rintro (⟨hget', -⟩ | ⟨-, -, hnone⟩)
      · rw [← hget, hget']
      · exact absurd hclient (hnone k s hget hs)
  · rename_i hnone
    constructor
    · intro heq
      split at heq
      · rename_i hmem
        obtain rfl := Option.some.inj heq
        refine .inr ⟨rfl, hmem, fun k s hget hs hclient => ?_⟩
        have hk := (howner k).mpr ⟨hget, s, hs, hclient⟩
        rw [hnone] at hk
        exact absurd hk (by simp)
      · exact absurd heq (by simp)
    · rintro (howns | ⟨rfl, hmem, -⟩)
      · have hk := (howner key).mpr howns
        rw [hnone] at hk
        exact absurd hk (by simp)
      · rw [if_pos hmem]

/-- A datagram goes to an upstream when the lookup finds a session with this upstream. -/
lemma traffic_datagramReceived_iff (C : Cryptography) (now : ℚ) (data : Bytes) (addr : α)
    (upstream : ℕ) : (r.datagramReceived C now data addr).traffic =
        r.traffic ++ [.toUpstream upstream ⟨r.arrivals, addr, data⟩] ↔
      ∃ k s, r.sessionForDatagram data addr = some k ∧ r.sessions.get? k = some s ∧
        s.upstream = upstream := by
  have hsame : ∀ r' : Router α, r'.traffic = r.traffic →
      r'.traffic ≠ r.traffic ++ [.toUpstream upstream ⟨r.arrivals, addr, data⟩] := by
    intro r' htraffic heq
    have hlength := congrArg List.length (htraffic.symm.trans heq)
    rw [List.length_append, List.length_singleton] at hlength
    omega
  have harrived : ({ r with arrivals := r.arrivals + 1 } : Router α).sessionForDatagram data addr =
      r.sessionForDatagram data addr := rfl
  unfold Router.datagramReceived
  dsimp only
  rw [harrived]
  cases hfound : r.sessionForDatagram data addr with
  | none =>
    refine iff_of_false ?_ (by simp)
    dsimp only
    split
    · exact hsame _ rfl
    · split
      · exact hsame _ rfl
      · exact hsame _ (onlyHandshakes_receiveInitial C now _ _).sameIngress.traffic
  | some k =>
    dsimp only
    rw [Router.forward]
    cases hs : r.sessions.get? k with
    | none =>
      refine iff_of_false (hsame _ rfl) ?_
      rintro ⟨k', s, hk, hget, -⟩
      rw [← Option.some.inj hk, hs] at hget
      exact absurd hget (by simp)
    | some s =>
      have htouched : (Router.updateSession k (fun session => { session with lastSeen := now })
          { r with arrivals := r.arrivals + 1 }).traffic = r.traffic :=
        (onlyIndex_updateSession _).sameIngress.traffic
      show (Router.updateSession k _ _).traffic ++ _ = _ ↔ _
      rw [htouched, List.append_cancel_left_eq, List.cons.injEq]
      constructor
      · rintro ⟨heq, -⟩
        exact ⟨k, s, rfl, hs, (Traffic.toUpstream.inj heq).1⟩
      · rintro ⟨k', s', hk, hget, hupstream⟩
        rw [← Option.some.inj hk, hs] at hget
        rw [Option.some.inj hget, hupstream]
        exact ⟨rfl, rfl⟩

/-- The connection ids of a session that lead to it.  When no other session of the address has
been sent an id, a long header of the client with this id goes to the upstream of the session
exactly when the id is not empty and the upstream has used it at a moment when no other session
held it, or when it is the id that the client has opened the session with. -/
theorem serverConnectionId {C : Cryptography} (h : Reachable C r) {s : Session α}
    (hs : r.sessions.get? key = some s)
    (hother : ∀ u k, (u, k) ∈ opened r.traffic → k.1 = key.1 → u ≠ s.upstream → ¬ Used r u cid)
    {data clientScid : Bytes} (hlong : isLong data = true)
    (hids : initialConnectionIds data = .ok (cid, clientScid)) (now : ℚ) :
    (r.datagramReceived C now data s.client).traffic =
        r.traffic ++ [.toUpstream s.upstream ⟨r.arrivals, s.client, data⟩] ↔
      cid ≠ [] ∧ UsedFree C r key s.upstream cid ∨ cid = key.2 := by
  have hindexed := (reachable_sessionsOk h).indexed
  have hforwarding := reachable_forwarding h
  have hsocket : ∀ k s', r.sessions.get? k = some s' → (s'.upstream, k) ∈ opened r.traffic :=
    fun k s' hget => hforwarding.session k s'.upstream (by rw [hget]; rfl)
  have hclient := hindexed.client key s hs
  rw [traffic_datagramReceived_iff]
  constructor
  · rintro ⟨k, s', hk, hs', hupstream⟩
    -- the upstream has one session only
    have hmem := hsocket k s' hs'
    rw [hupstream] at hmem
    have hkey : k = key := (Prod.mk.inj
      (List.inj_on_of_nodup_map hforwarding.sockets hmem (hsocket key s hs) rfl)).2
    subst hkey
    rcases (sessionForDatagram_long hlong hids).mp hk with ⟨hget, -⟩ | ⟨heq, -, -⟩
    · obtain ⟨s₁, hs₁, hcid⟩ := (hindexed.cid cid k).mp hget
      rw [hs] at hs₁
      exact .inl (usedFree_of_mem h hs (Option.some.inj hs₁ ▸ hcid))
    · exact .inr (congrArg Prod.snd heq).symm
  · rintro (⟨hne, hused⟩ | rfl)
    · have hcid := mem_of_usedFree hs hne hused
      refine ⟨key, s, (sessionForDatagram_long hlong hids).mpr (.inl ?_), hs, rfl⟩
      exact ⟨(hindexed.cid cid key).mpr ⟨s, hs, hcid⟩, s, hs, rfl⟩
    · by_cases hfound : ∃ k s', r.sessionsByServerCid.get? key.2 = some k ∧
          r.sessions.get? k = some s' ∧ s'.client = s.client
      · obtain ⟨k, s', hget, hs', haddr⟩ := hfound
        obtain ⟨s₁, hs₁, hcid⟩ := (hindexed.cid _ k).mp hget
        rw [hs'] at hs₁
        have hcid : key.2 ∈ s'.serverCids := Option.some.inj hs₁ ▸ hcid
        have hused := used_of_usedFree (usedFree_of_mem h hs' hcid).2
        have hk : k.1 = key.1 := by rw [← hindexed.client k s' hs', haddr, hclient]
        have hupstream : s'.upstream = s.upstream := by
          by_contra hne
          exact hother _ k (hsocket k s' hs') hk hne hused
        exact ⟨k, s', (sessionForDatagram_long hlong hids).mpr (.inl ⟨hget, s', hs', haddr⟩), hs',
          hupstream⟩
      · refine ⟨key, s, (sessionForDatagram_long hlong hids).mpr (.inr ?_), hs, rfl⟩
        refine ⟨by rw [hclient], Dict.mem_iff.mpr ⟨s, hs⟩, fun k s' hget hs' haddr => ?_⟩
        exact hfound ⟨k, s', hget, hs', haddr⟩

/-- The upstream of a client uses an id, and the client uses it in turn. -/
theorem serverConnectionId_reply : ∃ r,
    sampleRun (openEvents 5 7 ++ [.upstreamDatagram 0 (5, [7]) (serverReply 9)]) = some r ∧
    (r.datagramReceived plainCryptography 0 (initialPacket 9) 5).traffic =
      r.traffic ++ [.toUpstream 0 ⟨r.arrivals, 5, initialPacket 9⟩] := by
  have hrun : (sampleRun (openEvents 5 7 ++
      [.upstreamDatagram 0 (5, [7]) (serverReply 9)])).any fun r =>
      opened r.traffic = [(0, (5, [7]))] ∧ (r.sessions.get? (5, [7])).any fun s =>
        s.upstream = 0 ∧ s.client = 5 ∧ [9] ∈ s.serverCids := by decide +kernel
  obtain ⟨r, hr, hstate⟩ := (Option.any_eq_true _ _).mp hrun
  obtain ⟨hopened, hsession⟩ := of_decide_eq_true hstate
  obtain ⟨s, hs, hsession⟩ := (Option.any_eq_true _ _).mp hsession
  obtain ⟨hupstream, hclient, hcid⟩ := of_decide_eq_true hsession
  have hreachable := reachable_sampleRun hr
  have hother : ∀ u k, (u, k) ∈ opened r.traffic → k.1 = 5 → u ≠ s.upstream → ¬ Used r u [9] := by
    intro u k hk _ hu
    rw [hopened, List.mem_singleton] at hk
    exact absurd ((Prod.mk.inj hk).1.trans hupstream.symm) hu
  have hids : initialConnectionIds (initialPacket 9) = .ok ([9], []) := by decide
  have hlong : isLong (initialPacket 9) = true := by decide
  have hreaches := (serverConnectionId hreachable hs hother hlong hids 0).mpr
    (.inl (usedFree_of_mem hreachable hs hcid))
  rw [hupstream, hclient] at hreaches
  exact ⟨r, hr, hreaches⟩

/-- Two upstreams use one id: the client of the second one does not get through with it. -/
theorem serverConnectionId_taken : ¬ ∀ r : Router ℕ, Reachable plainCryptography r →
    ∀ key s cid, r.sessions.get? key = some s → Used r s.upstream cid →
    (∀ u k, (u, k) ∈ opened r.traffic → k.1 = key.1 → u ≠ s.upstream → ¬ Used r u cid) →
    ∀ now data clientScid, isLong data = true → initialConnectionIds data = .ok (cid, clientScid) →
    (r.datagramReceived plainCryptography now data s.client).traffic =
      r.traffic ++ [.toUpstream s.upstream ⟨r.arrivals, s.client, data⟩] := by
  intro hclaim
  have hrun : (sampleRun (openEvents 5 7 ++ openEvents 6 8 ++
      [.upstreamDatagram 0 (5, [7]) (serverReply 9),
        .upstreamDatagram 0 (6, [8]) (serverReply 9)])).any fun r =>
      opened r.traffic = [(0, (5, [7])), (1, (6, [8]))] ∧
      .fromUpstream 1 (serverReply 9) ∈ r.traffic ∧
      (r.datagramReceived plainCryptography 0 (initialPacket 9) 6).traffic = r.traffic ∧
      (r.sessions.get? (6, [8])).any fun s => s.upstream = 1 ∧ s.client = 6 := by decide +kernel
  obtain ⟨r, hr, hstate⟩ := (Option.any_eq_true _ _).mp hrun
  obtain ⟨hopened, hused, hquiet, hsession⟩ := of_decide_eq_true hstate
  obtain ⟨s, hs, hsession⟩ := (Option.any_eq_true _ _).mp hsession
  obtain ⟨hupstream, hclient⟩ := of_decide_eq_true hsession
  have hother : ∀ u k, (u, k) ∈ opened r.traffic → k.1 = 6 → u ≠ s.upstream → ¬ Used r u [9] := by
    intro u k hk haddr hu
    rw [hopened] at hk
    rcases List.mem_cons.mp hk with hk | hk
    · rw [(Prod.mk.inj hk).2] at haddr
      exact absurd haddr (by decide)
    · rw [(Prod.mk.inj (List.mem_singleton.mp hk)).1, hupstream] at hu
      exact absurd rfl hu
  have hforwarded := hclaim r (reachable_sampleRun hr) (6, [8]) s [9] hs
    (hupstream ▸ ⟨serverReply 9, [], hused, by decide, by decide⟩) hother 0 (initialPacket 9) []
    (by decide) (by decide)
  rw [hclient, hquiet] at hforwarded
  have hlength := congrArg List.length hforwarded
  rw [List.length_append, List.length_singleton] at hlength
  omega

end Portwyrm.Quic

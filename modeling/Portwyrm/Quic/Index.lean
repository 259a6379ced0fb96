import Portwyrm.Quic.Frame

/-!
# The session index

The five tables that hold the sessions of the router say the same thing in every state that it
can reach: which sessions there are, which of them belong to a client address, which of them a
connection id of a server leads to, and which lengths these connection ids have.
-/

namespace Portwyrm.Quic

open Base

variable {α : Type} [DecidableEq α]

/-! ## The index by address -/

/-- `sessions_by_addr` holds, for each address, the non-empty set of the sessions of that
address. -/
structure AddrIndexed (sessions : Dict (Key α) (Session α))
    (byAddr : Dict α (Dict.KeySet (Key α))) : Prop where
  keys : ∀ a keys, byAddr.get? a = some keys →
    (∃ k, k ∈ keys) ∧ ∀ k, k ∈ keys ↔ k ∈ sessions ∧ k.1 = a
  addr : ∀ k ∈ sessions, k.1 ∈ byAddr

variable {sessions : Dict (Key α) (Session α)} {byAddr : Dict α (Dict.KeySet (Key α))}
  {byCid : Dict Bytes (Key α)} {counts : Dict ℕ ℕ} {key : Key α} {session : Session α}
  {cid : Bytes}

/-- The set of an address, empty when the address has no session. -/
lemma AddrIndexed.mem_getD (h : AddrIndexed sessions byAddr) {a : α} {k : Key α} :
    k ∈ (byAddr.get? a).getD .empty ↔ k ∈ sessions ∧ k.1 = a := by
  cases hget : byAddr.get? a with
  | some keys => exact (h.keys a keys hget).2 k
  | none =>
    simp only [Option.getD_none, Dict.not_mem_empty, false_iff, not_and]
    rintro hk rfl
    exact absurd (h.addr k hk) (Dict.get?_eq_none_iff.mp hget)

/-- The index depends on the keys of the sessions only. -/
lemma AddrIndexed.congr (h : AddrIndexed sessions byAddr) {sessions' : Dict (Key α) (Session α)}
    (hkeys : ∀ k, k ∈ sessions' ↔ k ∈ sessions) : AddrIndexed sessions' byAddr where
  keys a keys hget := by simpa only [hkeys] using h.keys a keys hget
  addr k hk := h.addr k ((hkeys k).mp hk)

lemma AddrIndexed.add (h : AddrIndexed sessions byAddr) :
    AddrIndexed (sessions.set key session)
      (byAddr.set key.1 (((byAddr.get? key.1).getD .empty).add key)) where
  keys a keys hget := by
    rw [Dict.get?_set] at hget
    split at hget
    · rename_i ha
      obtain rfl := Option.some.inj hget
      refine ⟨⟨key, Dict.mem_add.mpr (.inl rfl)⟩, fun k => ?_⟩
      rw [Dict.mem_add, h.mem_getD, Dict.mem_set, ha]
      constructor
      · rintro (rfl | ⟨hk, hka⟩)
        · exact ⟨.inl rfl, rfl⟩
        · exact ⟨.inr hk, hka⟩
      · rintro ⟨rfl | hk, hka⟩
        · exact .inl rfl
        · exact .inr ⟨hk, hka⟩
    · rename_i ha
      obtain ⟨hne, hmem⟩ := h.keys a keys hget
      refine ⟨hne, fun k => ?_⟩
      rw [hmem, Dict.mem_set]
      constructor
      · exact fun hk => ⟨.inr hk.1, hk.2⟩
      · rintro ⟨rfl | hk, hka⟩
        · exact absurd hka.symm ha
        · exact ⟨hk, hka⟩
  addr k hk := by
    rw [Dict.mem_set]
    rcases Dict.mem_set.mp hk with rfl | hk
    · exact .inl rfl
    · exact .inr (h.addr k hk)

omit [DecidableEq α] in
lemma size_eq_zero_iff {κ : Type} {β : Type} [DecidableEq κ] {d : Dict κ β} :
    d.size = 0 ↔ ∀ k, k ∉ d := by
  rw [Dict.size_eq, List.length_eq_zero_iff, List.eq_nil_iff_forall_not_mem]
  rfl

/-- What a session that goes leaves in the index by address. -/
lemma AddrIndexed.discard (h : AddrIndexed sessions byAddr) {keys : Dict.KeySet (Key α)}
    (hkeys : byAddr.get? key.1 = some keys) :
    AddrIndexed (sessions.pop key)
      (if (keys.pop key).size = 0 then byAddr.pop key.1 else byAddr.set key.1 (keys.pop key)) := by
  obtain ⟨-, hmem⟩ := h.keys _ _ hkeys
  have hother : ∀ a keys', a ≠ key.1 → byAddr.get? a = some keys' →
      (∃ k, k ∈ keys') ∧ ∀ k, k ∈ keys' ↔ k ∈ sessions.pop key ∧ k.1 = a := by
    intro a keys' ha hget
    obtain ⟨hne, hmem'⟩ := h.keys a keys' hget
    refine ⟨hne, fun k => ?_⟩
    rw [hmem', Dict.mem_pop]
    constructor
    · exact fun hk => ⟨⟨fun hkey => ha (hkey ▸ hk.2.symm), hk.1⟩, hk.2⟩
    · exact fun hk => ⟨hk.1.2, hk.2⟩
  split
  · rename_i hsize
    rw [size_eq_zero_iff] at hsize
    refine ⟨fun a keys' hget => ?_, fun k hk => ?_⟩
    · rw [Dict.get?_pop] at hget
      split at hget
      · simp at hget
      · rename_i ha
        exact hother a keys' ha hget
    · obtain ⟨hne, hk⟩ := Dict.mem_pop.mp hk
      refine Dict.mem_pop.mpr ⟨fun ha => ?_, h.addr k hk⟩
      exact hsize k (Dict.mem_pop.mpr ⟨hne, (hmem k).mpr ⟨hk, ha⟩⟩)
  · rename_i hsize
    refine ⟨fun a keys' hget => ?_, fun k hk => ?_⟩
    · rw [Dict.get?_set] at hget
      split at hget
      · rename_i ha
        obtain rfl := Option.some.inj hget
        rw [size_eq_zero_iff] at hsize
        refine ⟨by simpa using hsize, fun k => ?_⟩
        rw [Dict.mem_pop, hmem, Dict.mem_pop, ha]
        tauto
      · rename_i ha
        exact hother a keys' ha hget
    · exact Dict.mem_set.mpr (.inr (h.addr k (Dict.mem_pop.mp hk).2))

/-! ## The index by connection id -/

/-- `sessions_by_server_cid` leads from a connection id to the session that has it. -/
def CidIndexed (sessions : Dict (Key α) (Session α)) (byCid : Dict Bytes (Key α)) : Prop :=
  ∀ c k, byCid.get? c = some k ↔ ∃ s, sessions.get? k = some s ∧ c ∈ s.serverCids

/-- A session without connection ids joins. -/
lemma CidIndexed.add (h : CidIndexed sessions byCid) (hkey : key ∉ sessions)
    (hcids : ∀ c, c ∉ session.serverCids) : CidIndexed (sessions.set key session) byCid := by
  intro c k
  rw [h, Dict.get?_set]
  split
  · rename_i hk
    rw [hk, Dict.get?_eq_none_iff.mpr hkey]
    simp [hcids]
  · rfl

/-- A session changes, but not in its connection ids. -/
lemma CidIndexed.update (h : CidIndexed sessions byCid) {session' : Session α}
    (hget : sessions.get? key = some session) (hcids : session'.serverCids = session.serverCids) :
    CidIndexed (sessions.set key session') byCid := by
  intro c k
  rw [h, Dict.get?_set]
  split
  · rename_i hk
    rw [hk, hget]
    simp [hcids]
  · rfl

/-- A session gets a connection id that is free. -/
lemma CidIndexed.index (h : CidIndexed sessions byCid) (hget : sessions.get? key = some session)
    (hfree : byCid.get? cid = none) :
    CidIndexed (sessions.set key { session with serverCids := session.serverCids.add cid })
      (byCid.set cid key) := by
  have hnone : ∀ k s, sessions.get? k = some s → cid ∉ s.serverCids := by
    intro k s hk hmem
    have := (h cid k).mpr ⟨s, hk, hmem⟩
    simp [hfree] at this
  intro c k
  rw [Dict.get?_set, Dict.get?_set]
  by_cases hc : c = cid
  · subst hc
    by_cases hk : k = key
    · simp [hk, Dict.mem_add]
    · simp only [if_true, Option.some.injEq, if_neg hk, Ne.symm hk, false_iff, not_exists, not_and]
      exact fun s hs => hnone k s hs
  · rw [if_neg hc, h]
    by_cases hk : k = key
    · simp [hk, hget, Dict.mem_add, hc]
    · rw [if_neg hk]

/-- A session leaves with its connection ids. -/
lemma CidIndexed.remove (h : CidIndexed sessions byCid) (hget : sessions.get? key = some session)
    {byCid' : Dict Bytes (Key α)}
    (hbyCid : ∀ c, byCid'.get? c = if c ∈ session.serverCids then none else byCid.get? c) :
    CidIndexed (sessions.pop key) byCid' := by
  intro c k
  rw [hbyCid, Dict.get?_pop]
  by_cases hc : c ∈ session.serverCids
  · rw [if_pos hc]
    split
    · simp
    · rename_i hk
      refine iff_of_false (by simp) ?_
      rintro ⟨s, hs, hcs⟩
      have h₁ := (h c k).mpr ⟨s, hs, hcs⟩
      have h₂ := (h c key).mpr ⟨session, hget, hc⟩
      exact hk (Option.some.inj (h₁.symm.trans h₂))
  · rw [if_neg hc, h]
    split
    · rename_i hk
      rw [hk, hget]
      simp [hc]
    · rfl

/-! ## The lengths of connection ids -/

/-- The number of connection ids of a length. -/
def cidCount (byCid : Dict Bytes (Key α)) (n : ℕ) : ℕ := byCid.keys.countP fun c => c.length = n

/-- `_server_cid_length_counts` holds the number of connection ids of each length that occurs,
and `_server_cid_lengths` its keys in descending order. -/
structure LengthsIndexed (byCid : Dict Bytes (Key α)) (counts : Dict ℕ ℕ) (lengths : List ℕ) :
    Prop where
  count : ∀ n, counts.get? n = if cidCount byCid n = 0 then none else some (cidCount byCid n)
  sorted : lengths = Router.sortedLengths counts

omit [DecidableEq α] in
lemma LengthsIndexed.getD {lengths : List ℕ} (h : LengthsIndexed byCid counts lengths) (n : ℕ) :
    (counts.get? n).getD 0 = cidCount byCid n := by
  rw [h.count]
  split
  · rename_i hzero
    rw [hzero, Option.getD_none]
  · rfl

omit [DecidableEq α] in
lemma LengthsIndexed.index {lengths : List ℕ} (h : LengthsIndexed byCid counts lengths)
    (hfree : byCid.get? cid = none) :
    LengthsIndexed (byCid.set cid key)
      (counts.set cid.length ((counts.get? cid.length).getD 0 + 1))
      (Router.sortedLengths (counts.set cid.length ((counts.get? cid.length).getD 0 + 1))) where
  count n := by
    have hcount : cidCount (byCid.set cid key) n =
        cidCount byCid n + if cid.length = n then 1 else 0 := by
      rw [cidCount, Dict.countP_keys_set_of_not_mem _ _ (Dict.get?_eq_none_iff.mp hfree), cidCount]
      simp
    rw [hcount, Dict.get?_set, h.getD]
    by_cases hn : n = cid.length
    · simp [hn]
    · rw [if_neg hn, h.count, if_neg (Ne.symm hn), Nat.add_zero]
  sorted := rfl

omit [DecidableEq α] in
lemma LengthsIndexed.discard {lengths : List ℕ} (h : LengthsIndexed byCid counts lengths)
    (hmem : cid ∈ byCid) (r : Router α) (hr : r.serverCidLengthCounts = counts) :
    LengthsIndexed (byCid.pop cid) (r.removeServerCidLength cid.length).serverCidLengthCounts
      (r.removeServerCidLength cid.length).serverCidLengths where
  count n := by
    have hcount : cidCount (byCid.pop cid) n + (if cid.length = n then 1 else 0) =
        cidCount byCid n := by
      have := Dict.countP_keys_pop_of_mem (fun c : Bytes => c.length = n) hmem
      simpa [cidCount] using this
    simp only [Router.removeServerCidLength, hr, h.getD]
    by_cases hn : n = cid.length
    · subst hn
      rw [if_pos rfl] at hcount
      split
      · rw [Dict.get?_pop_self, if_pos (by omega)]
      · rw [Dict.get?_set_self, if_neg (by omega), ← hcount, Nat.add_sub_cancel]
    · rw [if_neg (Ne.symm hn), Nat.add_zero] at hcount
      rw [hcount, ← h.count]
      split
      · rw [Dict.get?_pop, if_neg hn]
      · rw [Dict.get?_set_of_ne _ _ hn]
  sorted := rfl

omit [DecidableEq α] in
/-- The lengths descend, and are those of the connection ids that are indexed. -/
lemma LengthsIndexed.lengths_spec {lengths : List ℕ} (h : LengthsIndexed byCid counts lengths) :
    lengths.Pairwise (· > ·) ∧ ∀ n, n ∈ lengths ↔ cidCount byCid n ≠ 0 := by
  have hsorted : (Router.sortedLengths counts).Pairwise (· ≥ ·) :=
    List.pairwise_insertionSort _ _
  have hperm : (Router.sortedLengths counts).Perm counts.keys := List.perm_insertionSort _ _
  have hnodup : (Router.sortedLengths counts).Nodup := hperm.nodup_iff.mpr counts.keys_nodup
  rw [h.sorted]
  refine ⟨(hsorted.and hnodup).imp fun hab => lt_of_le_of_ne hab.1 (Ne.symm hab.2), fun n => ?_⟩
  rw [hperm.mem_iff, Dict.mem_keys_iff, h.count]
  split
  · rename_i hzero
    simp [hzero]
  · rename_i hzero
    simp [hzero]

/-! ## The tables of a router -/

/-- The tables of the sessions agree. -/
structure Indexed (r : Router α) : Prop where
  client : ∀ k s, r.sessions.get? k = some s → s.client = k.1
  addr : AddrIndexed r.sessions r.sessionsByAddr
  cid : CidIndexed r.sessions r.sessionsByServerCid
  lengths : LengthsIndexed r.sessionsByServerCid r.serverCidLengthCounts r.serverCidLengths

variable {r r' : Router α}

lemma Indexed.congr (h : Indexed r) (heq : SameIndex r r') : Indexed r' where
  client := by rw [heq.sessions]; exact h.client
  addr := by rw [heq.sessions, heq.sessionsByAddr]; exact h.addr
  cid := by rw [heq.sessions, heq.sessionsByServerCid]; exact h.cid
  lengths := by
    rw [heq.sessionsByServerCid, heq.serverCidLengthCounts, heq.serverCidLengths]
    exact h.lengths

lemma sessions_updateSession (f : Session α → Session α) (k : Key α) :
    (r.updateSession key f).sessions.get? k =
      if k = key then (r.sessions.get? key).map f else r.sessions.get? k := by
  unfold Router.updateSession
  split
  · rename_i hget
    split
    · rename_i hk
      rw [hk, hget]
      rfl
    · rfl
  · rename_i session hget
    dsimp only
    rw [Dict.get?_set, hget]
    rfl

/-- A change of a session that keeps its address and its connection ids. -/
lemma Indexed.updateSession (h : Indexed r) (key : Key α) (f : Session α → Session α)
    (hclient : ∀ s, (f s).client = s.client) (hcids : ∀ s, (f s).serverCids = s.serverCids) :
    Indexed (r.updateSession key f) := by
  unfold Router.updateSession
  split
  · exact h
  · rename_i session hget
    refine ⟨fun k s hs => ?_, ?_, h.cid.update hget (hcids session), h.lengths⟩
    · dsimp only at hs
      rw [Dict.get?_set] at hs
      split at hs
      · rename_i hk
        rw [← Option.some.inj hs, hclient, hk]
        exact h.client key session hget
      · exact h.client k s hs
    · refine h.addr.congr fun k => ?_
      rw [Dict.mem_set]
      constructor
      · rintro (rfl | hk)
        · exact Dict.mem_iff.mpr ⟨session, hget⟩
        · exact hk
      · exact .inr

lemma Indexed.indexServerConnectionId (h : Indexed r) :
    Indexed (r.indexServerConnectionId key cid) := by
  unfold Router.indexServerConnectionId
  split
  · exact h
  · rename_i session hget
    split
    · exact h
    · rename_i hfree
      have hmem : ∀ k, k ∈ r.sessions.set key
          { session with serverCids := session.serverCids.add cid } ↔ k ∈ r.sessions := by
        intro k
        rw [Dict.mem_set]
        exact ⟨fun hk => hk.elim (fun hk => hk ▸ Dict.mem_iff.mpr ⟨session, hget⟩) id, .inr⟩
      unfold Router.updateSession
      rw [hget]
      refine ⟨fun k s hs => ?_, h.addr.congr hmem, h.cid.index hget hfree, h.lengths.index hfree⟩
      dsimp only at hs
      rw [Dict.get?_set] at hs
      split at hs
      · rename_i hk
        rw [← Option.some.inj hs, hk]
        exact h.client key session hget
      · exact h.client k s hs

lemma Indexed.registerServerConnectionId (h : Indexed r) (key : Key α) (data : Bytes) :
    Indexed (r.registerServerConnectionId key data) := by
  unfold Router.registerServerConnectionId
  split
  · exact h
  · split
    · exact h
    · split
      · exact h
      · exact h.indexServerConnectionId

/-- A session joins under a new key. -/
lemma Indexed.addSession (h : Indexed r) (hkey : key ∉ r.sessions) (hclient : session.client = key.1)
    (hcids : session.serverCids = .empty) : Indexed (r.addSession key session) := by
  unfold Router.addSession
  rw [hcids]
  refine ⟨fun k s hs => ?_, ?_, h.cid.add hkey (by simp [hcids]), h.lengths⟩
  · have hget : (r.sessions.set key session).get? k = some s := hs
    rw [Dict.get?_set] at hget
    split at hget
    · rename_i hk
      rw [← Option.some.inj hget, hk, hclient]
    · exact h.client k s hget
  · have hadd : AddrIndexed (r.sessions.set key session)
        (r.sessionsByAddr.set key.1 (((r.sessionsByAddr.get? key.1).getD .empty).add key)) :=
      h.addr.add
    rw [← hclient] at hadd
    exact hadd

/-- The connection ids of a session leave the index one by one. -/
lemma foldl_discardServerCid (r : Router α) (key : Key α) {l : List Bytes} (hl : l.Nodup)
    (howner : ∀ c ∈ l, r.sessionsByServerCid.get? c = some key)
    (hlengths : LengthsIndexed r.sessionsByServerCid r.serverCidLengthCounts r.serverCidLengths) :
    let r' := l.foldl (Router.discardServerCid key) r
    r'.sessions = r.sessions ∧ r'.sessionsByAddr = r.sessionsByAddr ∧
    LengthsIndexed r'.sessionsByServerCid r'.serverCidLengthCounts r'.serverCidLengths ∧
    ∀ c, r'.sessionsByServerCid.get? c = if c ∈ l then none else r.sessionsByServerCid.get? c := by
  induction l generalizing r with
  | nil => exact ⟨rfl, rfl, hlengths, by simp⟩
  | cons cid l ih =>
    obtain ⟨hcid, hl⟩ := List.nodup_cons.mp hl
    have hget := howner cid List.mem_cons_self
    have hstep : r.discardServerCid key cid = Router.removeServerCidLength cid.length
        { r with sessionsByServerCid := r.sessionsByServerCid.pop cid } := by
      rw [Router.discardServerCid, if_pos hget]
    have hcids : (r.discardServerCid key cid).sessionsByServerCid =
        r.sessionsByServerCid.pop cid := by
      rw [hstep]
      rfl
    obtain ⟨hsessions, hbyAddr, hlengths', hbyCid⟩ := ih (r.discardServerCid key cid) hl
      (fun c hc => by
        have hne : c ≠ cid := fun heq => hcid (heq ▸ hc)
        rw [hcids, Dict.get?_pop, if_neg hne]
        exact howner c (List.mem_cons_of_mem _ hc))
      (by
        rw [hcids, hstep]
        exact hlengths.discard (Dict.mem_iff.mpr ⟨_, hget⟩) _ rfl)
    refine ⟨?_, ?_, hlengths', fun c => ?_⟩
    · rw [List.foldl_cons, hsessions, hstep]
      rfl
    · rw [List.foldl_cons, hbyAddr, hstep]
      rfl
    · rw [List.foldl_cons, hbyCid, hcids, Dict.get?_pop]
      by_cases hc : c = cid
      · simp [hc]
      · simp [hc]

lemma discardAddr_eq (key : Key α) {client : α} {keys : Dict.KeySet (Key α)}
    (hkeys : r.sessionsByAddr.get? client = some keys) :
    r.discardAddr key client = { r with
      sessionsByAddr := (if (keys.pop key).size = 0 then r.sessionsByAddr.pop client
        else r.sessionsByAddr.set client (keys.pop key)) } := by
  rw [Router.discardAddr, hkeys]

/-- A session leaves. -/
lemma Indexed.removeSession_spec (h : Indexed r) :
    Indexed (r.removeSession key) ∧ (r.removeSession key).sessions = r.sessions.pop key := by
  unfold Router.removeSession
  cases hget : r.sessions.get? key with
  | none =>
    refine ⟨h, ?_⟩
    have hnot : ∀ e ∈ r.sessions.entries, e.1 ≠ key := by
      rintro ⟨k, s⟩ he rfl
      rw [Dict.mem_entries_iff, hget] at he
      exact absurd he (by simp)
    have hentries : r.sessions.entries.filter (fun e => e.1 ≠ key) = r.sessions.entries :=
      List.filter_eq_self.mpr fun e he => by simpa using hnot e he
    simp only [Dict.pop, Dict.drop, hentries]
  | some session =>
    obtain ⟨keys, hkeys⟩ := Dict.mem_iff.mp (h.addr.addr key (Dict.mem_iff.mpr ⟨session, hget⟩))
    have hclient := h.client key session hget
    -- the state behind the release of the pause, and behind the removal from the set of the address
    let r₁ := Router.releaseIngressPause key { r with sessions := r.sessions.pop key }
    have h₁ : SameIndex { r with sessions := r.sessions.pop key } r₁ :=
      onlyIngress_releaseIngressPause.sameIndex
    have hkeys₁ : r₁.sessionsByAddr.get? session.client = some keys := by
      rw [h₁.sessionsByAddr, hclient]
      exact hkeys
    have h₂ := discardAddr_eq key hkeys₁
    obtain ⟨hsessions, hbyAddr, hlengths, hbyCid⟩ := foldl_discardServerCid
      (r₁.discardAddr key session.client) key session.serverCids.keys_nodup
      (fun c hc => by
        rw [h₂, h₁.sessionsByServerCid]
        exact (h.cid c key).mpr ⟨session, hget, hc⟩)
      (by
        rw [h₂, h₁.sessionsByServerCid, h₁.serverCidLengthCounts, h₁.serverCidLengths]
        exact h.lengths)
    have hpop : (r₁.discardAddr key session.client).sessions = r.sessions.pop key := by
      rw [h₂]
      exact h₁.sessions
    refine ⟨⟨fun k s hs => ?_, ?_, ?_, hlengths⟩, hsessions.trans hpop⟩
    · have hs' : (r.sessions.pop key).get? k = some s := by
        rw [← hpop, ← hsessions]
        exact hs
      rw [Dict.get?_pop] at hs'
      split at hs'
      · simp at hs'
      · exact h.client k s hs'
    · have haddr := h.addr.discard hkeys
      rw [← hclient] at haddr
      have hbyAddr' := hbyAddr.trans (congrArg Router.sessionsByAddr h₂)
      have hindexed : AddrIndexed (r.sessions.pop key) (session.serverCids.keys.foldl
          (Router.discardServerCid key) (r₁.discardAddr key session.client)).sessionsByAddr := by
        rw [hbyAddr']
        simpa only [h₁.sessionsByAddr] using haddr
      rw [← hpop, ← hsessions] at hindexed
      exact hindexed
    · have hremove : CidIndexed (r.sessions.pop key) (session.serverCids.keys.foldl
          (Router.discardServerCid key) (r₁.discardAddr key session.client)).sessionsByServerCid :=
        h.cid.remove hget fun c => by
          rw [hbyCid c, h₂, h₁.sessionsByServerCid]
          by_cases hc : c ∈ session.serverCids
          · rw [if_pos hc]
            exact if_pos hc
          · rw [if_neg hc]
            exact if_neg hc
      rw [← hpop, ← hsessions] at hremove
      exact hremove

lemma Indexed.emit (h : Indexed r) (t : Traffic α) : Indexed (r.emit t) :=
  h.congr ⟨rfl, rfl, rfl, rfl, rfl⟩

lemma Indexed.releaseIngressPause (h : Indexed r) : Indexed (r.releaseIngressPause key) :=
  h.congr onlyIngress_releaseIngressPause.sameIndex

lemma Indexed.upstreamReceived (h : Indexed r) (now : ℚ) (data : Bytes) :
    Indexed (r.upstreamReceived now key data) := by
  unfold Router.upstreamReceived
  split
  · exact h
  · rename_i session hget
    have hcounted := (h.updateSession key (fun s =>
      { s with upstreamDatagramsReceived := session.upstreamDatagramsReceived + 1 })
      (fun _ => rfl) (fun _ => rfl)).emit (.fromUpstream session.upstream data)
    have hregistered := hcounted.registerServerConnectionId key data
    refine Indexed.updateSession ?_ key _ (fun _ => rfl) (fun _ => rfl)
    split
    · refine Indexed.releaseIngressPause ?_
      split
      · exact hregistered.emit _
      · exact hregistered
    · split
      · exact hregistered.emit _
      · exact hregistered

lemma Indexed.forward (h : Indexed r) (now : ℚ) (datagram : Datagram α) :
    Indexed (r.forward now key datagram) := by
  unfold Router.forward
  split
  · exact h
  · refine Indexed.emit (h.updateSession key _ ?_ ?_) _
    · exact fun _ => rfl
    · exact fun _ => rfl

lemma Indexed.datagramReceived (h : Indexed r) (C : Cryptography) (now : ℚ) (data : Bytes)
    (addr : α) : Indexed (r.datagramReceived C now data addr) := by
  have harrived : Indexed { r with arrivals := r.arrivals + 1 } := h.congr ⟨rfl, rfl, rfl, rfl, rfl⟩
  unfold Router.datagramReceived
  dsimp only
  split
  · exact harrived.forward now _
  · split
    · exact harrived
    · split
      · exact harrived
      · exact harrived.congr (onlyHandshakes_receiveInitial C _ _ _).sameIndex

lemma Indexed.openSucceeds (h : Indexed r) (now : ℚ) {task : OpenTask α}
    (hkey : task.key ∉ r.sessions) : Indexed (r.openSucceeds now task) := by
  have hopened : Indexed ({ r with nextUpstream := r.nextUpstream + 1 }.emit
      (.opened r.nextUpstream task.key)) := h.congr ⟨rfl, rfl, rfl, rfl, rfl⟩
  unfold Router.openSucceeds
  dsimp only
  refine Indexed.congr ?_ (onlyHandshakes_finishOpen task).sameIndex
  refine Indexed.congr (r := Router.pauseIngress now task.key _) ?_ ⟨rfl, rfl, rfl, rfl, rfl⟩
  refine Indexed.congr ?_ (onlyIngress_pauseIngress now).sameIndex
  refine Indexed.congr (hopened.addSession hkey rfl rfl) ⟨rfl, rfl, rfl, rfl, rfl⟩

lemma Indexed.openFails (h : Indexed r) (task : OpenTask α) : Indexed (r.openFails task) := by
  have hdropped : Indexed (r.dropPending task.key) := h.congr onlyHandshakes_dropPending.sameIndex
  exact hdropped.releaseIngressPause.congr (onlyHandshakes_finishOpen task).sameIndex

/-! ## Sessions that are being opened -/

/-- The calls of `_open` in flight have different keys, which are in `opening` and of no
session. -/
structure Opens (r : Router α) : Prop where
  nodup : (r.tasks.map OpenTask.key).Nodup
  opening : ∀ task ∈ r.tasks, task.key ∈ r.opening
  fresh : ∀ k ∈ r.opening, k ∉ r.sessions

omit [DecidableEq α] in
lemma Opens.congr (h : Opens r) (htasks : r'.tasks = r.tasks) (hopening : r'.opening = r.opening)
    (hsessions : ∀ k, k ∈ r'.sessions → k ∈ r.sessions) : Opens r' where
  nodup := by rw [htasks]; exact h.nodup
  opening := by rw [htasks, hopening]; exact h.opening
  fresh k hk := fun hk' => h.fresh k (hopening ▸ hk) (hsessions k hk')

omit [DecidableEq α] in
lemma Opens.congr_handshakes (h : Opens r) (heq : SameHandshakes r r')
    (hsessions : ∀ k, k ∈ r'.sessions → k ∈ r.sessions) : Opens r' :=
  h.congr heq.tasks heq.opening hsessions

/-- A session is not added by a change of a session. -/
lemma mem_sessions_updateSession (f : Session α → Session α) {k : Key α} :
    k ∈ (r.updateSession key f).sessions ↔ k ∈ r.sessions := by
  rw [Dict.mem_iff, Dict.mem_iff, sessions_updateSession]
  split
  · rename_i hk
    rw [hk]
    simp
  · rfl

lemma mem_sessions_indexServerConnectionId {k : Key α} :
    k ∈ (r.indexServerConnectionId key cid).sessions ↔ k ∈ r.sessions := by
  unfold Router.indexServerConnectionId
  split
  · rfl
  · split
    · rfl
    · exact mem_sessions_updateSession _

lemma mem_sessions_registerServerConnectionId (data : Bytes) {k : Key α} :
    k ∈ (r.registerServerConnectionId key data).sessions ↔ k ∈ r.sessions := by
  unfold Router.registerServerConnectionId
  split
  · rfl
  · split
    · rfl
    · split
      · rfl
      · exact mem_sessions_indexServerConnectionId

lemma Opens.updateSession (h : Opens r) (key : Key α) (f : Session α → Session α) :
    Opens (r.updateSession key f) :=
  h.congr_handshakes (onlyIndex_updateSession f).sameHandshakes fun _ => (mem_sessions_updateSession f).mp

omit [DecidableEq α] in
lemma Opens.emit (h : Opens r) (t : Traffic α) : Opens (r.emit t) :=
  h.congr rfl rfl fun _ => id

lemma Opens.releaseIngressPause (h : Opens r) : Opens (r.releaseIngressPause key) :=
  h.congr_handshakes onlyIngress_releaseIngressPause.sameHandshakes fun k hk => by
    rwa [onlyIngress_releaseIngressPause.sameIndex.sessions] at hk

lemma Opens.upstreamReceived (h : Opens r) (now : ℚ) (data : Bytes) :
    Opens (r.upstreamReceived now key data) := by
  unfold Router.upstreamReceived
  split
  · exact h
  · rename_i session hget
    have hregistered := ((h.updateSession key (fun s =>
      { s with upstreamDatagramsReceived := session.upstreamDatagramsReceived + 1 })).emit
      (.fromUpstream session.upstream data)).congr_handshakes
      (onlyIndex_registerServerConnectionId key data).sameHandshakes
      fun _ => (mem_sessions_registerServerConnectionId data).mp
    refine Opens.updateSession ?_ key _
    split
    · refine Opens.releaseIngressPause ?_
      split
      · exact hregistered.emit _
      · exact hregistered
    · split
      · exact hregistered.emit _
      · exact hregistered

lemma Opens.forward (h : Opens r) (now : ℚ) (datagram : Datagram α) :
    Opens (r.forward now key datagram) := by
  unfold Router.forward
  split
  · exact h
  · exact (h.updateSession key _).emit _

/-- A connection whose name is that of a route starts to be opened. -/
lemma Opens.route (h : Opens r) (hopening : key ∉ r.opening) (hsessions : key ∉ r.sessions)
    (clientScid : Bytes) (serverName : String) (alpns : List String) :
    Opens (r.route key clientScid serverName alpns) := by
  unfold Router.route
  dsimp only
  split
  · exact h.congr rfl rfl fun _ => id
  · refine ⟨?_, fun task htask => ?_, fun k hk => ?_⟩
    · rw [List.map_append, List.map_singleton]
      refine List.nodup_append.mpr ⟨h.nodup, by simp, ?_⟩
      rintro k hk k' hk' rfl
      obtain ⟨task, htask, rfl⟩ := List.mem_map.mp hk
      have hkey : task.key = key := List.mem_singleton.mp hk'
      exact hopening (hkey ▸ h.opening task htask)
    · rcases List.mem_append.mp htask with htask | htask
      · exact Dict.mem_add.mpr (.inr (h.opening task htask))
      · rw [List.mem_singleton.mp htask]
        exact Dict.mem_add.mpr (.inl rfl)
    · rcases Dict.mem_add.mp hk with rfl | hk
      · exact hsessions
      · exact h.fresh k hk

lemma Opens.inspect (h : Opens r) (C : Cryptography) (hopening : key ∉ r.opening)
    (hsessions : key ∉ r.sessions) (clientScid data : Bytes) :
    Opens (r.inspect C key clientScid data) := by
  unfold Router.inspect
  dsimp only
  split
  · exact h
  · rename_i crypto hcrypto
    have h' : Opens { r with pendingCrypto := r.pendingCrypto.set key crypto } :=
      h.congr rfl rfl fun _ => id
    split
    · exact h'
    · exact h'.route hopening hsessions _ _ _

lemma Opens.receiveInitial (h : Opens r) (C : Cryptography) (hsessions : key ∉ r.sessions)
    (now : ℚ) (clientScid : Bytes) (datagram : Datagram α) :
    Opens (r.receiveInitial C now key clientScid datagram) := by
  unfold Router.receiveInitial
  dsimp only
  split
  · exact h.congr rfl rfl fun _ => id
  · rename_i hopening
    split
    · exact h
    · split
      · exact h.congr rfl rfl fun _ => id
      · refine Opens.inspect ?_ C ?_ ?_ _ _
        · exact h.congr rfl rfl fun _ => id
        · exact hopening
        · exact hsessions

/-- A long header that belongs to no session has the key of none. -/
lemma not_mem_of_sessionForDatagram {data dcid scid : Bytes} {addr : α}
    (h : r.sessionForDatagram data addr = none) (hlong : isLong data = true)
    (hids : initialConnectionIds data = .ok (dcid, scid)) : (addr, dcid) ∉ r.sessions := by
  have hne : data ≠ [] := by
    rintro rfl
    exact absurd hlong (by simp [isLong])
  rw [Router.sessionForDatagram, if_neg hne, if_pos hlong, hids] at h
  dsimp only at h
  split at h
  · exact absurd h (by simp)
  · split at h
    · exact absurd h (by simp)
    · assumption

lemma Opens.datagramReceived (h : Opens r) (C : Cryptography) (now : ℚ) (data : Bytes) (addr : α) :
    Opens (r.datagramReceived C now data addr) := by
  have harrived : Opens { r with arrivals := r.arrivals + 1 } := h.congr rfl rfl fun _ => id
  unfold Router.datagramReceived
  dsimp only
  split
  · exact harrived.forward now _
  · rename_i hnone
    split
    · exact harrived
    · rename_i hlong
      split
      · exact harrived
      · rename_i dcid scid hids
        exact harrived.receiveInitial C
          (not_mem_of_sessionForDatagram hnone (by simpa using hlong) hids) now _ _

/-- The end of a call of `_open` leaves the other calls in order. -/
lemma Opens.finishOpen (h : Opens r) {task : OpenTask α} (htask : task ∈ r.tasks) :
    Opens (r.finishOpen task) where
  nodup := h.nodup.sublist (List.Sublist.map _ List.erase_sublist)
  opening task' htask' := by
    obtain ⟨hne, hmem⟩ := h.nodup.of_map.mem_erase_iff.mp htask'
    refine Dict.mem_pop.mpr ⟨fun hkey => hne ?_, h.opening task' hmem⟩
    exact List.inj_on_of_nodup_map h.nodup hmem htask hkey
  fresh k hk := h.fresh k (Dict.mem_pop.mp hk).2

lemma Opens.openStart (h : Opens r) {task : OpenTask α} (htask : task ∈ r.tasks) :
    Opens (r.openStart task) := by
  unfold Router.openStart
  split
  · exact h.finishOpen htask
  · refine ⟨?_, fun task' htask' => ?_, h.fresh⟩
    · have hperm : ((r.tasks.erase task ++ [{ task with connecting := true }]).map
          OpenTask.key).Perm (r.tasks.map OpenTask.key) := by
        rw [List.map_append, List.map_singleton]
        refine (List.perm_append_singleton _ _).trans ?_
        exact ((List.perm_cons_erase htask).map OpenTask.key).symm
      exact hperm.nodup_iff.mpr h.nodup
    · rcases List.mem_append.mp htask' with htask' | htask'
      · exact h.opening task' (List.mem_of_mem_erase htask')
      · rw [List.mem_singleton.mp htask']
        exact h.opening task htask

/-- The session of a call of `_open` that succeeds. -/
lemma sessions_openSucceeds (now : ℚ) (task : OpenTask α) :
    (r.openSucceeds now task).sessions =
      r.sessions.set task.key (Router.newSession now r.nextUpstream task) := by
  unfold Router.openSucceeds
  dsimp only
  rw [(onlyHandshakes_finishOpen task).sameIndex.sessions]
  exact (onlyIngress_pauseIngress now).sameIndex.sessions

lemma handshakes_openSucceeds (now : ℚ) (task : OpenTask α) :
    (r.openSucceeds now task).tasks = r.tasks.erase task ∧
      (r.openSucceeds now task).opening = r.opening.pop task.key := by
  unfold Router.openSucceeds Router.finishOpen
  dsimp only
  rw [onlyIngress_pauseIngress now |>.sameHandshakes.tasks,
    onlyIngress_pauseIngress now |>.sameHandshakes.opening]
  exact ⟨rfl, rfl⟩

lemma Opens.openSucceeds (h : Opens r) (now : ℚ) {task : OpenTask α} (htask : task ∈ r.tasks) :
    Opens (r.openSucceeds now task) := by
  obtain ⟨htasks, hopening⟩ := handshakes_openSucceeds (r := r) now task
  have hfinish := h.finishOpen htask
  refine ⟨by rw [htasks]; exact hfinish.nodup, by rw [htasks, hopening]; exact hfinish.opening, ?_⟩
  intro k hk
  rw [hopening] at hk
  rw [sessions_openSucceeds, Dict.mem_set, not_or]
  exact ⟨(Dict.mem_pop.mp hk).1, hfinish.fresh k hk⟩

lemma Opens.openFails (h : Opens r) {task : OpenTask α} (htask : task ∈ r.tasks) :
    Opens (r.openFails task) := by
  have hdropped : Opens (r.dropPending task.key) := h.congr rfl rfl fun _ => id
  refine hdropped.releaseIngressPause.finishOpen ?_
  rw [onlyIngress_releaseIngressPause.sameHandshakes.tasks]
  exact htask

/-- A cancelled call leaves the tasks; its key may stay in `opening`. -/
lemma Opens.openCancelled (h : Opens r) {task : OpenTask α} (htask : task ∈ r.tasks) :
    Opens (r.openCancelled task) := by
  unfold Router.openCancelled
  split
  · exact h.finishOpen htask
  · exact ⟨h.nodup.sublist (List.Sublist.map _ List.erase_sublist),
      fun task' htask' => h.opening task' (List.mem_of_mem_erase htask'), h.fresh⟩

/-! ## Runs -/

/-- The tables agree, and the calls of `_open` are in order. -/
structure SessionsOk (r : Router α) : Prop where
  indexed : Indexed r
  opens : Opens r

lemma SessionsOk.removeSession (h : SessionsOk r) : SessionsOk (r.removeSession key) where
  indexed := h.indexed.removeSession_spec.1
  opens := h.opens.congr_handshakes sameHandshakes_removeSession fun k hk => by
    rw [h.indexed.removeSession_spec.2] at hk
    exact (Dict.mem_pop.mp hk).2

lemma SessionsOk.dropPending (h : SessionsOk r) : SessionsOk (r.dropPending key) where
  indexed := h.indexed.congr onlyHandshakes_dropPending.sameIndex
  opens := h.opens.congr rfl rfl fun _ => id

/-- A loop over entries that keeps the sessions in order at each of them. -/
lemma SessionsOk.foldl {β : Type} {f : Router α → β → Router α}
    (hf : ∀ r b, SessionsOk r → SessionsOk (f r b)) (l : List β) (h : SessionsOk r) :
    SessionsOk (l.foldl f r) := by
  induction l generalizing r with
  | nil => exact h
  | cons b l ih => exact ih (hf r b h)

lemma SessionsOk.reap (h : SessionsOk r) (now : ℚ) : SessionsOk (r.reap now) := by
  unfold Router.reap
  refine SessionsOk.foldl (fun r e h => ?_) _ (SessionsOk.foldl (fun r e h => ?_) _ h)
  · split
    · exact h.removeSession
    · exact h
  · split
    · exact h.dropPending
    · exact h

/-- What one event preserves. -/
lemma SessionsOk.step (h : SessionsOk r) (C : Cryptography) (e : Event α) (he : e.Enabled r) :
    SessionsOk (e.apply C r) := by
  cases e with
  | clientDatagram now data addr =>
    exact ⟨h.indexed.datagramReceived C now data addr, h.opens.datagramReceived C now data addr⟩
  | upstreamDatagram now key data =>
    exact ⟨h.indexed.upstreamReceived now data, h.opens.upstreamReceived now data⟩
  | openStart task =>
    exact ⟨h.indexed.congr (onlyHandshakes_openStart task).sameIndex, h.opens.openStart he.2.1⟩
  | openSucceeds now task =>
    have hfresh := h.opens.fresh _ (h.opens.opening task he.2.1)
    exact ⟨h.indexed.openSucceeds now hfresh, h.opens.openSucceeds now he.2.1⟩
  | openFails task => exact ⟨h.indexed.openFails task, h.opens.openFails he.2.1⟩
  | openCancelled task =>
    exact ⟨h.indexed.congr (onlyHandshakes_openCancelled task).sameIndex,
      h.opens.openCancelled he.2⟩
  | reap now => exact h.reap now
  | timerExpired key => exact ⟨h.indexed.releaseIngressPause, h.opens.releaseIngressPause⟩
  | reload file =>
    obtain ⟨routes, mtime, heq⟩ := reload_eq (r := r) file
    rw [Event.apply, heq]
    exact ⟨h.indexed.congr ⟨rfl, rfl, rfl, rfl, rfl⟩, h.opens.congr rfl rfl fun _ => id⟩
  | connectionLost =>
    exact ⟨h.indexed.congr ⟨rfl, rfl, rfl, rfl, rfl⟩, h.opens.congr rfl rfl fun _ => id⟩

lemma sessionsOk_init : SessionsOk (Router.init : Router α) where
  indexed :=
    { client := by simp [Router.init]
      addr := ⟨by simp [Router.init], by simp [Router.init]⟩
      cid := by simp [CidIndexed, Router.init]
      lengths := ⟨fun n => rfl, rfl⟩ }
  opens := ⟨List.nodup_nil, by simp [Router.init], by simp [Router.init]⟩

lemma sessionsOk_made (file : Option ConfigFile) :
    SessionsOk ((Router.init : Router α).connectionMade file) := by
  obtain ⟨routes, mtime, heq⟩ :=
    reload_eq (r := { (Router.init : Router α) with transport := true }) file
  rw [Router.connectionMade, heq]
  have h := sessionsOk_init (α := α)
  exact ⟨h.indexed.congr ⟨rfl, rfl, rfl, rfl, rfl⟩, h.opens.congr rfl rfl fun _ => id⟩

theorem reachable_sessionsOk {C : Cryptography} (h : Reachable C r) : SessionsOk r := by
  induction h with
  | made file => exact sessionsOk_made file
  | step h e he ih => exact ih.step C e he

/-- The session index in every reachable state: the sessions of each address, the session of
each connection id, the number of connection ids of each length, and the lengths that occur. -/
theorem sessionIndex {C : Cryptography} (h : Reachable C r) :
    (∀ a keys, r.sessionsByAddr.get? a = some keys → (∃ k, k ∈ keys) ∧
      ∀ k, k ∈ keys ↔ ∃ s, r.sessions.get? k = some s ∧ s.client = a) ∧
    (∀ k s, r.sessions.get? k = some s → s.client ∈ r.sessionsByAddr) ∧
    (∀ c k, r.sessionsByServerCid.get? c = some k ↔
      ∃ s, r.sessions.get? k = some s ∧ c ∈ s.serverCids) ∧
    (∀ n, r.serverCidLengthCounts.get? n =
      if cidCount r.sessionsByServerCid n = 0 then none
      else some (cidCount r.sessionsByServerCid n)) ∧
    r.serverCidLengths.Pairwise (· > ·) ∧
    ∀ n, n ∈ r.serverCidLengths ↔ cidCount r.sessionsByServerCid n ≠ 0 := by
  have hok := (reachable_sessionsOk h).indexed
  have hclient : ∀ k a, (k ∈ r.sessions ∧ k.1 = a) ↔
      ∃ s, r.sessions.get? k = some s ∧ s.client = a := by
    intro k a
    rw [Dict.mem_iff]
    constructor
    · rintro ⟨⟨s, hs⟩, rfl⟩
      exact ⟨s, hs, hok.client k s hs⟩
    · rintro ⟨s, hs, rfl⟩
      exact ⟨⟨s, hs⟩, (hok.client k s hs).symm⟩
  refine ⟨fun a keys hget => ?_, fun k s hs => ?_, hok.cid, hok.lengths.count,
    hok.lengths.lengths_spec⟩
  · obtain ⟨hne, hmem⟩ := hok.addr.keys a keys hget
    exact ⟨hne, fun k => (hmem k).trans (hclient k a)⟩
  · rw [hok.client k s hs]
    exact hok.addr.addr k (Dict.mem_iff.mpr ⟨s, hs⟩)

/-! ### A session with a connection id -/

/-- Cryptography that leaves packets as they are. -/
def plainCryptography : Cryptography where
  hmacSha256 _ _ := List.replicate 32 0
  aesEcb _ _ := List.replicate 16 0
  aesGcmDecrypt _ _ ciphertext _ := some ciphertext
  length_hmacSha256 _ _ := by simp
  length_aesEcb _ _ _ := by simp

/-- A ClientHello for the server name `a` and the protocol `h3`. -/
def sampleHello : Bytes :=
  [1, 0, 0, 59] ++ List.replicate 34 0 ++ [0] ++ [0, 0] ++ [0] ++ [0, 19] ++
  [0, 0, 0, 6, 0, 4, 0, 0, 1, 97] ++ [0, 16, 0, 5, 0, 3, 2, 104, 51]

/-- An Initial packet with a destination connection id of one byte. -/
def initialPacket (dcid : UInt8) : Bytes :=
  [0xC0, 0, 0, 0, 1, 1, dcid, 0, 0, 0x40, 67, 0] ++ [6, 0, 63] ++ sampleHello

/-- A reply of a server that uses a source connection id of one byte. -/
def serverReply (scid : UInt8) : Bytes := [0xC0, 0, 0, 0, 1, 0, 1, scid]

/-- A route file with a route for the name `a`. -/
def sampleFile : ConfigFile where
  mtime := 0
  text := some ("\x7b\"listeners\":[\x7b\"routes\":[\x7b\"server_name\":\"a\"," ++
    "\"target\":\"t\",\"target_port\":1\x7d]\x7d]\x7d")

/-- The call of `_open` for a client and a destination connection id. -/
def sampleTask (addr : ℕ) (dcid : UInt8) (connecting : Bool) : OpenTask ℕ :=
  ⟨(addr, [dcid]), ⟨"a", "t", 1, "h3", 1800⟩, [], connecting⟩

/-- A client opens a session. -/
def openEvents (addr : ℕ) (dcid : UInt8) : List (Event ℕ) :=
  [ .clientDatagram 0 (initialPacket dcid) addr,
    .openStart (sampleTask addr dcid false),
    .openSucceeds 0 (sampleTask addr dcid true) ]

instance (r : Router ℕ) (e : Event ℕ) : Decidable (e.Enabled r) := by
  cases e <;> unfold Event.Enabled <;> infer_instance

/-- The state behind a list of events, each of which is possible. -/
def runEvents (r : Router ℕ) : List (Event ℕ) → Option (Router ℕ)
  | [] => some r
  | e :: events =>
    if e.Enabled r then runEvents (e.apply plainCryptography r) events else none

lemma reachable_runEvents {r r' : Router ℕ} {events : List (Event ℕ)}
    (h : Reachable plainCryptography r) (hrun : runEvents r events = some r') :
    Reachable plainCryptography r' := by
  induction events generalizing r with
  | nil => exact Option.some.inj hrun ▸ h
  | cons e events ih =>
    rw [runEvents] at hrun
    split at hrun
    · rename_i he
      exact ih (h.step e he) hrun
    · exact absurd hrun (by simp)

/-- The state of a router with the sample route, behind some events. -/
def sampleRun (events : List (Event ℕ)) : Option (Router ℕ) :=
  runEvents (Router.init.connectionMade (some sampleFile)) events

lemma reachable_sampleRun {r : Router ℕ} {events : List (Event ℕ)}
    (h : sampleRun events = some r) : Reachable plainCryptography r :=
  reachable_runEvents (.made _) h

/-- A connection id that the upstream uses leads to its session. -/
theorem sessionIndex_reply : ∃ r,
    sampleRun (openEvents 5 7 ++ [.upstreamDatagram 0 (5, [7]) (serverReply 9)]) = some r ∧
    r.sessionsByServerCid.get? [9] = some (5, [7]) ∧
    ∃ s, r.sessions.get? (5, [7]) = some s ∧ [9] ∈ s.serverCids := by
  have hrun : (sampleRun (openEvents 5 7 ++
      [.upstreamDatagram 0 (5, [7]) (serverReply 9)])).any fun r =>
      r.sessionsByServerCid.get? [9] = some (5, [7]) := by decide +kernel
  obtain ⟨r, hr, hget⟩ := (Option.any_eq_true _ _).mp hrun
  have hget := of_decide_eq_true hget
  have hcid := (sessionIndex (reachable_sampleRun hr)).2.2.1 [9] (5, [7])
  exact ⟨r, hr, hget, hcid.mp hget⟩

end Portwyrm.Quic

import Mathlib.Algebra.Order.Ring.Int
import Portwyrm.Base.Table

/-!
# Leases

`LeaseStore` of `portwyrm.tables.runtime`: a row per lease name, with the holder of the lease and
the second at which it expires.

The last part is about runs of calls by any holders, with time that passes between any two of them
and inside of a renewal, which reads the clock twice.
-/

namespace Portwyrm.Runtime

open Base

/-! ## The table -/

/-- A row of `runtime_leases`. -/
structure LeaseRow where
  name : String
  holder : String
  expiresAt : ℤ
deriving DecidableEq

/-- The table `runtime_leases`. -/
abbrev LeaseTable := Table LeaseRow

/-- What `acquire` answers. -/
structure LeaseAnswer where
  acquired : Bool
  name : String
  holder : String
  expiresAt : ℤ
deriving DecidableEq

/-- `max(1, int(payload.get("ttl_seconds") or 60))`. -/
def ttlSeconds (ttl : Option ℤ) : ℤ := max 1 ((ttl.filter (· ≠ 0)).getD 60)

namespace LeaseTable

/-- `LeaseStore.acquire`, at the second `now`. -/
def acquire (t : LeaseTable) (name holder : String) (ttl : Option ℤ) (now : ℤ) :
    LeaseAnswer × LeaseTable :=
  let expiresAt := now + ttlSeconds ttl
  match t.selectOne fun row => row.name = name with
  | none => (⟨true, name, holder, expiresAt⟩, t.add ⟨name, holder, expiresAt⟩)
  | some (id, row) =>
    if row.expiresAt > now ∧ row.holder ≠ holder then
      (⟨false, name, row.holder, row.expiresAt⟩, t)
    else
      (⟨true, name, holder, expiresAt⟩,
        t.modify id fun row => { row with holder := holder, expiresAt := expiresAt })

/-- `LeaseStore.renew`: the second at which the lease expires then, if it could be renewed.  The
clock is read again, as `later`, behind the check. -/
def renew (t : LeaseTable) (name holder : String) (ttl : Option ℤ) (now later : ℤ) :
    Option ℤ × LeaseTable :=
  match t.selectOne fun row => row.name = name ∧ row.holder = holder with
  | none => (none, t)
  | some (id, row) =>
    if row.expiresAt ≤ now then (none, t)
    else (some (later + ttlSeconds ttl),
      t.modify id fun row => { row with expiresAt := later + ttlSeconds ttl })

/-- `LeaseStore.release`. -/
def release (t : LeaseTable) (name holder : String) : Bool × LeaseTable :=
  (t.rows.values.any fun row => row.name = name ∧ row.holder = holder,
    t.deleteWhere fun row => row.name = name ∧ row.holder = holder)

/-- A lease is in the name of a holder, be it expired or not. -/
def InNameOf (t : LeaseTable) (name holder : String) : Prop :=
  ∃ id row, t.get? id = some row ∧ row.name = name ∧ row.holder = holder

/-- A holder has a lease that has not expired. -/
def Holds (t : LeaseTable) (now : ℤ) (name holder : String) : Prop :=
  ∃ id row, t.get? id = some row ∧ row.name = name ∧ row.holder = holder ∧ now < row.expiresAt

/-- The lease of a holder has expired. -/
def Expired (t : LeaseTable) (now : ℤ) (name holder : String) : Prop :=
  ∃ id row, t.get? id = some row ∧ row.name = name ∧ row.holder = holder ∧ row.expiresAt ≤ now

/-- The unique constraint of the table. -/
def UniqueNames (t : LeaseTable) : Prop := Table.UniqueOn t LeaseRow.name

variable {t : LeaseTable} {name holder name' holder' : String} {ttl : Option ℤ} {now later : ℤ}

lemma Holds.inNameOf (h : t.Holds now name holder) : t.InNameOf name holder := by
  obtain ⟨id, row, hrow, hname, hholder, -⟩ := h
  exact ⟨id, row, hrow, hname, hholder⟩

lemma InNameOf.holds_or_expired (h : t.InNameOf name holder) (now : ℤ) :
    t.Holds now name holder ∨ t.Expired now name holder := by
  obtain ⟨id, row, hrow, hname, hholder⟩ := h
  rcases lt_or_ge now row.expiresAt with hlt | hge
  · exact .inl ⟨id, row, hrow, hname, hholder, hlt⟩
  · exact .inr ⟨id, row, hrow, hname, hholder, hge⟩

/-- A lease is in the name of one holder. -/
lemma UniqueNames.holder_eq (h : t.UniqueNames) (hholder : t.InNameOf name holder)
    (hholder' : t.InNameOf name holder') : holder = holder' := by
  obtain ⟨id, row, hrow, hname, rfl⟩ := hholder
  obtain ⟨id', row', hrow', hname', rfl⟩ := hholder'
  rw [Table.UniqueOn.row_eq h hrow hrow' (hname.trans hname'.symm)]

/-! ### Acquiring -/

/-- The ways in which a lease is acquired, or not. -/
inductive Acquired (t : LeaseTable) (name holder : String) (ttl : Option ℤ) (now : ℤ) :
    LeaseAnswer × LeaseTable → Prop
  /-- There is no such lease yet. -/
  | created (hnew : ∀ id row, t.get? id = some row → row.name ≠ name) :
      Acquired t name holder ttl now (⟨true, name, holder, now + ttlSeconds ttl⟩,
        t.add ⟨name, holder, now + ttlSeconds ttl⟩)
  /-- Another holder has it. -/
  | refused (id : ℕ) (row : LeaseRow) (hrow : t.get? id = some row) (hname : row.name = name)
      (hlive : now < row.expiresAt) (hother : row.holder ≠ holder) :
      Acquired t name holder ttl now (⟨false, name, row.holder, row.expiresAt⟩, t)
  /-- It has expired, or the holder has it already. -/
  | taken (id : ℕ) (row : LeaseRow) (hrow : t.get? id = some row) (hname : row.name = name)
      (hfree : row.expiresAt ≤ now ∨ row.holder = holder) :
      Acquired t name holder ttl now (⟨true, name, holder, now + ttlSeconds ttl⟩,
        t.modify id fun row => { row with holder := holder, expiresAt := now + ttlSeconds ttl })

lemma acquired (t : LeaseTable) (name holder : String) (ttl : Option ℤ) (now : ℤ) :
    Acquired t name holder ttl now (t.acquire name holder ttl now) := by
  unfold acquire
  dsimp only
  split
  · rename_i hnone
    refine .created fun id row hrow => ?_
    simpa using Table.selectOne_eq_none_iff.mp hnone id row hrow
  · rename_i id row hsome
    obtain ⟨hrow, hname⟩ := Table.get?_of_selectOne hsome
    have hname := of_decide_eq_true hname
    split
    · rename_i hheld
      exact .refused id row hrow hname hheld.1 hheld.2
    · rename_i hfree
      refine .taken id row hrow hname ?_
      rw [not_and_or, not_lt, not_not] at hfree
      exact hfree

/-- Who is refused a lease finds another holder who has it. -/
lemma acquire_refused (h : t.UniqueNames) (hholds : t.Holds now name holder)
    (hne : holder' ≠ holder) :
    (t.acquire name holder' ttl now).1.acquired = false ∧
      (t.acquire name holder' ttl now).2 = t := by
  obtain ⟨id, row, hrow, hname, hholder, hlive⟩ := hholds
  have hcase := acquired t name holder' ttl now
  generalize t.acquire name holder' ttl now = r at hcase
  cases hcase with
  | created hnew => exact absurd hname (hnew id row hrow)
  | refused => exact ⟨rfl, rfl⟩
  | taken id' row' hrow' hname' hfree =>
    obtain rfl := Table.UniqueOn.row_eq h hrow hrow' (hname.trans hname'.symm)
    rcases hfree with hexpired | hsame
    · omega
    · exact absurd (hsame.symm.trans hholder) hne

lemma uniqueNames_acquire (h : t.UniqueNames) : (t.acquire name holder ttl now).2.UniqueNames := by
  have hcase := acquired t name holder ttl now
  generalize t.acquire name holder ttl now = r at hcase
  cases hcase with
  | created hnew => exact Table.UniqueOn.add h hnew
  | refused => exact h
  | taken => exact Table.UniqueOn.modify h fun _ => rfl

/-- A call of `acquire` leaves a lease in its holder's name, unless it takes it from another one. -/
lemma inNameOf_acquire (hholds : t.Holds now name holder) :
    (t.acquire name' holder' ttl now).2.InNameOf name holder := by
  obtain ⟨id, row, hrow, hname, hholder, hlive⟩ := hholds
  have hcase := acquired t name' holder' ttl now
  generalize t.acquire name' holder' ttl now = r at hcase
  cases hcase with
  | created hnew => exact ⟨id, row, Table.get?_add_of_eq_some hrow, hname, hholder⟩
  | refused => exact ⟨id, row, hrow, hname, hholder⟩
  | taken id' row' hrow' hname' hfree =>
    by_cases hid : id = id'
    · subst hid
      obtain rfl : row = row' := Option.some.inj (hrow.symm.trans hrow')
      -- the lease has not expired, so it is the holder who acquires it again
      have hsame : row.holder = holder' := hfree.resolve_left (by omega)
      refine ⟨id, { row with holder := holder', expiresAt := now + ttlSeconds ttl }, ?_, hname, ?_⟩
      · rw [Table.get?_modify, hrow, Option.map_some, if_pos rfl]
      · exact hsame.symm.trans hholder
    · refine ⟨id, row, ?_, hname, hholder⟩
      rw [Table.get?_modify, hrow, Option.map_some, if_neg hid]

/-! ### Renewing -/

/-- The ways in which a lease is renewed, or not. -/
inductive Renewed (t : LeaseTable) (name holder : String) (ttl : Option ℤ) (now later : ℤ) :
    Option ℤ × LeaseTable → Prop
  /-- The lease is not there, in the name of another one, or has expired. -/
  | refused : Renewed t name holder ttl now later (none, t)
  /-- The holder has it. -/
  | extended (id : ℕ) (row : LeaseRow) (hrow : t.get? id = some row) (hname : row.name = name)
      (hholder : row.holder = holder) (hlive : now < row.expiresAt) :
      Renewed t name holder ttl now later (some (later + ttlSeconds ttl),
        t.modify id fun row => { row with expiresAt := later + ttlSeconds ttl })

lemma renewed (t : LeaseTable) (name holder : String) (ttl : Option ℤ) (now later : ℤ) :
    Renewed t name holder ttl now later (t.renew name holder ttl now later) := by
  unfold renew
  split
  · exact .refused
  · rename_i id row hsome
    obtain ⟨hrow, hboth⟩ := Table.get?_of_selectOne hsome
    obtain ⟨hname, hholder⟩ := of_decide_eq_true hboth
    split
    · exact .refused
    · rename_i hlive
      exact .extended id row hrow hname hholder (not_le.mp hlive)

/-- Who does not hold a lease cannot renew it. -/
lemma renew_refused (hnot : ¬ t.Holds now name holder) :
    t.renew name holder ttl now later = (none, t) := by
  have hcase := renewed t name holder ttl now later
  generalize t.renew name holder ttl now later = r at hcase
  cases hcase with
  | refused => rfl
  | extended id row hrow hname hholder hlive =>
    exact absurd ⟨id, row, hrow, hname, hholder, hlive⟩ hnot

lemma uniqueNames_renew (h : t.UniqueNames) :
    (t.renew name holder ttl now later).2.UniqueNames := by
  have hcase := renewed t name holder ttl now later
  generalize t.renew name holder ttl now later = r at hcase
  cases hcase with
  | refused => exact h
  | extended => exact Table.UniqueOn.modify h fun _ => rfl

/-- A renewal leaves every lease in its holder's name. -/
lemma inNameOf_renew (h : t.InNameOf name holder) :
    (t.renew name' holder' ttl now later).2.InNameOf name holder := by
  obtain ⟨id, row, hrow, hname, hholder⟩ := h
  have hcase := renewed t name' holder' ttl now later
  generalize t.renew name' holder' ttl now later = r at hcase
  cases hcase with
  | refused => exact ⟨id, row, hrow, hname, hholder⟩
  | extended id' row' hrow' hname' hholder' hlive =>
    refine ⟨id, _, by rw [Table.get?_modify, hrow, Option.map_some], ?_, ?_⟩ <;> split <;>
      assumption

/-! ### Releasing -/

/-- A release by someone in whose name the lease is not changes nothing. -/
lemma release_of_not_inNameOf (h : ¬ t.InNameOf name holder) :
    t.release name holder = (false, t) := by
  have hnone : ∀ id row, t.get? id = some row →
      ¬ decide (row.name = name ∧ row.holder = holder) = true := by
    intro id row hrow hboth
    obtain ⟨hname, hholder⟩ := of_decide_eq_true hboth
    exact h ⟨id, row, hrow, hname, hholder⟩
  refine Prod.ext ?_ (Table.deleteWhere_eq_self hnone)
  rw [release, List.any_eq_false]
  intro row hrow
  obtain ⟨id, hrow⟩ := Dict.mem_values_iff.mp hrow
  exact hnone id row hrow

/-- A release leaves the leases of others. -/
lemma inNameOf_release (h : t.InNameOf name holder) (hne : ¬ (name' = name ∧ holder' = holder)) :
    (t.release name' holder').2.InNameOf name holder := by
  obtain ⟨id, row, hrow, rfl, rfl⟩ := h
  refine ⟨id, row, Table.get?_deleteWhere.mpr ⟨hrow, ?_⟩, rfl, rfl⟩
  rw [decide_eq_true_eq]
  rintro ⟨hname, hholder⟩
  exact hne ⟨hname.symm, hholder.symm⟩

end LeaseTable

/-! ## Runs -/

/-- What happens to the leases. -/
inductive LeaseEvent
  /-- Time passes. -/
  | passed (time : ℤ)
  | acquire (name holder : String) (ttl : Option ℤ)
  /-- A renewal, which reads the clock a second time. -/
  | renew (name holder : String) (ttl : Option ℤ) (later : ℤ)
  | release (name holder : String)
deriving DecidableEq

/-- The leases, and the clock in seconds. -/
structure LeaseState where
  leases : LeaseTable
  clock : ℤ

namespace LeaseState

/-- One event. -/
def after (s : LeaseState) : LeaseEvent → LeaseState
  | .passed time => { s with clock := time }
  | .acquire name holder ttl => { s with leases := (s.leases.acquire name holder ttl s.clock).2 }
  | .renew name holder ttl later => ⟨(s.leases.renew name holder ttl s.clock later).2, later⟩
  | .release name holder => { s with leases := (s.leases.release name holder).2 }

/-- An event that gives a holder a lease, at least for another while. -/
def Grants (s : LeaseState) (name holder : String) (e : LeaseEvent) : Prop :=
  (∃ ttl, e = .acquire name holder ttl ∧
    (s.leases.acquire name holder ttl s.clock).1.acquired = true) ∨
  ∃ ttl later, e = .renew name holder ttl later ∧
    ((s.leases.renew name holder ttl s.clock later).1).isSome

/-- The clock does not go back. -/
def Timely (s : LeaseState) : LeaseEvent → Prop
  | .passed time => s.clock ≤ time
  | .renew _ _ _ later => s.clock ≤ later
  | .acquire .. | .release .. => True

/-- The events of a run, in order. -/
inductive Run (s : LeaseState) : List LeaseEvent → LeaseState → Prop
  | refl : Run s [] s
  | step {events : List LeaseEvent} {u : LeaseState} (h : Run s events u) (e : LeaseEvent)
      (htimely : u.Timely e) : Run s (events ++ [e]) (u.after e)

/-- A holder has a lease now. -/
def Holds (s : LeaseState) : String → String → Prop := s.leases.Holds s.clock

/-- The lease of a holder has expired by now. -/
def Expired (s : LeaseState) : String → String → Prop := s.leases.Expired s.clock

variable {s u : LeaseState} {events : List LeaseEvent} {name holder holder' : String}

lemma uniqueNames_after (h : s.leases.UniqueNames) (e : LeaseEvent) :
    (s.after e).leases.UniqueNames := by
  cases e with
  | passed => exact h
  | acquire => exact LeaseTable.uniqueNames_acquire h
  | renew => exact LeaseTable.uniqueNames_renew h
  | release => exact Table.UniqueOn.deleteWhere h _

lemma uniqueNames_run (h : Run s events u) (hs : s.leases.UniqueNames) : u.leases.UniqueNames := by
  induction h with
  | refl => exact hs
  | step _ e _ ih => exact uniqueNames_after ih e

/-- A lease that has not expired stays in the name of its holder, unless he releases it. -/
lemma inNameOf_after (h : s.Holds name holder) {e : LeaseEvent}
    (hne : e ≠ .release name holder) : (s.after e).leases.InNameOf name holder := by
  cases e with
  | passed => exact h.inNameOf
  | acquire => exact LeaseTable.inNameOf_acquire h
  | renew => exact LeaseTable.inNameOf_renew h.inNameOf
  | release name' holder' =>
    refine LeaseTable.inNameOf_release h.inNameOf ?_
    rintro ⟨rfl, rfl⟩
    exact hne rfl

/-- A holder keeps a lease until he releases it or it expires. -/
lemma holds_until (h : Run s events u) (hholds : s.Holds name holder) :
    u.Holds name holder ∨ .release name holder ∈ events ∨
      ∃ before v, before <+: events ∧ Run s before v ∧ v.Expired name holder := by
  induction h with
  | refl => exact .inl hholds
  | @step events u hrun e htimely ih =>
    rcases ih with hu | hreleased | ⟨before, v, hprefix, hbefore, hexpired⟩
    · by_cases he : e = .release name holder
      · exact .inr (.inl (by simp [he]))
      · have hname := inNameOf_after hu he
        rcases hname.holds_or_expired (u.after e).clock with hlive | hexpired
        · exact .inl hlive
        · exact .inr (.inr ⟨_, _, List.prefix_rfl, .step hrun e htimely, hexpired⟩)
    · exact .inr (.inl (List.mem_append_left _ hreleased))
    · exact .inr (.inr ⟨before, v, hprefix.trans (List.prefix_append _ _), hbefore, hexpired⟩)

/-- While a lease is held, no event grants it to another holder. -/
lemma not_grants_of_holds (hs : s.leases.UniqueNames) (hholds : s.Holds name holder)
    (hne : holder' ≠ holder) (e : LeaseEvent) : ¬ s.Grants name holder' e := by
  rintro (⟨ttl, -, hacquired⟩ | ⟨ttl, later, -, hrenewed⟩)
  · rw [(LeaseTable.acquire_refused hs hholds hne).1] at hacquired
    exact absurd hacquired (by decide)
  · have hnot : ¬ s.leases.Holds s.clock name holder' := fun hother =>
      hne (hs.holder_eq hother.inNameOf hholds.inNameOf)
    rw [LeaseTable.renew_refused hnot] at hrenewed
    exact absurd hrenewed Bool.false_ne_true

/-- Leases exclude each other.  In every state that calls of any holders reach from an empty table,
whatever time passes between them: one holder at most has a lease that has not expired; until he
releases it or it expires, no other one is granted it; who does not have it cannot renew it; and a
release by someone in whose name it is not changes nothing. -/
theorem lease_exclusion {start : ℤ} (h : Run ⟨Table.empty, start⟩ events s) :
    (∀ name holder holder', s.Holds name holder → s.Holds name holder' → holder = holder') ∧
    (∀ name holder, s.Holds name holder → ∀ later u, Run s later u →
      ∀ holder' e, holder' ≠ holder → u.Grants name holder' e →
        .release name holder ∈ later ∨
        ∃ before v, before <+: later ∧ Run s before v ∧ v.Expired name holder) ∧
    (∀ name holder ttl later, ¬ s.Holds name holder →
      s.leases.renew name holder ttl s.clock later = (none, s.leases)) ∧
    ∀ name holder, ¬ s.leases.InNameOf name holder →
      s.leases.release name holder = (false, s.leases) := by
  have hs : s.leases.UniqueNames := uniqueNames_run h (Table.uniqueOn_empty _)
  refine ⟨?_, ?_, ?_, ?_⟩
  · intro name holder holder' hholds hholds'
    exact hs.holder_eq hholds.inNameOf hholds'.inNameOf
  · intro name holder hholds later u hrun holder' e hne hgrants
    rcases holds_until hrun hholds with hu | hended
    · exact absurd hgrants (not_grants_of_holds (uniqueNames_run hrun hs) hu hne e)
    · exact hended
  · intro name holder ttl later hnot
    exact LeaseTable.renew_refused hnot
  · intro name holder hnot
    exact LeaseTable.release_of_not_inNameOf hnot

/-- One holder has a lease for two seconds. -/
def taken : LeaseState := (⟨Table.empty, 0⟩ : LeaseState).after (.acquire "nginx" "a" (some 2))

/-- When another holder is granted the lease two seconds later, it has expired in between. -/
theorem lease_exclusion_taken : ∃ before v, before <+: [.passed 2] ∧ Run taken before v ∧
    v.Expired "nginx" "a" := by
  have hrun : Run ⟨Table.empty, 0⟩ [.acquire "nginx" "a" (some 2)] taken := .step .refl _ trivial
  have hlater : Run taken [.passed 2] (taken.after (.passed 2)) :=
    .step .refl _ (by decide : (0 : ℤ) ≤ 2)
  have hholds : taken.Holds "nginx" "a" := ⟨1, ⟨"nginx", "a", 2⟩, rfl, rfl, rfl, by decide⟩
  have hgrants : (taken.after (.passed 2)).Grants "nginx" "b" (.acquire "nginx" "b" (some 2)) :=
    .inl ⟨some 2, rfl, rfl⟩
  have h := (lease_exclusion hrun).2.1 "nginx" "a" hholds _ _ hlater "b" _ (by decide) hgrants
  exact h.resolve_left (by decide)

end LeaseState

end Portwyrm.Runtime

import Portwyrm.Base.Numeral
import Portwyrm.Base.OneTime
import Portwyrm.Identity.Enrollment

/-!
# Recovery codes are used once

Runs of the operations on the second factor, for any principals and in any order.  The unused rows
of the recovery codes are the live codes of a run of one-time codes, so what holds of these holds
of the operations.
-/

namespace Portwyrm.Identity

open Base

/-! ## Runs -/

/-- A call at a moment, the tables that it finds, and what it returns. -/
structure MfaEvent where
  before : IdentityTables
  now : ℤ
  call : MfaCall
  answer : Result MfaAnswer

section Runs

variable (P : EnrollmentPrimitives)

/-- The calls of a run, one after the other; a call that raises changes nothing. -/
def mfaRun : List (ℤ × MfaCall) → IdentityTables → List MfaEvent × IdentityTables
  | [], t => ([], t)
  | (now, call) :: calls, t =>
    match call.transaction P now t with
    | .error e =>
      let (events, t') := mfaRun calls t
      (⟨t, now, call, .error e⟩ :: events, t')
    | .ok (answer, t₁) =>
      let (events, t') := mfaRun calls t₁
      (⟨t, now, call, .ok answer⟩ :: events, t')

end Runs

/-- The answer says yes to the code that was presented. -/
def MfaAnswer.positive : MfaAnswer → Bool
  | .begun _ _ => false
  | .confirmed value | .verified value | .disabled value => value
  | .backupCodes codes => codes.isSome

/-- The codes that an answer hands out. -/
def MfaAnswer.codes : MfaAnswer → List String
  | .begun _ codes | .backupCodes (some codes) => codes
  | .confirmed _ | .verified _ | .disabled _ | .backupCodes none => []

/-- The answer says that the codes so far are gone. -/
def MfaAnswer.revokes : MfaAnswer → Bool
  | .begun _ _ | .disabled true | .backupCodes (some _) => true
  | .confirmed _ | .verified _ | .disabled false | .backupCodes none => false

namespace MfaEvent

/-- The call asks for a code: it confirms an enrollment, or the second factor is enabled. -/
def Asks (e : MfaEvent) : Prop :=
  match e.call with
  | .begin _ _ => False
  | .confirm _ _ => True
  | .verify p _ | .disable p _ | .regenerateBackupCodes p _ _ => mfaEnabled p e.before = true

/-- The code is accepted for the principal: the call asks for a code, and is content with this
one. -/
def Accepts (e : MfaEvent) (principalId : ℕ) (code : String) : Prop :=
  e.call.principalId = principalId ∧ e.call.code = some code ∧ e.Asks ∧
    ∃ answer, e.answer = .ok answer ∧ answer.positive = true

/-- The codes that the call hands out. -/
def issued (e : MfaEvent) : List (ℕ × String) :=
  match e.answer with
  | .ok answer => answer.codes.map fun code => (e.call.principalId, code)
  | .error _ => []

/-- The principal whose codes a `begin`, `disable` or `regenerate` has taken away. -/
def revoked (e : MfaEvent) : Option ℕ :=
  match e.answer with
  | .ok answer => if answer.revokes then some e.call.principalId else none
  | .error _ => none

end MfaEvent

/-- What an event says of one-time codes. -/
structure Matches (P : EnrollmentPrimitives) (e : MfaEvent)
    (o : OneTime.Event ℕ String) : Prop where
  issued : o.issued = e.issued
  revoked : o.revoked = e.revoked
  accepted : ∀ principalId code, e.Accepts principalId code →
    ¬ TotpValid P.toMfaPrimitives e.now e.before principalId code →
    o.accepted = some (principalId, code)

/-! ## The tables -/

/-- A recovery code is verified by its own hashes, and by no other. -/
def EnrollmentPrimitives.Exact (P : EnrollmentPrimitives) : Prop :=
  ∀ salt code code', P.verifyBackupCode (P.hashBackupCode salt code) code' = true ↔ code' = code

/-- A row keeps a code. -/
def Keeps (P : EnrollmentPrimitives) (r : RecoveryCodeRow) (a : ℕ × String) : Prop :=
  r.principalId = a.1 ∧ ∃ salt, r.codeDigest = P.hashBackupCode salt a.2

/-- The rows that are not used. -/
def unused (rows : List RecoveryCodeRow) : List RecoveryCodeRow :=
  rows.filter fun r => r.usedAt = none

/-- The tables keep the live codes in their unused rows, and no codes without an enrollment. -/
structure Holds (P : EnrollmentPrimitives) (t : IdentityTables) (live : List (ℕ × String)) :
    Prop where
  rows : List.Forall₂ (Keeps P) (unused t.recoveryCodes) live
  enrolled : ∀ r ∈ t.recoveryCodes, r.principalId ∈ t.enrollments

section Step

variable {P : EnrollmentPrimitives} {now : ℤ} {principalId : ℕ} {code : String}
variable {t t' : IdentityTables} {live : List (ℕ × String)}

/-- A consumed code was live, and is erased. -/
lemma consume_spec (hexact : P.Exact) {rows rows' : List RecoveryCodeRow}
    (h : consumeRecoveryCode P.toMfaPrimitives now principalId code rows = some rows')
    (hrows : List.Forall₂ (Keeps P) (unused rows) live) :
    (principalId, code) ∈ live ∧
      List.Forall₂ (Keeps P) (unused rows') (live.erase (principalId, code)) ∧
      rows'.map RecoveryCodeRow.principalId = rows.map RecoveryCodeRow.principalId := by
  induction rows generalizing rows' live with
  | nil => simp [consumeRecoveryCode] at h
  | cons r rest ih =>
    unfold consumeRecoveryCode at h
    split at h
    · rename_i hmatch
      obtain ⟨rfl, hunused, hverified⟩ := hmatch
      obtain rfl := Option.some.inj h
      have hfilter : unused (r :: rest) = r :: unused rest :=
        List.filter_cons_of_pos (by simpa using hunused)
      rw [hfilter] at hrows
      obtain ⟨a, live', ⟨hname, salt, hdigest⟩, hrest, rfl⟩ := List.forall₂_cons_left_iff.mp hrows
      rw [hdigest, hexact] at hverified
      obtain rfl : a = (r.principalId, code) := Prod.ext hname.symm hverified.symm
      refine ⟨List.mem_cons_self, ?_, rfl⟩
      rw [List.erase_cons_head]
      exact hrest
    · rename_i hmatch
      obtain ⟨rest', hrest', rfl⟩ := Option.map_eq_some_iff.mp h
      by_cases hunused : r.usedAt = none
      · have hfilter : ∀ rest, unused (r :: rest) = r :: unused rest := fun rest =>
          List.filter_cons_of_pos (by simpa using hunused)
        rw [hfilter] at hrows ⊢
        obtain ⟨a, live', hkeeps, hrest, rfl⟩ := List.forall₂_cons_left_iff.mp hrows
        obtain ⟨hmem, herase, hids⟩ := ih hrest' hrest
        have hne : a ≠ (principalId, code) := by
          rintro rfl
          obtain ⟨hname, salt, hdigest⟩ := hkeeps
          exact hmatch ⟨hname, hunused, by rw [hdigest, hexact]⟩
        refine ⟨List.mem_cons_of_mem _ hmem, ?_, by simp [hids]⟩
        rw [List.erase_cons_tail (by simpa using hne)]
        exact .cons hkeeps herase
      · have hfilter : ∀ rest, unused (r :: rest) = unused rest := fun rest =>
          List.filter_cons_of_neg (by simpa using hunused)
        rw [hfilter] at hrows ⊢
        obtain ⟨hmem, herase, hids⟩ := ih hrest' hrows
        exact ⟨hmem, herase, by simp [hids]⟩

/-- What verifying a code consumes. -/
lemma mfaVerify_spec (hexact : P.Exact) {verified : Bool}
    (h : mfaVerify P.toMfaPrimitives now principalId code t = .ok (verified, t'))
    (hholds : Holds P t live) : ∃ accepted : Option (ℕ × String),
      (∀ a ∈ accepted, a ∈ live) ∧ Holds P t' (OneTime.consume live accepted) ∧
      (verified = true → mfaEnabled principalId t = true →
        ¬ TotpValid P.toMfaPrimitives now t principalId code →
        accepted = some (principalId, code)) := by
  rcases mfaVerify_cases h with ⟨rfl, htotp⟩ | ⟨-, rows, hrows, rfl⟩
  · exact ⟨none, nofun, hholds, fun hverified henabled hno =>
      (hno (htotp hverified henabled)).elim⟩
  · obtain ⟨hmem, herase, hids⟩ := consume_spec hexact hrows hholds.rows
    refine ⟨some (principalId, code), fun a ha => Option.mem_some.mp ha ▸ hmem, ⟨herase, ?_⟩,
      fun _ _ _ => rfl⟩
    intro r hr
    have hid : r.principalId ∈ t.recoveryCodes.map RecoveryCodeRow.principalId :=
      hids ▸ List.mem_map_of_mem hr
    obtain ⟨r', hr', hid⟩ := List.mem_map.mp hid
    exact hid ▸ hholds.enrolled r' hr'

/-! ### Codes that go and come -/

lemma unused_append (rows rows' : List RecoveryCodeRow) :
    unused (rows ++ rows') = unused rows ++ unused rows' :=
  List.filter_append rows rows'

lemma unused_withoutCodes (rows : List RecoveryCodeRow) :
    unused (withoutCodes principalId rows) = withoutCodes principalId (unused rows) := by
  rw [unused, withoutCodes, withoutCodes, unused, List.filter_filter, List.filter_filter]
  exact List.filter_congr fun r _ => Bool.and_comm _ _

lemma unused_recoveryRows (codes : List (String × String)) :
    unused (recoveryRows principalId codes) = recoveryRows principalId codes :=
  List.filter_eq_self.mpr fun r hr => by
    obtain ⟨c, -, rfl⟩ := List.mem_map.mp hr
    rfl

/-- The live codes of all other principals. -/
lemma keeps_withoutCodes {rows : List RecoveryCodeRow}
    (h : List.Forall₂ (Keeps P) rows live) :
    List.Forall₂ (Keeps P) (withoutCodes principalId rows)
      (live.filter fun a => some principalId ≠ some a.1) := by
  refine List.rel_filter (fun r a hkeeps => ?_) h
  simp only [hkeeps.1, ne_eq, Option.some.injEq, decide_eq_true_eq]
  exact not_congr eq_comm

/-- The generated codes are kept. -/
lemma keeps_recoveryRows (draws : CodeDraws) :
    List.Forall₂ (Keeps P) (recoveryRows principalId (generateBackupCodes P draws))
      (((generateBackupCodes P draws).map Prod.fst).map fun code => (principalId, code)) := by
  rw [recoveryRows, generateBackupCodes, List.map_map, List.map_map, List.map_map,
    List.forall₂_map_left_iff, List.forall₂_map_right_iff, List.forall₂_same]
  exact fun d _ => ⟨rfl, d.2, rfl⟩

/-- Without an enrollment, there are no codes that deleting it could leave behind. -/
lemma recoveryCodes_deleteEnrollment (principalId : ℕ) (h : Holds P t live) :
    (deleteEnrollment principalId t).recoveryCodes = withoutCodes principalId t.recoveryCodes := by
  unfold deleteEnrollment
  split
  · rename_i hnone
    refine (List.filter_eq_self.mpr fun r hr => ?_).symm
    have hne : r.principalId ≠ principalId := by
      rintro rfl
      exact Dict.get?_eq_none_iff.mp hnone (h.enrolled r hr)
    simpa using hne
  · rfl

lemma holds_deleteEnrollment (principalId : ℕ) (h : Holds P t live) :
    Holds P (deleteEnrollment principalId t)
      (live.filter fun a => some principalId ≠ some a.1) := by
  have hrows := recoveryCodes_deleteEnrollment principalId h
  refine ⟨?_, fun r hr => ?_⟩
  · rw [hrows, unused_withoutCodes]
    exact keeps_withoutCodes h.rows
  · rw [hrows] at hr
    obtain ⟨hmem, hne⟩ := List.mem_filter.mp hr
    unfold deleteEnrollment
    split
    · exact h.enrolled r hmem
    · exact Dict.mem_pop.mpr ⟨by simpa using hne, h.enrolled r hmem⟩

/-- Fresh codes join the live ones. -/
lemma holds_recoveryRows {rows : List RecoveryCodeRow} {enrollments : Dict ℕ EnrollmentRow}
    (hrows : List.Forall₂ (Keeps P) (unused rows) live)
    (henrolled : ∀ r ∈ rows, r.principalId ∈ enrollments) (hp : principalId ∈ enrollments)
    (draws : CodeDraws) :
    Holds P
      { t with
        enrollments := enrollments
        recoveryCodes := rows ++ recoveryRows principalId (generateBackupCodes P draws) }
      (live ++ ((generateBackupCodes P draws).map Prod.fst).map fun c => (principalId, c)) := by
  refine ⟨?_, fun r hr => ?_⟩
  · rw [unused_append, unused_recoveryRows]
    exact List.rel_append hrows (keeps_recoveryRows draws)
  · rcases List.mem_append.mp hr with hr | hr
    · exact henrolled r hr
    · obtain ⟨c, -, rfl⟩ := List.mem_map.mp hr
      exact hp

/-- An operation that only accepts. -/
lemma after_accepting (accepted : Option (ℕ × String)) :
    (⟨accepted, none, []⟩ : OneTime.Event ℕ String).after live = OneTime.consume live accepted := by
  rw [OneTime.Event.after, List.append_nil]
  exact List.filter_eq_self.mpr fun _ _ => rfl

/-! ### One call -/

/-- What an event accepts, when its call verifies a code first. -/
lemma accepted_of_verified (code : String) {call : MfaCall} {answer : MfaAnswer}
    {verified : Bool} {accepted : Option (ℕ × String)} (hcode : call.code = some code)
    (hasks : (⟨t, now, call, .ok answer⟩ : MfaEvent).Asks →
      mfaEnabled call.principalId t = true)
    (hpositive : answer.positive = true → verified = true)
    (haccepted : verified = true → mfaEnabled call.principalId t = true →
      ¬ TotpValid P.toMfaPrimitives now t call.principalId code →
      accepted = some (call.principalId, code)) (q : ℕ) (c : String)
    (h : (⟨t, now, call, .ok answer⟩ : MfaEvent).Accepts q c)
    (htotp : ¬ TotpValid P.toMfaPrimitives now t q c) : accepted = some (q, c) := by
  obtain ⟨rfl, hc, hask, answer', hanswer, hyes⟩ := h
  obtain rfl := Except.ok.inj hanswer
  obtain rfl := Option.some.inj (hcode.symm.trans hc)
  exact haccepted (hpositive hyes) (hasks hask) htotp

/-- A call does to the live codes what its event says. -/
theorem transaction_spec (hexact : P.Exact) {call : MfaCall} {answer : MfaAnswer}
    (h : call.transaction P now t = .ok (answer, t')) (hholds : Holds P t live) :
    ∃ o, Matches P ⟨t, now, call, .ok answer⟩ o ∧ (∀ a ∈ o.accepted, a ∈ live) ∧
      Holds P t' (o.after live) := by
  cases call with
  | begin p draws =>
    obtain ⟨⟨⟨secret, codes⟩, t₁⟩, hbegin, heq⟩ := map_eq_ok_iff.mp h
    obtain ⟨rfl, rfl⟩ := Prod.mk.inj heq
    obtain ⟨hresult, rfl⟩ := Prod.mk.inj (pure_eq_ok_iff.mp hbegin)
    obtain ⟨rfl, rfl⟩ := Prod.mk.inj hresult
    have hdeleted := holds_deleteEnrollment p hholds
    refine ⟨⟨none, some p, ((generateBackupCodes P draws.codes).map Prod.fst).map fun c => (p, c)⟩,
      ⟨rfl, rfl, ?_⟩, by rintro _ ⟨⟩, ?_⟩
    · rintro _ _ ⟨-, hcode, -⟩
      cases hcode
    · refine holds_recoveryRows hdeleted.rows (fun r hr => ?_) ?_ draws.codes
      · exact Dict.mem_set.mpr (.inr (hdeleted.enrolled r hr))
      · exact Dict.mem_set.mpr (.inl rfl)
  | confirm p code =>
    obtain ⟨⟨confirmed, t₁⟩, hconfirm, heq⟩ := map_eq_ok_iff.mp h
    obtain ⟨rfl, rfl⟩ := Prod.mk.inj heq
    refine ⟨⟨none, none, []⟩, ⟨rfl, rfl, ?_⟩, by rintro _ ⟨⟩, ?_⟩
    · rintro _ c ⟨rfl, hcode, -, answer, hanswer, hyes⟩ hno
      obtain rfl := Except.ok.inj hanswer
      obtain rfl := Option.some.inj hcode
      rcases mfaConfirm_cases hconfirm with ⟨hfalse, -⟩ | ⟨-, htotp, -⟩
      · exact (Bool.false_ne_true (hfalse.symm.trans hyes)).elim
      · exact (hno htotp).elim
    · rw [after_accepting]
      rcases mfaConfirm_cases hconfirm with ⟨-, rfl⟩ | ⟨-, -, row, rfl⟩
      · exact hholds
      · exact ⟨hholds.rows, fun r hr => Dict.mem_set.mpr (.inr (hholds.enrolled r hr))⟩
  | verify p code =>
    obtain ⟨⟨verified, t₁⟩, hverify, heq⟩ := map_eq_ok_iff.mp h
    obtain ⟨rfl, rfl⟩ := Prod.mk.inj heq
    obtain ⟨accepted, hlive, hkept, haccepted⟩ := mfaVerify_spec hexact hverify hholds
    refine ⟨⟨accepted, none, []⟩, ⟨rfl, rfl, ?_⟩, hlive, ?_⟩
    · exact accepted_of_verified code rfl id id haccepted
    · rwa [after_accepting]
  | disable p code =>
    obtain ⟨⟨disabled, t₁⟩, hdisable, heq⟩ := map_eq_ok_iff.mp h
    obtain ⟨rfl, rfl⟩ := Prod.mk.inj heq
    obtain ⟨verified, t₂, hverify, hends⟩ := mfaDisable_cases hdisable
    obtain ⟨accepted, hlive, hkept, haccepted⟩ := mfaVerify_spec hexact hverify hholds
    rcases hends with ⟨hverified, rfl, rfl⟩ | ⟨rfl, rfl⟩
    · refine ⟨⟨accepted, some p, []⟩, ⟨rfl, rfl, ?_⟩, hlive, ?_⟩
      · exact accepted_of_verified code rfl id (fun _ => hverified) haccepted
      · rw [OneTime.Event.after, List.append_nil]
        exact holds_deleteEnrollment p hkept
    · refine ⟨⟨accepted, none, []⟩, ⟨rfl, rfl, ?_⟩, hlive, ?_⟩
      · exact accepted_of_verified code rfl id (by rintro ⟨⟩) haccepted
      · rwa [after_accepting]
  | regenerateBackupCodes p code draws =>
    obtain ⟨⟨codes, t₁⟩, hregenerate, heq⟩ := map_eq_ok_iff.mp h
    obtain ⟨rfl, rfl⟩ := Prod.mk.inj heq
    obtain ⟨verified, t₂, hverify, hends⟩ := mfaRegenerateBackupCodes_cases hregenerate
    obtain ⟨accepted, hlive, hkept, haccepted⟩ := mfaVerify_spec hexact hverify hholds
    rcases hends with ⟨rfl, rfl⟩ | ⟨hverified, henrolled, rfl, rfl⟩
    · refine ⟨⟨accepted, none, []⟩, ⟨rfl, rfl, ?_⟩, hlive, ?_⟩
      · exact accepted_of_verified code rfl id (by rintro ⟨⟩) haccepted
      · rwa [after_accepting]
    · refine ⟨⟨accepted, some p,
        ((generateBackupCodes P draws).map Prod.fst).map fun c => (p, c)⟩,
        ⟨rfl, rfl, ?_⟩, hlive, ?_⟩
      · exact accepted_of_verified code rfl id (fun _ => hverified) haccepted
      · refine holds_recoveryRows ?_ (fun r hr => ?_) henrolled draws
        · rw [unused_withoutCodes]
          exact keeps_withoutCodes hkept.rows
        · exact hkept.enrolled r (List.mem_of_mem_filter hr)

end Step

/-! ## Whole runs -/

section Run

variable {P : EnrollmentPrimitives} {t : IdentityTables} {live : List (ℕ × String)}

/-- A run of the operations is a run of one-time codes. -/
theorem mfaRun_spec (calls : List (ℤ × MfaCall)) (hexact : P.Exact) (hholds : Holds P t live) :
    ∃ os, List.Forall₂ (Matches P) (mfaRun P calls t).1 os ∧ OneTime.Valid live os := by
  induction calls generalizing t live with
  | nil => exact ⟨[], .nil, trivial⟩
  | cons c calls ih =>
    obtain ⟨now, call⟩ := c
    rcases hcall : call.transaction P now t with e | ⟨answer, t₁⟩
    · obtain ⟨os, hos, hvalid⟩ := ih hholds
      have hmatches : Matches P ⟨t, now, call, .error e⟩ ⟨none, none, []⟩ := by
        refine ⟨rfl, rfl, ?_⟩
        rintro _ _ ⟨-, -, -, _, hanswer, -⟩
        exact nomatch hanswer
      refine ⟨⟨none, none, []⟩ :: os, ?_, nofun, ?_⟩
      · simp only [mfaRun, hcall]
        exact .cons hmatches hos
      · rwa [after_accepting]
    · obtain ⟨o, hmatches, hlive, hkept⟩ := transaction_spec hexact hcall hholds
      obtain ⟨os, hos, hvalid⟩ := ih hkept
      refine ⟨o :: os, ?_, hlive, hvalid⟩
      simp only [mfaRun, hcall]
      exact .cons hmatches hos

end Run

/-! ## Pending enrollments -/

section Pending

variable {P : EnrollmentPrimitives} {now : ℤ} {principalId q : ℕ} {code : String}
variable {calls : List (ℤ × MfaCall)} {t t' : IdentityTables}

lemma mfaEnabled_of_get? (h : t'.enrollments.get? q = t.enrollments.get? q) :
    mfaEnabled q t' = mfaEnabled q t := by
  rw [mfaEnabled, mfaEnabled, h]

/-- Deleting an enrollment enables nothing. -/
lemma mfaEnabled_deleteEnrollment (h : mfaEnabled q t = false) :
    mfaEnabled q (deleteEnrollment principalId t) = false := by
  unfold deleteEnrollment
  split
  · exact h
  · by_cases hq : q = principalId
    · rw [mfaEnabled, hq, Dict.get?_pop_self]
    · rw [← h]
      exact mfaEnabled_of_get? ((Dict.get?_pop _ _ _).trans (if_neg hq))

/-- A written enrollment decides whether the second factor of its principal is enabled. -/
lemma mfaEnabled_set {row : EnrollmentRow} {codes : List RecoveryCodeRow}
    (h : mfaEnabled q t = false) (hrow : q = principalId → row.confirmed = false) :
    mfaEnabled q { t with
      enrollments := t.enrollments.set principalId row
      recoveryCodes := codes } = false := by
  by_cases hq : q = principalId
  · rw [mfaEnabled, hq, Dict.get?_set_self]
    exact hrow hq
  · rw [← h]
    exact mfaEnabled_of_get? (Dict.get?_set_of_ne _ _ hq)

/-- Verifying keeps the enrollments. -/
lemma enrollments_mfaVerify {verified : Bool}
    (h : mfaVerify P.toMfaPrimitives now principalId code t = .ok (verified, t')) :
    t'.enrollments = t.enrollments := by
  rcases mfaVerify_cases h with ⟨rfl, -⟩ | ⟨-, rows, -, rfl⟩ <;> rfl

/-- Only a confirmation enables a second factor. -/
lemma mfaEnabled_transaction {call : MfaCall} {answer : MfaAnswer}
    (h : call.transaction P now t = .ok (answer, t')) (hpending : mfaEnabled q t = false)
    (hno : call.principalId = q → answer ≠ .confirmed true) : mfaEnabled q t' = false := by
  cases call with
  | begin p draws =>
    obtain ⟨⟨⟨secret, codes⟩, t₁⟩, hbegin, heq⟩ := map_eq_ok_iff.mp h
    obtain ⟨rfl, rfl⟩ := Prod.mk.inj heq
    obtain ⟨-, rfl⟩ := Prod.mk.inj (pure_eq_ok_iff.mp hbegin)
    exact mfaEnabled_set (mfaEnabled_deleteEnrollment hpending) fun _ => rfl
  | confirm p code =>
    obtain ⟨⟨confirmed, t₁⟩, hconfirm, heq⟩ := map_eq_ok_iff.mp h
    obtain ⟨rfl, rfl⟩ := Prod.mk.inj heq
    rcases mfaConfirm_cases hconfirm with ⟨-, rfl⟩ | ⟨rfl, -, row, rfl⟩
    · exact hpending
    · have hne : q ≠ p := fun hq => hno hq.symm rfl
      rw [← hpending]
      exact mfaEnabled_of_get? (Dict.get?_set_of_ne _ _ hne)
  | verify p code =>
    obtain ⟨⟨verified, t₁⟩, hverify, heq⟩ := map_eq_ok_iff.mp h
    obtain ⟨-, rfl⟩ := Prod.mk.inj heq
    rw [← hpending]
    exact mfaEnabled_of_get? (congrArg (fun d => d.get? q) (enrollments_mfaVerify hverify))
  | disable p code =>
    obtain ⟨⟨disabled, t₁⟩, hdisable, heq⟩ := map_eq_ok_iff.mp h
    obtain ⟨-, rfl⟩ := Prod.mk.inj heq
    obtain ⟨verified, t₂, hverify, hends⟩ := mfaDisable_cases hdisable
    have hkept : mfaEnabled q t₂ = false := hpending ▸
      mfaEnabled_of_get? (congrArg (fun d => d.get? q) (enrollments_mfaVerify hverify))
    rcases hends with ⟨-, -, rfl⟩ | ⟨-, rfl⟩
    · exact mfaEnabled_deleteEnrollment hkept
    · exact hkept
  | regenerateBackupCodes p code draws =>
    obtain ⟨⟨codes, t₁⟩, hregenerate, heq⟩ := map_eq_ok_iff.mp h
    obtain ⟨-, rfl⟩ := Prod.mk.inj heq
    obtain ⟨verified, t₂, hverify, hends⟩ := mfaRegenerateBackupCodes_cases hregenerate
    have hkept : mfaEnabled q t₂ = false := hpending ▸
      mfaEnabled_of_get? (congrArg (fun d => d.get? q) (enrollments_mfaVerify hverify))
    rcases hends with ⟨-, rfl⟩ | ⟨-, -, -, rfl⟩ <;> exact hkept

/-- Beginning an enrollment disables the second factor. -/
lemma mfaEnabled_of_begun {call : MfaCall} {secret : String} {codes : List String}
    (h : call.transaction P now t = .ok (.begun secret codes, t')) :
    mfaEnabled call.principalId t' = false := by
  obtain ⟨r, hr, heq⟩ : ∃ r : (String × List String) × IdentityTables,
      (∃ p draws, call = .begin p draws ∧ mfaBegin P p draws t = .ok r) ∧ r.2 = t' := by
    cases call with
    | begin p draws =>
      obtain ⟨r, hr, heq⟩ := map_eq_ok_iff.mp h
      exact ⟨r, ⟨p, draws, rfl, hr⟩, (Prod.mk.inj heq).2⟩
    | confirm p code | verify p code | disable p code | regenerateBackupCodes p code draws =>
      obtain ⟨r, -, heq⟩ := map_eq_ok_iff.mp h
      exact nomatch (Prod.mk.inj heq).1
  obtain ⟨p, draws, rfl, hbegin⟩ := hr
  obtain rfl := pure_eq_ok_iff.mp hbegin
  rw [← heq, MfaCall.principalId, mfaEnabled, Dict.get?_set_self]

/-- Without a confirmation, a run enables no second factor. -/
lemma mfaEnabled_mfaRun (hpending : mfaEnabled q t = false)
    (hno : ∀ e ∈ (mfaRun P calls t).1, e.call.principalId = q →
      e.answer ≠ .ok (.confirmed true)) : mfaEnabled q (mfaRun P calls t).2 = false := by
  induction calls generalizing t with
  | nil => exact hpending
  | cons c calls ih =>
    obtain ⟨now, call⟩ := c
    rcases hcall : call.transaction P now t with e | ⟨answer, t₁⟩
    · simp only [mfaRun, hcall] at hno ⊢
      exact ih hpending fun e he => hno e (List.mem_cons_of_mem _ he)
    · simp only [mfaRun, hcall] at hno ⊢
      have hstep := mfaEnabled_transaction hcall hpending fun hq hanswer =>
        hno _ List.mem_cons_self hq (congrArg Except.ok hanswer)
      exact ih hstep fun e he => hno e (List.mem_cons_of_mem _ he)

/-- An enrollment that has been begun is not enabled before it is confirmed. -/
lemma mfaEnabled_begun {l₁ l₂ : List MfaEvent} {e : MfaEvent} {secret : String}
    {codes : List String} (hrun : (mfaRun P calls t).1 = l₁ ++ e :: l₂)
    (hbegun : e.answer = .ok (.begun secret codes))
    (hno : ∀ e' ∈ l₂, e'.call.principalId = e.call.principalId →
      e'.answer ≠ .ok (.confirmed true)) :
    mfaEnabled e.call.principalId (mfaRun P calls t).2 = false := by
  induction calls generalizing t l₁ with
  | nil => simp [mfaRun] at hrun
  | cons c calls ih =>
    obtain ⟨now, call⟩ := c
    rcases hcall : call.transaction P now t with exc | ⟨answer, t₁⟩
    · simp only [mfaRun, hcall] at hrun ⊢
      cases l₁ with
      | nil =>
        obtain ⟨rfl, -⟩ := List.cons.inj hrun
        exact nomatch hbegun
      | cons e₁ l₁ => exact ih (List.cons.inj hrun).2
    · simp only [mfaRun, hcall] at hrun ⊢
      cases l₁ with
      | nil =>
        obtain ⟨rfl, rfl⟩ := List.cons.inj hrun
        obtain rfl := Except.ok.inj hbegun
        exact mfaEnabled_mfaRun (mfaEnabled_of_begun hcall) hno
      | cons e₁ l₁ => exact ih (List.cons.inj hrun).2

end Pending

/-! ## One use -/

/-- Recovery codes are used once: a code that a run hands out is accepted once, not behind a
`begin`, `disable` or `regenerate` of its principal that came later than the code, and for its
principal only.  An enrollment that has been begun is not enabled before it is confirmed. -/
structure OneUse (events : List MfaEvent) (final : IdentityTables) : Prop where
  once : ∀ l₁ e l₂ p q r code, events = l₁ ++ e :: l₂ → (r, code) ∈ events.flatMap MfaEvent.issued →
    e.Accepts p code → ∀ e' ∈ l₂, ¬ e'.Accepts q code
  current : ∀ l₁ e l₂ p q code, events = l₁ ++ e :: l₂ → (p, code) ∈ l₁.flatMap MfaEvent.issued →
    e.revoked = some p → ∀ e' ∈ l₂, ¬ e'.Accepts q code
  own : ∀ p q code, (p, code) ∈ events.flatMap MfaEvent.issued →
    ∀ e ∈ events, e.Accepts q code → q = p
  pending : ∀ l₁ e l₂ secret codes, events = l₁ ++ e :: l₂ → e.answer = .ok (.begun secret codes) →
    (∀ e' ∈ l₂, e'.call.principalId = e.call.principalId → e'.answer ≠ .ok (.confirmed true)) →
    mfaEnabled e.call.principalId final = false

section OneUse

variable {P : EnrollmentPrimitives} {calls : List (ℤ × MfaCall)} {t : IdentityTables}

/-- No code that a run hands out is a valid time-based code when it is presented. -/
def Apart (P : EnrollmentPrimitives) (events : List MfaEvent) : Prop :=
  ∀ p code, (p, code) ∈ events.flatMap MfaEvent.issued →
    ∀ e ∈ events, e.call.code = some code →
      ¬ TotpValid P.toMfaPrimitives e.now e.before e.call.principalId code

lemma issues_eq {events : List MfaEvent} {os : List (OneTime.Event ℕ String)}
    (h : List.Forall₂ (Matches P) events os) :
    OneTime.issues os = events.flatMap MfaEvent.issued := by
  induction h with
  | nil => rfl
  | cons hmatches _ ih => rw [OneTime.issues_cons, List.flatMap_cons, ih, hmatches.issued]

/-- When hashes are exact, the codes that are drawn are fresh, and none of them is a valid
time-based code, recovery codes are used once in every run. -/
theorem oneUse_mfaRun (hexact : P.Exact) (hstart : t.recoveryCodes = [])
    (hfresh : (((mfaRun P calls t).1.flatMap MfaEvent.issued).map Prod.snd).Nodup)
    (hapart : Apart P (mfaRun P calls t).1) :
    OneUse (mfaRun P calls t).1 (mfaRun P calls t).2 := by
  have hholds : Holds P t [] := by
    refine ⟨?_, ?_⟩ <;> simp [hstart, unused]
  obtain ⟨os, hos, hvalid⟩ := mfaRun_spec calls hexact hholds
  have hissues := issues_eq hos
  have hcodes : OneTime.Fresh [] os := by rwa [OneTime.Fresh, List.nil_append, hissues]
  -- what the run accepts, the one-time codes accept
  have haccepted : ∀ {r p code e o}, (r, code) ∈ (mfaRun P calls t).1.flatMap MfaEvent.issued →
      e ∈ (mfaRun P calls t).1 → Matches P e o → e.Accepts p code →
      o.accepted = some (p, code) := fun hissued he hmatches haccepts =>
    hmatches.accepted _ _ haccepts (haccepts.1 ▸ hapart _ _ hissued _ he haccepts.2.1)
  refine ⟨?_, ?_, ?_, ?_⟩
  · intro l₁ e l₂ p q r code hevents hissued haccepts e' he' haccepts'
    obtain ⟨os₁, o, os₂, rfl, -, ho, hos₂⟩ := Numeral.forall₂_split (hevents ▸ hos)
    obtain ⟨o', ho', hmatches'⟩ := Numeral.exists_of_mem_left hos₂ he'
    have hmem : e ∈ (mfaRun P calls t).1 := hevents ▸ List.mem_append_right _ List.mem_cons_self
    have hmem' : e' ∈ (mfaRun P calls t).1 :=
      hevents ▸ List.mem_append_right _ (List.mem_cons_of_mem _ he')
    exact OneTime.not_accepted_again hvalid hcodes (haccepted hissued hmem ho haccepts) ho'
      (haccepted hissued hmem' hmatches' haccepts')
  · intro l₁ e l₂ p q code hevents hissued hrevoked e' he' haccepts'
    obtain ⟨os₁, o, os₂, rfl, hos₁, ho, hos₂⟩ := Numeral.forall₂_split (hevents ▸ hos)
    obtain ⟨o', ho', hmatches'⟩ := Numeral.exists_of_mem_left hos₂ he'
    have hmem' : e' ∈ (mfaRun P calls t).1 :=
      hevents ▸ List.mem_append_right _ (List.mem_cons_of_mem _ he')
    have hall : (p, code) ∈ (mfaRun P calls t).1.flatMap MfaEvent.issued := by
      rw [hevents, List.flatMap_append]
      exact List.mem_append_left _ hissued
    rw [← issues_eq hos₁] at hissued
    exact OneTime.not_accepted_revoked hvalid hcodes hissued (ho.revoked.trans hrevoked) ho'
      (haccepted hall hmem' hmatches' haccepts')
  · intro p q code hissued e he haccepts
    obtain ⟨o, ho, hmatches⟩ := Numeral.exists_of_mem_left hos he
    exact OneTime.holder_of_accepted hvalid hcodes (hissues ▸ hissued) ho
      (haccepted hissued he hmatches haccepts)
  · intro l₁ e l₂ secret codes hevents hbegun hno
    exact mfaEnabled_begun hevents hbegun hno

/-! ### A code that is presented twice -/

/-- Primitives that keep secrets and codes as they are. -/
def plainEnrollment : EnrollmentPrimitives where
  toMfaPrimitives := plainMfa
  encrypt _ secret := secret
  hashBackupCode _ code := code

/-- What is drawn: a secret that is its own time-based code, and codes of different lengths. -/
def plainDraws : EnrollmentDraws where
  secret := "123456"
  nonce := ""
  codes i := (String.ofList (List.replicate (i + 1) 'a'), "")

/-- An enrollment is begun and confirmed, and one of its codes is presented twice. -/
def presentedTwice : List (ℤ × MfaCall) :=
  [(0, .begin 7 plainDraws), (1, .confirm 7 "123456"), (2, .verify 7 "aa"), (3, .verify 7 "aa")]

-- the code is accepted the first time
example : (mfaRun plainEnrollment presentedTwice enrolledTables).1.map
    (fun e => e.answer.toOption.map MfaAnswer.positive) =
    [some false, some true, some true, some false] := by
  decide

theorem oneUse_presentedTwice :
    OneUse (mfaRun plainEnrollment presentedTwice enrolledTables).1
      (mfaRun plainEnrollment presentedTwice enrolledTables).2 := by
  refine oneUse_mfaRun (fun _ code code' => ?_) rfl (by decide) ?_
  · simp [plainEnrollment, plainMfa, eq_comm]
  · have hsecret : ∀ e ∈ (mfaRun plainEnrollment presentedTwice enrolledTables).1,
        ∀ row ∈ e.before.enrollments.get? e.call.principalId, row.encryptedSecret = "123456" := by
      decide
    have hcodes : ∀ a ∈ (mfaRun plainEnrollment presentedTwice enrolledTables).1.flatMap
        MfaEvent.issued, a.2 ≠ "123456" := by
      decide
    rintro p code hissued e he - ⟨row, secret, hrow, hdecrypt, hverify⟩
    obtain rfl : row.encryptedSecret = secret := Option.some.inj hdecrypt
    have hcode : row.encryptedSecret = code := of_decide_eq_true hverify
    exact hcodes _ hissued (hcode.symm.trans (hsecret e he row hrow))

end OneUse

end Portwyrm.Identity

import Mathlib.Data.Int.Notation
import Portwyrm.Exits

/-!
# ACME orders

`CertificateLifecycle.issue` of `portwyrm.certificates.acme`: the challenges of an order are
presented one after the other, the order is validated and finalized, and on every exit the
presented challenges are cleaned up in reverse.

What the client and the handler do is a parameter: whether each call of a run succeeds.  The calls
of a run are recorded, and the main result compares the clean-ups with the presentations among
them.
-/

namespace Portwyrm.Certificates

/-! ## Orders -/

/-- `ChallengeType`. -/
inductive ChallengeType
  | http01
  | dns01
deriving DecidableEq, Repr

/-- The value of a `ChallengeType`. -/
def ChallengeType.value : ChallengeType → String
  | .http01 => "http-01"
  | .dns01 => "dns-01"

/-- `Challenge`. -/
structure Challenge where
  type : ChallengeType
  identifier : String
  token : String
  value : String
deriving DecidableEq

/-- `ACMEOrder`. -/
structure ACMEOrder where
  id : String
  domains : List String
  challenges : List Challenge
deriving DecidableEq

/-- `IssuedCertificate`; `expires_at` as its time stamp, with its ISO text. -/
structure IssuedCertificate where
  certificate : String
  privateKey : String
  chain : String
  expiresAt : ℤ
  expiresOn : String
deriving DecidableEq

/-- A challenge with its place in the order. -/
abbrev Numbered := Challenge × ℕ

/-- What the calls of the client and of the handler return or raise in a run. -/
structure ACMEPorts where
  createOrder : List String → ChallengeType → String → Result ACMEOrder
  present : Numbered → Result Unit
  validateChallenges : ACMEOrder → Result Unit
  finalize : ACMEOrder → Result IssuedCertificate
  cleanup : Numbered → Result Unit

/-- A call of the client or of the handler. -/
inductive ACMECall
  | createOrder (domains : List String) (challengeType : ChallengeType) (keyType : String)
  | present (challenge : Numbered)
  | validateChallenges (order : ACMEOrder)
  | finalize (order : ACMEOrder)
  | cleanup (challenge : Numbered)
deriving DecidableEq

/-- The calls so far, with whether each of them succeeded, and the list `presented`. -/
structure Issuance where
  calls : List (ACMECall × Bool)
  presented : List Numbered

/-- The start of `issue`. -/
def Issuance.start : Issuance := ⟨[], []⟩

/-- The challenges whose `present` succeeded, in the order of the calls. -/
def shown (calls : List (ACMECall × Bool)) : List Numbered :=
  calls.filterMap fun
    | (.present c, true) => some c
    | _ => none

/-- The challenges whose clean-up was attempted, in the order of the calls. -/
def cleaned (calls : List (ACMECall × Bool)) : List Numbered :=
  calls.filterMap fun
    | (.cleanup c, _) => some c
    | _ => none

/-! ## Issuing -/

section Issue

variable (ports : ACMEPorts)

/-- Call the client or the handler. -/
def perform {α : Type} (call : ACMECall) (result : Result α) : Action Issuance α := fun i =>
  (result, { i with calls := i.calls ++ [(call, result.isOk)] })

/-- `presented.append(challenge)`. -/
def remember (c : Numbered) : Action Issuance Unit := fun i =>
  (.ok (), { i with presented := i.presented ++ [c] })

/-- Present the challenges of an order. -/
def presentAll : List Numbered → Action Issuance Unit
  | [] => pure ()
  | c :: rest => do
    perform (.present c) (ports.present c)
    remember c
    presentAll rest

/-- Clean up after challenges, in the given order. -/
def cleanupAll : List Numbered → Action Issuance Unit
  | [] => pure ()
  | c :: rest => do
    perform (.cleanup c) (ports.cleanup c)
    cleanupAll rest

/-- `CertificateLifecycle.issue`, once the order is there. -/
def fulfil (order : ACMEOrder) : Action Issuance IssuedCertificate :=
  Action.ensuring
    (do
      presentAll ports order.challenges.zipIdx
      perform (.validateChallenges order) (ports.validateChallenges order)
      perform (.finalize order) (ports.finalize order))
    (do
      let i ← Action.get
      cleanupAll ports i.presented.reverse)

/-- What `issue` checks of its arguments. -/
def checkOrder (domains : List String) (challengeType : ChallengeType) (keyType : String) :
    Result Unit := do
  raiseIf (domains = [] ∨ 100 < domains.length)
    (.valueError "ACME orders require between 1 and 100 domains")
  raiseIf (keyType ∉ ["rsa", "ecdsa"]) (.valueError "key_type must be rsa or ecdsa")
  raiseIf ((∃ domain ∈ domains, "*.".toList <+: domain.toList) ∧ challengeType ≠ .dns01)
    (.valueError "wildcard certificates require DNS-01")

/-- `CertificateLifecycle.issue`. -/
def issue (domains : List String) (challengeType : ChallengeType) (keyType : String) :
    Action Issuance IssuedCertificate := do
  Action.lift (checkOrder domains challengeType keyType)
  let order ← perform (.createOrder domains challengeType keyType)
    (ports.createOrder domains challengeType keyType)
  fulfil ports order

/-- The challenges of an order that come to be presented. -/
def presentable (order : ACMEOrder) : List Numbered :=
  order.challenges.zipIdx.takeWhile fun c => (ports.present c).isOk

/-- In a run of `issue`, the challenges whose `present` succeeded are cleaned up, each once and in
reverse order, and no others. -/
def CleansUp (domains : List String) (challengeType : ChallengeType) (keyType : String) : Prop :=
  cleaned (issue ports domains challengeType keyType .start).2.calls
    = (shown (issue ports domains challengeType keyType .start).2.calls).reverse

instance (domains : List String) (challengeType : ChallengeType) (keyType : String) :
    Decidable (CleansUp ports domains challengeType keyType) :=
  inferInstanceAs (Decidable (_ = _))

end Issue

/-! ## The calls of a run -/

variable {ports : ACMEPorts} {order : ACMEOrder} {i : Issuance}

/-- What clean-ups in this order come to: they stop behind the first one that raises. -/
def attempted (ports : ACMEPorts) : List Numbered → List Numbered
  | [] => []
  | c :: rest => c :: if (ports.cleanup c).isOk then attempted ports rest else []

/-- Every clean-up is attempted when none but the last raises. -/
lemma attempted_eq_self_iff (l : List Numbered) :
    attempted ports l = l ↔ ∀ c ∈ l.dropLast, ports.cleanup c = .ok () := by
  induction l with
  | nil => simp [attempted]
  | cons c rest ih =>
    rcases rest with _ | ⟨c', rest⟩
    · simp [attempted]
    · rw [attempted, List.dropLast_cons_cons, List.forall_mem_cons, ← ih]
      rcases hc : ports.cleanup c with e | u
      · simp [Except.isOk, Except.toBool]
      · simp [Except.isOk, Except.toBool]

lemma shown_append (calls l : List (ACMECall × Bool)) :
    shown (calls ++ l) = shown calls ++ shown l :=
  List.filterMap_append

lemma cleaned_append (calls l : List (ACMECall × Bool)) :
    cleaned (calls ++ l) = cleaned calls ++ cleaned l :=
  List.filterMap_append

/-- The presentations: they stop at the first one that raises. -/
lemma presentAll_snd (ports : ACMEPorts) (l : List Numbered) (i : Issuance) :
    (presentAll ports l i).2.presented
        = i.presented ++ l.takeWhile (fun c => (ports.present c).isOk) ∧
      shown (presentAll ports l i).2.calls
        = shown i.calls ++ l.takeWhile (fun c => (ports.present c).isOk) ∧
      cleaned (presentAll ports l i).2.calls = cleaned i.calls := by
  induction l generalizing i with
  | nil =>
    have hrun : presentAll ports [] i = (.ok (), i) := rfl
    simp [hrun]
  | cons c rest ih =>
    rcases hc : ports.present c with e | u
    · have hrun : presentAll ports (c :: rest) i
          = (.error e, { i with calls := i.calls ++ [(.present c, false)] }) :=
        Action.bind_of_error (by rw [perform, hc]; rfl)
      have hstop : (ports.present c).isOk = false := by rw [hc]; rfl
      rw [hrun, List.takeWhile_cons, hstop]
      simp [shown, cleaned]
    · have hrun : presentAll ports (c :: rest) i = presentAll ports rest
          ⟨i.calls ++ [(.present c, true)], i.presented ++ [c]⟩ := by
        refine (Action.bind_of_ok (a := u) (by rw [perform, hc])).trans ?_
        exact Action.bind_of_ok rfl
      have hgoes : (ports.present c).isOk = true := by rw [hc]; rfl
      obtain ⟨hpresented, hshown, hcleaned⟩ :=
        ih ⟨i.calls ++ [(.present c, true)], i.presented ++ [c]⟩
      rw [hrun, List.takeWhile_cons, hgoes, hpresented, hshown, hcleaned, shown_append,
        cleaned_append]
      simp [shown, cleaned]

/-- The clean-ups: they stop behind the first one that raises. -/
lemma cleanupAll_snd (ports : ACMEPorts) (l : List Numbered) (i : Issuance) :
    shown (cleanupAll ports l i).2.calls = shown i.calls ∧
      cleaned (cleanupAll ports l i).2.calls = cleaned i.calls ++ attempted ports l := by
  induction l generalizing i with
  | nil =>
    have hrun : cleanupAll ports [] i = (.ok (), i) := rfl
    simp [hrun, attempted]
  | cons c rest ih =>
    rcases hc : ports.cleanup c with e | u
    · have hrun : cleanupAll ports (c :: rest) i
          = (.error e, { i with calls := i.calls ++ [(.cleanup c, false)] }) :=
        Action.bind_of_error (by rw [perform, hc]; rfl)
      have hstop : (ports.cleanup c).isOk = false := by rw [hc]; rfl
      rw [hrun, attempted, hstop]
      simp [shown, cleaned]
    · have hrun : cleanupAll ports (c :: rest) i = cleanupAll ports rest
          { i with calls := i.calls ++ [(.cleanup c, true)] } :=
        Action.bind_of_ok (a := u) (by rw [perform, hc]; rfl)
      have hgoes : (ports.cleanup c).isOk = true := by rw [hc]; rfl
      obtain ⟨hshown, hcleaned⟩ := ih { i with calls := i.calls ++ [(.cleanup c, true)] }
      rw [hrun, attempted, hgoes, hshown, hcleaned, shown_append, cleaned_append]
      simp [shown, cleaned]

/-- What a computation does without presenting or cleaning up. -/
structure Quiet (i j : Issuance) : Prop where
  presented : j.presented = i.presented
  shown : shown j.calls = shown i.calls
  cleaned : cleaned j.calls = cleaned i.calls

instance : Std.Refl Quiet := ⟨fun _ => ⟨rfl, rfl, rfl⟩⟩

instance : IsTrans Issuance Quiet := ⟨fun _ _ _ h h' =>
  ⟨h'.presented.trans h.presented, h'.shown.trans h.shown, h'.cleaned.trans h.cleaned⟩⟩

lemma quiet_perform {α : Type} {call : ACMECall} {result : Result α}
    (hshown : shown [(call, result.isOk)] = []) (hcleaned : cleaned [(call, result.isOk)] = []) :
    Action.Preserves Quiet (perform call result) := fun i =>
  { presented := rfl
    shown := by rw [perform, shown_append, hshown, List.append_nil]
    cleaned := by rw [perform, cleaned_append, hcleaned, List.append_nil] }

/-- The calls of a run with an order: what has been presented, and what has been cleaned up. -/
lemma fulfil_snd (ports : ACMEPorts) (order : ACMEOrder) (i : Issuance) (hi : i.presented = []) :
    shown (fulfil ports order i).2.calls = shown i.calls ++ presentable ports order ∧
      cleaned (fulfil ports order i).2.calls
        = cleaned i.calls ++ attempted ports (presentable ports order).reverse := by
  set body : Action Issuance IssuedCertificate :=
    (do
      presentAll ports order.challenges.zipIdx
      perform (.validateChallenges order) (ports.validateChallenges order)
      perform (.finalize order) (ports.finalize order)) with hbody
  have hquiet : Quiet (presentAll ports order.challenges.zipIdx i).2 (body i).2 :=
    Action.Preserves.bind_snd
      (fun _ => (quiet_perform rfl rfl).bind fun _ => quiet_perform rfl rfl) i
  obtain ⟨hpresented, hshown, hcleaned⟩ := presentAll_snd ports order.challenges.zipIdx i
  have hrun : (fulfil ports order i).2
      = (cleanupAll ports (body i).2.presented.reverse (body i).2).2 := by
    rw [fulfil, ← hbody, Action.ensuring_snd]
    rfl
  obtain ⟨hshown', hcleaned'⟩ := cleanupAll_snd ports (body i).2.presented.reverse (body i).2
  rw [hrun, hshown', hcleaned', hquiet.presented, hquiet.shown, hquiet.cleaned, hpresented, hshown,
    hcleaned, hi, List.nil_append, presentable]
  exact ⟨rfl, rfl⟩

/-- The challenges that have been presented are cleaned up, each once and in reverse, exactly when
the clean-up of none but the first of them raises. -/
theorem cleaned_eq_reverse_shown_iff (domains : List String) (challengeType : ChallengeType)
    (keyType : String) :
    CleansUp ports domains challengeType keyType ↔
    ∀ order, checkOrder domains challengeType keyType = .ok () →
      ports.createOrder domains challengeType keyType = .ok order →
      ∀ c ∈ (presentable ports order).tail, ports.cleanup c = .ok () := by
  rcases hcheck : checkOrder domains challengeType keyType with e | u
  · have hrun : issue ports domains challengeType keyType .start = (.error e, .start) :=
      Action.bind_of_error (by rw [Action.lift, hcheck])
    refine iff_of_true ?_ (by rintro _ ⟨⟩)
    rw [CleansUp, hrun]
    rfl
  set i : Issuance :=
    ⟨[(.createOrder domains challengeType keyType,
      (ports.createOrder domains challengeType keyType).isOk)], []⟩ with hi
  have hchecked : issue ports domains challengeType keyType .start
      = ((perform (.createOrder domains challengeType keyType)
          (ports.createOrder domains challengeType keyType)) >>= fulfil ports) .start :=
    Action.bind_of_ok (by rw [Action.lift, hcheck])
  rcases horder : ports.createOrder domains challengeType keyType with e | order
  · have hrun : issue ports domains challengeType keyType .start = (.error e, i) :=
      hchecked.trans (Action.bind_of_error (by rw [perform, horder, hi, horder]; rfl))
    refine iff_of_true ?_ (by rintro _ _ ⟨⟩)
    rw [CleansUp, hrun]
    rfl
  · have hrun : issue ports domains challengeType keyType .start = fulfil ports order i :=
      hchecked.trans (Action.bind_of_ok (by rw [perform, horder, hi, horder]; rfl))
    obtain ⟨hshown, hcleaned⟩ := fulfil_snd ports order i rfl
    have hnone : shown i.calls = [] ∧ cleaned i.calls = [] := ⟨rfl, rfl⟩
    simp only [CleansUp, hrun, hshown, hcleaned, hnone.1, hnone.2, List.nil_append,
      attempted_eq_self_iff, List.dropLast_reverse, List.mem_reverse, Except.ok.injEq, forall_eq',
      true_imp_iff]

/-- Two challenges are presented and the order is validated and finalized, but the clean-up of the
second one raises: the first one is left in place. -/
def raisingCleanup : ACMEPorts where
  createOrder := fun domains challengeType _ => .ok
    ⟨"order", domains, domains.map fun domain => ⟨challengeType, domain, "token", "value"⟩⟩
  present := fun _ => .ok ()
  validateChallenges := fun _ => .ok ()
  finalize := fun _ => .ok ⟨"certificate", "key", "chain", 0, "1970-01-01T00:00:00+00:00"⟩
  cleanup := fun c => if c.2 = 1 then .error (.runtimeError "provider unavailable") else .ok ()

theorem raisingCleanup_leaves_first :
    ¬ CleansUp raisingCleanup ["one.example.com", "two.example.com"] .http01 "rsa" := by
  decide

end Portwyrm.Certificates

import Mathlib.Data.List.Forall2
import Mathlib.Data.Nat.Notation
import Mathlib.Order.Defs.Unbundled
import Mathlib.Tactic.Lemma

/-!
# Exceptions

The exceptions that the modelled code raises, with the texts they carry.
-/

namespace Portwyrm

/-- An exception raised by the program. -/
inductive Exc
  /-- `ValueError(text)`. -/
  | valueError (text : String)
  /-- `DomainValidationError(text)`. -/
  | domainValidationError (text : String)
  /-- `CollisionError(text)`. -/
  | collisionError (text : String)
  /-- `LookupError(text)`. -/
  | lookupError (text : String)
  /-- `PermissionError(text)`. -/
  | permissionError (text : String)
  /-- `AuthorizationError(text)`. -/
  | authorizationError (text : String)
  /-- `OwnershipError(text)`. -/
  | ownershipError (text : String)
  /-- `RuntimeError(text)`. -/
  | runtimeError (text : String)
  /-- `ReconcileError(text)`. -/
  | reconcileError (text : String)
  /-- `FileNotFoundError(text)`. -/
  | fileNotFoundError (text : String)
  /-- An operation of the file system fails. -/
  | osError
  /-- `QuicParseError(text)`. -/
  | quicParseError (text : String)
  /-- A sequence is read behind its end. -/
  | indexError
  /-- Bytes are no text in the expected encoding. -/
  | unicodeError
  /-- `HTTPException(status_code, detail)`. -/
  | http (status : ℕ) (detail : String)
  /-- A constraint of the database refuses a row. -/
  | integrityError
deriving DecidableEq, Repr

/-- The outcome of a call: a value, or the exception that ends it. -/
abbrev Result (α : Type) := Except Exc α

/-- `if c: raise e`. -/
def raiseIf (c : Prop) [Decidable c] (e : Exc) : Result Unit := if c then throw e else pure ()

variable {α β : Type}

lemma bind_eq_ok_iff {x : Result α} {f : α → Result β} {b : β} :
    x >>= f = .ok b ↔ ∃ a, x = .ok a ∧ f a = .ok b := by
  cases x with
  | error e => simp [bind, Except.bind]
  | ok a => simp [bind, Except.bind]

@[simp] lemma ok_bind (a : α) (f : α → Result β) : (Except.ok a : Result α) >>= f = f a := rfl

@[simp] lemma throw_ne_ok {e : Exc} {a : α} : (throw e : Result α) ≠ .ok a := by
  simp [throw, throwThe, MonadExceptOf.throw]

@[simp] lemma pure_eq_ok_iff {a b : α} : (pure a : Result α) = .ok b ↔ a = b := by
  simp [pure, Except.pure]

/-- The value of a call that succeeds. -/
lemma eq_getD_of_isSome {written : Result α} {a : α} (h : written.toOption.isSome = true) :
    written = .ok (written.toOption.getD a) := by
  rcases written with e | b
  · exact absurd h (by simp [Except.toOption])
  · rfl

lemma map_eq_ok_iff {f : α → β} {x : Result α} {b : β} :
    f <$> x = .ok b ↔ ∃ a, x = .ok a ∧ f a = b := by
  cases x <;> simp [Functor.map, Except.map]

@[simp] lemma mapError_eq_ok_iff {x : Result α} {f : Exc → Exc} {a : α} :
    x.mapError f = .ok a ↔ x = .ok a := by
  cases x <;> simp [Except.mapError]

@[simp] lemma raiseIf_eq_ok_iff {c : Prop} [Decidable c] {e : Exc} {u : Unit} :
    raiseIf c e = .ok u ↔ ¬ c := by
  unfold raiseIf
  split <;> simp_all

/-- Running a call on every element: all calls succeed, and the values stand in order. -/
lemma mapM_eq_ok_iff {f : α → Result β} {l : List α} {l' : List β} :
    l.mapM f = .ok l' ↔ List.Forall₂ (fun a b => f a = .ok b) l l' := by
  induction l generalizing l' with
  | nil => cases l' <;> simp
  | cons a l ih =>
    simp only [List.mapM_cons, bind_eq_ok_iff, pure_eq_ok_iff]
    constructor
    · rintro ⟨b, hb, bs, hbs, rfl⟩
      exact .cons hb (ih.mp hbs)
    · intro h
      cases h with
      | cons hb hbs => exact ⟨_, hb, _, ih.mpr hbs, rfl⟩

lemma mapM_eq_ok_self {f : α → Result α} {l : List α} (h : ∀ a ∈ l, f a = .ok a) :
    l.mapM f = .ok l :=
  mapM_eq_ok_iff.mpr (List.forall₂_same.mpr h)

lemma mapM_ok_iff {f : α → Result β} {l : List α} :
    (∃ l', l.mapM f = .ok l') ↔ ∀ a ∈ l, ∃ b, f a = .ok b := by
  induction l with
  | nil => simp
  | cons a l ih =>
    rw [List.forall_mem_cons, ← ih]
    simp only [List.mapM_cons, bind_eq_ok_iff, pure_eq_ok_iff]
    constructor
    · rintro ⟨-, b, hb, bs, hbs, -⟩
      exact ⟨⟨b, hb⟩, bs, hbs⟩
    · rintro ⟨⟨b, hb⟩, bs, hbs⟩
      exact ⟨_, b, hb, bs, hbs, rfl⟩

lemma anyM_eq_false_iff {f : α → Result Bool} {l : List α} :
    l.anyM f = .ok false ↔ ∀ a ∈ l, f a = .ok false := by
  induction l with
  | nil => exact iff_of_true rfl (by simp)
  | cons a l ih =>
    rw [List.anyM_cons, List.forall_mem_cons, ← ih, bind_eq_ok_iff]
    constructor
    · rintro ⟨b, hb, h⟩
      cases b with
      | false => exact ⟨hb, h⟩
      | true => exact absurd h (by simp [pure, Except.pure])
    · rintro ⟨ha, h⟩
      exact ⟨false, ha, h⟩

/-- Where no call raises, `any` tells whether one says yes. -/
lemma exists_anyM_eq_ok {f : α → Result Bool} {l : List α} (h : ∀ a ∈ l, ∃ b, f a = .ok b) :
    ∃ b, l.anyM f = .ok b ∧ (b = true ↔ ∃ a ∈ l, f a = .ok true) := by
  induction l with
  | nil => exact ⟨false, rfl, by simp⟩
  | cons a l ih =>
    obtain ⟨⟨b, hb⟩, hl⟩ := List.forall_mem_cons.mp h
    cases b with
    | true => exact ⟨true, by rw [List.anyM_cons, hb]; rfl, by simp [hb]⟩
    | false =>
      obtain ⟨b, hb', hiff⟩ := ih hl
      refine ⟨b, by rw [List.anyM_cons, hb]; exact hb', ?_⟩
      simp [hiff, hb]

/-! ### What a call raises -/

/-- Every exception of a call meets `P`. -/
def Raises (P : Exc → Prop) (x : Result α) : Prop := ∀ e, x = .error e → P e

namespace Raises

variable {P : Exc → Prop} {e : Exc}

lemma pure (a : α) : Raises P (Pure.pure a) := fun _ h => nomatch h

lemma throw (h : P e) : Raises P (throw e : Result α) := by
  intro e' he
  exact Except.error.inj he ▸ h

lemma raiseIf {c : Prop} [Decidable c] (h : P e) : Raises P (raiseIf c e) := by
  unfold Portwyrm.raiseIf
  split
  · exact throw h
  · exact pure ()

lemma bind {x : Result α} {f : α → Result β} (hx : Raises P x)
    (hf : ∀ a, x = .ok a → Raises P (f a)) : Raises P (x >>= f) := by
  cases x with
  | error e =>
    intro e' he
    have hraised : Except.error e >>= f = (.error e : Result β) := rfl
    exact hx e' (congrArg _ (Except.error.inj (hraised.symm.trans he)))
  | ok a => exact hf a rfl

lemma mapM {f : α → Result β} {l : List α} (h : ∀ a ∈ l, Raises P (f a)) :
    Raises P (l.mapM f) := by
  induction l with
  | nil => exact pure []
  | cons a l ih =>
    rw [List.mapM_cons]
    refine bind (h a List.mem_cons_self) fun b _ => ?_
    refine bind (ih fun a' ha' => h a' (List.mem_cons_of_mem _ ha')) fun bs _ => ?_
    exact pure (b :: bs)

lemma imp {Q : Exc → Prop} {x : Result α} (h : Raises P x) (himp : ∀ e, P e → Q e) :
    Raises Q x :=
  fun e he => himp e (h e he)

end Raises

/-- A computation that may change the state `σ`; an exception keeps the changes made before
it. -/
def Action (σ α : Type) := σ → Result α × σ

variable {σ : Type}

namespace Action

/-- Run one computation and hand its value to the next; an exception skips the next. -/
def bind (x : Action σ α) (f : α → Action σ β) : Action σ β := fun s =>
  match x s with
  | (.ok a, s') => f a s'
  | (.error e, s') => (.error e, s')

instance : Monad (Action σ) where
  pure a := fun s => (.ok a, s)
  bind := bind

/-- Raise an exception. -/
def raise (e : Exc) : Action σ α := fun s => (.error e, s)

/-- The current state. -/
def get : Action σ σ := fun s => (.ok s, s)

/-- A pure computation. -/
def lift (x : Result α) : Action σ α := fun s => (x, s)

/-- `try x except e: raise f(e)`. -/
def mapError (f : Exc → Exc) (x : Action σ α) : Action σ α := fun s => ((x s).1.mapError f, (x s).2)

/-- One database transaction: an exception rolls its changes back. -/
def transaction (op : σ → Result (α × σ)) : Action σ α := fun s =>
  match op s with
  | .ok (a, s') => (.ok a, s')
  | .error e => (.error e, s)

variable {s s' : σ} {a b : α} {e : Exc}

lemma bind_eq_ok_iff {x : Action σ α} {f : α → Action σ β} {b : β} :
    (x >>= f) s = (.ok b, s') ↔ ∃ a s₁, x s = (.ok a, s₁) ∧ f a s₁ = (.ok b, s') := by
  have hbind : (x >>= f) s = bind x f s := rfl
  rw [hbind, bind]
  rcases x s with ⟨r, s₁⟩
  cases r with
  | error e => simp
  | ok a =>
    refine ⟨fun h => ⟨a, s₁, rfl, h⟩, ?_⟩
    rintro ⟨a', s', h, h'⟩
    obtain ⟨h1, h2⟩ := Prod.mk.injEq _ _ _ _ ▸ h
    obtain rfl := Except.ok.inj h1
    exact h2 ▸ h'

lemma transaction_eq_ok_iff {op : σ → Result (α × σ)} :
    transaction op s = (.ok a, s') ↔ op s = .ok (a, s') := by
  unfold transaction
  rcases op s with e | ⟨a, s₁⟩ <;> simp

@[simp] lemma pure_eq_ok_iff : (pure a : Action σ α) s = (.ok b, s') ↔ a = b ∧ s = s' := by
  have hpure : (pure a : Action σ α) s = (.ok a, s) := rfl
  simp [hpure]

@[simp] lemma raise_ne_ok : (raise e : Action σ α) s ≠ (.ok a, s') := by
  simp [raise]

@[simp] lemma get_eq_ok_iff {t : σ} : get s = (.ok t, s') ↔ s = t ∧ s = s' := by
  simp [get]

@[simp] lemma lift_eq_ok_iff {x : Result α} : lift x s = (.ok a, s') ↔ x = .ok a ∧ s = s' := by
  simp [lift]

@[simp] lemma mapError_eq_ok_iff {f : Exc → Exc} {x : Action σ α} :
    mapError f x s = (.ok a, s') ↔ x s = (.ok a, s') := by
  simp only [mapError, Prod.ext_iff, Portwyrm.mapError_eq_ok_iff]

/-! ### What a computation preserves -/

/-- Whether it returns or raises, a computation leaves a state that is related to the one
before it. -/
def Preserves (R : σ → σ → Prop) (x : Action σ α) : Prop := ∀ s, R s (x s).2

section Preserves

variable {R : σ → σ → Prop}

lemma Preserves.bind [IsTrans σ R] {x : Action σ α} {f : α → Action σ β} (hx : Preserves R x)
    (hf : ∀ a, Preserves R (f a)) : Preserves R (x >>= f) := by
  intro s
  have hbind : (x >>= f) s = Action.bind x f s := rfl
  have hxs := hx s
  rw [hbind, Action.bind]
  rcases hrun : x s with ⟨r, s₁⟩
  rw [hrun] at hxs
  cases r with
  | error e => exact hxs
  | ok a => exact trans_of R hxs (hf a s₁)

variable [Std.Refl R]

lemma Preserves.pure (a : α) : Preserves R (Pure.pure a : Action σ α) := fun s => refl_of R s

lemma Preserves.raise (e : Exc) : Preserves R (Action.raise e : Action σ α) := fun s => refl_of R s

lemma Preserves.get : Preserves R (Action.get : Action σ σ) := fun s => refl_of R s

lemma Preserves.lift (x : Result α) : Preserves R (Action.lift x : Action σ α) :=
  fun s => refl_of R s

/-- A transaction that raises leaves the state alone. -/
lemma Preserves.transaction {op : σ → Result (α × σ)} (h : ∀ s a s', op s = .ok (a, s') → R s s') :
    Preserves R (Action.transaction op) := by
  intro s
  rw [Action.transaction]
  split
  · rename_i a s' hop
    exact h s a s' hop
  · exact refl_of R s

end Preserves

lemma Preserves.mapError {R : σ → σ → Prop} {x : Action σ α} (f : Exc → Exc) (h : Preserves R x) :
    Preserves R (x.mapError f) :=
  h

end Action

end Portwyrm

import Portwyrm.Errors

/-!
# Exits

`try … finally` and `try … except BaseException: …; raise` around a computation that may change
the state.
-/

namespace Portwyrm.Action

variable {σ α β : Type}

/-! ### Sequencing -/

lemma bind_of_ok {x : Action σ α} {f : α → Action σ β} {s s' : σ} {a : α}
    (h : x s = (.ok a, s')) : (x >>= f) s = f a s' := by
  have hbind : (x >>= f) s = bind x f s := rfl
  rw [hbind, bind, h]

lemma bind_of_error {x : Action σ α} {f : α → Action σ β} {s s' : σ} {e : Exc}
    (h : x s = (.error e, s')) : (x >>= f) s = (.error e, s') := by
  have hbind : (x >>= f) s = bind x f s := rfl
  rw [hbind, bind, h]

/-- What follows a computation keeps its relation to the state that the computation leaves. -/
lemma Preserves.bind_snd {R : σ → σ → Prop} [Std.Refl R] {x : Action σ α} {f : α → Action σ β}
    (hf : ∀ a, Preserves R (f a)) (s : σ) : R (x s).2 ((x >>= f) s).2 := by
  rcases hx : x s with ⟨e | a, s'⟩
  · rw [bind_of_error hx]
    exact refl_of R s'
  · rw [bind_of_ok hx]
    exact hf a s'

/-! ### Clean-up -/

/-- `try: x finally: cleanup`; an exception of the clean-up takes the place of what `x` returned or
raised. -/
def ensuring (x : Action σ α) (cleanup : Action σ Unit) : Action σ α := fun s =>
  match cleanup (x s).2 with
  | (.ok _, s') => ((x s).1, s')
  | (.error e, s') => (.error e, s')

/-- `try: x except BaseException: undo; raise`; an exception of `undo` takes the place of the one
of `x`. -/
def undoing (x : Action σ α) (undo : Action σ Unit) : Action σ α := fun s =>
  match x s with
  | (.ok a, s') => (.ok a, s')
  | (.error e, s') =>
    match undo s' with
    | (.ok _, s'') => (.error e, s'')
    | (.error e', s'') => (.error e', s'')

variable {x : Action σ α} {cleanup undo : Action σ Unit} {s s' : σ}

/-- The clean-up runs in the state that `x` leaves, whether it returns or raises. -/
@[simp] lemma ensuring_snd : (x.ensuring cleanup s).2 = (cleanup (x s).2).2 := by
  unfold ensuring
  rcases cleanup (x s).2 with ⟨_ | _, _⟩ <;> rfl

lemma ensuring_eq_ok_iff {a : α} : (x.ensuring cleanup s).1 = .ok a ↔
    (x s).1 = .ok a ∧ (cleanup (x s).2).1 = .ok () := by
  unfold ensuring
  rcases cleanup (x s).2 with ⟨_ | _, _⟩ <;> simp

lemma undoing_of_ok {a : α} (h : x s = (.ok a, s')) : x.undoing undo s = (.ok a, s') := by
  rw [undoing, h]

lemma undoing_eq_ok_iff {a : α} : x.undoing undo s = (.ok a, s') ↔ x s = (.ok a, s') := by
  unfold undoing
  rcases x s with ⟨e | b, s₁⟩
  · dsimp only
    rcases undo s₁ with ⟨_ | _, _⟩ <;> simp
  · rfl

/-- When `x` raises, `undo` runs, and the whole raises. -/
lemma undoing_of_error (undo : Action σ Unit) {e : Exc} (h : x s = (.error e, s')) :
    ∃ e', x.undoing undo s = (.error e', (undo s').2) := by
  rw [undoing, h]
  dsimp only
  rcases undo s' with ⟨e' | _, s''⟩
  · exact ⟨e', rfl⟩
  · exact ⟨e, rfl⟩

section Preserves

variable {R : σ → σ → Prop} [IsTrans σ R]

lemma Preserves.ensuring (hx : Preserves R x) (hcleanup : Preserves R cleanup) :
    Preserves R (x.ensuring cleanup) := by
  intro s
  rw [ensuring_snd]
  exact trans_of R (hx s) (hcleanup _)

lemma Preserves.undoing (hx : Preserves R x) (hundo : Preserves R undo) :
    Preserves R (x.undoing undo) := by
  intro s
  have hxs := hx s
  rcases hrun : x s with ⟨e | a, s'⟩
  · obtain ⟨e', he'⟩ := undoing_of_error undo hrun
    rw [hrun] at hxs
    rw [he']
    exact trans_of R hxs (hundo s')
  · rw [hrun] at hxs
    rw [undoing_of_ok hrun]
    exact hxs

end Preserves

end Portwyrm.Action

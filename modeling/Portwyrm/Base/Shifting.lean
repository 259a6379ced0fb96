import Portwyrm.Base.Dict

/-!
# Moving keys up

A family of keys with numbers, of which some are in a dictionary.  The values move up by one number
each, from the top down, so that no value is written over another that has not moved yet.
-/

namespace Portwyrm.Base

namespace Dict

variable {κ α : Type} [DecidableEq κ]

/-- Move the value of a key, where there is one, to another key. -/
def moveKey (source target : κ) (d : Dict κ α) : Dict κ α :=
  match d.get? source with
  | some v => (d.pop source).set target v
  | none => d

/-- Move the values of the keys `slot n`, …, `slot 1` up by one. -/
def moveUp (slot : ℕ → κ) : ℕ → Dict κ α → Dict κ α
  | 0, d => d
  | n + 1, d => moveUp slot n (moveKey (slot (n + 1)) (slot (n + 2)) d)

variable {slot : ℕ → κ} {n : ℕ} {d : Dict κ α} {k source target : κ}

lemma get?_moveKey_target (h : d.get? target = none) :
    (moveKey source target d).get? target = d.get? source := by
  rw [moveKey]
  cases hsource : d.get? source with
  | none => exact h
  | some v => exact get?_set_self _ _ _

lemma get?_moveKey_source (hne : source ≠ target) : (moveKey source target d).get? source = none := by
  rw [moveKey]
  cases hsource : d.get? source with
  | none => exact hsource
  | some v => rw [get?_set_of_ne _ _ hne, get?_pop_self]

lemma get?_moveKey_of_ne (hs : k ≠ source) (ht : k ≠ target) :
    (moveKey source target d).get? k = d.get? k := by
  rw [moveKey]
  cases d.get? source with
  | none => rfl
  | some v => rw [get?_set_of_ne _ _ ht, get?_pop, if_neg hs]

/-- Other keys stay. -/
lemma get?_moveUp_of_ne (h : ∀ i, 1 ≤ i → i ≤ n + 1 → k ≠ slot i) :
    (moveUp slot n d).get? k = d.get? k := by
  induction n generalizing d with
  | zero => rfl
  | succ n ih =>
    rw [moveUp, ih fun i hi hle => h i hi (by omega),
      get?_moveKey_of_ne (h (n + 1) (by omega) (by omega)) (h (n + 2) (by omega) (by omega))]

/-- Each value stands one number above. -/
lemma get?_moveUp (hslot : Function.Injective slot) (hfree : d.get? (slot (n + 1)) = none)
    {i : ℕ} (hi : 1 ≤ i) (hle : i ≤ n) :
    (moveUp slot n d).get? (slot (i + 1)) = d.get? (slot i) := by
  induction n generalizing d with
  | zero => omega
  | succ n ih =>
    have hne : ∀ {a b : ℕ}, a ≠ b → slot a ≠ slot b := fun hab h => hab (hslot h)
    rw [moveUp]
    rcases Nat.lt_or_eq_of_le hle with hlt | rfl
    · -- the key above the lower values is free now, since the highest one has left it
      rw [ih (get?_moveKey_source (hne (by omega))) (by omega),
        get?_moveKey_of_ne (hne (by omega)) (hne (by omega))]
    · -- the highest value, which moves first and is not touched again
      rw [get?_moveUp_of_ne fun j _ hj => hne (by omega), get?_moveKey_target hfree]

end Dict

end Portwyrm.Base

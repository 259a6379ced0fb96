import Mathlib.Data.List.Lattice
import Mathlib.Data.List.Pairwise
import Portwyrm.Base.Dict

/-!
# Exclusive claims

The rows of a table claim things, and no two rows may claim the same.  Storing a row under a key
keeps claims exclusive exactly when no other row claims what the new row claims.
-/

namespace Portwyrm.Base

variable {κ α γ : Type*} [DecidableEq κ]

/-- Rows under different keys claim different things. -/
def Exclusive (claims : α → List γ) (d : Dict κ α) : Prop :=
  ∀ ⦃k k' : κ⦄ ⦃a a' : α⦄, d.get? k = some a → d.get? k' = some a' → k ≠ k' →
    (claims a).Disjoint (claims a')

/-- No row under another key claims what a row claims. -/
def Unclaimed (claims : α → List γ) (d : Dict κ α) (k : κ) (row : α) : Prop :=
  ∀ ⦃k' : κ⦄ ⦃a' : α⦄, d.get? k' = some a' → k' ≠ k → (claims row).Disjoint (claims a')

namespace Exclusive

variable {claims : α → List γ} {d : Dict κ α} {k : κ} {row : α}

lemma empty : Exclusive claims (Dict.empty : Dict κ α) := by
  intro k k' a a' h
  simp at h

/-- Storing a row keeps claims exclusive exactly when nobody else claims what it claims. -/
theorem set_iff (h : Exclusive claims d) :
    Exclusive claims (d.set k row) ↔ Unclaimed claims d k row := by
  constructor
  · intro hset k' a' hget hne
    refine hset (Dict.get?_set_self d k row) ?_ (Ne.symm hne)
    rwa [Dict.get?_set_of_ne d row hne]
  · intro hfree k₁ k₂ a₁ a₂ h₁ h₂ hne
    rw [Dict.get?_set] at h₁ h₂
    by_cases hk₁ : k₁ = k
    · have hk₂ : k₂ ≠ k := fun hk₂ => hne (hk₁.trans hk₂.symm)
      rw [if_pos hk₁] at h₁
      rw [if_neg hk₂] at h₂
      obtain rfl := Option.some.inj h₁
      exact hfree h₂ hk₂
    · rw [if_neg hk₁] at h₁
      by_cases hk₂ : k₂ = k
      · rw [if_pos hk₂] at h₂
        obtain rfl := Option.some.inj h₂
        exact (hfree h₁ hk₁).symm
      · rw [if_neg hk₂] at h₂
        exact h h₁ h₂ hne

lemma pop (h : Exclusive claims d) (k : κ) : Exclusive claims (d.pop k) := by
  intro k₁ k₂ a₁ a₂ h₁ h₂ hne
  rw [Dict.get?_pop] at h₁ h₂
  split at h₁
  · simp at h₁
  · split at h₂
    · simp at h₂
    · exact h h₁ h₂ hne

/-- A stored row claims nothing that another row claims. -/
lemma unclaimed (h : Exclusive claims d) (hget : d.get? k = some row) :
    Unclaimed claims d k row :=
  fun _ _ hget' hne => h hget hget' (Ne.symm hne)

/-- Claims are exclusive exactly when the lists of claims of any two rows are disjoint. -/
theorem iff_pairwise :
    Exclusive claims d ↔ d.values.Pairwise fun a b => (claims a).Disjoint (claims b) := by
  have hkeys : d.entries.Pairwise fun e e' => e.1 ≠ e'.1 := List.pairwise_map.mp d.nodup
  rw [Dict.values, List.pairwise_map]
  constructor
  · intro h
    refine hkeys.imp_of_mem fun {e e'} he he' hne => ?_
    exact h (Dict.mem_entries_iff.mp he) (Dict.mem_entries_iff.mp he') hne
  · intro h k k' a a' hget hget' hne
    have hsymm : Std.Symm fun e e' : κ × α => (claims e.2).Disjoint (claims e'.2) :=
      ⟨fun _ _ hdisjoint => hdisjoint.symm⟩
    exact h.forall (Dict.mem_entries_iff.mpr hget) (Dict.mem_entries_iff.mpr hget')
      fun heq => hne (congrArg Prod.fst heq)

end Exclusive

/-- Only what a row claims matters. -/
lemma Unclaimed.congr {claims : α → List γ} {d : Dict κ α} {k : κ} {row row' : α}
    (h : Unclaimed claims d k row) (heq : claims row' = claims row) :
    Unclaimed claims d k row' :=
  fun _ _ hget hne => heq ▸ h hget hne

end Portwyrm.Base

import Mathlib.Data.List.Forall2
import Mathlib.Data.List.Nodup
import Mathlib.Tactic.Lemma

/-!
# First-match decision lists

A list of rules decides by the first rule that covers a request; a request that no rule covers
is refused.  Rules are compared by what they cover and by whether they allow, for arbitrary
rules: `covers` stands for the rules that cover one fixed request.
-/

namespace Portwyrm.Base.FirstMatch

variable {ρ σ : Type*} {covers allows : ρ → Bool} {rules sorted : List ρ}

/-- The decision of a list of rules: the first rule that covers allows. -/
def admits (covers allows : ρ → Bool) (rules : List ρ) : Bool := (rules.find? covers).any allows

/-- Some rule that covers allows. -/
def SomeAllows (covers allows : ρ → Bool) (rules : List ρ) : Prop :=
  ∃ r ∈ rules, covers r = true ∧ allows r = true

/-- No rule that refuses stands before one that allows. -/
def AllowsFirst (allows : ρ → Bool) (rules : List ρ) : Prop :=
  rules.Pairwise fun a b => allows b = true → allows a = true

/-- The first rule that covers refuses, although a later one that covers allows. -/
def RefusedThenAllowed (covers allows : ρ → Bool) (rules : List ρ) : Prop :=
  ∃ before r after, rules = before ++ r :: after ∧ (∀ b ∈ before, covers b = false) ∧
    covers r = true ∧ allows r = false ∧ SomeAllows covers allows after

@[simp] lemma admits_nil : admits covers allows [] = false := rfl

lemma admits_cons (r : ρ) :
    admits covers allows (r :: rules) =
      if covers r then allows r else admits covers allows rules := by
  unfold admits
  cases h : covers r <;> simp [h]

/-- Rules that refuse may follow without effect. -/
lemma admits_append_of_refusing {refusing : List ρ} (h : ∀ r ∈ refusing, allows r = false) :
    admits covers allows (rules ++ refusing) = admits covers allows rules := by
  have hrefusing : admits covers allows refusing = false := by
    unfold admits
    cases hf : refusing.find? covers with
    | none => rfl
    | some r => simpa using h r (List.mem_of_find?_eq_some hf)
  induction rules with
  | nil => simpa using hrefusing
  | cons r rules ih => rw [List.cons_append, admits_cons, admits_cons, ih]

/-- Rules that cover and allow alike, one by one, decide alike. -/
lemma admits_congr {covers' allows' : σ → Bool} {rules' : List σ}
    (h : List.Forall₂ (fun r r' => covers' r' = covers r ∧ allows' r' = allows r) rules rules') :
    admits covers' allows' rules' = admits covers allows rules := by
  induction h with
  | nil => rfl
  | cons hr _ ih => rw [admits_cons, admits_cons, ih, hr.1, hr.2]

/-- A list of rules and its image decide alike when the image covers and allows alike. -/
lemma admits_map {covers' allows' : σ → Bool} (f : ρ → σ) (hcovers : ∀ r, covers' (f r) = covers r)
    (hallows : ∀ r, allows' (f r) = allows r) :
    admits covers' allows' (rules.map f) = admits covers allows rules := by
  refine admits_congr (List.forall₂_map_right_iff.mpr (List.forall₂_same.mpr ?_))
  exact fun r _ => ⟨hcovers r, hallows r⟩

lemma someAllows_of_admits (h : admits covers allows rules = true) :
    SomeAllows covers allows rules := by
  unfold admits at h
  cases hf : rules.find? covers with
  | none => simp [hf] at h
  | some r =>
    rw [hf] at h
    exact ⟨r, List.mem_of_find?_eq_some hf, List.find?_some hf, by simpa using h⟩

/-- With the allowing rules in front, one of them that covers is enough. -/
theorem admits_iff_of_allowsFirst (h : AllowsFirst allows rules) :
    admits covers allows rules = true ↔ SomeAllows covers allows rules := by
  refine ⟨someAllows_of_admits, ?_⟩
  induction rules with
  | nil => rintro ⟨r, hr, -⟩; simp at hr
  | cons r rules ih =>
    obtain ⟨hfirst, hrest⟩ := List.pairwise_cons.mp h
    rintro ⟨r', hr', hcovers, hallows⟩
    rw [admits_cons]
    rcases List.mem_cons.mp hr' with rfl | hr'
    · simp [hcovers, hallows]
    · split
      · exact hfirst r' hr' hallows
      · exact ih hrest ⟨r', hr', hcovers, hallows⟩

/-- A list refuses a request that one of its rules allows exactly when a refusing rule stands
in front. -/
lemma refusedThenAllowed_iff :
    RefusedThenAllowed covers allows rules ↔
      SomeAllows covers allows rules ∧ admits covers allows rules = false := by
  constructor
  · rintro ⟨before, r, after, rfl, hbefore, hcovers, hallows, r', hr', h⟩
    refine ⟨⟨r', by simp [hr'], h⟩, ?_⟩
    induction before with
    | nil => rw [List.nil_append, admits_cons, if_pos hcovers, hallows]
    | cons b before ih =>
      rw [List.cons_append, admits_cons, if_neg (by simp [hbefore b (by simp)])]
      exact ih fun b' hb' => hbefore b' (by simp [hb'])
  · rintro ⟨⟨r, hr, hcovers, hallows⟩, hrefused⟩
    induction rules with
    | nil => simp at hr
    | cons r₀ rules ih =>
      rw [admits_cons] at hrefused
      by_cases h₀ : covers r₀ = true
      · rw [if_pos h₀] at hrefused
        have hrest : r ∈ rules := by
          rcases List.mem_cons.mp hr with rfl | hr
          · exact absurd (hallows.symm.trans hrefused) (by simp)
          · exact hr
        exact ⟨[], r₀, rules, rfl, by simp, h₀, hrefused, r, hrest, hcovers, hallows⟩
      · rw [if_neg h₀] at hrefused
        have hrest : r ∈ rules := by
          rcases List.mem_cons.mp hr with rfl | hr
          · exact absurd hcovers h₀
          · exact hr
        obtain ⟨before, r₁, after, rfl, hbefore, h⟩ := ih hrefused hrest
        refine ⟨r₀ :: before, r₁, after, rfl, ?_, h⟩
        intro b hb
        rcases List.mem_cons.mp hb with rfl | hb
        · simpa using h₀
        · exact hbefore b hb

/-- Rules that cover and allow alike, one by one, hide the same allowing rules. -/
lemma someAllows_alike {covers' allows' : σ → Bool} {rules' : List σ}
    (h : List.Forall₂ (fun r r' => covers' r' = covers r ∧ allows' r' = allows r) rules rules') :
    SomeAllows covers' allows' rules' ↔ SomeAllows covers allows rules := by
  induction h with
  | nil => simp [SomeAllows]
  | cons hr _ ih =>
    simp only [SomeAllows, List.mem_cons, exists_eq_or_imp, hr.1, hr.2] at ih ⊢
    rw [ih]

lemma refusedThenAllowed_alike {covers' allows' : σ → Bool} {rules' : List σ}
    (h : List.Forall₂ (fun r r' => covers' r' = covers r ∧ allows' r' = allows r) rules rules') :
    RefusedThenAllowed covers' allows' rules' ↔ RefusedThenAllowed covers allows rules := by
  rw [refusedThenAllowed_iff, refusedThenAllowed_iff, someAllows_alike h, admits_congr h]

lemma someAllows_congr (h : ∀ r, r ∈ sorted ↔ r ∈ rules) :
    SomeAllows covers allows sorted ↔ SomeAllows covers allows rules := by
  simp only [SomeAllows, h]

/-- Reordered so that the allowing rules come first, a list admits what any of its rules
allows. -/
lemma admits_reordered (hmem : ∀ r, r ∈ sorted ↔ r ∈ rules) (hfirst : AllowsFirst allows sorted) :
    admits covers allows sorted = true ↔ SomeAllows covers allows rules :=
  (admits_iff_of_allowsFirst hfirst).trans (someAllows_congr hmem)

/-- Reordering a list so that the allowing rules come first keeps its decision on a request
exactly when no refusing rule hides an allowing one. -/
theorem admits_reordered_iff (hmem : ∀ r, r ∈ sorted ↔ r ∈ rules)
    (hfirst : AllowsFirst allows sorted) :
    admits covers allows sorted = admits covers allows rules ↔
      ¬ RefusedThenAllowed covers allows rules := by
  rw [refusedThenAllowed_iff, Bool.eq_iff_iff, admits_reordered hmem hfirst]
  constructor
  · rintro h ⟨hsome, hrefused⟩
    exact absurd (h.mp hsome) (by simp [hrefused])
  · intro h
    refine ⟨fun hsome => ?_, someAllows_of_admits⟩
    by_contra hrefused
    exact h ⟨hsome, by simpa using hrefused⟩

end Portwyrm.Base.FirstMatch

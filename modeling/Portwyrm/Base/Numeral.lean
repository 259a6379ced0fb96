import Mathlib.Algebra.Order.Ring.Nat
import Mathlib.Data.List.Forall2
import Mathlib.Data.List.Induction
import Mathlib.Data.Nat.Notation
import Mathlib.Tactic.Lemma

/-!
# Numerals

Numbers written most significant digit first: as a list of digits of fixed length, and as
text in a base of at most sixteen.
-/

namespace Portwyrm.Base.Numeral

/-! ## Reading a list element by element -/

section mapM

variable {α β γ : Type}

lemma exists_of_mem_left {R : α → β → Prop} {l : List α} {l' : List β}
    (h : List.Forall₂ R l l') {a : α} (ha : a ∈ l) : ∃ b ∈ l', R a b := by
  induction h with
  | nil => simp at ha
  | cons hr _ ih =>
    rcases List.mem_cons.mp ha with rfl | ha
    · exact ⟨_, by simp, hr⟩
    · obtain ⟨b, hb, hab⟩ := ih ha
      exact ⟨b, by simp [hb], hab⟩

lemma exists_of_mem_right {R : α → β → Prop} {l : List α} {l' : List β}
    (h : List.Forall₂ R l l') {b : β} (hb : b ∈ l') : ∃ a ∈ l, R a b :=
  exists_of_mem_left h.flip hb

/-- Lists that are related by equal images have equal images. -/
lemma map_eq_map {f : α → γ} {g : β → γ} {l : List α} {l' : List β}
    (h : List.Forall₂ (fun a b => f a = g b) l l') : l.map f = l'.map g := by
  induction h with
  | nil => rfl
  | cons hab _ ih => rw [List.map_cons, List.map_cons, hab, ih]

/-- Two lists that match are split alike. -/
lemma forall₂_split {R : α → β → Prop} {l₁ l₂ : List α} {a : α} {l : List β}
    (h : List.Forall₂ R (l₁ ++ a :: l₂) l) : ∃ m₁ b m₂, l = m₁ ++ b :: m₂ ∧
      List.Forall₂ R l₁ m₁ ∧ R a b ∧ List.Forall₂ R l₂ m₂ := by
  induction l₁ generalizing l with
  | nil =>
    obtain ⟨b, m, hab, hm, rfl⟩ := List.forall₂_cons_left_iff.mp h
    exact ⟨[], b, m, rfl, .nil, hab, hm⟩
  | cons a₁ l₁ ih =>
    obtain ⟨b₁, m, hab₁, hm, rfl⟩ := List.forall₂_cons_left_iff.mp h
    obtain ⟨m₁, b, m₂, rfl, hm₁, hab, hm₂⟩ := ih hm
    exact ⟨b₁ :: m₁, b, m₂, rfl, .cons hab₁ hm₁, hab, hm₂⟩

lemma mapM_eq_some_iff {g : α → Option β} {l : List α} {l' : List β} :
    l.mapM g = some l' ↔ List.Forall₂ (fun a b => g a = some b) l l' := by
  induction l generalizing l' with
  | nil => cases l' <;> simp
  | cons a l ih =>
    rw [List.mapM_cons]
    cases l' with
    | nil => cases g a <;> cases l.mapM g <;> simp
    | cons b l' =>
      rw [List.forall₂_cons, ← ih]
      cases g a <;> cases l.mapM g <;> simp

lemma mapM_map_eq_some {f : α → β} {g : β → Option γ} {h : α → γ} {l : List α}
    (hl : ∀ x ∈ l, g (f x) = some (h x)) : (l.map f).mapM g = some (l.map h) := by
  rw [mapM_eq_some_iff, List.forall₂_map_left_iff, List.forall₂_map_right_iff,
    List.forall₂_same]
  exact hl

end mapM

/-! ## Digit lists -/

/-- The number with the digits `l` in base `b`. -/
def ofGroups (b : ℕ) (l : List ℕ) : ℕ := l.foldl (fun acc d => b * acc + d) 0

/-- The last `k` digits of a number in base `b`. -/
def groups (b : ℕ) : ℕ → ℕ → List ℕ
  | 0, _ => []
  | k + 1, n => groups b k (n / b) ++ [n % b]

variable {b k n d : ℕ} {l : List ℕ}

@[simp] lemma ofGroups_nil : ofGroups b [] = 0 := rfl

@[simp] lemma ofGroups_append_singleton : ofGroups b (l ++ [d]) = b * ofGroups b l + d := by
  simp [ofGroups]

@[simp] lemma length_groups : (groups b k n).length = k := by
  induction k generalizing n with
  | zero => rfl
  | succ k ih => simp [groups, ih]

lemma groups_zero : groups b k 0 = List.replicate k 0 := by
  induction k with
  | zero => rfl
  | succ k ih => rw [groups, Nat.zero_div, Nat.zero_mod, ih, List.replicate_succ']

/-- With more digits than are needed, a number starts with zeros. -/
lemma groups_add (j : ℕ) (h : n < b ^ k) : groups b (j + k) n = List.replicate j 0 ++ groups b k n := by
  induction k generalizing n with
  | zero =>
    obtain rfl : n = 0 := by simpa using h
    rw [groups, List.append_nil]
    exact groups_zero
  | succ k ih =>
    have hlt : n / b < b ^ k := Nat.div_lt_of_lt_mul (by rwa [Nat.pow_succ, Nat.mul_comm] at h)
    rw [← Nat.add_assoc, groups, groups, ih hlt, List.append_assoc]

lemma lt_of_mem_groups (hb : 0 < b) (h : d ∈ groups b k n) : d < b := by
  induction k generalizing n with
  | zero => simp [groups] at h
  | succ k ih =>
    rcases List.mem_append.mp h with h | h
    · exact ih h
    · exact List.mem_singleton.mp h ▸ Nat.mod_lt n hb

lemma ofGroups_groups (h : n < b ^ k) : ofGroups b (groups b k n) = n := by
  induction k generalizing n with
  | zero =>
    obtain rfl : n = 0 := by simpa using h
    rfl
  | succ k ih =>
    have hdiv : n / b < b ^ k := Nat.div_lt_of_lt_mul (by rw [← Nat.pow_succ']; exact h)
    rw [groups, ofGroups_append_singleton, ih hdiv, Nat.div_add_mod]

lemma ofGroups_lt (h : ∀ d ∈ l, d < b) : ofGroups b l < b ^ l.length := by
  induction l using List.reverseRecOn with
  | nil => simp
  | append_singleton l d ih =>
    have hl := ih fun d hd => h d (by simp [hd])
    have hd := h d (by simp)
    rw [ofGroups_append_singleton, List.length_append, List.length_singleton, Nat.pow_succ]
    calc b * ofGroups b l + d < b * (ofGroups b l + 1) := by rw [Nat.mul_add_one]; omega
      _ ≤ b ^ l.length * b := by rw [Nat.mul_comm]; exact Nat.mul_le_mul_right b hl

/-- Digits are read back from their number. -/
lemma groups_ofGroups (h : ∀ d ∈ l, d < b) : groups b l.length (ofGroups b l) = l := by
  induction l using List.reverseRecOn with
  | nil => rfl
  | append_singleton l d ih =>
    have hl := ih fun d hd => h d (by simp [hd])
    have hd : d < b := h d (by simp)
    rw [List.length_append, List.length_singleton, groups, ofGroups_append_singleton,
      Nat.mul_add_div (by omega), Nat.div_eq_of_lt hd, Nat.add_zero, hl, Nat.mul_add_mod,
      Nat.mod_eq_of_lt hd]

/-! ## Text -/

/-- The value of a digit, up to base sixteen. -/
def digitValue (c : Char) : Option ℕ :=
  if '0' ≤ c ∧ c ≤ '9' then some (c.toNat - '0'.toNat)
  else if 'a' ≤ c ∧ c ≤ 'f' then some (c.toNat - 'a'.toNat + 10)
  else if 'A' ≤ c ∧ c ≤ 'F' then some (c.toNat - 'A'.toNat + 10)
  else none

/-- The value of a digit of base `b`. -/
def digitIn (b : ℕ) (c : Char) : Option ℕ := (digitValue c).filter (· < b)

/-- `int(text, b)` for a text of digits of base `b` only. -/
def numeral (b : ℕ) (cs : List Char) : Option ℕ := (cs.mapM (digitIn b)).map (ofGroups b)

lemma digitValue_digitChar : ∀ n < 16, digitValue n.digitChar = some n := by decide

lemma digitIn_digitChar (hb : b ≤ 16) (h : n < b) : digitIn b n.digitChar = some n := by
  simp [digitIn, digitValue_digitChar n (h.trans_le hb), h]

lemma numeral_append_singleton {cs : List Char} {c : Char} :
    numeral b (cs ++ [c]) = (numeral b cs).bind fun n => (digitIn b c).map fun d => b * n + d := by
  simp only [numeral, List.mapM_append, List.mapM_cons, List.mapM_nil]
  cases cs.mapM (digitIn b) <;> cases digitIn b c <;> simp

/-- Reading a number back from its text. -/
lemma numeral_toDigits (h1 : 1 < b) (h16 : b ≤ 16) (n : ℕ) :
    numeral b (Nat.toDigits b n) = some n := by
  induction n using Nat.strong_induction_on with
  | _ n ih =>
    rcases Nat.lt_or_ge n b with hn | hn
    · rw [Nat.toDigits_of_lt_base hn]
      simp [numeral, digitIn_digitChar h16 hn, ofGroups]
    · have hpos : 0 < n := by omega
      rw [Nat.toDigits_of_base_le h1 hn, numeral_append_singleton,
        ih (n / b) (Nat.div_lt_self hpos h1),
        digitIn_digitChar h16 (Nat.mod_lt n (by omega))]
      simp [Nat.div_add_mod]

/-- Different numbers have different texts. -/
lemma toString_injective {m n : ℕ} (h : toString m = toString n) : m = n := by
  have hlist : Nat.toDigits 10 m = Nat.toDigits 10 n := by
    rw [← Nat.toList_repr, ← Nat.toList_repr]
    exact congrArg String.toList h
  have hm := numeral_toDigits (by decide) (by decide) m (b := 10)
  rw [hlist, numeral_toDigits (by decide) (by decide)] at hm
  exact (Option.some.inj hm).symm

/-- A number is written with digits only. -/
lemma digitValue_isSome_of_numeral {cs : List Char} (h : numeral b cs = some n) :
    ∀ c ∈ cs, (digitValue c).isSome := by
  obtain ⟨digits, hdigits, -⟩ := Option.map_eq_some_iff.mp h
  intro c hc
  obtain ⟨d, -, hd⟩ := exists_of_mem_left (mapM_eq_some_iff.mp hdigits) hc
  exact Option.isSome_iff_exists.mpr ⟨d, (Option.filter_eq_some_iff.mp hd).1⟩

lemma digitValue_isSome_of_mem_toDigits {c : Char} (h1 : 1 < b) (h16 : b ≤ 16)
    (h : c ∈ Nat.toDigits b n) : (digitValue c).isSome :=
  digitValue_isSome_of_numeral (numeral_toDigits h1 h16 n) c h

end Portwyrm.Base.Numeral

import Mathlib.Data.List.Induction
import Mathlib.Data.List.Nodup
import Mathlib.Tactic.Lemma

/-!
# Insertion-ordered dictionaries

A dictionary is a list of entries with pairwise different keys, kept in insertion order:
storing under a key that is present updates the entry where it stands, storing under a new
key appends.  Mathlib's `AList` moves an updated key to the front, so it does not describe
a dictionary whose iteration order is observable.  Every operation is characterised by the
lookup it leaves behind, and nothing outside this file looks at the list of entries.
-/

namespace Portwyrm.Base

variable {κ : Type*} {α : Type*} {β : Type*} [DecidableEq κ]

/-- A dictionary: its entries in insertion order, with pairwise different keys. -/
structure Dict (κ : Type*) (α : Type*) where
  /-- The entries, oldest first. -/
  entries : List (κ × α)
  /-- No key occurs twice. -/
  nodup : (entries.map Prod.fst).Nodup
deriving DecidableEq

namespace Dict

/-! ## Entry lists -/

/-- Store `v` under `k`: in place when the key is present, at the end otherwise. -/
def store (k : κ) (v : α) : List (κ × α) → List (κ × α)
  | [] => [(k, v)]
  | (k', v') :: rest => if k' = k then (k', v) :: rest else (k', v') :: store k v rest

/-- Drop the entry of `k`. -/
def drop (k : κ) (l : List (κ × α)) : List (κ × α) := l.filter fun e => e.1 ≠ k

lemma keys_store (k : κ) (v : α) (l : List (κ × α)) :
    (store k v l).map Prod.fst =
      if k ∈ l.map Prod.fst then l.map Prod.fst else l.map Prod.fst ++ [k] := by
  induction l with
  | nil => simp [store]
  | cons e rest ih =>
    obtain ⟨k', v'⟩ := e
    by_cases hk : k' = k
    · simp [store, hk]
    · have hk' : ¬ k = k' := fun h => hk h.symm
      simp only [store, if_neg hk, List.map_cons, ih, List.mem_cons, hk', false_or]
      split <;> simp

lemma lookup_cons_eq_ite [BEq κ] [LawfulBEq κ] (k k' : κ) (v : α) (l : List (κ × α)) :
    ((k', v) :: l).lookup k = if k = k' then some v else l.lookup k := by
  by_cases h : k = k'
  · simp [h]
  · rw [List.lookup_cons, beq_eq_false_iff_ne.mpr h, if_neg h]

lemma lookup_append [BEq κ] [LawfulBEq κ] (k : κ) (l m : List (κ × α)) :
    (l ++ m).lookup k = (l.lookup k).or (m.lookup k) := by
  induction l with
  | nil => simp
  | cons e rest ih =>
    rw [List.cons_append, lookup_cons_eq_ite, lookup_cons_eq_ite, ih]
    split <;> simp

lemma lookup_store (k k' : κ) (v : α) (l : List (κ × α)) :
    (store k v l).lookup k' = if k' = k then some v else l.lookup k' := by
  induction l with
  | nil => simp [store, lookup_cons_eq_ite]
  | cons e rest ih =>
    obtain ⟨k₁, v₁⟩ := e
    by_cases h₁ : k₁ = k
    · subst h₁
      simp only [store, if_true, lookup_cons_eq_ite]
      split <;> rfl
    · simp only [store, if_neg h₁, lookup_cons_eq_ite, ih]
      by_cases h : k' = k₁
      · subst h
        simp [h₁]
      · simp [h]

lemma lookup_drop (k k' : κ) (l : List (κ × α)) :
    (drop k l).lookup k' = if k' = k then none else l.lookup k' := by
  induction l with
  | nil => simp [drop]
  | cons e rest ih =>
    obtain ⟨k₁, v₁⟩ := e
    simp only [drop] at ih
    by_cases h₁ : k₁ = k
    · subst h₁
      simp only [drop, ne_eq, not_true, decide_false, Bool.false_eq_true, not_false_eq_true,
        List.filter_cons_of_neg, lookup_cons_eq_ite]
      rw [ih]
      split <;> rfl
    · rw [drop, List.filter_cons_of_pos (by simpa using h₁), lookup_cons_eq_ite, ih,
        lookup_cons_eq_ite]
      by_cases h : k' = k₁
      · subst h
        simp [h₁]
      · simp [h]

lemma mem_of_lookup_eq_some {k : κ} {v : α} {l : List (κ × α)} (h : l.lookup k = some v) :
    (k, v) ∈ l := by
  induction l with
  | nil => simp at h
  | cons e rest ih =>
    obtain ⟨k₁, v₁⟩ := e
    rw [lookup_cons_eq_ite] at h
    split at h
    · rename_i hk
      simp [hk, Option.some.inj h]
    · exact List.mem_cons_of_mem _ (ih h)

lemma lookup_eq_some_of_mem {k : κ} {v : α} {l : List (κ × α)}
    (hl : (l.map Prod.fst).Nodup) (h : (k, v) ∈ l) : l.lookup k = some v := by
  induction l with
  | nil => simp at h
  | cons e rest ih =>
    obtain ⟨k₁, v₁⟩ := e
    simp only [List.map_cons, List.nodup_cons] at hl
    rw [lookup_cons_eq_ite]
    rcases List.mem_cons.mp h with h | h
    · simp only [Prod.mk.injEq] at h
      simp [h]
    · have hne : k ≠ k₁ := fun hk => hl.1 (hk ▸ List.mem_map.mpr ⟨(k, v), h, rfl⟩)
      rw [if_neg hne]
      exact ih hl.2 h

/-! ## Operations -/

/-- The dictionary without entries. -/
def empty : Dict κ α := ⟨[], List.nodup_nil⟩

instance : Inhabited (Dict κ α) := ⟨empty⟩

/-- The value stored under a key. -/
def get? (d : Dict κ α) (k : κ) : Option α := d.entries.lookup k

/-- Store a value under a key. -/
def set (d : Dict κ α) (k : κ) (v : α) : Dict κ α where
  entries := store k v d.entries
  nodup := by
    rw [keys_store]
    split
    · exact d.nodup
    · rename_i h
      exact List.nodup_append.mpr ⟨d.nodup, by simp, by
        rintro a ha b hb rfl
        exact h (List.mem_singleton.mp hb ▸ ha)⟩

/-- Remove a key, present or not. -/
def pop (d : Dict κ α) (k : κ) : Dict κ α where
  entries := drop k d.entries
  nodup := d.nodup.sublist (List.Sublist.map _ List.filter_sublist)

/-- The keys, in insertion order. -/
def keys (d : Dict κ α) : List κ := d.entries.map Prod.fst

/-- The values, in insertion order. -/
def values (d : Dict κ α) : List α := d.entries.map Prod.snd

/-- The number of keys. -/
def size (d : Dict κ α) : ℕ := d.entries.length

/-- The dictionary a sequence of entries builds; a later entry overwrites an earlier one. -/
def ofList (l : List (κ × α)) : Dict κ α := l.foldl (fun d e => d.set e.1 e.2) empty

/-- `dict.fromkeys`: the different elements of a list, each at its first position. -/
def fromKeys (l : List κ) : List κ := (ofList (l.map fun k => (k, ()))).keys

/-- The dictionary with a function applied to every value. -/
def mapValues (f : α → β) (d : Dict κ α) : Dict κ β where
  entries := d.entries.map fun e => (e.1, f e.2)
  nodup := by simpa [Function.comp_def] using d.nodup

/-- The dictionary with a function applied to every entry. -/
def mapEntries (f : κ → α → β) (d : Dict κ α) : Dict κ β where
  entries := d.entries.map fun e => (e.1, f e.1 e.2)
  nodup := by simpa [Function.comp_def] using d.nodup

/-- `d.update(e)`. -/
def update (d e : Dict κ α) : Dict κ α := e.entries.foldl (fun d e => d.set e.1 e.2) d

instance : Membership κ (Dict κ α) := ⟨fun d k => k ∈ d.keys⟩

instance (d : Dict κ α) (k : κ) : Decidable (k ∈ d) :=
  inferInstanceAs (Decidable (k ∈ d.keys))

/-! ## Lookups after an operation -/

@[simp] lemma get?_empty (k : κ) : (empty : Dict κ α).get? k = none := rfl

lemma get?_set (d : Dict κ α) (k k' : κ) (v : α) :
    (d.set k v).get? k' = if k' = k then some v else d.get? k' :=
  lookup_store k k' v d.entries

@[simp] lemma get?_set_self (d : Dict κ α) (k : κ) (v : α) : (d.set k v).get? k = some v := by
  simp [get?_set]

lemma get?_set_of_ne (d : Dict κ α) {k k' : κ} (v : α) (h : k' ≠ k) :
    (d.set k v).get? k' = d.get? k' := by
  simp [get?_set, h]

lemma get?_pop (d : Dict κ α) (k k' : κ) :
    (d.pop k).get? k' = if k' = k then none else d.get? k' :=
  lookup_drop k k' d.entries

@[simp] lemma get?_pop_self (d : Dict κ α) (k : κ) : (d.pop k).get? k = none := by
  simp [get?_pop]

lemma mem_entries_iff {d : Dict κ α} {k : κ} {v : α} :
    (k, v) ∈ d.entries ↔ d.get? k = some v :=
  ⟨lookup_eq_some_of_mem d.nodup, mem_of_lookup_eq_some⟩

lemma mem_keys_iff {d : Dict κ α} {k : κ} : k ∈ d.keys ↔ ∃ v, d.get? k = some v := by
  simp only [keys, List.mem_map, Prod.exists, exists_and_right, exists_eq_right,
    mem_entries_iff]

lemma mem_iff {d : Dict κ α} {k : κ} : k ∈ d ↔ ∃ v, d.get? k = some v := mem_keys_iff

lemma get?_eq_none_iff {d : Dict κ α} {k : κ} : d.get? k = none ↔ k ∉ d := by
  rw [mem_iff, Option.eq_none_iff_forall_ne_some, not_exists]

lemma mem_values_iff {d : Dict κ α} {v : α} : v ∈ d.values ↔ ∃ k, d.get? k = some v := by
  simp only [values, List.mem_map, Prod.exists, exists_eq_right, mem_entries_iff]

@[simp] lemma not_mem_empty (k : κ) : k ∉ (empty : Dict κ α) := by
  simp [mem_iff]

lemma mem_set {d : Dict κ α} {k k' : κ} {v : α} : k' ∈ d.set k v ↔ k' = k ∨ k' ∈ d := by
  simp only [mem_iff, get?_set]
  by_cases h : k' = k <;> simp [h]

lemma mem_pop {d : Dict κ α} {k k' : κ} : k' ∈ d.pop k ↔ k' ≠ k ∧ k' ∈ d := by
  simp only [mem_iff, get?_pop]
  by_cases h : k' = k <;> simp [h]

/-- What holds of all entries holds of them when one is set for which it holds. -/
lemma forall_set {P : κ → α → Prop} {d : Dict κ α} {k : κ} {v : α}
    (h : ∀ k' v', d.get? k' = some v' → P k' v') (hv : P k v) :
    ∀ k' v', (d.set k v).get? k' = some v' → P k' v' := by
  intro k' v' hget
  rw [get?_set] at hget
  split at hget
  · rename_i heq
    rw [heq, ← Option.some.inj hget]
    exact hv
  · exact h k' v' hget

/-- What holds of all entries holds of those that remain when one goes. -/
lemma forall_pop {P : κ → α → Prop} {d : Dict κ α} (k : κ)
    (h : ∀ k' v', d.get? k' = some v' → P k' v') :
    ∀ k' v', (d.pop k).get? k' = some v' → P k' v' := by
  intro k' v' hget
  rw [get?_pop] at hget
  split at hget
  · exact nomatch hget
  · exact h k' v' hget

omit [DecidableEq κ] in
lemma keys_nodup (d : Dict κ α) : d.keys.Nodup := d.nodup

lemma keys_set (d : Dict κ α) (k : κ) (v : α) :
    (d.set k v).keys = if k ∈ d then d.keys else d.keys ++ [k] :=
  keys_store k v d.entries

lemma store_of_not_mem {k : κ} (v : α) {l : List (κ × α)} (h : k ∉ l.map Prod.fst) :
    store k v l = l ++ [(k, v)] := by
  induction l with
  | nil => rfl
  | cons e rest ih =>
    obtain ⟨k', v'⟩ := e
    simp only [List.map_cons, List.mem_cons, not_or] at h
    rw [store, if_neg (Ne.symm h.1), ih h.2, List.cons_append]

lemma entries_set_of_not_mem {d : Dict κ α} {k : κ} {v : α} (h : k ∉ d) :
    (d.set k v).entries = d.entries ++ [(k, v)] :=
  store_of_not_mem v h

lemma keys_pop (d : Dict κ α) (k : κ) : (d.pop k).keys = d.keys.filter fun k' => k' ≠ k := by
  simp [keys, pop, drop, List.filter_map, Function.comp_def]

omit [DecidableEq κ] in
lemma size_eq (d : Dict κ α) : d.size = d.keys.length := by
  simp [size, keys]

lemma size_set_of_mem {d : Dict κ α} {k : κ} (v : α) (h : k ∈ d) : (d.set k v).size = d.size := by
  rw [size_eq, size_eq, keys_set, if_pos h]

lemma size_set_of_not_mem {d : Dict κ α} {k : κ} (v : α) (h : k ∉ d) :
    (d.set k v).size = d.size + 1 := by
  rw [size_eq, size_eq, keys_set, if_neg h, List.length_append, List.length_singleton]

lemma size_pop_le (d : Dict κ α) (k : κ) : (d.pop k).size ≤ d.size := by
  rw [size_eq, size_eq, keys_pop]
  exact List.length_filter_le _ _

/-- A new key counts once more. -/
lemma countP_keys_set_of_not_mem (p : κ → Bool) {d : Dict κ α} {k : κ} (v : α) (h : k ∉ d) :
    (d.set k v).keys.countP p = d.keys.countP p + if p k then 1 else 0 := by
  rw [keys_set, if_neg h, List.countP_append, List.countP_singleton]

/-- A key that goes counts once less. -/
lemma countP_keys_pop_of_mem (p : κ → Bool) {d : Dict κ α} {k : κ} (h : k ∈ d) :
    (d.pop k).keys.countP p + (if p k then 1 else 0) = d.keys.countP p := by
  have hperm : d.keys.Perm (k :: d.keys.erase k) := List.perm_cons_erase h
  rw [hperm.countP_eq, List.countP_cons, keys_pop, d.keys_nodup.erase_eq_filter]
  simp only [ne_eq, bne, beq_eq_decide, decide_not]

lemma mem_ofList_iff {l : List (κ × α)} {k : κ} : k ∈ ofList l ↔ k ∈ l.map Prod.fst := by
  suffices h : ∀ d : Dict κ α, k ∈ l.foldl (fun d e => d.set e.1 e.2) d ↔
      k ∈ d ∨ k ∈ l.map Prod.fst by
    simpa [ofList] using h empty
  induction l with
  | nil => simp
  | cons e rest ih =>
    intro d
    rw [List.foldl_cons, ih, mem_set, List.map_cons, List.mem_cons]
    tauto

/-- Entries stored one by one: the last one of a key stays. -/
lemma get?_foldl_set (l : List (κ × α)) (d : Dict κ α) (k : κ) :
    (l.foldl (fun d e => d.set e.1 e.2) d).get? k = (l.reverse.lookup k).or (d.get? k) := by
  induction l using List.reverseRecOn with
  | nil => rfl
  | append_singleton l e ih =>
    rw [List.foldl_append, List.foldl_cons, List.foldl_nil, get?_set, ih, List.reverse_append,
      List.reverse_singleton, List.singleton_append, lookup_cons_eq_ite]
    split <;> rfl

/-- The last entry of a key is the one that stays. -/
lemma get?_ofList (l : List (κ × α)) (k : κ) : (ofList l).get? k = l.reverse.lookup k := by
  rw [ofList, get?_foldl_set, get?_empty, Option.or_none]

/-- The value of a key is that of its last entry. -/
lemma get?_ofList_eq_some_iff {l : List (κ × α)} {k : κ} {v : α} :
    (ofList l).get? k = some v ↔ ∃ l₁ l₂, l = l₁ ++ (k, v) :: l₂ ∧ ∀ e ∈ l₂, e.1 ≠ k := by
  rw [get?_ofList, List.lookup_eq_some_iff]
  constructor
  · rintro ⟨l₁, l₂, hl, hne⟩
    refine ⟨l₂.reverse, l₁.reverse, ?_, ?_⟩
    · rw [← List.reverse_reverse l, hl]
      simp
    · intro e he hk
      simpa [hk] using hne e (List.mem_reverse.mp he)
  · rintro ⟨l₁, l₂, rfl, hne⟩
    refine ⟨l₂.reverse, l₁.reverse, by simp, fun e he => ?_⟩
    have hk := hne e (List.mem_reverse.mp he)
    exact bne_iff_ne.mpr (Ne.symm hk)

/-- With pairwise different keys, the order of the entries does not matter to a lookup. -/
lemma lookup_reverse_of_nodup {l : List (κ × α)} (hl : (l.map Prod.fst).Nodup) (k : κ) :
    l.reverse.lookup k = l.lookup k := by
  have hr : (l.reverse.map Prod.fst).Nodup := by
    rw [List.map_reverse]
    exact List.nodup_reverse.mpr hl
  ext v
  constructor
  · exact fun h => lookup_eq_some_of_mem hl (List.mem_reverse.mp (mem_of_lookup_eq_some h))
  · exact fun h => lookup_eq_some_of_mem hr (List.mem_reverse.mpr (mem_of_lookup_eq_some h))

lemma get?_update (d e : Dict κ α) (k : κ) : (d.update e).get? k = (e.get? k).or (d.get? k) := by
  rw [update, get?_foldl_set, lookup_reverse_of_nodup e.nodup]
  rfl

/-- Entries with pairwise different keys are looked up as they are. -/
lemma get?_ofList_of_nodup {l : List (κ × α)} (hl : (l.map Prod.fst).Nodup) (k : κ) :
    (ofList l).get? k = l.lookup k := by
  rw [get?_ofList, lookup_reverse_of_nodup hl]

/-- Every key has one value. -/
def Functional (l : List (κ × α)) : Prop := ∀ e ∈ l, ∀ e' ∈ l, e.1 = e'.1 → e.2 = e'.2

instance [DecidableEq α] (l : List (κ × α)) : Decidable (Functional l) :=
  inferInstanceAs (Decidable (∀ e ∈ l, ∀ e' ∈ l, e.1 = e'.1 → e.2 = e'.2))

omit [DecidableEq κ] in
lemma Functional.subset {l l' : List (κ × α)} (h : Functional l) (hsub : l' ⊆ l) :
    Functional l' := fun e he e' he' => h e (hsub he) e' (hsub he')

omit [DecidableEq κ] in
lemma functional_cons_iff {e : κ × α} {l : List (κ × α)} :
    Functional (e :: l) ↔ (∀ e' ∈ l, e'.1 = e.1 → e'.2 = e.2) ∧ Functional l := by
  constructor
  · intro h
    exact ⟨fun e' he' => h e' (List.mem_cons_of_mem _ he') e List.mem_cons_self,
      h.subset fun e' => List.mem_cons_of_mem _⟩
  · rintro ⟨hhead, htail⟩ a ha b hb heq
    rcases List.mem_cons.mp ha with rfl | ha'
    · rcases List.mem_cons.mp hb with rfl | hb'
      · rfl
      · exact (hhead b hb' heq.symm).symm
    · rcases List.mem_cons.mp hb with rfl | hb'
      · exact hhead a ha' heq
      · exact htail a ha' b hb' heq

/-- When a list holds one value for each key, its dictionary holds the entries of the list. -/
lemma get?_ofList_iff_of_functional {l : List (κ × α)}
    (h : Functional l) {k : κ} {v : α} :
    (ofList l).get? k = some v ↔ (k, v) ∈ l := by
  constructor
  · intro hget
    rw [get?_ofList] at hget
    exact List.mem_reverse.mp (mem_of_lookup_eq_some hget)
  · intro hmem
    have hkey : k ∈ ofList l := mem_ofList_iff.mpr (List.mem_map.mpr ⟨(k, v), hmem, rfl⟩)
    obtain ⟨v', hget⟩ := mem_iff.mp hkey
    have hmem' : (k, v') ∈ l := by
      rw [get?_ofList] at hget
      exact List.mem_reverse.mp (mem_of_lookup_eq_some hget)
    exact hget.trans (congrArg some (h _ hmem' _ hmem rfl))

@[simp] lemma mem_fromKeys {l : List κ} {k : κ} : k ∈ fromKeys l ↔ k ∈ l := by
  rw [fromKeys, mem_keys_iff, ← mem_iff, mem_ofList_iff]
  simp

/-- Dictionaries with the same keys in the same order and the same lookups are equal. -/
lemma ext_get? {d e : Dict κ α} (hkeys : d.keys = e.keys) (h : ∀ k, d.get? k = e.get? k) :
    d = e := by
  have hsome : ∀ c : Dict κ α,
      c.entries.map some = c.keys.map fun k => (c.get? k).map fun v => (k, v) := by
    intro c
    rw [keys, List.map_map]
    refine List.map_congr_left fun p hp => ?_
    have hget : c.get? p.1 = some p.2 := mem_entries_iff.mp hp
    simp [hget]
  have hmap : d.entries.map some = e.entries.map some := by
    rw [hsome d, hsome e, hkeys]
    exact List.map_congr_left fun k _ => by rw [h k]
  have hentries : d.entries = e.entries :=
    List.map_injective_iff.mpr (fun _ _ => Option.some.inj) hmap
  cases d
  cases e
  simpa using hentries

lemma keys_foldl_set (l : List (κ × α)) (hl : (l.map Prod.fst).Nodup) (d : Dict κ α) :
    (l.foldl (fun d e => d.set e.1 e.2) d).keys =
      d.keys ++ (l.map Prod.fst).filter fun k => k ∉ d := by
  induction l generalizing d with
  | nil => simp
  | cons e rest ih =>
    obtain ⟨hnot, hrest⟩ := List.nodup_cons.mp hl
    rw [List.foldl_cons, ih hrest, keys_set, List.map_cons]
    -- the new key is none of the keys that follow
    have hfilter : ((rest.map Prod.fst).filter fun k => k ∉ d.set e.1 e.2) =
        (rest.map Prod.fst).filter fun k => k ∉ d := by
      refine List.filter_congr fun k hk => ?_
      have hne : k ≠ e.1 := fun heq => hnot (heq ▸ hk)
      simp [mem_set, hne]
    rw [hfilter]
    by_cases hmem : e.1 ∈ d
    · rw [if_pos hmem, List.filter_cons_of_neg (by simpa using hmem)]
    · rw [if_neg hmem, List.filter_cons_of_pos (by simpa using hmem), List.append_assoc,
        List.singleton_append]

lemma keys_update (d e : Dict κ α) : (d.update e).keys = d.keys ++ e.keys.filter fun k => k ∉ d :=
  keys_foldl_set e.entries e.nodup d

/-- A dictionary changes nothing when all that it says is said. -/
lemma update_eq_self_iff {d e : Dict κ α} :
    d.update e = d ↔ ∀ k, (e.get? k).or (d.get? k) = d.get? k := by
  constructor
  · intro h k
    rw [← get?_update, h]
  · intro h
    refine ext_get? ?_ fun k => by rw [get?_update, h]
    rw [keys_update, List.append_right_eq_self, List.filter_eq_nil_iff]
    intro k hk
    obtain ⟨v, hv⟩ := mem_keys_iff.mp hk
    have hget : d.get? k = some v := by rw [← h k, hv, Option.some_or]
    simpa using mem_iff.mpr ⟨v, hget⟩

/-- A dictionary that is laid over one that it was part of comes back exactly when nothing else
was in there. -/
lemma update_update_self_iff {d e : Dict κ α} :
    (d.update e).update d = d ↔ ∀ k ∈ e, k ∈ d := by
  constructor
  · intro h k hk
    obtain ⟨v, hv⟩ := mem_iff.mp hk
    by_contra hnot
    have hget := congrArg (fun d => d.get? k) h
    simp [get?_update, get?_eq_none_iff.mpr hnot, hv] at hget
  · intro h
    have hkeys : (d.update e).keys = d.keys := by
      rw [keys_update, List.append_right_eq_self, List.filter_eq_nil_iff]
      intro k hk
      simpa using h k hk
    refine ext_get? ?_ fun k => ?_
    · rw [keys_update, hkeys, List.append_right_eq_self, List.filter_eq_nil_iff]
      intro k hk
      have hmem : k ∈ (d.update e).keys := hkeys ▸ hk
      simpa using show k ∈ d.update e from hmem
    · rw [get?_update, get?_update]
      rcases hd : d.get? k with _ | v
      · have hnot : k ∉ e := fun hk => get?_eq_none_iff.mp hd (h k hk)
        rw [get?_eq_none_iff.mpr hnot]
        rfl
      · rfl

/-- Laying a dictionary over another one twice. -/
lemma update_update (d e : Dict κ α) : d.update (d.update e) = d.update e := by
  refine ext_get? ?_ fun k => ?_
  · rw [keys_update, keys_update, List.filter_append, List.filter_filter]
    have hnone : (d.keys.filter fun k => k ∉ d) = [] := by
      rw [List.filter_eq_nil_iff]
      intro k (hk : k ∈ d)
      simp [hk]
    simp only [hnone, List.nil_append, Bool.and_self]
  · rw [get?_update, get?_update, Option.or_assoc, Option.or_self]

/-- The last value that is stored under a key stays. -/
lemma set_set (d : Dict κ α) (k : κ) (v w : α) : (d.set k v).set k w = d.set k w := by
  refine ext_get? ?_ fun k' => ?_
  · rw [keys_set, keys_set, keys_set, if_pos (mem_set.mpr (.inl rfl))]
  · rw [get?_set, get?_set, get?_set]
    split <;> rfl

lemma set_eq_self {d : Dict κ α} {k : κ} {v : α} (h : d.get? k = some v) : d.set k v = d := by
  have hmem : k ∈ d := mem_iff.mpr ⟨v, h⟩
  refine ext_get? (by rw [keys_set, if_pos hmem]) fun k' => ?_
  rw [get?_set]
  split
  · rename_i hk
    rw [hk, h]
  · rfl

lemma pop_set_of_ne {k k' : κ} (hne : k ≠ k') (v : α) (d : Dict κ α) :
    (d.set k v).pop k' = (d.pop k').set k v := by
  refine ext_get? ?_ fun j => ?_
  · have hmem : k ∈ d.pop k' ↔ k ∈ d := by rw [mem_pop, and_iff_right hne]
    rw [keys_pop, keys_set, keys_set, keys_pop, if_congr hmem rfl rfl]
    split
    · rfl
    · simp [List.filter_append, hne]
  · rw [get?_pop, get?_set, get?_set, get?_pop]
    split
    · rename_i hj
      rw [if_neg fun h => hne (h.symm.trans hj)]
    · rfl

/-- Entries with pairwise different keys are kept in their order. -/
lemma ofList_of_nodup {l : List (κ × α)} (hl : (l.map Prod.fst).Nodup) : ofList l = ⟨l, hl⟩ := by
  refine ext_get? ?_ fun k => get?_ofList_of_nodup hl k
  rw [ofList, keys_foldl_set l hl]
  exact List.filter_eq_self.mpr fun k _ => decide_eq_true (not_mem_empty k)

@[simp] lemma ofList_entries (d : Dict κ α) : ofList d.entries = d := ofList_of_nodup d.nodup

/-- Removing a key forgets what was stored under it. -/
lemma pop_set (d : Dict κ α) (k : κ) (v : α) : (d.set k v).pop k = d.pop k := by
  refine ext_get? ?_ fun k' => ?_
  · rw [keys_pop, keys_pop, keys_set]
    split
    · rfl
    · simp
  · rw [get?_pop, get?_pop, get?_set]
    split <;> rfl

/-- Removing several keys. -/
lemma get?_foldl_pop (l : List κ) (d : Dict κ α) (k : κ) :
    (l.foldl pop d).get? k = if k ∈ l then none else d.get? k := by
  induction l generalizing d with
  | nil => simp
  | cons k' rest ih =>
    rw [List.foldl_cons, ih, get?_pop]
    by_cases h : k = k' <;> simp [h]

omit [DecidableEq κ] in
@[simp] lemma keys_mapEntries (f : κ → α → β) (d : Dict κ α) : (d.mapEntries f).keys = d.keys := by
  simp [keys, mapEntries, Function.comp_def]

@[simp] lemma get?_mapEntries (f : κ → α → β) (d : Dict κ α) (k : κ) :
    (d.mapEntries f).get? k = (d.get? k).map (f k) := by
  simp only [get?, mapEntries]
  induction d.entries with
  | nil => rfl
  | cons e rest ih =>
    rw [List.map_cons, lookup_cons_eq_ite, ih, lookup_cons_eq_ite]
    split
    · rename_i heq
      rw [heq]
      rfl
    · rfl

@[simp] lemma get?_mapValues (f : α → β) (d : Dict κ α) (k : κ) :
    (d.mapValues f).get? k = (d.get? k).map f := by
  simp only [get?, mapValues]
  induction d.entries with
  | nil => rfl
  | cons e rest ih =>
    rw [List.map_cons, lookup_cons_eq_ite, ih, lookup_cons_eq_ite]
    split <;> rfl

lemma mapEntries_set (f : κ → α → β) (d : Dict κ α) (k : κ) (v : α) :
    (d.set k v).mapEntries f = (d.mapEntries f).set k (f k v) := by
  refine ext_get? ?_ fun k' => ?_
  · have hmem : k ∈ d.mapEntries f ↔ k ∈ d := by
      show k ∈ (d.mapEntries f).keys ↔ k ∈ d.keys
      rw [keys_mapEntries]
    rw [keys_mapEntries, keys_set, keys_set, keys_mapEntries, if_congr hmem rfl rfl]
  · rw [get?_mapEntries, get?_set, get?_set, get?_mapEntries]
    split
    · rename_i hk
      rw [hk]
      rfl
    · rfl

/-! ## Lists made of the entries -/

/-- What is listed of a dictionary without a key of which nothing is listed. -/
lemma flatMap_entries_pop {f : κ × α → List β} {k : κ} (hf : ∀ v, f (k, v) = []) (d : Dict κ α) :
    (d.pop k).entries.flatMap f = d.entries.flatMap f := by
  show (drop k d.entries).flatMap f = _
  induction d.entries with
  | nil => rfl
  | cons e rest ih =>
    obtain ⟨k', v⟩ := e
    by_cases he : k' = k
    · subst he
      rw [drop, List.filter_cons_of_neg (by simp), List.flatMap_cons, hf, List.nil_append]
      exact ih
    · rw [drop, List.filter_cons_of_pos (by simpa using he), List.flatMap_cons, List.flatMap_cons]
      exact congrArg _ ih

lemma flatMap_entries_set_of_nil {f : κ × α → List β} {k : κ} (hf : ∀ v, f (k, v) = []) (v : α)
    (d : Dict κ α) : (d.set k v).entries.flatMap f = d.entries.flatMap f := by
  show (store k v d.entries).flatMap f = _
  induction d.entries with
  | nil => simp [store, hf]
  | cons e rest ih =>
    obtain ⟨k', v'⟩ := e
    by_cases he : k' = k
    · subst he
      rw [store, if_pos rfl, List.flatMap_cons, List.flatMap_cons, hf, hf]
    · rw [store, if_neg he, List.flatMap_cons, List.flatMap_cons, ih]

/-- What is listed of a dictionary with another value under a key. -/
lemma flatMap_entries_set {f : κ × α → List β} {k : κ} {v₀ : α} {d : Dict κ α}
    (h : d.get? k = some v₀) (v : α) : (d.set k v).entries.flatMap f =
      d.entries.flatMap fun e => if e.1 = k then f (k, v) else f e := by
  obtain ⟨entries, hnodup⟩ := d
  change entries.lookup k = some v₀ at h
  change (store k v entries).flatMap f = _
  induction entries with
  | nil => exact nomatch h
  | cons e rest ih =>
    obtain ⟨k', v'⟩ := e
    obtain ⟨hnot, hrest⟩ := List.nodup_cons.mp hnodup
    by_cases he : k' = k
    · subst he
      rw [store, if_pos rfl, List.flatMap_cons, List.flatMap_cons, if_pos rfl]
      refine congrArg _ (List.flatMap_congr fun e he => ?_)
      have hne : e.1 ≠ k' := fun hk => hnot (List.mem_map.mpr ⟨e, he, hk⟩)
      rw [if_neg hne]
    · rw [lookup_cons_eq_ite, if_neg (Ne.symm he)] at h
      rw [store, if_neg he, List.flatMap_cons, List.flatMap_cons, if_neg he, ih hrest h]

/-! ## Sets -/

/-- A set, as a dictionary without values; its elements are the keys. -/
abbrev KeySet (κ : Type*) := Dict κ Unit

/-- `s.add(k)`. -/
def add (s : Dict κ Unit) (k : κ) : Dict κ Unit := s.set k ()

lemma mem_add {s : Dict κ Unit} {k k' : κ} : k' ∈ s.add k ↔ k' = k ∨ k' ∈ s := mem_set

/-! ## Dictionaries of dictionaries -/

variable {ι : Type*} [DecidableEq ι]

/-- The value under a pair of keys. -/
def getIn (d : Dict ι (Dict κ α)) (i : ι) (k : κ) : Option α := (d.get? i).bind fun m => m.get? k

/-- `d.setdefault(i, {})[k] = v`. -/
def setIn (d : Dict ι (Dict κ α)) (i : ι) (k : κ) (v : α) : Dict ι (Dict κ α) :=
  d.set i (((d.get? i).getD empty).set k v)

@[simp] lemma getIn_empty (i : ι) (k : κ) : (empty : Dict ι (Dict κ α)).getIn i k = none := rfl

lemma getIn_setIn (d : Dict ι (Dict κ α)) (i i' : ι) (k k' : κ) (v : α) :
    (d.setIn i k v).getIn i' k' = if i' = i ∧ k' = k then some v else d.getIn i' k' := by
  simp only [getIn, setIn, get?_set]
  by_cases hi : i' = i
  · subst hi
    by_cases hk : k' = k
    · simp [hk]
    · cases d.get? i' <;> simp [get?_set, hk]
  · simp [hi]

end Dict

end Portwyrm.Base

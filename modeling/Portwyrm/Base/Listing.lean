import Mathlib.Data.List.Sort
import Mathlib.Order.Defs.LinearOrder
import Portwyrm.Base.Dict

/-!
# Rows in the order of their keys

The entries of a dictionary sorted by key, and its restriction to some values.  What a sorted list
shows of a dictionary depends on its lookups only.
-/

namespace Portwyrm.Base.Dict

variable {κ α : Type*} [LinearOrder κ]

/-- The entries in the order of their keys. -/
def sorted (d : Dict κ α) : List (κ × α) := d.entries.insertionSort fun e e' => e.1 ≤ e'.1

/-- The entries that meet a condition. -/
def restrict (p : κ → α → Bool) (d : Dict κ α) : Dict κ α where
  entries := d.entries.filter fun e => p e.1 e.2
  nodup := d.nodup.sublist (List.filter_sublist.map _)

lemma mem_sorted {d : Dict κ α} {e : κ × α} : e ∈ d.sorted ↔ d.get? e.1 = some e.2 := by
  rw [sorted, (List.perm_insertionSort _ _).mem_iff]
  exact mem_entries_iff

/-- The keys of a sorted list increase. -/
lemma pairwise_sorted (d : Dict κ α) : d.sorted.Pairwise fun e e' => e.1 < e'.1 := by
  have hle : d.sorted.Pairwise fun e e' => e.1 ≤ e'.1 := by
    have htotal : Std.Total fun e e' : κ × α => e.1 ≤ e'.1 := ⟨fun e e' => le_total e.1 e'.1⟩
    have htrans : IsTrans (κ × α) fun e e' => e.1 ≤ e'.1 := ⟨fun _ _ _ => le_trans⟩
    exact List.pairwise_insertionSort _ _
  have hne : d.sorted.Pairwise fun e e' => e.1 ≠ e'.1 := by
    have hperm := (List.perm_insertionSort (fun e e' : κ × α => e.1 ≤ e'.1) d.entries).map Prod.fst
    exact List.pairwise_map.mp (hperm.nodup_iff.mpr d.nodup)
  exact (hle.and hne).imp fun h => lt_of_le_of_ne h.1 h.2

/-- Lists with increasing keys and the same members are equal. -/
lemma eq_of_pairwise_of_mem_iff {l l' : List (κ × α)} (h : l.Pairwise fun e e' => e.1 < e'.1)
    (h' : l'.Pairwise fun e e' => e.1 < e'.1) (hmem : ∀ e, e ∈ l ↔ e ∈ l') : l = l' := by
  have hnodup : ∀ {l : List (κ × α)}, (l.Pairwise fun e e' => e.1 < e'.1) → l.Nodup :=
    fun h => h.imp fun hlt heq => absurd (congrArg Prod.fst heq) hlt.ne
  have hperm : l.Perm l' := (List.perm_ext_iff_of_nodup (hnodup h) (hnodup h')).mpr hmem
  exact hperm.eq_of_pairwise (fun a b _ _ hab hba => absurd hab (lt_asymm hba)) h h'

/-- Two dictionaries show the same entries of one kind, when their lookups of this kind agree. -/
theorem filter_sorted_ext {d d' : Dict κ α} {p : κ × α → Bool}
    (h : ∀ k a, p (k, a) = true → (d.get? k = some a ↔ d'.get? k = some a)) :
    d.sorted.filter p = d'.sorted.filter p := by
  refine eq_of_pairwise_of_mem_iff (d.pairwise_sorted.sublist List.filter_sublist)
    (d'.pairwise_sorted.sublist List.filter_sublist) fun e => ?_
  rw [List.mem_filter, List.mem_filter, mem_sorted, mem_sorted]
  exact and_congr_left fun hp => h e.1 e.2 hp

lemma get?_restrict {d : Dict κ α} {p : κ → α → Bool} {k : κ} {a : α} :
    (d.restrict p).get? k = some a ↔ d.get? k = some a ∧ p k a = true := by
  rw [← mem_entries_iff, restrict, List.mem_filter, mem_entries_iff]

/-- Restricting a dictionary filters its sorted entries. -/
lemma sorted_restrict (d : Dict κ α) (p : κ → α → Bool) :
    (d.restrict p).sorted = d.sorted.filter fun e => p e.1 e.2 := by
  refine eq_of_pairwise_of_mem_iff (pairwise_sorted _)
    (d.pairwise_sorted.sublist List.filter_sublist) fun e => ?_
  rw [mem_sorted, List.mem_filter, mem_sorted, get?_restrict]

end Portwyrm.Base.Dict

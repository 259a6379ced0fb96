import Mathlib.Data.List.Induction
import Mathlib.Data.List.Nodup
import Mathlib.Data.List.Perm.Basic
import Mathlib.Tactic.Lemma

/-!
# Rows with repeated keys

Of the rows with one key, a pass over all rows keeps the first that is live, and an index by keys
leads to the last.  This file describes both choices.
-/

namespace Portwyrm.Base

variable {ε ρ κ : Type*} [DecidableEq κ]

/-! ## The first row -/

section First

variable (key : ε → κ) (live : ε → Prop) [DecidablePred live]

/-- One row: it is kept when it is live and no row is kept under its key. -/
def settleRow (s : List ε × List ε) (e : ε) : List ε × List ε :=
  if live e ∧ key e ∉ s.1.map key then (s.1 ++ [e], s.2) else (s.1, s.2 ++ [e])

/-- The rows that are kept, and those that are not. -/
def settle (rows : List ε) : List ε × List ε := rows.foldl (settleRow key live) ([], [])

/-- A row that is live, and behind no live row with its key. -/
def IsFirstLive (rows : List ε) (e : ε) : Prop :=
  ∃ before behind, rows = before ++ e :: behind ∧ live e ∧
    ∀ e' ∈ before, key e' = key e → ¬ live e'

lemma settle_concat (rows : List ε) (e : ε) :
    settle key live (rows ++ [e]) = settleRow key live (settle key live rows) e := by
  rw [settle, List.foldl_append]
  rfl

variable {key live} {rows : List ε} {e : ε}

/-- A row is kept under each key under which a row is live. -/
lemma mem_keys_settle {k : κ} :
    k ∈ (settle key live rows).1.map key ↔ ∃ e ∈ rows, key e = k ∧ live e := by
  induction rows using List.reverseRecOn with
  | nil => simp [settle]
  | append_singleton rows e ih =>
    have hsplit : (∃ e' ∈ rows ++ [e], key e' = k ∧ live e') ↔
        (∃ e' ∈ rows, key e' = k ∧ live e') ∨ key e = k ∧ live e := by
      simp [or_and_right, exists_or]
    rw [hsplit, ← ih, settle_concat, settleRow]
    -- the keys grow by that of the last row, unless it is dead or its key is there already
    split
    · rename_i hkept
      rw [List.map_append, List.mem_append, List.map_singleton, List.mem_singleton]
      constructor
      · rintro (hold | rfl)
        · exact .inl hold
        · exact .inr ⟨rfl, hkept.1⟩
      · rintro (hold | ⟨rfl, -⟩)
        · exact .inl hold
        · exact .inr rfl
    · rename_i hnot
      refine ⟨.inl, ?_⟩
      rintro (hold | ⟨rfl, hlive⟩)
      · exact hold
      · by_contra hfree
        exact hnot ⟨hlive, hfree⟩

/-- The rows that are kept are the first live ones of their keys. -/
lemma mem_settle_iff : e ∈ (settle key live rows).1 ↔ IsFirstLive key live rows e := by
  induction rows using List.reverseRecOn with
  | nil => simp [settle, IsFirstLive]
  | append_singleton rows last ih =>
    have hsplit : IsFirstLive key live (rows ++ [last]) e ↔ IsFirstLive key live rows e ∨
        e = last ∧ live e ∧ ∀ e' ∈ rows, key e' = key e → ¬ live e' := by
      constructor
      · -- the row is the last one exactly when nothing stands behind it
        rintro ⟨before, behind, heq, hlive, hbefore⟩
        rcases List.eq_nil_or_concat behind with rfl | ⟨behind, last', rfl⟩
        · obtain ⟨rfl, hlast⟩ := List.append_inj' heq rfl
          exact .inr ⟨(List.cons.inj hlast).1.symm, hlive, hbefore⟩
        · rw [List.concat_eq_append, ← List.cons_append, ← List.append_assoc] at heq
          obtain ⟨rfl, -⟩ := List.append_inj' heq rfl
          exact .inl ⟨before, behind, rfl, hlive, hbefore⟩
      · rintro (⟨before, behind, rfl, hlive, hbefore⟩ | ⟨rfl, hlive, hbefore⟩)
        · exact ⟨before, behind ++ [last], by simp, hlive, hbefore⟩
        · exact ⟨rows, [], rfl, hlive, hbefore⟩
    rw [hsplit, ← ih, settle_concat, settleRow]
    split
    · rename_i hkept
      rw [List.mem_append, List.mem_singleton]
      refine or_congr_right ⟨?_, And.left⟩
      rintro rfl
      refine ⟨rfl, hkept.1, fun e' he' hkey hlive => hkept.2 ?_⟩
      exact mem_keys_settle.mpr ⟨e', he', hkey, hlive⟩
    · rename_i hnot
      refine ⟨.inl, ?_⟩
      rintro (hold | ⟨rfl, hlive, hbefore⟩)
      · exact hold
      · refine absurd ⟨hlive, fun hkept => ?_⟩ hnot
        obtain ⟨e', he', hkey, hlive'⟩ := mem_keys_settle.mp hkept
        exact hbefore e' he' hkey hlive'

/-- Each row is kept or not. -/
lemma perm_settle (rows : List ε) :
    ((settle key live rows).1 ++ (settle key live rows).2).Perm rows := by
  induction rows using List.reverseRecOn with
  | nil => exact List.Perm.refl _
  | append_singleton rows e ih =>
    rw [settle_concat, settleRow]
    split
    · rw [List.append_assoc]
      refine (List.Perm.append_left _ List.perm_append_comm).trans ?_
      rw [← List.append_assoc]
      exact ih.append_right _
    · rw [← List.append_assoc]
      exact ih.append_right _

/-- The kept rows have different keys. -/
lemma nodup_settle (rows : List ε) : ((settle key live rows).1.map key).Nodup := by
  induction rows using List.reverseRecOn with
  | nil => exact List.nodup_nil
  | append_singleton rows e ih =>
    rw [settle_concat, settleRow]
    split
    · rename_i hkept
      rw [List.map_append, List.map_singleton]
      refine ih.append (List.nodup_singleton _) ?_
      intro k hk hk'
      obtain rfl := List.mem_singleton.mp hk'
      exact hkept.2 hk
    · exact ih

/-- Rows that are changed, but for their keys and for whether they are live, are kept as before. -/
lemma settle_map {ε' : Type*} {key' : ε' → κ} {live' : ε' → Prop} [DecidablePred live']
    {g : ε' → ε} {rows : List ε'} (hkey : ∀ e, key (g e) = key' e) (hlive : ∀ e, live (g e) ↔ live' e) :
    settle key live (rows.map g) =
      ((settle key' live' rows).1.map g, (settle key' live' rows).2.map g) := by
  induction rows using List.reverseRecOn with
  | nil => rfl
  | append_singleton rows e ih =>
    have hkeys : ((settle key' live' rows).1.map g).map key = (settle key' live' rows).1.map key' := by
      rw [List.map_map]
      exact List.map_congr_left fun e _ => hkey e
    rw [List.map_append, List.map_singleton, settle_concat, settle_concat, ih, settleRow, settleRow]
    dsimp only
    rw [hkeys, hkey]
    by_cases hkept : live' e ∧ key' e ∉ (settle key' live' rows).1.map key'
    · rw [if_pos hkept, if_pos ⟨(hlive e).mpr hkept.1, hkept.2⟩]
      simp
    · rw [if_neg hkept, if_neg fun h => hkept ⟨(hlive e).mp h.1, h.2⟩]
      simp

end First

/-! ## The last row -/

section Last

variable (key : ρ → κ)

/-- The rows, each with whether it is the last one of its key. -/
def markLast : List ρ → List (ρ × Bool)
  | [] => []
  | row :: rest => (row, decide (∀ r ∈ rest, key r ≠ key row)) :: markLast rest

/-- Change a row that is marked. -/
def updateMarked (f : ρ → ρ) (e : ρ × Bool) : ρ := if e.2 then f e.1 else e.1

variable {key} {rows : List ρ} {k : κ}

@[simp] lemma map_fst_markLast (rows : List ρ) : (markLast key rows).map Prod.fst = rows := by
  induction rows with
  | nil => rfl
  | cons row rest ih => rw [markLast, List.map_cons, ih]

lemma fst_mem_of_mem_markLast {e : ρ × Bool} (h : e ∈ markLast key rows) : e.1 ∈ rows := by
  have hmem := List.mem_map_of_mem (f := Prod.fst) h
  rwa [map_fst_markLast] at hmem

/-- A change that keeps the keys keeps them everywhere. -/
lemma map_key_updateMarked {f : ρ → ρ} (hf : ∀ r, key (f r) = key r) (rows : List ρ) :
    ((markLast key rows).map (updateMarked f)).map key = rows.map key := by
  have hrows : rows.map key = ((markLast key rows).map Prod.fst).map key := by
    rw [map_fst_markLast]
  rw [hrows, List.map_map, List.map_map]
  refine List.map_congr_left fun e _ => ?_
  rw [Function.comp_apply, Function.comp_apply, updateMarked]
  split
  · exact hf e.1
  · rfl

lemma map_updateMarked_id (marked : List (ρ × Bool)) :
    marked.map (updateMarked id) = marked.map Prod.fst :=
  List.map_congr_left fun _ _ => ite_self _

/-- A row is marked under each key. -/
lemma exists_marked (h : ∃ r ∈ rows, key r = k) :
    ∃ e ∈ markLast key rows, e.2 = true ∧ key e.1 = k := by
  induction rows with
  | nil => obtain ⟨r, hr, -⟩ := h; exact absurd hr List.not_mem_nil
  | cons row rest ih =>
    -- a later row with the key is marked in place of this one
    by_cases hrest : ∃ r ∈ rest, key r = k
    · obtain ⟨e, he, hmark, hkey⟩ := ih hrest
      exact ⟨e, List.mem_cons_of_mem _ he, hmark, hkey⟩
    · obtain ⟨r, hr, rfl⟩ := h
      rcases List.mem_cons.mp hr with rfl | hr
      · refine ⟨_, List.mem_cons_self, decide_eq_true fun r' hr' hkey => ?_, rfl⟩
        exact hrest ⟨r', hr', hkey⟩
      · exact absurd ⟨r, hr, rfl⟩ hrest

/-- No two rows are marked under one key. -/
lemma nodup_marked (rows : List ρ) :
    (((markLast key rows).filter Prod.snd).map fun e => key e.1).Nodup := by
  induction rows with
  | nil => exact List.nodup_nil
  | cons row rest ih =>
    rw [markLast, List.filter_cons]
    split
    · rename_i hlast
      rw [List.map_cons]
      refine List.nodup_cons.mpr ⟨fun hmem => ?_, ih⟩
      obtain ⟨e, he, hkey⟩ := List.mem_map.mp hmem
      have hrest := fst_mem_of_mem_markLast (List.mem_filter.mp he).1
      exact of_decide_eq_true hlast e.1 hrest hkey
    · exact ih

end Last

end Portwyrm.Base

import Mathlib.Data.List.MinMax
import Mathlib.Data.List.Nodup
import Mathlib.Tactic.Lemma

/-!
# Longest prefixes

The entry whose key is the longest of those that start a text.  Where the keys are distinct, it
does not depend on the order of the entries.
-/

namespace Portwyrm.Base.LongestPrefix

variable {α β κ : Type} [DecidableEq κ]

/-- The entry with the longest key that starts a text. -/
def longest (key : α → List κ) (entries : List α) (text : List κ) : Option α :=
  (entries.filter fun a => key a <+: text).argmax fun a => (key a).length

variable {key : α → List κ} {entries : List α} {text : List κ} {a : α}

lemma longest_eq_none_iff : longest key entries text = none ↔ ∀ a ∈ entries, ¬ key a <+: text := by
  rw [longest, List.argmax_eq_none, List.filter_eq_nil_iff]
  simp

lemma mem_of_longest (h : longest key entries text = some a) : a ∈ entries ∧ key a <+: text := by
  simpa using List.argmax_mem h

lemma length_le_of_longest (h : longest key entries text = some a) {b : α} (hb : b ∈ entries)
    (hinitial : key b <+: text) : (key b).length ≤ (key a).length :=
  List.le_of_mem_argmax (f := fun a => (key a).length)
    (List.mem_filter.mpr ⟨hb, decide_eq_true hinitial⟩) h

omit [DecidableEq κ] in
/-- Two keys of one length that start a text are the same. -/
lemma eq_of_prefix_of_length {k k' : List κ} (h : k <+: text) (h' : k' <+: text)
    (hlength : k.length = k'.length) : k = k' := by
  rw [List.prefix_iff_eq_take.mp h, List.prefix_iff_eq_take.mp h', hlength]

/-- With distinct keys, the longest is known by what it is. -/
theorem longest_eq_some_iff (hkeys : (entries.map key).Nodup) :
    longest key entries text = some a ↔
      a ∈ entries ∧ key a <+: text ∧ ∀ b ∈ entries, key b <+: text →
        (key b).length ≤ (key a).length := by
  constructor
  · intro h
    exact ⟨(mem_of_longest h).1, (mem_of_longest h).2, fun b hb => length_le_of_longest h hb⟩
  · rintro ⟨ha, hinitial, hmax⟩
    rcases hfound : longest key entries text with _ | b
    · exact absurd hinitial (longest_eq_none_iff.mp hfound a ha)
    · obtain ⟨hb, hinitial'⟩ := mem_of_longest hfound
      have hlength : (key a).length = (key b).length :=
        le_antisymm (length_le_of_longest hfound ha hinitial) (hmax b hb hinitial')
      have hkey := eq_of_prefix_of_length hinitial hinitial' hlength
      rw [List.inj_on_of_nodup_map hkeys ha hb hkey]

/-- The order of the entries makes no difference. -/
lemma longest_perm {entries' : List α} (hkeys : (entries.map key).Nodup)
    (h : entries.Perm entries') : longest key entries' text = longest key entries text := by
  have hkeys' : (entries'.map key).Nodup := (h.map key).nodup_iff.mp hkeys
  ext a
  rw [longest_eq_some_iff hkeys, longest_eq_some_iff hkeys']
  simp only [h.mem_iff]

/-- The longest of what entries are made into. -/
lemma longest_map (f : α → β) {key : β → List κ} (hkeys : (entries.map fun a => key (f a)).Nodup) :
    longest key (entries.map f) text = (longest (fun a => key (f a)) entries text).map f := by
  have hmapped : ((entries.map f).map key).Nodup := by
    rw [List.map_map]
    exact hkeys
  ext b
  rw [longest_eq_some_iff hmapped, Option.map_eq_some_iff]
  simp only [longest_eq_some_iff hkeys, List.mem_map]
  constructor
  · rintro ⟨⟨a, ha, rfl⟩, hinitial, hmax⟩
    exact ⟨a, ⟨ha, hinitial, fun c hc => hmax (f c) ⟨c, hc, rfl⟩⟩, rfl⟩
  · rintro ⟨a, ⟨ha, hinitial, hmax⟩, rfl⟩
    refine ⟨⟨a, ha, rfl⟩, hinitial, ?_⟩
    rintro _ ⟨c, hc, rfl⟩ hstarts
    exact hmax c hc hstarts

/-- One more entry wins over the others when it starts the text and theirs is shorter. -/
lemma longest_cons (hkeys : ((a :: entries).map key).Nodup) :
    longest key (a :: entries) text =
      if key a <+: text ∧ ∀ b ∈ longest key entries text, (key b).length < (key a).length then some a
      else longest key entries text := by
  have hentries : (entries.map key).Nodup := (List.nodup_cons.mp hkeys).2
  split
  · rename_i hwins
    refine (longest_eq_some_iff hkeys).mpr ⟨List.mem_cons_self, hwins.1, fun b hb hinitial => ?_⟩
    rcases List.mem_cons.mp hb with rfl | hb
    · exact le_rfl
    · rcases hfound : longest key entries text with _ | c
      · exact absurd hinitial (longest_eq_none_iff.mp hfound b hb)
      · exact (length_le_of_longest hfound hb hinitial).trans (hwins.2 c hfound).le
  · rename_i hloses
    rcases hfound : longest key entries text with _ | c
    · rw [longest_eq_none_iff] at hfound ⊢
      intro b hb hinitial
      rcases List.mem_cons.mp hb with rfl | hb
      · refine hloses ⟨hinitial, fun c hc => ?_⟩
        rw [longest_eq_none_iff.mpr hfound] at hc
        cases hc
      · exact hfound b hb hinitial
    · obtain ⟨hc, hinitial⟩ := mem_of_longest hfound
      refine (longest_eq_some_iff hkeys).mpr
        ⟨List.mem_cons_of_mem a hc, hinitial, fun b hb hinitial' => ?_⟩
      rcases List.mem_cons.mp hb with rfl | hb
      · by_contra hlonger
        refine hloses ⟨hinitial', fun d hd => ?_⟩
        rw [hfound] at hd
        cases hd
        exact not_le.mp hlonger
      · exact length_le_of_longest hfound hb hinitial'

end Portwyrm.Base.LongestPrefix

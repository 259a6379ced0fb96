import Mathlib.Data.List.Nodup
import Mathlib.Data.List.Lattice

/-!
# One-time codes

Codes that are issued to holders, accepted when they are live, and revoked by holder.  When no code
is issued twice, each of them is accepted at most once, by its holder, and not behind a revocation.
-/

namespace Portwyrm.Base.OneTime

/-! ## Operations -/

/-- What one operation does, in this order: it accepts a code of a holder, it revokes the codes of
a holder, and it issues codes. -/
structure Event (H C : Type) where
  accepted : Option (H × C) := none
  revoked : Option H := none
  issued : List (H × C) := []

variable {H C : Type}

/-- The codes that operations issue. -/
def issues (events : List (Event H C)) : List (H × C) := events.flatMap Event.issued

lemma issues_append (l₁ l₂ : List (Event H C)) : issues (l₁ ++ l₂) = issues l₁ ++ issues l₂ :=
  List.flatMap_append

lemma issues_cons (e : Event H C) (l : List (Event H C)) : issues (e :: l) = e.issued ++ issues l :=
  List.flatMap_cons

/-- No code is live or issued twice. -/
def Fresh (live : List (H × C)) (events : List (Event H C)) : Prop :=
  ((live ++ issues events).map Prod.snd).Nodup

variable [DecidableEq H] [DecidableEq C]

/-- The live codes, when one of them is accepted. -/
def consume (live : List (H × C)) : Option (H × C) → List (H × C)
  | none => live
  | some a => live.erase a

/-- The live codes behind an operation. -/
def Event.after (e : Event H C) (live : List (H × C)) : List (H × C) :=
  (consume live e.accepted).filter (fun a => e.revoked ≠ some a.1) ++ e.issued

/-- Operations accept live codes only. -/
def Valid (live : List (H × C)) : List (Event H C) → Prop
  | [] => True
  | e :: rest => (∀ a ∈ e.accepted, a ∈ live) ∧ Valid (e.after live) rest

/-- The live codes behind a run. -/
def afterAll (live : List (H × C)) (events : List (Event H C)) : List (H × C) :=
  events.foldl (fun live e => e.after live) live

/-! ## Live codes -/

section Live

variable {live : List (H × C)} {events l₁ l₂ : List (Event H C)} {e : Event H C} {a : H × C}

lemma consume_sublist (live : List (H × C)) (accepted : Option (H × C)) :
    (consume live accepted).Sublist live := by
  rcases accepted with _ | a
  · exact List.Sublist.refl live
  · exact List.erase_sublist

lemma after_sublist : (e.after live).Sublist (live ++ e.issued) :=
  (List.filter_sublist.trans (consume_sublist live e.accepted)).append (List.Sublist.refl _)

lemma afterAll_sublist : (afterAll live events).Sublist (live ++ issues events) := by
  induction events generalizing live with
  | nil => simp [afterAll, issues]
  | cons e rest ih =>
    rw [issues_cons, ← List.append_assoc]
    exact ih.trans (after_sublist.append (List.Sublist.refl _))

lemma Fresh.after (h : Fresh live (e :: events)) : Fresh (e.after live) events := by
  rw [Fresh, issues_cons, ← List.append_assoc] at h
  exact h.sublist ((after_sublist.append (List.Sublist.refl _)).map _)

lemma valid_append_iff : Valid live (l₁ ++ l₂) ↔ Valid live l₁ ∧ Valid (afterAll live l₁) l₂ := by
  induction l₁ generalizing live with
  | nil => simp [Valid, afterAll]
  | cons e rest ih =>
    rw [List.cons_append, Valid, Valid, ih, and_assoc]
    rfl

lemma Fresh.afterAll (h : Fresh live (l₁ ++ l₂)) : Fresh (afterAll live l₁) l₂ := by
  rw [Fresh, issues_append, ← List.append_assoc] at h
  exact h.sublist ((afterAll_sublist.append (List.Sublist.refl _)).map _)

/-- An accepted code was live from the start or has been issued. -/
lemma mem_of_accepted (h : Valid live events) (he : e ∈ events) (ha : e.accepted = some a) :
    a ∈ live ++ issues events := by
  induction events generalizing live with
  | nil => simp at he
  | cons e' rest ih =>
    rw [issues_cons, ← List.append_assoc]
    rcases List.mem_cons.mp he with rfl | he
    · exact List.mem_append_left _ (List.mem_append_left _ (h.1 a ha))
    · have hmem := ih h.2 he
      exact (after_sublist.append (List.Sublist.refl _)).subset hmem

/-- A code that is gone is not accepted. -/
lemma accepted_ne_of_gone {p : H} {c : C} (h : Valid live events)
    (hgone : ∀ q, (q, c) ∉ live ++ issues events) (he : e ∈ events) :
    e.accepted ≠ some (p, c) :=
  fun ha => hgone p (mem_of_accepted h he ha)

end Live

/-! ## One use -/

section Holders

variable {H C : Type} {live : List (H × C)} {events l₁ l₂ : List (Event H C)} {a : H × C}
variable {p p' : H} {c : C}

/-- A code has one holder. -/
lemma holder_unique (h : Fresh live events) (hp : (p, c) ∈ live ++ issues events)
    (hp' : (p', c) ∈ live ++ issues events) : p' = p :=
  congrArg Prod.fst (List.inj_on_of_nodup_map h hp' hp rfl)

/-- A code is not issued again. -/
lemma not_mem_issues (h : Fresh live (l₁ ++ l₂)) (ha : a ∈ live ++ issues l₁) :
    a ∉ issues l₂ := by
  rw [Fresh, issues_append, ← List.append_assoc] at h
  exact fun hmem => List.disjoint_of_nodup_append h.of_map ha hmem

end Holders

section OneUse

variable {live : List (H × C)} {events l₁ l₂ : List (Event H C)} {e e' : Event H C}
variable {p p' : H} {c : C}

/-- Only the holder of a code has it accepted. -/
theorem holder_of_accepted (h : Valid live events) (hfresh : Fresh live events)
    (hp : (p, c) ∈ live ++ issues events) (he : e ∈ events) (ha : e.accepted = some (p', c)) :
    p' = p :=
  holder_unique hfresh hp (mem_of_accepted h he ha)

/-- A live code that an operation takes away, by accepting or by revoking it, is not accepted
behind the operation. -/
lemma not_accepted_taken (h : Valid live (e :: l₂))
    (hold : (p, c) ∉ e.issued ++ issues l₂)
    (hholder : ∀ q, (q, c) ∈ live ++ issues (e :: l₂) → q = p)
    (htaken : (p, c) ∉ (consume live e.accepted).filter fun a => e.revoked ≠ some a.1)
    (he' : e' ∈ l₂) : e'.accepted ≠ some (p', c) := by
  refine accepted_ne_of_gone h.2 (fun q hq => ?_) he'
  have hsub := (after_sublist.append (List.Sublist.refl (issues l₂))).subset hq
  rw [List.append_assoc, ← issues_cons] at hsub
  obtain rfl := hholder q hsub
  rw [Event.after, List.append_assoc] at hq
  rcases List.mem_append.mp hq with hq | hq
  · exact htaken hq
  · exact hold hq

/-- A code is accepted once. -/
theorem not_accepted_again (h : Valid live (l₁ ++ e :: l₂)) (hfresh : Fresh live (l₁ ++ e :: l₂))
    (ha : e.accepted = some (p, c)) (he' : e' ∈ l₂) : e'.accepted ≠ some (p', c) := by
  have hrun := (valid_append_iff.mp h).2
  have hrest : Fresh (afterAll live l₁) ([] ++ e :: l₂) := hfresh.afterAll
  have hlive : (p, c) ∈ afterAll live l₁ := hrun.1 _ ha
  have hmem : (p, c) ∈ afterAll live l₁ ++ issues ([] : List (Event H C)) :=
    List.mem_append_left _ hlive
  have hold : (p, c) ∉ e.issued ++ issues l₂ := issues_cons e l₂ ▸ not_mem_issues hrest hmem
  have htaken : (p, c) ∉ (consume (afterAll live l₁) e.accepted).filter
      fun a => e.revoked ≠ some a.1 := by
    -- the code has been erased, and it was live once
    rw [ha]
    have hnodup : (afterAll live l₁).Nodup := (List.nodup_append.mp hrest.of_map).1
    exact fun hkept => hnodup.not_mem_erase (List.mem_of_mem_filter hkept)
  exact not_accepted_taken hrun hold
    (fun q hq => holder_unique hrest (List.mem_append_left _ hlive) hq) htaken he'

/-- A code that was issued before a revocation is not accepted behind it. -/
theorem not_accepted_revoked (h : Valid live (l₁ ++ e :: l₂))
    (hfresh : Fresh live (l₁ ++ e :: l₂)) (hp : (p, c) ∈ live ++ issues l₁)
    (hrevoked : e.revoked = some p) (he' : e' ∈ l₂) : e'.accepted ≠ some (p', c) := by
  have hrun := (valid_append_iff.mp h).2
  have hall : live ++ issues (l₁ ++ e :: l₂) = live ++ issues l₁ ++ issues (e :: l₂) := by
    rw [issues_append, List.append_assoc]
  have hold : (p, c) ∉ e.issued ++ issues l₂ := issues_cons e l₂ ▸ not_mem_issues hfresh hp
  have htaken : (p, c) ∉ (consume (afterAll live l₁) e.accepted).filter
      fun a => e.revoked ≠ some a.1 := fun hkept => by
    simpa [hrevoked] using (List.mem_filter.mp hkept).2
  refine not_accepted_taken hrun hold (fun q hq => ?_) htaken he'
  have hmem : (p, c) ∈ live ++ issues (l₁ ++ e :: l₂) := hall ▸ List.mem_append_left _ hp
  refine holder_unique hfresh hmem ?_
  rw [hall]
  exact (afterAll_sublist.append (List.Sublist.refl _)).subset hq

end OneUse

end Portwyrm.Base.OneTime

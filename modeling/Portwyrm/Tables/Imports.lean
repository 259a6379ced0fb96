import Portwyrm.Base.Records
import Portwyrm.Tables.Collections

/-!
# Importing resources

What importing a bundle and importing an NPM report do with one resource: it is looked up under its
id, and created or updated in a transaction of its own.
-/

namespace Portwyrm.Tables

open Base Portwyrm.Runtime Portwyrm.Identity

/-- What is found under the id of a resource. -/
def findRecord (same : Document → Document → Bool) (t : AllTables) (c : Collection)
    (resource : Document) : Result Finding :=
  match resource.get? "id" with
  | none => throw (.lookupError "'id'")
  | some id => do
    match ← findDocument t c id with
    | none => pure .absent
    | some existing => pure (if same existing resource then .equal else .different)

/-- A resource is created when it is absent, and updated otherwise. -/
def writeRecord (bcryptHash : ℕ → String → String) (digest : String → String)
    (newId : List ℕ → ℕ) (actor : Actor) (now : String) (found : Finding) (c : Collection)
    (resource : Document) (t : AllTables) : Result AllTables :=
  match found with
  | .absent => createDocument bcryptHash digest newId actor now c resource t
  | _ => do
    match ← resourceId ((resource.get? "id").getD .null) with
    | none => pure t
    | some id =>
      match getDocument t c id with
      | none => pure t
      | some current => updateDocument bcryptHash actor now c id current resource t

variable {same : Document → Document → Bool} {bcryptHash : ℕ → String → String}
  {digest : String → String} {newId : List ℕ → ℕ} {actor : Actor} {now : String} {found : Finding}
  {c : Collection} {resource : Document} {t t' : AllTables}

lemma kept_of_writeRecord
    (h : writeRecord bcryptHash digest newId actor now found c resource t = .ok t') : Kept t t' := by
  have hupdate : ∀ {x : Result AllTables}, x = .ok t' → x = (do
      match ← resourceId ((resource.get? "id").getD .null) with
      | none => pure t
      | some id =>
        match getDocument t c id with
        | none => pure t
        | some current => updateDocument bcryptHash actor now c id current resource t) →
      Kept t t' := by
    rintro x hx rfl
    obtain ⟨id, -, hx⟩ := bind_eq_ok_iff.mp hx
    cases id with
    | none => exact pure_eq_ok_iff.mp hx ▸ Kept.refl t
    | some id =>
      dsimp only at hx
      cases hget : getDocument t c id with
      | none =>
        rw [hget] at hx
        exact pure_eq_ok_iff.mp hx ▸ Kept.refl t
      | some current =>
        rw [hget] at hx
        exact kept_of_updateDocument hx
  cases found with
  | absent => exact kept_of_createDocument h
  | equal => exact hupdate h rfl
  | different => exact hupdate h rfl

lemma Kept.findRecord_absent (h : Kept t t') (habsent : findRecord same t' c resource = .ok .absent) :
    findRecord same t c resource = .ok .absent := by
  unfold findRecord at habsent ⊢
  cases hid : resource.get? "id" with
  | none =>
    rw [hid] at habsent
    exact absurd habsent throw_ne_ok
  | some id =>
    rw [hid] at habsent
    dsimp only at habsent ⊢
    obtain ⟨existing, hfind, habsent⟩ := bind_eq_ok_iff.mp habsent
    cases existing with
    | some existing =>
      have hsome := pure_eq_ok_iff.mp habsent
      split at hsome
      · exact nomatch hsome
      · exact nomatch hsome
    | none =>
      obtain ⟨n, hn, hnone⟩ := bind_eq_ok_iff.mp hfind
      have hnone' : n.bind (getDocument t c) = none := by
        cases n with
        | none => rfl
        | some n => exact h.getDocument_eq_none (pure_eq_ok_iff.mp hnone)
      rw [findDocument, hn, ok_bind, hnone']
      rfl

end Portwyrm.Tables

import Portwyrm.Runtime.PasswordFiles
import Portwyrm.Tables.AccessLists
import Portwyrm.Tables.Compilable

/-!
# Passwords that Nginx reads

The password file of a stored access list is read back by Nginx, unless a name makes a comment of
its line or a hash has a character that ends it.  Writing an access list excludes neither.
-/

namespace Portwyrm.Tables

open Base Portwyrm.Runtime

/-! ## The law -/

/-- Nginx reads the names and hashes of a stored access list in their order exactly when no name
makes a comment of its line and no hash is cut. -/
theorem nginxRecords_renderHtpasswd_iff {t : AccessTables} {id : ℕ} {row : AccessListRow}
    {l : AccessList} (h : runtimeProjection t id row = .ok l) :
    Htpasswd.nginxRecords (renderHtpasswd l).toList = t.pairsOf id ↔
      ∀ p ∈ t.pairsOf id, Htpasswd.Read p := by
  rw [toList_renderHtpasswd, ← pairs_runtimeProjection h]
  refine Htpasswd.nginxRecords_text_iff ?_ ?_
  · exact List.forall_mem_map.mpr fun c _ => fits_pair c
  · exact List.forall_mem_map.mpr fun c _ => c.usernameOk.1

/-! ### An access list with one user -/

/-- The access list is created, and gets the id 1. -/
def createStaff (username : String) : Result AccessTables :=
  createAccessList (fun _ _ => "$2b$12$hash") none
    { name := .of "staff", items := .of [{ username := some username, password := .of "secret" }] }
    ⟨.empty, .empty, .empty⟩

/-- What Nginx reads of it, and what is stored. -/
def readStaff (username : String) : Result (List (String × String) × List (String × String)) := do
  let t ← createStaff username
  let l ← runtimeProjection t 1 ⟨"staff", false, false, Dict.empty⟩
  pure (Htpasswd.nginxRecords (renderHtpasswd l).toList, t.pairsOf 1)

theorem nginxRecords_staff : ∃ t l, createStaff "admin" = .ok t ∧
    runtimeProjection t 1 ⟨"staff", false, false, Dict.empty⟩ = .ok l ∧
    Htpasswd.nginxRecords (renderHtpasswd l).toList = t.pairsOf 1 := by
  have hread : (readStaff "admin").map Prod.snd = .ok [("admin", "$2b$12$hash")] := by
    decide
  rcases hrun : readStaff "admin" with e | r
  · rw [hrun] at hread
    exact nomatch hread
  rw [hrun] at hread
  simp only [readStaff, bind_eq_ok_iff, pure_eq_ok_iff] at hrun
  obtain ⟨t, ht, l, hl, rfl⟩ := hrun
  have hpairs : t.pairsOf 1 = [("admin", "$2b$12$hash")] := Except.ok.inj hread
  refine ⟨t, l, ht, hl, (nginxRecords_renderHtpasswd_iff hl).mpr ?_⟩
  rw [hpairs]
  decide

/-- A user whose name begins with a number sign is stored, and Nginx reads nothing. -/
theorem comment_not_read :
    ∃ read stored, readStaff "#admin" = .ok (read, stored) ∧ read ≠ stored :=
  ⟨[], [("#admin", "$2b$12$hash")], by decide, by decide⟩

end Portwyrm.Tables

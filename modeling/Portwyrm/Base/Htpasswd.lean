import Mathlib.Data.List.TakeWhile
import Portwyrm.Base.Frames

/-!
# Password files

Files with a line for each user: a name, a colon and a hash.  Two ways of reading them: each line
is split at its first colon, or read as Nginx reads it, which skips comments and ends a hash at a
further colon or at a carriage return.
-/

namespace Portwyrm.Base.Htpasswd

/-! ## Writing -/

/-- The line of a user. -/
def line (p : String × String) : List Char := p.1.toList ++ ':' :: p.2.toList

/-- A password file. -/
def text (pairs : List (String × String)) : List Char := pairs.flatMap fun p => line p ++ ['\n']

/-! ## Reading -/

/-- A line, split at its first colon. -/
def split (l : List Char) : Option (String × String) :=
  if ':' ∈ l then
    some (String.ofList (l.takeWhile (· ≠ ':')), String.ofList (l.dropWhile (· ≠ ':')).tail)
  else none

/-- The names and hashes of a file, with each line split at its first colon. -/
def records (s : List Char) : List (String × String) := (s.splitOn '\n').filterMap split

/-- A character that ends a hash. -/
def endsHash (c : Char) : Bool := c = ':' ∨ c = '\r'

/-- A line, as Nginx reads it: a comment is skipped, and the hash ends at the next colon, at a
carriage return, or with the line. -/
def nginxEntry (l : List Char) : Option (String × String) :=
  if l.head? = some '#' then none
  else (split l).map fun p => (p.1, String.ofList (p.2.toList.takeWhile fun c => !endsHash c))

/-- The names and hashes of a file, as Nginx reads them. -/
def nginxRecords (s : List Char) : List (String × String) := (s.splitOn '\n').filterMap nginxEntry

/-! ## What is written is read -/

/-- A name and a hash that fit on a line: the name is split off at the first colon. -/
def Fits (p : String × String) : Prop :=
  ':' ∉ p.1.toList ∧ '\n' ∉ p.1.toList ∧ '\n' ∉ p.2.toList

variable {p : String × String} {pairs : List (String × String)}

lemma newline_not_mem_line (h : Fits p) : '\n' ∉ line p := by
  simp [line, h.2.1, h.2.2]

lemma text_eq_framed (pairs : List (String × String)) :
    text pairs = Frames.framed '\n' (pairs.map line) := by
  rw [Frames.framed, List.flatMap_map]
  rfl

/-- The lines of a file are those of its users, and an empty one behind the last. -/
lemma splitOn_text (h : ∀ p ∈ pairs, Fits p) :
    (text pairs).splitOn '\n' = pairs.map line ++ [[]] := by
  have hclean : ∀ l ∈ pairs.map line, '\n' ∉ l :=
    List.forall_mem_map.mpr fun p hp => newline_not_mem_line (h p hp)
  rw [text_eq_framed, Frames.splitOn_framed, Frames.pieces_of_not_mem hclean]

lemma split_line (h : Fits p) : split (line p) = some p := by
  have hname : ∀ c ∈ p.1.toList, (decide (c ≠ ':')) = true := by
    intro c hc
    simpa using ne_of_mem_of_not_mem hc h.1
  rw [split, if_pos (by simp [line]), line, List.takeWhile_append_of_pos hname,
    List.dropWhile_append_of_pos hname]
  simp

/-- A list is collected from its elements as a whole exactly when each gives itself. -/
lemma filterMap_eq_self_iff {α : Type} {f : α → Option α} {l : List α} :
    l.filterMap f = l ↔ ∀ a ∈ l, f a = some a := by
  induction l with
  | nil => simp
  | cons a l ih =>
    rw [List.forall_mem_cons, ← ih]
    rcases hfa : f a with _ | b
    · rw [List.filterMap_cons_none hfa]
      refine iff_of_false (fun h => ?_) fun h => nomatch h.1
      have hlength := List.length_filterMap_le f l
      rw [h, List.length_cons] at hlength
      omega
    · rw [List.filterMap_cons_some hfa, List.cons.injEq, Option.some.injEq]

/-- What is written is read back line by line. -/
theorem records_text (h : ∀ p ∈ pairs, Fits p) : records (text pairs) = pairs := by
  have hlast : [[]].filterMap split = [] := rfl
  rw [records, splitOn_text h, List.filterMap_append, List.filterMap_map, hlast, List.append_nil,
    filterMap_eq_self_iff]
  exact fun p hp => split_line (h p hp)

/-! ## What Nginx reads -/

/-- A user that Nginx reads: the line is no comment, and the hash is not cut. -/
def Read (p : String × String) : Prop :=
  p.1.toList.head? ≠ some '#' ∧ ':' ∉ p.2.toList ∧ '\r' ∉ p.2.toList

instance (p : String × String) : Decidable (Read p) :=
  inferInstanceAs (Decidable (_ ∧ _ ∧ _))

lemma head_line (hne : p.1 ≠ "") : (line p).head? = p.1.toList.head? := by
  obtain ⟨c, rest, hc⟩ := List.exists_cons_of_ne_nil (by simpa using hne : p.1.toList ≠ [])
  rw [line, hc]
  rfl

lemma takeWhile_eq_self_iff {l : List Char} :
    (l.takeWhile fun c => !endsHash c) = l ↔ ':' ∉ l ∧ '\r' ∉ l := by
  rw [List.takeWhile_eq_self_iff]
  constructor
  · exact fun h => ⟨fun hc => absurd (h _ hc) (by decide), fun hc => absurd (h _ hc) (by decide)⟩
  · rintro ⟨hcolon, hreturn⟩ c hc
    have h1 := ne_of_mem_of_not_mem hc hcolon
    have h2 := ne_of_mem_of_not_mem hc hreturn
    simp [endsHash, h1, h2]

/-- Nginx reads a line back exactly when it is no comment and its hash is not cut. -/
lemma nginxEntry_line (h : Fits p) (hne : p.1 ≠ "") :
    nginxEntry (line p) = some p ↔ Read p := by
  rw [nginxEntry, head_line hne, split_line h, Read, ← takeWhile_eq_self_iff]
  split
  · rename_i hcomment
    simp [hcomment]
  · rename_i hcomment
    rw [Option.map_some, Option.some.injEq, and_iff_right hcomment]
    constructor
    · intro heq
      rw [← String.toList_ofList (l := p.2.toList.takeWhile _)]
      exact congrArg String.toList (congrArg Prod.snd heq)
    · intro heq
      rw [heq, String.ofList_toList]

/-- Nginx reads a file back exactly when it reads each of its lines back. -/
theorem nginxRecords_text_iff (h : ∀ p ∈ pairs, Fits p) (hne : ∀ p ∈ pairs, p.1 ≠ "") :
    nginxRecords (text pairs) = pairs ↔ ∀ p ∈ pairs, Read p := by
  rw [nginxRecords, splitOn_text h, List.filterMap_append, List.filterMap_map]
  have hlast : [[]].filterMap nginxEntry = [] := rfl
  rw [hlast, List.append_nil, filterMap_eq_self_iff]
  exact forall₂_congr fun p hp => nginxEntry_line (h p hp) (hne p hp)

end Portwyrm.Base.Htpasswd

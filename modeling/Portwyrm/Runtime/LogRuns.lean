import Mathlib.Data.List.Infix
import Portwyrm.Runtime.Logs

/-!
# Runs of a log

What a log and its backups hold after any run of writes and rotations: the last bytes that were
written, in order and without gap, and all of them until the backups hold as many as they may.
-/

namespace Portwyrm.Runtime

namespace LogRotator

open Base

/-! ## The history of a log -/

/-- The bytes that an event writes. -/
def LogEvent.data : LogEvent → List UInt8
  | .written data => data
  | .checked => []

/-- The pieces that a log was cut into, the newest first, and the piece that it is writing. -/
structure LogHistory where
  closed : List (List UInt8)
  current : Option (List UInt8)

/-- Everything in the history, in order. -/
def LogHistory.all (h : LogHistory) : List UInt8 := h.closed.reverse.flatten ++ h.current.getD []

/-- The history behind an event: a piece is closed when it has become too long. -/
def LogHistory.after (rotator : LogRotator) (h : LogHistory) : LogEvent → LogHistory
  | .written data => { h with current := some (h.current.getD [] ++ data) }
  | .checked =>
    match h.current with
    | none => h
    | some content =>
      if rotator.maxBytes ≤ content.length then ⟨content :: h.closed, none⟩ else h

/-- What the backups and the log hold, from the oldest backup on. -/
def retained (rotator : LogRotator) (files : LogFiles) : List UInt8 :=
  ((List.range rotator.backups).reverse.flatMap fun index =>
    (files.get? (rotator.backup (index + 1))).getD []) ++ (files.get? rotator.path).getD []

/-- The files that show a history: the newest pieces, as many as there may be backups. -/
structure Shows (rotator : LogRotator) (h : LogHistory) (files : LogFiles) : Prop where
  log : files.get? rotator.path = h.current
  backups : ∀ index, files.get? (rotator.backup (index + 1)) =
    if index < rotator.backups then h.closed[index]? else none
  only : ∀ path, ¬ rotator.IsKept path → files.get? path = none

variable {rotator : LogRotator} {h : LogHistory} {files : LogFiles}

/-! ## One event -/

/-- An event appends to the history what it writes. -/
lemma all_after (event : LogEvent) : (h.after rotator event).all = h.all ++ event.data := by
  cases event with
  | written data => simp [LogHistory.after, LogHistory.all, LogEvent.data]
  | checked =>
    rw [LogHistory.after, LogEvent.data, List.append_nil]
    cases hcurrent : h.current with
    | none => rfl
    | some content =>
      dsimp only
      split
      · simp [LogHistory.all, hcurrent]
      · rfl

/-- A piece is closed only when it is long. -/
lemma length_closed_after (hlong : ∀ piece ∈ h.closed, rotator.maxBytes ≤ piece.length)
    (event : LogEvent) :
    ∀ piece ∈ (h.after rotator event).closed, rotator.maxBytes ≤ piece.length := by
  cases event with
  | written data => exact hlong
  | checked =>
    rw [LogHistory.after]
    cases hcurrent : h.current with
    | none => exact hlong
    | some content =>
      dsimp only
      split
      · rename_i hcontent
        exact List.forall_mem_cons.mpr ⟨hcontent, hlong⟩
      · exact hlong

/-- A rotation shows the history with a new piece. -/
lemma Shows.rotated (hshows : rotator.Shows h files) {files' : LogFiles} {content : List UInt8}
    (hcurrent : h.current = some content) (hbackups : 1 ≤ rotator.backups)
    (hrotated : rotator.Rotated files files') : rotator.Shows ⟨content :: h.closed, none⟩ files' where
  log := hrotated.path
  backups index := by
    cases index with
    | zero =>
      rw [hrotated.log, hshows.log, hcurrent, if_pos (by omega)]
      rfl
    | succ index =>
      rw [List.getElem?_cons_succ]
      by_cases hlt : index + 1 < rotator.backups
      · rw [hrotated.moved (index + 1) (by omega) hlt, hshows.backups, if_pos (by omega), if_pos hlt]
      · -- no backup that is kept has the number
        have hother : ∀ i, 1 ≤ i → i ≤ rotator.backups →
            rotator.backup (index + 1 + 1) ≠ rotator.backup i := fun i _ hle heq =>
          absurd (backup_injective rotator heq) (by omega)
        rw [hrotated.other _ (backup_ne_path _) hother, hshows.backups, if_neg (by omega),
          if_neg hlt]
  only path hpath := by
    rw [hrotated.other path (fun heq => hpath (.inl heq)) fun i hpos hle heq =>
      hpath (.inr ⟨i, hpos, hle, heq⟩)]
    exact hshows.only path hpath

/-- Without backups, the log is dropped. -/
lemma Shows.dropped (hshows : rotator.Shows h files) (hnone : rotator.backups = 0)
    (closed : List (List UInt8)) : rotator.Shows ⟨closed, none⟩ (Dict.pop files rotator.path) where
  log := Dict.get?_pop_self ..
  backups index := by
    rw [Dict.get?_pop, if_neg (backup_ne_path _), hshows.backups, if_neg (by omega),
      if_neg (by omega)]
  only path hpath := by
    rw [Dict.get?_pop, if_neg fun heq => hpath (.inl heq)]
    exact hshows.only path hpath

/-- The files follow the history. -/
lemma Shows.apply (hshows : rotator.Shows h files) (event : LogEvent) : ∃ files',
    rotator.apply files event = .ok files' ∧ rotator.Shows (h.after rotator event) files' := by
  cases event with
  | written data =>
    refine ⟨_, rfl, ?_⟩
    exact
      { log := by
          rw [Dict.get?_set_self, hshows.log]
          rfl
        backups := fun index => by
          rw [Dict.get?_set_of_ne _ _ (backup_ne_path _), hshows.backups]
          rfl
        only := fun path hpath => by
          rw [Dict.get?_set_of_ne _ _ fun heq => hpath (.inl heq)]
          exact hshows.only path hpath }
  | checked =>
    by_cases hneeded : rotator.Needed files
    · obtain ⟨content, hlog, hlong⟩ := hneeded
      have hcurrent : h.current = some content := hshows.log.symm.trans hlog
      have hafter : h.after rotator .checked = ⟨content :: h.closed, none⟩ := by
        rw [LogHistory.after, hcurrent]
        exact if_pos hlong
      rw [hafter]
      rcases Nat.eq_zero_or_pos rotator.backups with hnone | hbackups
      · refine ⟨Dict.pop files rotator.path, ?_, hshows.dropped hnone _⟩
        rw [LogRotator.apply, rotateIfNeeded, hlog]
        dsimp only
        rw [if_neg (by omega), if_pos hnone]
        rfl
      · obtain ⟨files', hrotate, hrotated⟩ := rotated_of_needed hbackups ⟨content, hlog, hlong⟩
        refine ⟨files', ?_, hshows.rotated hcurrent hbackups hrotated⟩
        rw [LogRotator.apply, hrotate]
        rfl
    · refine ⟨files, ?_, ?_⟩
      · rw [LogRotator.apply, rotateIfNeeded_eq_of_not_needed hneeded]
        rfl
      · have hafter : h.after rotator .checked = h := by
          rw [LogHistory.after]
          cases hcurrent : h.current with
          | none => rfl
          | some content =>
            exact if_neg fun hlong => hneeded ⟨content, hshows.log.trans hcurrent, hlong⟩
        rw [hafter]
        exact hshows

/-! ## What is retained -/

/-- The items up to a number, from the last one on. -/
lemma flatMap_reverse_range {α : Type*} (l : List (List α)) (n : ℕ) :
    ((List.range n).reverse.flatMap fun i => l[i]?.getD []) = (l.take n).reverse.flatten := by
  induction n with
  | zero => simp
  | succ n ih =>
    rw [List.range_succ, List.reverse_append, List.flatMap_append, ih, List.take_add_one,
      List.reverse_append, List.flatten_append]
    congr 1
    rw [List.reverse_singleton, List.flatMap_singleton]
    cases l[n]? with
    | none => rfl
    | some piece => simp

/-- Files that show a history retain its newest pieces. -/
lemma Shows.retained_eq (hshows : rotator.Shows h files) : rotator.retained files =
    (h.closed.take rotator.backups).reverse.flatten ++ h.current.getD [] := by
  rw [retained, hshows.log, ← flatMap_reverse_range]
  congr 1
  refine List.flatMap_congr fun index hindex => ?_
  rw [hshows.backups, if_pos (List.mem_range.mp (List.mem_reverse.mp hindex))]

/-- They are the end of the history. -/
lemma Shows.suffix (hshows : rotator.Shows h files) : rotator.retained files <:+ h.all := by
  have hsplit : h.closed.reverse.flatten = (h.closed.drop rotator.backups).reverse.flatten ++
      (h.closed.take rotator.backups).reverse.flatten := by
    rw [← List.flatten_append, ← List.reverse_append, List.take_append_drop]
  rw [hshows.retained_eq, LogHistory.all, hsplit, List.append_assoc]
  exact List.suffix_append _ _

lemma mul_le_length_flatten {α : Type*} {l : List (List α)} {m : ℕ}
    (hlong : ∀ piece ∈ l, m ≤ piece.length) : l.length * m ≤ l.flatten.length := by
  induction l with
  | nil => simp
  | cons piece l ih =>
    obtain ⟨hpiece, hrest⟩ := List.forall_mem_cons.mp hlong
    have hlength := ih hrest
    rw [List.flatten_cons, List.length_append, List.length_cons, Nat.succ_mul]
    omega

/-- They are all of it, or as many bytes as the backups are there for. -/
lemma Shows.retained_all_or_long (hshows : rotator.Shows h files)
    (hlong : ∀ piece ∈ h.closed, rotator.maxBytes ≤ piece.length) :
    rotator.retained files = h.all ∨
      rotator.backups * rotator.maxBytes ≤ (rotator.retained files).length := by
  rw [hshows.retained_eq]
  rcases le_or_gt h.closed.length rotator.backups with hfew | hmany
  · left
    rw [List.take_of_length_le hfew]
    rfl
  · right
    have hlength : (h.closed.take rotator.backups).reverse.length = rotator.backups := by
      rw [List.length_reverse, List.length_take, Nat.min_eq_left hmany.le]
    have hbound : (h.closed.take rotator.backups).reverse.length * rotator.maxBytes ≤
        (h.closed.take rotator.backups).reverse.flatten.length :=
      mul_le_length_flatten fun piece hpiece =>
        hlong piece (List.mem_of_mem_take (List.mem_reverse.mp hpiece))
    rw [hlength] at hbound
    rw [List.length_append]
    omega

/-! ## Runs -/

/-- Behind every run, the files show the history. -/
lemma Shows.run (hshows : rotator.Shows h files) (events : List LogEvent) : ∃ files',
    events.foldlM rotator.apply files = .ok files' ∧
      rotator.Shows (events.foldl (LogHistory.after rotator) h) files' := by
  induction events generalizing h files with
  | nil => exact ⟨files, rfl, hshows⟩
  | cons event events ih =>
    obtain ⟨files₁, hstep, hshows₁⟩ := hshows.apply event
    obtain ⟨files₂, hrun, hshows₂⟩ := ih hshows₁
    exact ⟨files₂, by rw [List.foldlM_cons, hstep, ok_bind, hrun], hshows₂⟩

lemma all_run (events : List LogEvent) (h : LogHistory) :
    (events.foldl (LogHistory.after rotator) h).all = h.all ++ events.flatMap LogEvent.data := by
  induction events generalizing h with
  | nil => simp
  | cons event events ih =>
    rw [List.foldl_cons, ih, all_after, List.flatMap_cons, List.append_assoc]

lemma length_closed_run (events : List LogEvent) {h : LogHistory}
    (hlong : ∀ piece ∈ h.closed, rotator.maxBytes ≤ piece.length) :
    ∀ piece ∈ (events.foldl (LogHistory.after rotator) h).closed,
      rotator.maxBytes ≤ piece.length := by
  induction events generalizing h with
  | nil => exact hlong
  | cons event events ih => exact ih (length_closed_after hlong event)

lemma shows_empty (rotator : LogRotator) : rotator.Shows ⟨[], none⟩ Dict.empty where
  log := rfl
  backups index := by
    rw [List.getElem?_nil, ite_self]
    rfl
  only _ _ := rfl

/-- However a new log is written and rotated, nothing fails, and no file is there but the log and
the backups up to the limit.  They hold the end of what has been written, in order and without gap;
and bytes are given up only when the backups hold their number of full logs. -/
theorem retained_exact (rotator : LogRotator) (events : List LogEvent) : ∃ files,
    events.foldlM rotator.apply Dict.empty = .ok files ∧
      (∀ path, ¬ rotator.IsKept path → files.get? path = none) ∧
      rotator.retained files <:+ events.flatMap LogEvent.data ∧
      (rotator.retained files = events.flatMap LogEvent.data ∨
        rotator.backups * rotator.maxBytes ≤ (rotator.retained files).length) := by
  obtain ⟨files, hrun, hshows⟩ := (shows_empty rotator).run events
  have hall : (events.foldl (LogHistory.after rotator) ⟨[], none⟩).all =
      events.flatMap LogEvent.data := all_run events _
  have hlong : ∀ piece ∈ (events.foldl (LogHistory.after rotator) ⟨[], none⟩).closed,
      rotator.maxBytes ≤ piece.length :=
    length_closed_run events fun piece hpiece => absurd hpiece List.not_mem_nil
  refine ⟨files, hrun, hshows.only, ?_, ?_⟩
  · rw [← hall]
    exact hshows.suffix
  · rw [← hall]
    exact hshows.retained_all_or_long hlong

/-! ## Bounds -/

/-- A history whose log is short, and whose pieces have grown by one write at most. -/
structure LogHistory.Short (rotator : LogRotator) (written : ℕ) (h : LogHistory) : Prop where
  closed : ∀ piece ∈ h.closed, piece.length ≤ rotator.maxBytes + written
  current : (h.current.getD []).length < rotator.maxBytes

variable {written : ℕ}

/-- A write that is followed by a look at the log keeps it short. -/
lemma LogHistory.Short.round (hshort : h.Short rotator written) {data : List UInt8}
    (hdata : data.length ≤ written) :
    ((h.after rotator (.written data)).after rotator .checked).Short rotator written := by
  have hcurrent := hshort.current
  have hlength : (h.current.getD [] ++ data).length ≤ rotator.maxBytes + written := by
    rw [List.length_append]
    omega
  show LogHistory.Short rotator written
    (if rotator.maxBytes ≤ (h.current.getD [] ++ data).length then _ else _)
  by_cases hlong : rotator.maxBytes ≤ (h.current.getD [] ++ data).length
  · rw [if_pos hlong]
    exact ⟨List.forall_mem_cons.mpr ⟨hlength, hshort.closed⟩, rotator.maxBytes_pos⟩
  · rw [if_neg hlong]
    exact ⟨hshort.closed, not_le.mp hlong⟩

lemma LogHistory.Short.rounds (hshort : h.Short rotator written) {writes : List (List UInt8)}
    (hwrites : ∀ data ∈ writes, data.length ≤ written) :
    ((writes.flatMap fun data => [.written data, .checked]).foldl
      (LogHistory.after rotator) h).Short rotator written := by
  induction writes generalizing h with
  | nil => exact hshort
  | cons data writes ih =>
    obtain ⟨hdata, hrest⟩ := List.forall_mem_cons.mp hwrites
    exact ih (hshort.round hdata) hrest

lemma length_flatten_le_mul {α : Type*} {l : List (List α)} {m : ℕ}
    (hshort : ∀ piece ∈ l, piece.length ≤ m) : l.flatten.length ≤ l.length * m := by
  induction l with
  | nil => simp
  | cons piece l ih =>
    obtain ⟨hpiece, hrest⟩ := List.forall_mem_cons.mp hshort
    have hlength := ih hrest
    rw [List.flatten_cons, List.length_append, List.length_cons, Nat.succ_mul]
    omega

/-- The files of a short history are bounded. -/
lemma Shows.retained_lt (hshows : rotator.Shows h files) (hshort : h.Short rotator written) :
    (rotator.retained files).length <
      rotator.backups * (rotator.maxBytes + written) + rotator.maxBytes := by
  have hfew : (h.closed.take rotator.backups).reverse.length ≤ rotator.backups := by
    rw [List.length_reverse, List.length_take]
    exact Nat.min_le_left ..
  have hbound : (h.closed.take rotator.backups).reverse.flatten.length ≤
      (h.closed.take rotator.backups).reverse.length * (rotator.maxBytes + written) :=
    length_flatten_le_mul fun piece hpiece =>
      hshort.closed piece (List.mem_of_mem_take (List.mem_reverse.mp hpiece))
  rw [hshows.retained_eq, List.length_append]
  exact Nat.add_lt_add_of_le_of_lt (hbound.trans (Nat.mul_le_mul_right _ hfew)) hshort.current

/-- When the log is looked at behind every write, the files hold fewer bytes than the backups and
the log are there for, each backup longer by one write at most. -/
theorem retained_bounded (rotator : LogRotator) {writes : List (List UInt8)}
    (hwrites : ∀ data ∈ writes, data.length ≤ written) : ∃ files,
    (writes.flatMap fun data => [.written data, .checked]).foldlM rotator.apply Dict.empty =
        .ok files ∧
      (rotator.retained files).length <
        rotator.backups * (rotator.maxBytes + written) + rotator.maxBytes := by
  obtain ⟨files, hrun, hshows⟩ := (shows_empty rotator).run
    (writes.flatMap fun data => [.written data, .checked])
  have hempty : LogHistory.Short rotator written ⟨[], none⟩ :=
    ⟨fun piece hpiece => absurd hpiece List.not_mem_nil, rotator.maxBytes_pos⟩
  exact ⟨files, hrun, hshows.retained_lt (hempty.rounds hwrites)⟩

/-- Two writes, the first of which fills the log. -/
theorem retained_bounded_threeBackups : ∃ files,
    ([[1, 2, 3], [4]].flatMap fun data => [.written data, .checked]).foldlM threeBackups.apply
        Dict.empty = .ok files ∧
      (threeBackups.retained files).length < 3 * (2 + 3) + 2 :=
  retained_bounded threeBackups (by decide)

end LogRotator

end Portwyrm.Runtime

import Portwyrm.Base.Numeral
import Portwyrm.Base.Shifting
import Portwyrm.Errors

/-!
# Rotation of logs

`LogRotator` of `portwyrm.runtime.logs`: a log that has become long is the first of its numbered
backups, of which only so many are kept.
-/

namespace Portwyrm.Runtime

open Base

/-! ## Files -/

/-- The path of a file: its directory, and its name there. -/
structure LogPath where
  parent : String
  name : String
deriving DecidableEq

/-- The bytes of the files. -/
abbrev LogFiles := Dict LogPath (List UInt8)

/-- `Path.with_name`. -/
def LogPath.withName (path : LogPath) (name : String) : LogPath := { path with name := name }

/-- `Path.replace`. -/
def LogFiles.replace (source target : LogPath) (files : LogFiles) : Result LogFiles :=
  match files.get? source with
  | none => throw .osError
  | some content => pure ((files.pop source).set target content)

/-! ## The rotator -/

/-- `LogRotator`. -/
structure LogRotator where
  path : LogPath
  maxBytes : ℕ
  backups : ℕ
  maxBytes_pos : 0 < maxBytes

namespace LogRotator

/-- `LogRotator.__init__`. -/
def init (path : LogPath) (maxBytes backups : ℤ) : Result LogRotator :=
  if h : maxBytes ≤ 0 ∨ backups < 0 then
    throw (.valueError "max_bytes must be positive and backups non-negative")
  else pure ⟨path, maxBytes.toNat, backups.toNat, by omega⟩

variable (rotator : LogRotator)

/-- The path of a backup. -/
def backup (index : ℕ) : LogPath := rotator.path.withName s!"{rotator.path.name}.{index}"

/-- The loop of `rotate_if_needed`, for the numbers up to `index`. -/
def shiftBackups : ℕ → LogFiles → Result LogFiles
  | 0, files => pure files
  | index + 1, files => do
    let source := rotator.backup (index + 1)
    let files ← if source ∈ files then files.replace source (rotator.backup (index + 1 + 1))
      else pure files
    shiftBackups index files

/-- `rotate_if_needed`: whether the log is rotated, and the files afterwards. -/
def rotateIfNeeded (files : LogFiles) : Result (Bool × LogFiles) :=
  match files.get? rotator.path with
  | none => pure (false, files)
  | some content =>
    if content.length < rotator.maxBytes then pure (false, files)
    else if rotator.backups = 0 then pure (true, files.pop rotator.path)
    else do
      let files := files.pop (rotator.backup rotator.backups)
      let files ← rotator.shiftBackups (rotator.backups - 1) files
      let files ← files.replace rotator.path (rotator.backup 1)
      pure (true, files)

/-- The log is there, and so long that it is rotated. -/
def Needed (files : LogFiles) : Prop :=
  ∃ content, files.get? rotator.path = some content ∧ rotator.maxBytes ≤ content.length

/-- What a rotation does to the files. -/
structure Rotated (before after : LogFiles) : Prop where
  /-- The log becomes the first backup. -/
  log : after.get? (rotator.backup 1) = before.get? rotator.path
  /-- The backups below the limit move up by one, and with them the gaps. -/
  moved : ∀ index, 1 ≤ index → index < rotator.backups →
    after.get? (rotator.backup (index + 1)) = before.get? (rotator.backup index)
  /-- The log is no longer there. -/
  path : after.get? rotator.path = none
  /-- The other files stay. -/
  other : ∀ path, path ≠ rotator.path →
    (∀ index, 1 ≤ index → index ≤ rotator.backups → path ≠ rotator.backup index) →
      after.get? path = before.get? path

/-! ## Names -/

variable {rotator : LogRotator}

lemma backup_injective (rotator : LogRotator) : Function.Injective rotator.backup := by
  intro i j h
  have hname : s!"{rotator.path.name}.{i}" = s!"{rotator.path.name}.{j}" :=
    congrArg LogPath.name h
  exact Numeral.toString_injective ((String.append_right_inj _).mp hname)

lemma backup_ne_path (index : ℕ) : rotator.backup index ≠ rotator.path := by
  intro h
  have hlength : s!"{rotator.path.name}.{index}".length = rotator.path.name.length :=
    congrArg (fun path => path.name.length) h
  have hdot : ".".length = 1 := rfl
  rw [show s!"{rotator.path.name}.{index}" = rotator.path.name ++ "." ++ toString index from rfl,
    String.length_append, String.length_append, hdot] at hlength
  omega

/-! ## The shift -/

/-- The loop moves the backups up by one. -/
lemma shiftBackups_eq (n : ℕ) (files : LogFiles) :
    rotator.shiftBackups n files = .ok (Dict.moveUp rotator.backup n files) := by
  induction n generalizing files with
  | zero => rfl
  | succ n ih =>
    rw [shiftBackups, Dict.moveUp, Dict.moveKey, LogFiles.replace]
    cases hsource : files.get? (rotator.backup (n + 1)) with
    | none =>
      rw [if_neg (by simp [Dict.mem_iff, hsource])]
      exact ih files
    | some content =>
      rw [if_pos (by simp [Dict.mem_iff, hsource])]
      exact ih _

/-- A rotation, as one change of the files. -/
lemma rotateIfNeeded_eq_of_needed {files : LogFiles} (hbackups : 1 ≤ rotator.backups)
    {content : List UInt8} (hlog : files.get? rotator.path = some content)
    (hlong : rotator.maxBytes ≤ content.length) :
    rotator.rotateIfNeeded files = .ok (true,
      Dict.set (Dict.pop (Dict.moveUp rotator.backup (rotator.backups - 1)
        (Dict.pop files (rotator.backup rotator.backups))) rotator.path) (rotator.backup 1) content) := by
  -- no backup has the path of the log, which is still there when the backups have moved
  have hkept : (Dict.moveUp rotator.backup (rotator.backups - 1)
      (Dict.pop files (rotator.backup rotator.backups))).get? rotator.path = some content := by
    rw [Dict.get?_moveUp_of_ne fun i _ _ => (backup_ne_path i).symm, Dict.get?_pop,
      if_neg (backup_ne_path _).symm, hlog]
  rw [rotateIfNeeded, hlog]
  dsimp only
  rw [if_neg (by omega), if_neg (by omega), shiftBackups_eq, ok_bind, LogFiles.replace, hkept]
  rfl

/-- When the log is not rotated, nothing changes. -/
lemma rotateIfNeeded_eq_of_not_needed {files : LogFiles} (h : ¬ rotator.Needed files) :
    rotator.rotateIfNeeded files = .ok (false, files) := by
  rw [rotateIfNeeded]
  cases hlog : files.get? rotator.path with
  | none => rfl
  | some content =>
    have hshort : content.length < rotator.maxBytes := by
      by_contra hlong
      exact h ⟨content, hlog, not_lt.mp hlong⟩
    dsimp only
    rw [if_pos hshort]
    rfl

/-- A log that is too long is rotated. -/
lemma rotated_of_needed {files : LogFiles} (hbackups : 1 ≤ rotator.backups)
    (h : rotator.Needed files) :
    ∃ files', rotator.rotateIfNeeded files = .ok (true, files') ∧ rotator.Rotated files files' := by
  obtain ⟨content, hlog, hlong⟩ := h
  refine ⟨_, rotateIfNeeded_eq_of_needed hbackups hlog hlong, ?_⟩
  have hinj := backup_injective rotator
  have hpath : ∀ i, rotator.backup i ≠ rotator.path := backup_ne_path
  -- the limit is free before the others move
  have hfree : (Dict.pop files (rotator.backup rotator.backups)).get?
      (rotator.backup (rotator.backups - 1 + 1)) = none := by
    rw [Nat.sub_add_cancel hbackups, Dict.get?_pop_self]
  constructor
  · rw [Dict.get?_set_self, hlog]
  · intro index hpos hlt
    have hone : rotator.backup (index + 1) ≠ rotator.backup 1 := fun h =>
      absurd (hinj h) (by omega)
    have hlast : rotator.backup index ≠ rotator.backup rotator.backups := fun h =>
      absurd (hinj h) (by omega)
    rw [Dict.get?_set_of_ne _ _ hone, Dict.get?_pop, if_neg (hpath _),
      Dict.get?_moveUp hinj hfree hpos (by omega), Dict.get?_pop, if_neg hlast]
  · rw [Dict.get?_set_of_ne _ _ (hpath 1).symm, Dict.get?_pop_self]
  · intro path hne hother
    rw [Dict.get?_set_of_ne _ _ (hother 1 le_rfl hbackups), Dict.get?_pop, if_neg hne,
      Dict.get?_moveUp_of_ne fun i hi hle => hother i hi (by omega), Dict.get?_pop,
      if_neg (hother _ hbackups le_rfl)]

/-- The log is rotated exactly when it is too long: then the backups below the limit move up by
one, the one at the limit is dropped, the log becomes the first, and no other file changes.
Otherwise nothing does. -/
theorem rotateIfNeeded_spec (rotator : LogRotator) (files : LogFiles)
    (hbackups : 1 ≤ rotator.backups) :
    (rotator.Needed files → ∃ files', rotator.rotateIfNeeded files = .ok (true, files') ∧
      rotator.Rotated files files') ∧
    (¬ rotator.Needed files → rotator.rotateIfNeeded files = .ok (false, files)) :=
  ⟨rotated_of_needed hbackups, rotateIfNeeded_eq_of_not_needed⟩

/-- A rotator of three backups. -/
def threeBackups : LogRotator := ⟨⟨"/data/logs", "proxy.log"⟩, 2, 3, Nat.two_pos⟩

/-- A long log and two backups with a gap between them. -/
def gapFiles : LogFiles := Dict.ofList
  [ (⟨"/data/logs", "proxy.log"⟩, [1, 2, 3]), (⟨"/data/logs", "proxy.log.1"⟩, [4]),
    (⟨"/data/logs", "proxy.log.3"⟩, [5]) ]

/-- The log with the gap is rotated. -/
theorem rotated_gapFiles : ∃ files', threeBackups.rotateIfNeeded gapFiles = .ok (true, files') ∧
    threeBackups.Rotated gapFiles files' := by
  have hneeded : threeBackups.Needed gapFiles := ⟨[1, 2, 3], by decide, by decide⟩
  exact (rotateIfNeeded_spec threeBackups gapFiles (by decide)).1 hneeded

/-! ## Runs -/

/-- What happens to a log: bytes are written behind it, or it is looked at. -/
inductive LogEvent
  | written (data : List UInt8)
  | checked

/-- The files behind an event. -/
def apply (rotator : LogRotator) (files : LogFiles) : LogEvent → Result LogFiles
  | .written data =>
    pure (Dict.set files rotator.path (((files.get? rotator.path).getD []) ++ data))
  | .checked => do
    let (_, files) ← rotator.rotateIfNeeded files
    pure files

/-- The log and the backups that are kept. -/
def IsKept (rotator : LogRotator) (path : LogPath) : Prop :=
  path = rotator.path ∨ ∃ index, 1 ≤ index ∧ index ≤ rotator.backups ∧ path = rotator.backup index

/-- An event changes no file but those that are kept. -/
lemma apply_frame (rotator : LogRotator) (files : LogFiles) (event : LogEvent) : ∃ files',
    rotator.apply files event = .ok files' ∧
      ∀ path, ¬ rotator.IsKept path → files'.get? path = files.get? path := by
  cases event with
  | written data =>
    exact ⟨_, rfl, fun path hpath => Dict.get?_set_of_ne _ _ fun h => hpath (.inl h)⟩
  | checked =>
    by_cases hneeded : rotator.Needed files
    · rcases Nat.eq_zero_or_pos rotator.backups with hnone | hbackups
      · obtain ⟨content, hlog, hlong⟩ := hneeded
        refine ⟨Dict.pop files rotator.path, ?_, fun path hpath => ?_⟩
        · rw [apply, rotateIfNeeded, hlog]
          dsimp only
          rw [if_neg (by omega), if_pos hnone]
          rfl
        · rw [Dict.get?_pop, if_neg fun h => hpath (.inl h)]
      · obtain ⟨files', hrotate, hrotated⟩ := rotated_of_needed hbackups hneeded
        refine ⟨files', by rw [apply, hrotate]; rfl, fun path hpath => ?_⟩
        exact hrotated.other path (fun h => hpath (.inl h)) fun index hpos hle h =>
          hpath (.inr ⟨index, hpos, hle, h⟩)
    · exact ⟨files, by rw [apply, rotateIfNeeded_eq_of_not_needed hneeded]; rfl, fun _ _ => rfl⟩

/-- However often a log is written and rotated, nothing fails, and all that is ever written lies in
the log and in the backups up to the limit. -/
theorem foldlM_apply_frame (events : List LogEvent) (files : LogFiles) : ∃ files',
    events.foldlM rotator.apply files = .ok files' ∧
      ∀ path, ¬ rotator.IsKept path → files'.get? path = files.get? path := by
  induction events generalizing files with
  | nil => exact ⟨files, rfl, fun _ _ => rfl⟩
  | cons event events ih =>
    obtain ⟨files₁, hstep, hframe₁⟩ := apply_frame rotator files event
    obtain ⟨files₂, hrun, hframe₂⟩ := ih files₁
    refine ⟨files₂, ?_, fun path hpath => (hframe₂ path hpath).trans (hframe₁ path hpath)⟩
    rw [List.foldlM_cons, hstep, ok_bind, hrun]

end LogRotator

end Portwyrm.Runtime

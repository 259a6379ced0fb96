import Portwyrm.Runtime.GenerationTable
import Portwyrm.Runtime.RenderOrder

/-!
# Differences between generations

`GenerationStore.diff`: the files in which a target differs from a base, each with the text before
and the text after.  A file that is not there is reported with an empty text, as an empty file is:
which targets the changes tell apart.
-/

namespace Portwyrm.Runtime

open Base

/-! ## Changes -/

/-- An item of the list that `diff` reports. -/
structure Change where
  path : String
  before : String
  after : String
deriving DecidableEq

/-- What is reported of a path. -/
def changeOf (base target : Files) (path : String) : Change where
  path := path
  before := (base.get? path).getD ""
  after := (target.get? path).getD ""

/-- `sorted(set(base_files) | set(target_files))`. -/
def sortedPaths (base target : Files) : List String :=
  sortedBy textLe (fun path => path) (Dict.fromKeys (base.keys ++ target.keys))

/-- The list `changes` of `diff`. -/
def changes (base target : Files) : List Change :=
  ((sortedPaths base target).filter fun path => base.get? path ≠ target.get? path).map
    (changeOf base target)

/-! ## The operation -/

/-- The names in a `DiffRequest`. -/
structure DiffRequest where
  baseGeneration : Option String
  targetGeneration : Option String

/-- A `DiffResult`. -/
structure DiffResult where
  baseGeneration : Option String
  targetGeneration : String
  files : List Change

namespace GenerationTable

/-- `_generation_files`. -/
def generationFiles (t : GenerationTable) (generation : String) : Result (String × Files) :=
  match t.rowOf generation with
  | none => throw (.valueError s!"generation does not exist: {generation}")
  | some (_, row) => pure (row.generation, row.files)

/-- The part of `diff` that finds the target: the generation that is named, or the one that is
rendered now. -/
def diffTarget (t : GenerationTable) (rendered : Result (String × Files)) (request : DiffRequest) :
    Result (String × Files) :=
  let targetName := request.targetGeneration.getD ""
  if targetName ≠ "" then do
    let (_, files) ← t.generationFiles targetName
    pure (targetName, files)
  else rendered

/-- The part of `diff` that finds the base: the generation that is named, or the active one. -/
def diffBase (t : GenerationTable) (request : DiffRequest) : Result (String × Files) :=
  let baseName := request.baseGeneration.getD ""
  if baseName ≠ "" then do
    let (_, files) ← t.generationFiles baseName
    pure (baseName, files)
  else
    match t.activeRow with
    | some (_, row) => pure (row.generation, row.files)
    | none => pure ("", .empty)

/-- `GenerationStore.diff`. -/
def diff (t : GenerationTable) (rendered : Result (String × Files)) (request : DiffRequest) :
    Result DiffResult := do
  let (targetName, targetFiles) ← t.diffTarget rendered request
  let (baseName, baseFiles) ← t.diffBase request
  pure {
    baseGeneration := if baseName = "" then none else some baseName
    targetGeneration := targetName
    files := changes baseFiles targetFiles }

end GenerationTable

/-! ## What the changes tell -/

variable {base target target' : Files} {path : String} {c : Change}

lemma mem_changes_iff : c ∈ changes base target ↔
    base.get? c.path ≠ target.get? c.path ∧ c = changeOf base target c.path := by
  rw [changes, List.mem_map]
  constructor
  · rintro ⟨path, hpath, rfl⟩
    exact ⟨of_decide_eq_true (List.mem_filter.mp hpath).2, rfl⟩
  · rintro ⟨hne, hc⟩
    refine ⟨c.path, List.mem_filter.mpr ⟨?_, decide_eq_true hne⟩, hc.symm⟩
    rw [sortedPaths, mem_sortedBy, Dict.mem_fromKeys, List.mem_append]
    by_contra hmem
    rw [not_or] at hmem
    -- a path that is in neither map is the same in both
    exact hne ((Dict.get?_eq_none_iff.mpr hmem.1).trans (Dict.get?_eq_none_iff.mpr hmem.2).symm)

/-- The two maps hold the same files. -/
def SameFiles (target target' : Files) : Prop := ∀ path, target.get? path = target'.get? path

/-- The base has a text for a path, for which one target has an empty file and the other has
none. -/
def EmptiedOrRemoved (base target target' : Files) (path : String) : Prop :=
  (∃ text, base.get? path = some text ∧ text ≠ "") ∧
    (target.get? path = some "" ∧ target'.get? path = none ∨
      target.get? path = none ∧ target'.get? path = some "")

lemma path_changes (base target : Files) : (changes base target).map Change.path =
    (sortedPaths base target).filter fun path => base.get? path ≠ target.get? path := by
  rw [changes, List.map_map]
  exact List.map_id _

lemma nodup_changes (base target : Files) : (changes base target).Nodup := by
  refine List.Nodup.of_map Change.path ?_
  rw [path_changes]
  refine List.Nodup.filter _ ?_
  exact (perm_sortedBy _ _ _).nodup_iff.mpr (Dict.keys_nodup _)

lemma pairwise_changes (base target : Files) :
    (changes base target).Pairwise fun c c' => textLe c.path c'.path = true := by
  rw [← List.pairwise_map (R := fun path path' => textLe path path' = true), path_changes]
  exact (pairwise_sortedBy ranks_textLe _ _).filter _

/-- Lists of changes are the same when the same is reported of each path. -/
lemma changes_eq_of_mem_iff
    (h : ∀ c, c ∈ changes base target ↔ c ∈ changes base target') :
    changes base target = changes base target' := by
  have hperm : (changes base target).Perm (changes base target') :=
    (List.perm_ext_iff_of_nodup (nodup_changes _ _) (nodup_changes _ _)).mpr h
  refine List.Perm.eq_of_pairwise ?_ (pairwise_changes _ _) (pairwise_changes _ _) hperm
  intro c c' hc hc' hle hle'
  have hpath := ranks_textLe.antisymm _ _ hle hle'
  rw [(mem_changes_iff.mp hc).2, (mem_changes_iff.mp ((h c').mpr hc')).2, hpath]

/-- Texts of a path that are reported the same way are the same, or an empty one and none. -/
lemma eq_or_emptied {before after after' : Option String}
    (h : before ≠ after → before ≠ after' ∧ after.getD "" = after'.getD "")
    (h' : before ≠ after' → before ≠ after ∧ after'.getD "" = after.getD "") :
    after = after' ∨ (∃ text, before = some text ∧ text ≠ "") ∧
      (after = some "" ∧ after' = none ∨ after = none ∧ after' = some "") := by
  by_cases hsame : after = after'
  · exact .inl hsame
  have hne : before ≠ after := by
    rintro rfl
    exact (h' hsame).1 rfl
  obtain ⟨hne', hget⟩ := h hne
  have hbefore : ∀ {x y : Option String}, before ≠ x → before ≠ y → x = none → y = some "" →
      ∃ text, before = some text ∧ text ≠ "" := by
    rintro _ _ hnone hempty rfl rfl
    obtain ⟨text, rfl⟩ := Option.ne_none_iff_exists'.mp hnone
    exact ⟨text, rfl, fun htext => hempty (congrArg some htext)⟩
  right
  cases after with
  | none =>
    cases after' with
    | none => exact absurd rfl hsame
    | some text =>
      have htext : text = "" := hget.symm
      subst htext
      exact ⟨hbefore hne hne' rfl rfl, .inr ⟨rfl, rfl⟩⟩
  | some text =>
    cases after' with
    | none =>
      have htext : text = "" := hget
      subst htext
      exact ⟨hbefore hne' hne rfl rfl, .inl ⟨rfl, rfl⟩⟩
    | some text' => exact absurd (congrArg some hget) hsame

/-- The changes are the same when on every path the targets agree or cannot be told apart. -/
lemma changes_eq_iff : changes base target = changes base target' ↔
    ∀ path, target.get? path = target'.get? path ∨ EmptiedOrRemoved base target target' path := by
  constructor
  · intro h path
    have hmem : ∀ c, c ∈ changes base target ↔ c ∈ changes base target' := fun c => by rw [h]
    have hleft := (hmem (changeOf base target path)).mp
    have hright := (hmem (changeOf base target' path)).mpr
    simp only [mem_changes_iff, changeOf, Change.mk.injEq, true_and, and_true] at hleft hright
    exact eq_or_emptied hleft hright
  · intro h
    refine changes_eq_of_mem_iff fun c => ?_
    rw [mem_changes_iff, mem_changes_iff]
    rcases h c.path with hsame | ⟨⟨text, hbase, htext⟩, ⟨htarget, htarget'⟩ | ⟨htarget, htarget'⟩⟩
    · rw [changeOf, changeOf, hsame]
    · simp [changeOf, hbase, htarget, htarget', htext]
    · simp [changeOf, hbase, htarget, htarget', htext]

/-! ## Two calls -/

/-- A call of `diff`: the table, what is rendered, and the names that are asked for. -/
structure DiffCall where
  table : GenerationTable
  rendered : Result (String × Files)
  request : DiffRequest

namespace DiffCall

/-- What the call returns. -/
def answer (call : DiffCall) : Result DiffResult := call.table.diff call.rendered call.request

/-- The files that the call starts from. -/
def baseFiles (call : DiffCall) : Result Files := Prod.snd <$> call.table.diffBase call.request

/-- The files that the call compares them with. -/
def targetFiles (call : DiffCall) : Result Files :=
  Prod.snd <$> call.table.diffTarget call.rendered call.request

end DiffCall

lemma answer_of_files {call : DiffCall} (hbase : call.baseFiles = .ok base)
    (htarget : call.targetFiles = .ok target) :
    ∃ d, call.answer = .ok d ∧ d.files = changes base target := by
  obtain ⟨based, hbased, rfl⟩ := map_eq_ok_iff.mp hbase
  obtain ⟨named, hnamed, rfl⟩ := map_eq_ok_iff.mp htarget
  exact ⟨_, bind_eq_ok_iff.mpr ⟨named, hnamed, bind_eq_ok_iff.mpr ⟨based, hbased, rfl⟩⟩, rfl⟩

/-- The answers to two calls on one base determine the targets: the same changes are those of the
same files, and of a path that is not reported the base has what the target has. -/
def Determine (call call' : DiffCall) : Prop :=
  ∀ base target target' d d', call.baseFiles = .ok base → call'.baseFiles = .ok base →
    call.targetFiles = .ok target → call'.targetFiles = .ok target' →
    call.answer = .ok d → call'.answer = .ok d' →
    (d.files = d'.files → SameFiles target target') ∧
      (∀ path, (∀ c ∈ d.files, c.path ≠ path) → base.get? path = target.get? path) ∧
      (∀ path, (∀ c ∈ d'.files, c.path ≠ path) → base.get? path = target'.get? path)

/-- The targets hold the same files, or they differ on a path on which they do not merely hold an
empty file and none where the base has a text. -/
def ToldApart (call call' : DiffCall) : Prop :=
  ∀ base target target', call.baseFiles = .ok base → call'.baseFiles = .ok base →
    call.targetFiles = .ok target → call'.targetFiles = .ok target' →
    SameFiles target target' ∨
      ∃ path, target.get? path ≠ target'.get? path ∧ ¬ EmptiedOrRemoved base target target' path

lemma unreported (h : ∀ c ∈ changes base target, c.path ≠ path) :
    base.get? path = target.get? path := by
  by_contra hne
  exact h (changeOf base target path) (mem_changes_iff.mpr ⟨hne, rfl⟩) rfl

lemma sameFiles_of_changes_iff :
    (changes base target = changes base target' → SameFiles target target') ↔
      (SameFiles target target' ∨ ∃ path, target.get? path ≠ target'.get? path ∧
        ¬ EmptiedOrRemoved base target target' path) := by
  rw [changes_eq_iff]
  constructor
  · intro h
    by_contra hnot
    rw [not_or, not_exists] at hnot
    refine hnot.1 (h fun path => ?_)
    by_contra hpath
    rw [not_or] at hpath
    exact hnot.2 path hpath
  · rintro (hsame | ⟨path, hne, hnot⟩) h
    · exact hsame
    · exact absurd (h path) (not_or.mpr ⟨hne, hnot⟩)

/-- The answers to two calls determine the targets if and only if the targets, where they differ,
differ on a path that is not emptied in one and removed in the other. -/
theorem determine_iff (call call' : DiffCall) : Determine call call' ↔ ToldApart call call' := by
  constructor
  · intro h base target target' hbase hbase' htarget htarget'
    obtain ⟨d, hd, hfiles⟩ := answer_of_files hbase htarget
    obtain ⟨d', hd', hfiles'⟩ := answer_of_files hbase' htarget'
    have hsame := (h base target target' d d' hbase hbase' htarget htarget' hd hd').1
    rw [hfiles, hfiles'] at hsame
    exact sameFiles_of_changes_iff.mp hsame
  · intro h base target target' d d' hbase hbase' htarget htarget' hd hd'
    have hfiles : d.files = changes base target := by
      obtain ⟨e, he, hfiles⟩ := answer_of_files hbase htarget
      rwa [Except.ok.inj (hd.symm.trans he)]
    have hfiles' : d'.files = changes base target' := by
      obtain ⟨e, he, hfiles⟩ := answer_of_files hbase' htarget'
      rwa [Except.ok.inj (hd'.symm.trans he)]
    rw [hfiles, hfiles']
    exact ⟨sameFiles_of_changes_iff.mpr (h base target target' hbase hbase' htarget htarget'),
      fun _ => unreported, fun _ => unreported⟩

/-- A file that the target empties is reported as one that the target does not have. -/
theorem emptied_not_determine :
    let generations : GenerationTable := (Table.empty.add
      { generation := "base", files := Dict.ofList [("http/a.conf", "x")] }).add
      { generation := "emptied", files := Dict.ofList [("http/a.conf", "")] }
    ¬ Determine ⟨generations, .ok ("removed", .empty), ⟨some "base", some "emptied"⟩⟩
      ⟨generations, .ok ("removed", .empty), ⟨some "base", none⟩⟩ := by
  intro generations h
  have hsame := (h (Dict.ofList [("http/a.conf", "x")]) (Dict.ofList [("http/a.conf", "")]) .empty
    _ _ (by decide) (by decide) (by decide) (by decide) rfl rfl).1 (by decide)
  exact absurd (hsame "http/a.conf") (by decide)

end Portwyrm.Runtime

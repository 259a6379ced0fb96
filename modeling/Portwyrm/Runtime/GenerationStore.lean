import Portwyrm.Runtime.Nginx

/-!
# The generation store

`GenerationStore` of `portwyrm.runtime.reconcile`: directories of configuration files that are
named by a digest of their contents, and a manifest that names the active one.

The digest is a parameter.  Writing a file fails when its path is a directory or runs through a
file; every other operation of the file system succeeds.
-/

namespace Portwyrm.Runtime

open Base

/-! ## Digests -/

/-- The characters of a hexadecimal digest. -/
def hexDigits : List Char := "0123456789abcdef".toList

/-- The value of `hexdigest()` of a SHA-256 hash. -/
structure HexDigest where
  text : List Char
  length_eq : text.length = 64
  hex : ∀ c ∈ text, c ∈ hexDigits

/-- `str.encode()`. -/
def utf8 (s : String) : List UInt8 := s.toByteArray.data.toList

/-- `sorted(files.items())`. -/
def sortedItems (files : Files) : List (String × String) := sortedBy textLe Prod.fst files.entries

/-- What `generation_id` feeds to the hash for one file. -/
def encodeItem (item : String × String) : List UInt8 := utf8 item.1 ++ [0] ++ utf8 item.2 ++ [0]

/-- What `generation_id` feeds to the hash. -/
def encode (files : Files) : List UInt8 := (sortedItems files).flatMap encodeItem

/-! ## Paths -/

/-- The components of a `PurePosixPath` behind its root. -/
def pathParts (name : String) : List String :=
  ((name.toList.splitOn '/').map String.ofList).filter fun part => part ≠ "" ∧ part ≠ "."

/-- `PurePosixPath.is_absolute`. -/
def isAbsolute (name : String) : Prop := name.toList.head? = some '/'

instance (name : String) : Decidable (isAbsolute name) :=
  inferInstanceAs (Decidable (name.toList.head? = some '/'))

/-- `_safe_relative`. -/
def safeRelative (name : String) : Result (List String) := do
  raiseIf (isAbsolute name ∨ ".." ∈ pathParts name ∨ pathParts name = [])
    (.reconcileError s!"unsafe generated path: {Text.repr name}")
  pure (pathParts name)

lemma safeRelative_eq_ok {name : String} {path : List String} :
    safeRelative name = .ok path ↔
      ¬ (isAbsolute name ∨ ".." ∈ pathParts name ∨ pathParts name = []) ∧
        pathParts name = path := by
  simp only [safeRelative, bind_eq_ok_iff, raiseIf_eq_ok_iff, pure_eq_ok_iff, exists_const]

/-! ## Identifiers -/

section GenerationId

variable (sha256 : List UInt8 → HexDigest)

/-- The first 20 characters of a digest. -/
def HexDigest.short (digest : HexDigest) : String := String.ofList (digest.text.take 20)

/-- `generation_id`. -/
def generationId (files : Files) : Result String := do
  let _ ← (sortedItems files).mapM fun item => safeRelative item.1
  pure (sha256 (encode files)).short

variable {sha256} {files : Files} {id : String}

lemma generationId_eq_ok : generationId sha256 files = .ok id ↔
    (∃ paths, (sortedItems files).mapM (fun item => safeRelative item.1) = .ok paths) ∧
      (sha256 (encode files)).short = id := by
  simp only [generationId, bind_eq_ok_iff, pure_eq_ok_iff, exists_and_right]

/-- An identifier has no white space around it. -/
lemma stripped_short (digest : HexDigest) : Text.Stripped digest.short := by
  have hspace : ∀ c ∈ digest.short.toList, Text.isSpace c = false := by
    intro c hc
    have hall : ∀ c ∈ hexDigits, Text.isSpace c = false := by decide
    rw [HexDigest.short, String.toList_ofList] at hc
    exact hall c (digest.hex c (List.mem_of_mem_take hc))
  exact ⟨fun c hc => hspace c (List.mem_of_mem_head? hc),
    fun c hc => hspace c (List.mem_of_getLast? hc)⟩

lemma short_ne_empty (digest : HexDigest) : digest.short ≠ "" := by
  intro h
  have hlength : (digest.text.take 20).length = 0 := by
    rw [← String.toList_ofList (l := digest.text.take 20), ← HexDigest.short, h]
    rfl
  rw [List.length_take, digest.length_eq] at hlength
  exact absurd hlength (by decide)

end GenerationId

/-! ## Staging -/

/-- A directory of a generation: the contents of its files by the components of their paths. -/
abbrev Tree := Dict (List String) String

/-- A file cannot be written at `path`: a directory is there, or a file stands in the way. -/
def Blocked (tree : Tree) (path : List String) : Prop :=
  ∃ other ∈ tree.keys, other ≠ path ∧ (other <+: path ∨ path <+: other)

instance (tree : Tree) (path : List String) : Decidable (Blocked tree path) :=
  inferInstanceAs (Decidable (∃ other ∈ tree.keys, other ≠ path ∧ (other <+: path ∨ path <+: other)))

/-- Write one file of a generation, with its parent directories. -/
def writeFile (tree : Tree) (item : String × String) : Result Tree := do
  let path ← safeRelative item.1
  raiseIf (Blocked tree path) .osError
  pure (tree.set path item.2)

/-- The directory that `stage` fills and then renames to its final place. -/
def stagedTree (files : Files) : Result Tree := (sortedItems files).foldlM writeFile Dict.empty

/-- `GenerationStore`: the directories under `generations`, the text of `ACTIVE`, and the
diagnostics under `failed`. -/
structure GenerationStore where
  generations : Dict String Tree
  activeManifest : Option String
  failed : Dict String String

namespace GenerationStore

/-- The store as `__init__` finds an empty root. -/
def empty : GenerationStore := ⟨Dict.empty, none, Dict.empty⟩

variable (store : GenerationStore)

/-- `stage`: whether the generation was created, and the store behind the call. -/
def stage (id : String) (files : Files) : Result (Bool × GenerationStore) :=
  if id ∈ store.generations then pure (false, store)
  else do
    let tree ← stagedTree files
    pure (true, { store with generations := store.generations.set id tree })

/-- `active_id`. -/
def activeId : Option String := do
  let value ← store.activeManifest
  if Text.strip value = "" then none else some (Text.strip value)

/-- `activate`. -/
def activate (id : String) : Result GenerationStore := do
  raiseIf (id ∉ store.generations) (.reconcileError s!"generation does not exist: {id}")
  pure { store with activeManifest := some (id ++ "\n") }

/-- `clear_active`. -/
def clearActive : GenerationStore := { store with activeManifest := none }

/-- `record_failure`. -/
def recordFailure (id diagnostic : String) : GenerationStore :=
  { store with failed := store.failed.set s!"{id}.txt" (Text.rstrip diagnostic ++ "\n") }

end GenerationStore

variable {store store' : GenerationStore} {files files' : Files} {id : String}

@[simp] lemma generations_clearActive : store.clearActive.generations = store.generations := rfl

@[simp] lemma activeManifest_clearActive : store.clearActive.activeManifest = none := rfl

@[simp] lemma generations_recordFailure (diagnostic : String) :
    (store.recordFailure id diagnostic).generations = store.generations := rfl

@[simp] lemma activeManifest_recordFailure (diagnostic : String) :
    (store.recordFailure id diagnostic).activeManifest = store.activeManifest := rfl

lemma activate_eq_ok : store.activate id = .ok store' ↔
    id ∈ store.generations ∧ { store with activeManifest := some (id ++ "\n") } = store' := by
  simp only [GenerationStore.activate, bind_eq_ok_iff, raiseIf_eq_ok_iff, pure_eq_ok_iff,
    exists_const, not_not]

/-- Staging keeps a generation that is there, and otherwise writes the files. -/
lemma stage_eq_ok {created : Bool} : store.stage id files = .ok (created, store') ↔
    (id ∈ store.generations ∧ created = false ∧ store = store') ∨
    (id ∉ store.generations ∧ created = true ∧ ∃ tree, stagedTree files = .ok tree ∧
      { store with generations := store.generations.set id tree } = store') := by
  unfold GenerationStore.stage
  by_cases h : id ∈ store.generations
  · simp only [h, if_true, pure_eq_ok_iff, Prod.mk.injEq, true_and, not_true, false_and, or_false,
      eq_comm (a := false)]
  · simp only [h, if_false, bind_eq_ok_iff, pure_eq_ok_iff, Prod.mk.injEq, false_and, false_or,
      not_false_eq_true, true_and, eq_comm (a := true)]
    constructor
    · rintro ⟨tree, htree, hcreated, heq⟩
      exact ⟨hcreated, tree, htree, heq⟩
    · rintro ⟨hcreated, tree, htree, heq⟩
      exact ⟨tree, htree, hcreated, heq⟩

lemma activeId_of_manifest (hid : Text.Stripped id) (hne : id ≠ "")
    (h : store.activeManifest = some (id ++ "\n")) : store.activeId = some id := by
  simp [GenerationStore.activeId, h, Text.strip_append_newline hid, hne]

/-! ## The staged files -/

lemma pairwise_sortedItems (files : Files) :
    (sortedItems files).Pairwise fun a b => a.1 ≤ b.1 := by
  have htotal : Std.Total fun a b : String × String => textLe a.1 b.1 = true :=
    ⟨fun a b => by simpa [textLe] using String.le_total a.1 b.1⟩
  have htrans : IsTrans (String × String) fun a b => textLe a.1 b.1 = true :=
    ⟨fun a b c hab hbc => by
      simp only [textLe, decide_eq_true_eq] at hab hbc ⊢
      exact String.le_trans hab hbc⟩
  have h : (sortedItems files).Pairwise fun a b => textLe a.1 b.1 = true :=
    List.pairwise_insertionSort _ _
  exact h.imp fun hab => by simpa [textLe] using hab

lemma mem_sortedItems {item : String × String} :
    item ∈ sortedItems files ↔ files.get? item.1 = some item.2 := by
  rw [sortedItems, mem_sortedBy, ← Dict.mem_entries_iff]

/-- The items do not depend on the order in which the files were stored. -/
lemma sortedItems_eq (h : ∀ name, files.get? name = files'.get? name) :
    sortedItems files = sortedItems files' := by
  have hperm : files.entries.Perm files'.entries :=
    (List.perm_ext_iff_of_nodup files.nodup.of_map files'.nodup.of_map).mpr fun item => by
      rw [Dict.mem_entries_iff, Dict.mem_entries_iff, h]
  refine List.Perm.eq_of_pairwise ?_ (pairwise_sortedItems files) (pairwise_sortedItems files')
    ((perm_sortedBy _ _ _).trans (hperm.trans (perm_sortedBy _ _ _).symm))
  intro a b ha hb hab hba
  have hname : a.1 = b.1 := String.le_antisymm hab hba
  rw [mem_sortedItems, h, hname, mem_sortedItems.mp hb] at ha
  exact Prod.ext hname (Option.some.inj ha).symm

/-- A file with its path. -/
def pathItem (item : String × String) : List String × String := (pathParts item.1, item.2)

lemma writeFile_eq_ok {tree tree' : Tree} {item : String × String} :
    writeFile tree item = .ok tree' ↔ safeRelative item.1 = .ok (pathParts item.1) ∧
      ¬ Blocked tree (pathParts item.1) ∧ tree.set (pathParts item.1) item.2 = tree' := by
  simp only [writeFile, bind_eq_ok_iff, raiseIf_eq_ok_iff, pure_eq_ok_iff, exists_const]
  constructor
  · rintro ⟨path, hpath, hblocked, rfl⟩
    obtain rfl := (safeRelative_eq_ok.mp hpath).2
    exact ⟨hpath, hblocked, rfl⟩
  · rintro ⟨hpath, hblocked, rfl⟩
    exact ⟨_, hpath, hblocked, rfl⟩

lemma foldlM_writeFile {items : List (String × String)} {tree tree' : Tree}
    (h : items.foldlM writeFile tree = .ok tree') :
    tree' = (items.map pathItem).foldl (fun d e => d.set e.1 e.2) tree := by
  induction items generalizing tree with
  | nil => exact (pure_eq_ok_iff.mp h).symm
  | cons item items ih =>
    rw [List.foldlM_cons, bind_eq_ok_iff] at h
    obtain ⟨tree₁, h₁, h⟩ := h
    rw [ih h, ← (writeFile_eq_ok.mp h₁).2.2]
    rfl

lemma eq_ofList_of_stagedTree {tree : Tree} (h : stagedTree files = .ok tree) :
    tree = Dict.ofList ((sortedItems files).map pathItem) :=
  foldlM_writeFile h

/-- A directory holds exactly the given files: at a path stand the contents of the file that
names it.  When several names are spellings of one path, it is the last of them that stays. -/
def HoldsExactly (tree : Tree) (files : Files) : Prop :=
  ∀ path contents, tree.get? path = some contents ↔ ∃ name, files.get? name = some contents ∧
    pathParts name = path ∧
    ∀ name' ∈ files, pathParts name' = path → name' ≤ name

theorem holdsExactly_of_stagedTree {tree : Tree} (h : stagedTree files = .ok tree) :
    HoldsExactly tree files := by
  obtain rfl := eq_ofList_of_stagedTree h
  intro path contents
  -- a lookup finds the last item of the path, which has the greatest name
  have hlast : ∀ {contents}, (Dict.ofList ((sortedItems files).map pathItem)).get? path =
      some contents → ∃ name, files.get? name = some contents ∧ pathParts name = path ∧
        ∀ name' ∈ files, pathParts name' = path → name' ≤ name := by
    intro contents hget
    obtain ⟨l₁, l₂, hl, hbehind⟩ := Dict.get?_ofList_eq_some_iff.mp hget
    obtain ⟨i₁, i₂, hitems, rfl, hi₂⟩ := List.map_eq_append_iff.mp hl
    obtain ⟨item, i₃, rfl, hitem, rfl⟩ := List.map_eq_cons_iff.mp hi₂
    obtain ⟨rfl, rfl⟩ : pathParts item.1 = path ∧ item.2 = contents := by
      simpa [pathItem] using hitem
    have hsorted := hitems ▸ pairwise_sortedItems files
    refine ⟨item.1, mem_sortedItems.mp (by simp [hitems]), rfl, fun name' hname' hpath => ?_⟩
    obtain ⟨contents', hget'⟩ := Dict.mem_iff.mp hname'
    have hmem : (name', contents') ∈ i₁ ++ item :: i₃ := hitems ▸ mem_sortedItems.mpr hget'
    rcases List.mem_append.mp hmem with he | he
    · exact (List.pairwise_append.mp hsorted).2.2 _ he item (by simp)
    · rcases List.mem_cons.mp he with he | he
      · exact he ▸ String.le_refl _
      · exact absurd hpath (hbehind _ (List.mem_map_of_mem he))
  refine ⟨hlast, ?_⟩
  rintro ⟨name, hget, hpath, hgreatest⟩
  have hkey : path ∈ Dict.ofList ((sortedItems files).map pathItem) := by
    rw [Dict.mem_ofList_iff, List.map_map, List.mem_map]
    exact ⟨(name, contents), mem_sortedItems.mpr hget, hpath⟩
  obtain ⟨contents', hget'⟩ := Dict.mem_iff.mp hkey
  obtain ⟨name', hname', hpath', hgreatest'⟩ := hlast hget'
  have heq : name = name' := String.le_antisymm
    (hgreatest' name (Dict.mem_iff.mpr ⟨_, hget⟩) hpath)
    (hgreatest name' (Dict.mem_iff.mpr ⟨_, hname'⟩) hpath')
  rw [heq, hname'] at hget
  rw [hget', hget]

end Portwyrm.Runtime

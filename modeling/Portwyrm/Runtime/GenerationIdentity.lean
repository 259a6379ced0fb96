import Portwyrm.Base.Frames
import Portwyrm.Runtime.Deployment
import Portwyrm.Runtime.GeneratedPaths
import Mathlib.Data.Set.Function

/-!
# What the id of a generation identifies

`generation_id` digests the names and contents of the files, each of them ended by a zero byte,
while `stage` writes the contents at the normalised paths of the names.  So the id says less than
the directory where contents have zero bytes of their own, and more than the directory where one
path is spelt in several ways.
-/

namespace Portwyrm.Runtime

open Base

/-! ## What is digested -/

/-- The zero character. -/
def nul : Char := Char.ofNat 0

/-- The names and contents of the files, in the order of the names. -/
def blocks (files : Files) : List (List Char) :=
  (sortedItems files).flatMap fun item => [item.1.toList, item.2.toList]

section Encoding

variable {files files' : Files}

lemma utf8_append (s t : String) : utf8 (s ++ t) = utf8 s ++ utf8 t := by
  simp [utf8]

lemma utf8_injective : Function.Injective utf8 := by
  intro s t h
  rw [utf8, utf8, Array.toList_inj] at h
  exact String.toByteArray_inj.mp (ByteArray.ext h)

lemma utf8_nul : utf8 (String.ofList [nul]) = [0] := by decide

/-- What is digested are the names and contents, each of them ended by a zero. -/
lemma encode_eq (files : Files) :
    encode files = utf8 (String.ofList (Frames.framed nul (blocks files))) := by
  rw [encode, blocks]
  induction sortedItems files with
  | nil => rfl
  | cons item items ih =>
    have hframed : Frames.framed nul ((item :: items).flatMap fun item =>
        [item.1.toList, item.2.toList]) = item.1.toList ++ [nul] ++ item.2.toList ++ [nul] ++
          Frames.framed nul (items.flatMap fun item => [item.1.toList, item.2.toList]) := by
      simp [Frames.framed]
    rw [List.flatMap_cons, ih, hframed, encodeItem, ← utf8_nul]
    simp only [String.ofList_append, utf8_append, String.ofList_toList]

/-- Two maps are digested alike exactly when they have the same pieces between zeros. -/
lemma encode_eq_encode_iff : encode files = encode files' ↔
    Frames.pieces nul (blocks files) = Frames.pieces nul (blocks files') := by
  rw [encode_eq, encode_eq, utf8_injective.eq_iff, String.ofList_inj, Frames.framed_eq_framed_iff]

end Encoding

/-! ## What is staged -/

/-- What a map says of a path: the contents of the last name that spells it. -/
def Says (files : Files) (path : List String) (contents : String) : Prop :=
  ∃ name, files.get? name = some contents ∧ pathParts name = path ∧
    ∀ name' ∈ files, pathParts name' = path → name' ≤ name

/-- Two maps say the same of all paths. -/
def SamePaths (files files' : Files) : Prop :=
  ∀ path contents, Says files path contents ↔ Says files' path contents

/-- A name without redundant slashes and dots. -/
def NormalName (name : String) : Prop := "/".intercalate (pathParts name) = name

section Staging

variable {files files' : Files}

lemma get?_iff_says {tree : Tree} (h : stagedTree files = .ok tree) {path : List String}
    {contents : String} : tree.get? path = some contents ↔ Says files path contents :=
  holdsExactly_of_stagedTree h path contents

/-- The directories are the same exactly when the maps say the same of all paths. -/
lemma trees_same_iff {tree tree' : Tree} (h : stagedTree files = .ok tree)
    (h' : stagedTree files' = .ok tree') :
    (∀ path, tree.get? path = tree'.get? path) ↔ SamePaths files files' := by
  refine forall_congr' fun path => ?_
  simp only [← get?_iff_says h, ← get?_iff_says h']
  exact Option.ext_iff

/-- With normal names, a map says what it stores. -/
lemma says_iff_of_normal (h : ∀ name ∈ files, NormalName name) {name contents : String}
    (hname : NormalName name) :
    Says files (pathParts name) contents ↔ files.get? name = some contents := by
  have hunique : ∀ name' ∈ files, pathParts name' = pathParts name → name' = name := by
    intro name' hname' hpath
    rw [← h name' hname', hpath, hname]
  constructor
  · rintro ⟨name', hget, hpath, -⟩
    rwa [← hunique name' (Dict.mem_iff.mpr ⟨_, hget⟩) hpath]
  · intro hget
    refine ⟨name, hget, rfl, fun name' hname' hpath => ?_⟩
    rw [hunique name' hname' hpath]

/-- Maps with normal names that say the same of all paths are the same. -/
lemma get?_eq_of_samePaths (h : ∀ name ∈ files, NormalName name)
    (h' : ∀ name ∈ files', NormalName name) (hsame : SamePaths files files') (name : String) :
    files.get? name = files'.get? name := by
  refine Option.ext fun contents => ?_
  by_cases hname : NormalName name
  · rw [← says_iff_of_normal h hname, ← says_iff_of_normal h' hname]
    exact hsame _ _
  · exact iff_of_false (fun hget => hname (h name (Dict.mem_iff.mpr ⟨_, hget⟩)))
      fun hget => hname (h' name (Dict.mem_iff.mpr ⟨_, hget⟩))

end Staging

/-! ## Where the two differ -/

/-- Two maps that are digested alike and staged differently: the names and contents have the same
pieces between zeros, and some of them have zeros. -/
structure ReadAlike (files files' : Files) : Prop where
  zeros : ∃ block ∈ blocks files ++ blocks files', nul ∈ block
  pieces : Frames.pieces nul (blocks files) = Frames.pieces nul (blocks files')
  apart : ¬ SamePaths files files'

/-- Two maps that are staged alike and digested differently: they say the same of all paths, and
some name is not the normal one of its path. -/
structure SpeltApart (files files' : Files) : Prop where
  spelling : ∃ name, (name ∈ files ∨ name ∈ files') ∧ ¬ NormalName name
  paths : SamePaths files files'
  pieces : Frames.pieces nul (blocks files) ≠ Frames.pieces nul (blocks files')

section Identity

variable {files files' : Files}

/-- The names and contents tell the items. -/
lemma items_eq_of_blocks {items items' : List (String × String)}
    (h : (items.flatMap fun item => [item.1.toList, item.2.toList]) =
      items'.flatMap fun item => [item.1.toList, item.2.toList]) : items = items' := by
  induction items generalizing items' with
  | nil =>
    cases items' with
    | nil => rfl
    | cons item' items' => simp at h
  | cons item items ih =>
    cases items' with
    | nil => simp at h
    | cons item' items' =>
      simp only [List.flatMap_cons, List.cons_append, List.nil_append, List.cons.injEq,
        String.toList_inj] at h
      rw [ih h.2.2, Prod.ext h.1 h.2.1]

lemma samePaths_of_get? (h : ∀ name, files.get? name = files'.get? name) :
    SamePaths files files' := by
  intro path contents
  simp only [Says, h, Dict.mem_iff]

/-- What is digested tells what is staged, except for maps that read alike. -/
lemma samePaths_of_pieces (hnot : ¬ ReadAlike files files')
    (h : Frames.pieces nul (blocks files) = Frames.pieces nul (blocks files')) :
    SamePaths files files' := by
  by_contra hapart
  refine hnot ⟨?_, h, hapart⟩
  by_contra hzeros
  have hclean : ∀ block ∈ blocks files ++ blocks files', nul ∉ block := fun block hblock hmem =>
    hzeros ⟨block, hblock, hmem⟩
  have hblocks : blocks files = blocks files' := by
    have hleft := Frames.pieces_of_not_mem fun block hblock =>
      hclean block (List.mem_append_left _ hblock)
    have hright := Frames.pieces_of_not_mem fun block hblock =>
      hclean block (List.mem_append_right _ hblock)
    rwa [hleft, hright] at h
  refine hapart (samePaths_of_get? fun name => Option.ext fun contents => ?_)
  have hmem : (name, contents) ∈ sortedItems files ↔ (name, contents) ∈ sortedItems files' := by
    rw [items_eq_of_blocks hblocks]
  rwa [mem_sortedItems, mem_sortedItems] at hmem

/-- What is staged tells what is digested, except for maps that are spelt apart. -/
lemma pieces_of_samePaths (hnot : ¬ SpeltApart files files') (h : SamePaths files files') :
    Frames.pieces nul (blocks files) = Frames.pieces nul (blocks files') := by
  by_contra hapart
  refine hnot ⟨?_, h, hapart⟩
  by_contra hspelling
  have hnormal : ∀ name, name ∈ files ∨ name ∈ files' → NormalName name := fun name hname =>
    not_not.mp fun hnot => hspelling ⟨name, hname, hnot⟩
  have hget := get?_eq_of_samePaths (fun name hname => hnormal name (.inl hname))
    (fun name hname => hnormal name (.inr hname)) h
  rw [blocks, blocks, sortedItems_eq hget] at hapart
  exact hapart rfl

variable {sha256 : List UInt8 → HexDigest} {id id' : String} {tree tree' : Tree}

/-- Where the truncated digest tells the encodings of two maps apart, their ids tell the staged
directories apart, and only these, exactly when the maps neither read alike nor are spelt apart. -/
theorem generationId_eq_iff_staged_iff
    (hdigest : Set.InjOn (fun bytes => (sha256 bytes).short) {encode files, encode files'})
    (hid : generationId sha256 files = .ok id) (hid' : generationId sha256 files' = .ok id')
    (htree : stagedTree files = .ok tree) (htree' : stagedTree files' = .ok tree') :
    (id = id' ↔ ∀ path, tree.get? path = tree'.get? path) ↔
      ¬ ReadAlike files files' ∧ ¬ SpeltApart files files' := by
  have hsame : id = id' ↔ Frames.pieces nul (blocks files) = Frames.pieces nul (blocks files') := by
    rw [← (generationId_eq_ok.mp hid).2, ← (generationId_eq_ok.mp hid').2, ← encode_eq_encode_iff]
    exact hdigest.eq_iff (by simp) (by simp)
  rw [hsame, trees_same_iff htree htree']
  constructor
  · intro h
    exact ⟨fun hread => hread.apart (h.mp hread.pieces),
      fun hspelt => hspelt.pieces (h.mpr hspelt.paths)⟩
  · rintro ⟨hread, hspelt⟩
    exact ⟨samePaths_of_pieces hread, pieces_of_samePaths hspelt⟩

end Identity

/-! ### Small generations -/

/-- Two contents of a file have two ids and two directories. -/
theorem hostFiles_identified : ∃ id id' tree tree',
    generationId sumHash (hostFiles "a") = .ok id ∧
    generationId sumHash (hostFiles "b") = .ok id' ∧
    stagedTree (hostFiles "a") = .ok tree ∧ stagedTree (hostFiles "b") = .ok tree' ∧
    (id = id' ↔ ∀ path, tree.get? path = tree'.get? path) := by
  have hname : ∀ text, ∀ name ∈ hostFiles text, name = "http/proxy-1.conf" := fun text name hmem =>
    List.mem_singleton.mp (Dict.mem_ofList_iff.mp hmem)
  have hgenerated : ∀ text, ∀ name ∈ hostFiles text, GeneratedName name := by
    intro text name hmem
    rw [hname text name hmem]
    decide
  obtain ⟨tree, htree⟩ := stagedTree_ok (hgenerated "a")
  obtain ⟨tree', htree'⟩ := stagedTree_ok (hgenerated "b")
  have hid := generationId_ok sumHash (hgenerated "a")
  have hid' := generationId_ok sumHash (hgenerated "b")
  have hdigest : Set.InjOn (fun bytes => (sumHash bytes).short)
      {encode (hostFiles "a"), encode (hostFiles "b")} := by
    have hne : (sumHash (encode (hostFiles "a"))).short ≠
        (sumHash (encode (hostFiles "b"))).short := by decide
    exact Set.injOn_pair.mpr fun h => absurd h hne
  refine ⟨_, _, tree, tree', hid, hid', htree, htree', ?_⟩
  refine (generationId_eq_iff_staged_iff hdigest hid hid' htree htree').mpr
    ⟨fun hread => ?_, fun hspelt => ?_⟩
  · have hclean : ∀ block ∈ blocks (hostFiles "a") ++ blocks (hostFiles "b"), nul ∉ block := by
      decide
    obtain ⟨block, hblock, hmem⟩ := hread.zeros
    exact hclean block hblock hmem
  · obtain ⟨name, hmem, hnot⟩ := hspelt.spelling
    have hnormal : NormalName "http/proxy-1.conf" := by
      unfold NormalName
      decide
    obtain rfl : name = "http/proxy-1.conf" := hmem.elim (hname _ _) (hname _ _)
    exact hnot hnormal

/-- A file whose contents read like a further file. -/
def zeroFiles : Files :=
  Dict.ofList [("a", "x" ++ String.ofList [nul] ++ "b" ++ String.ofList [nul] ++ "y")]

/-- The two files that it reads like. -/
def twoFiles : Files := Dict.ofList [("a", "x"), ("b", "y")]

/-- Zero bytes in contents give two directories one id. -/
theorem zeroFiles_not_identified :
    (∀ sha256, ∃ id, generationId sha256 zeroFiles = .ok id ∧
      generationId sha256 twoFiles = .ok id) ∧
    ∃ tree tree', stagedTree zeroFiles = .ok tree ∧ stagedTree twoFiles = .ok tree' ∧
      tree.get? ["b"] ≠ tree'.get? ["b"] := by
  have hencode : encode zeroFiles = encode twoFiles := by decide
  refine ⟨fun sha256 => ⟨(sha256 (encode zeroFiles)).short, rfl, ?_⟩, ?_⟩
  · rw [hencode]
    rfl
  · exact ⟨_, _, rfl, rfl, by decide⟩

end Portwyrm.Runtime

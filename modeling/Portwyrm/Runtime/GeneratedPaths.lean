import Portwyrm.Runtime.ControllerRender
import Portwyrm.Runtime.Reconcile

/-!
# The paths of rendered files

The names that a render gives to its files are safe relative paths, and no file stands in the way
of another.  So a rendered generation can always be staged, and only the validator and the reloader
can keep it from being applied.
-/

namespace Portwyrm.Runtime

open Base

/-! ## Paths -/

/-- The directories of a generation that hold nothing but files. -/
def fileDirectories : List String :=
  ["http", "include", "quic", "custom", "default_www", "access", "stream"]

/-- The paths at which a render stores its files. -/
def GeneratedPath : List String → Prop
  | [file] => file = "nginx.conf"
  | [directory, file] => directory ∈ fileDirectories ∧ file ≠ ".."
  | [outer, inner, file] => outer = "conf.d" ∧ inner = "include" ∧ file ≠ ".."
  | _ => False

instance : DecidablePred GeneratedPath
  | [] => inferInstanceAs (Decidable False)
  | [file] => inferInstanceAs (Decidable (file = "nginx.conf"))
  | [directory, file] => inferInstanceAs (Decidable (directory ∈ fileDirectories ∧ file ≠ ".."))
  | [outer, inner, file] =>
    inferInstanceAs (Decidable (outer = "conf.d" ∧ inner = "include" ∧ file ≠ ".."))
  | _ :: _ :: _ :: _ :: _ => inferInstanceAs (Decidable False)

/-- A name that a render gives to a file. -/
def GeneratedName (name : String) : Prop := ¬ isAbsolute name ∧ GeneratedPath (pathParts name)

instance : DecidablePred GeneratedName := fun name =>
  inferInstanceAs (Decidable (¬ isAbsolute name ∧ GeneratedPath (pathParts name)))

/-- No path of a render runs through another one. -/
lemma GeneratedPath.eq_of_start {path other : List String} (h : GeneratedPath path)
    (hother : GeneratedPath other) (hbelow : path <+: other) : path = other := by
  match path, other, h, hother with
  | [file], [file'], h, hother => rw [h, hother]
  | [file], [directory, file'], h, hother =>
    obtain rfl : file = directory := (List.cons_prefix_cons.mp hbelow).1
    obtain rfl := h
    exact absurd hother.1 (by decide)
  | [file], [outer, inner, file'], h, hother =>
    obtain rfl : file = outer := (List.cons_prefix_cons.mp hbelow).1
    obtain rfl := h
    exact absurd hother.1 (by decide)
  | [directory, file], [directory', file'], h, hother => exact hbelow.eq_of_length rfl
  | [directory, file], [outer, inner, file'], h, hother =>
    obtain rfl : directory = outer := (List.cons_prefix_cons.mp hbelow).1
    obtain rfl := hother.1
    exact absurd h.1 (by decide)
  | [outer, inner, file], [outer', inner', file'], h, hother => exact hbelow.eq_of_length rfl
  | [_, _], [_], _, _ => exact absurd hbelow.length_le (by simp)
  | [_, _, _], [_], _, _ => exact absurd hbelow.length_le (by simp)
  | [_, _, _], [_, _], _, _ => exact absurd hbelow.length_le (by simp)

lemma GeneratedPath.safe {path : List String} (h : GeneratedPath path) :
    ".." ∉ path ∧ path ≠ [] := by
  match path, h with
  | [file], h =>
    obtain rfl := h
    exact ⟨by decide, by simp⟩
  | [directory, file], h =>
    refine ⟨fun hmem => ?_, by simp⟩
    rcases List.mem_pair.mp hmem with rfl | rfl
    · exact absurd h.1 (by decide)
    · exact h.2 rfl
  | [outer, inner, file], ⟨hout, hin, hfile⟩ =>
    subst hout hin
    refine ⟨fun hmem => ?_, by simp⟩
    simp only [List.mem_cons, List.not_mem_nil, or_false] at hmem
    rcases hmem with hmem | hmem | hmem
    · exact absurd hmem (by decide)
    · exact absurd hmem (by decide)
    · exact hfile hmem.symm

lemma GeneratedName.safeRelative {name : String} (h : GeneratedName name) :
    safeRelative name = .ok (pathParts name) := by
  refine safeRelative_eq_ok.mpr ⟨?_, rfl⟩
  rintro (habsolute | hparent | hnil)
  · exact h.1 habsolute
  · exact h.2.safe.1 hparent
  · exact h.2.safe.2 hnil

/-! ## Names -/

/-- A file of a directory: its name is more than dots and has no slash. -/
lemma generatedName_append {directory file : String} (hdirectory : directory ∈ fileDirectories)
    (hslash : '/' ∉ file.toList) (hdot : ∃ c ∈ file.toList, c ≠ '.') :
    GeneratedName (directory ++ "/" ++ file) := by
  have hall : ∀ d ∈ fileDirectories, '/' ∉ d.toList ∧ d ≠ "" ∧ d ≠ "." ∧ d.toList.head? ≠ none ∧
      d.toList.head? ≠ some '/' := by
    decide
  obtain ⟨hclean, hne, hnotDot, hsome, hhead⟩ := hall directory hdirectory
  have hfile : file ≠ "" ∧ file ≠ "." ∧ file ≠ ".." := by
    obtain ⟨c, hc, hcdot⟩ := hdot
    refine ⟨?_, ?_, ?_⟩
    · rintro rfl
      exact absurd hc (by simp)
    · rintro rfl
      exact hcdot (by simpa using hc)
    · rintro rfl
      exact hcdot (by simpa using hc)
  have hlist : (directory ++ "/" ++ file).toList = directory.toList ++ '/' :: file.toList := by
    simp
  have hsplit : (directory ++ "/" ++ file).toList.splitOn '/' =
      [directory.toList, file.toList] := by
    rw [hlist]
    have hparts : ∀ l ∈ [directory.toList, file.toList], '/' ∉ l := by
      intro l hl
      rcases List.mem_pair.mp hl with rfl | rfl
      · exact hclean
      · exact hslash
    have hjoined := List.splitOn_intercalate '/' hparts (by simp)
    simpa [List.intercalate] using hjoined
  have hparts : pathParts (directory ++ "/" ++ file) = [directory, file] := by
    rw [pathParts, hsplit, List.map_cons, List.map_cons, List.map_nil, String.ofList_toList,
      String.ofList_toList]
    refine List.filter_eq_self.mpr fun part hpart => ?_
    rcases List.mem_pair.mp hpart with rfl | rfl
    · simp [hne, hnotDot]
    · simp [hfile.1, hfile.2.1]
  refine ⟨fun habsolute => ?_, ?_⟩
  · rw [isAbsolute, hlist, List.head?_append_of_ne_nil _ (by simpa using hsome)] at habsolute
    exact hhead habsolute
  · rw [hparts]
    exact ⟨hdirectory, hfile.2.2⟩

/-- The characters of a number are digits. -/
lemma not_mem_toString {c : Char} (h : Numeral.digitValue c = none) (n : ℕ) :
    c ∉ (toString n).toList := by
  intro hc
  have hdigit : c ∈ Nat.toDigits 10 n := by
    rw [← Nat.toList_repr]
    exact hc
  have := Numeral.digitValue_isSome_of_mem_toDigits (by decide) (by decide) hdigit
  rw [h] at this
  exact Bool.false_ne_true this

/-- The name of a file that is numbered. -/
lemma generatedName_numbered (directory leaf : String) {start : String}
    (hdirectory : directory ∈ fileDirectories) (hleaf : '/' ∉ leaf.toList)
    (hstart : start = directory ++ "/" ++ leaf) {stop : String} (hstop : '/' ∉ stop.toList) (n : ℕ) :
    GeneratedName (start ++ toString n ++ stop) := by
  have hname : start ++ toString n ++ stop = directory ++ "/" ++ (leaf ++ toString n ++ stop) := by
    simp only [hstart, String.append_assoc]
  have hlist : (leaf ++ toString n ++ stop).toList =
      leaf.toList ++ (toString n).toList ++ stop.toList := by
    rw [String.toList_append, String.toList_append]
  rw [hname]
  refine generatedName_append hdirectory ?_ ?_
  · rw [hlist, List.mem_append, List.mem_append, not_or, not_or]
    exact ⟨⟨hleaf, not_mem_toString (by decide) n⟩, hstop⟩
  · -- a number has a first digit
    have hne : (toString n).toList ≠ [] := by
      show (Nat.repr n).toList ≠ []
      rw [Nat.toList_repr]
      exact Nat.toDigits_ne_nil
    obtain ⟨c, rest, hc⟩ := List.exists_cons_of_ne_nil hne
    have hmem : c ∈ (toString n).toList := hc ▸ List.mem_cons_self
    refine ⟨c, ?_, ?_⟩
    · rw [hlist]
      exact List.mem_append_left _ (List.mem_append_right _ hmem)
    · rintro rfl
      exact not_mem_toString (by decide) n hmem

lemma generatedName_numbered_bare (directory leaf : String) {start : String}
    (hdirectory : directory ∈ fileDirectories) (hleaf : '/' ∉ leaf.toList)
    (hstart : start = directory ++ "/" ++ leaf) (n : ℕ) : GeneratedName (start ++ toString n) := by
  have hempty : '/' ∉ "".toList := by decide
  have h := generatedName_numbered directory leaf hdirectory hleaf hstart hempty n
  rwa [String.append_empty] at h

/-! ## The files of a render -/

lemma mem_addFiles {files : Files} {added : List (String × String)} {name : String} :
    name ∈ addFiles files added ↔ name ∈ files ∨ ∃ e ∈ added, e.1 = name := by
  induction added generalizing files with
  | nil => simp [addFiles]
  | cons e added ih =>
    rw [addFiles, List.foldl_cons, ← addFiles, ih, Dict.mem_set, List.exists_mem_cons_iff]
    constructor
    · rintro ((rfl | h) | h)
      · exact .inr (.inl rfl)
      · exact .inl h
      · exact .inr (.inr h)
    · rintro (h | rfl | h)
      · exact .inl (.inr h)
      · exact .inl (.inl rfl)
      · exact .inr h

/-- The names of the files that no resource asks for. -/
def platformNames : List String :=
  [ "nginx.conf", "http/default.conf", "http/status.conf", "include/trusted-proxies.conf",
    "conf.d/include/proxy.conf", "conf.d/include/block-exploits.conf", "quic/routes.json" ] ++
  customIncludeNames.map fun name => s!"custom/{name}.conf"

lemma generatedName_of_platform : ∀ name ∈ platformNames, GeneratedName name := by
  decide

lemma map_fst_platformFiles (routes : List QuicRoute) :
    (platformFiles {} routes).map Prod.fst = platformNames := rfl

lemma generatedName_accessFile (l : AccessList) : GeneratedName (accessFile l).1 := by
  show GeneratedName ("access/" ++ toString l.id)
  exact generatedName_numbered_bare "access" "" (by decide) (by decide) (by decide) l.id

lemma generatedName_mergedFiles {host : RuntimeHost} {selected : List AccessList}
    {effective : Option AccessList} {e : String × String}
    (he : e ∈ mergedFiles (passwordFile host selected) effective) : GeneratedName e.1 := by
  unfold passwordFile at he
  split at he
  · cases effective with
    | none => exact absurd he (by simp [mergedFiles])
    | some effective =>
      obtain rfl := List.mem_singleton.mp he
      show GeneratedName ("access/" ++ ("proxy-host-" ++ toString host.id))
      rw [← String.append_assoc]
      exact generatedName_numbered_bare "access" "proxy-host-" (by decide) (by decide) rfl host.id
  · exact absurd he (by simp [mergedFiles])

lemma generatedName_proxyFiles {byId : Dict ℕ AccessList} {host : RuntimeHost}
    {l : List (String × String)} (h : proxyFiles {} byId host = .ok l) {e : String × String}
    (he : e ∈ l) : GeneratedName e.1 := by
  obtain ⟨effective, -, rfl⟩ := proxyFiles_eq_ok.mp h
  rcases List.mem_append.mp he with he | he
  · exact generatedName_mergedFiles he
  · obtain rfl := List.mem_singleton.mp he
    show GeneratedName ("http/proxy-" ++ toString host.id ++ ".conf")
    exact generatedName_numbered "http" "proxy-" (by decide) (by decide) (by decide) (by decide)
      host.id

/-- Every file of a render has a name of its own. -/
theorem generatedName_of_render {input : RenderInput} {files : Files}
    (h : render {} input = .ok files) {name : String} (hname : name ∈ files) :
    GeneratedName name := by
  obtain ⟨proxies, custom, hcustom, hproxies, rfl⟩ := render_eq_ok h
  obtain rfl : [] = custom := Except.ok.inj hcustom
  simp only [laterFiles, earlierFiles, mem_addFiles, Dict.not_mem_empty, false_or, List.append_nil]
    at hname
  rcases hname with ((⟨e, he, rfl⟩ | ⟨e, he, rfl⟩) | ⟨e, he, rfl⟩) | ⟨e, he, rfl⟩
  · refine generatedName_of_platform e.1 ?_
    rw [← map_fst_platformFiles input.quicPassthroughHosts]
    exact List.mem_map_of_mem he
  · obtain ⟨l, -, rfl⟩ := List.mem_map.mp he
    exact generatedName_accessFile l
  · obtain ⟨l, hl, he⟩ := List.mem_flatten.mp he
    obtain ⟨host, -, hl⟩ := Numeral.exists_of_mem_right (mapM_eq_ok_iff.mp hproxies) hl
    exact generatedName_proxyFiles hl he
  · simp only [List.mem_append, List.mem_map] at he
    rcases he with (⟨host, -, rfl⟩ | ⟨host, -, rfl⟩) | ⟨stream, -, rfl⟩
    · show GeneratedName ("http/redirection-" ++ toString host.id ++ ".conf")
      exact generatedName_numbered "http" "redirection-" (by decide) (by decide) (by decide)
        (by decide) host.id
    · show GeneratedName ("http/dead-" ++ toString host.id ++ ".conf")
      exact generatedName_numbered "http" "dead-" (by decide) (by decide) (by decide) (by decide)
        host.id
    · show GeneratedName ("stream/stream-" ++ toString stream.id ++ ".conf")
      exact generatedName_numbered "stream" "stream-" (by decide) (by decide) (by decide) (by decide)
        stream.id

/-! ## Applying a render -/

section Apply

variable {files : Files}

/-- Files with generated names can be written one after the other. -/
lemma foldlM_writeFile_ok {items : List (String × String)} {tree : Tree}
    (htree : ∀ path ∈ tree.keys, GeneratedPath path) (hitems : ∀ e ∈ items, GeneratedName e.1) :
    ∃ tree', items.foldlM writeFile tree = .ok tree' := by
  induction items generalizing tree with
  | nil => exact ⟨tree, rfl⟩
  | cons e items ih =>
    have he := hitems e List.mem_cons_self
    have hfree : ¬ Blocked tree (pathParts e.1) := by
      rintro ⟨other, hother, hne, hbelow | hbelow⟩
      · exact hne ((htree other hother).eq_of_start he.2 hbelow)
      · exact hne (he.2.eq_of_start (htree other hother) hbelow).symm
    have hwrite := writeFile_eq_ok.mpr ⟨he.safeRelative, hfree, rfl⟩
    rw [List.foldlM_cons, hwrite, ok_bind]
    refine ih (fun path hpath => ?_) fun e' he' => hitems e' (List.mem_cons_of_mem _ he')
    rcases Dict.mem_set.mp hpath with rfl | hpath
    · exact he.2
    · exact htree path hpath

/-- Files with generated names can be staged. -/
lemma stagedTree_ok (h : ∀ name ∈ files, GeneratedName name) :
    ∃ tree, stagedTree files = .ok tree := by
  refine foldlM_writeFile_ok (fun path hpath => absurd hpath (Dict.not_mem_empty path)) ?_
  intro e he
  exact h e.1 (Dict.mem_iff.mpr ⟨e.2, mem_sortedItems.mp he⟩)

/-- Files with generated names have a generation id. -/
lemma generationId_ok (sha256 : List UInt8 → HexDigest) (h : ∀ name ∈ files, GeneratedName name) :
    generationId sha256 files = .ok (sha256 (encode files)).short := by
  refine generationId_eq_ok.mpr ⟨mapM_ok_iff.mpr fun e he => ?_, rfl⟩
  exact ⟨_, (h e.1 (Dict.mem_iff.mpr ⟨e.2, mem_sortedItems.mp he⟩)).safeRelative⟩

/-- Files with generated names can be staged in any store. -/
lemma stage_generated (h : ∀ name ∈ files, GeneratedName name) (store : GenerationStore)
    (id : String) : ∃ created store', store.stage id files = .ok (created, store') := by
  obtain ⟨tree, htree⟩ := stagedTree_ok h
  by_cases hmem : id ∈ store.generations
  · exact ⟨_, _, stage_eq_ok.mpr (.inl ⟨hmem, rfl, rfl⟩)⟩
  · exact ⟨_, _, stage_eq_ok.mpr (.inr ⟨hmem, rfl, tree, htree, rfl⟩)⟩

/-- When the validator and the reloader succeed, files with generated names are applied. -/
theorem reconcile_generated (sha256 : List UInt8 → HexDigest)
    (h : ∀ name ∈ files, GeneratedName name) (s : ReconcilerState) :
    ∃ result, (reconcile sha256 {} files s).1 = .ok result := by
  rw [reconcile, generationId_ok sha256 h]
  dsimp only
  split
  · exact ⟨_, rfl⟩
  · obtain ⟨created, store, hstage⟩ := stage_generated h s.store (sha256 (encode files)).short
    rw [hstage]
    dsimp only [applyCandidate, ReconcilerState.store_happen]
    rw [activate_of_mem (stage_spec hstage).1]
    exact ⟨_, rfl⟩

end Apply

end Portwyrm.Runtime

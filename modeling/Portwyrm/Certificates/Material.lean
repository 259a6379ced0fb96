import Portwyrm.Base.Dict
import Portwyrm.Base.Numeral
import Portwyrm.Base.Text
import Portwyrm.Exits

/-!
# Certificate material

`CertificateMaterialStore` of `portwyrm.certificates.manager`: the directories below the material
root, and the steps of the file system with which they are published, removed and set aside.

Every step of the file system may fail.  A failing removal leaves some of the files behind, a
failing write a part of its text; a failing renaming leaves both names as they are.  The states of
the root that a computation passes through are recorded.  Permissions and links are left out.
-/

namespace Portwyrm.Certificates

open Base

/-! ## The material root -/

/-- A directory: the texts of its files, by name. -/
abbrev Directory := Dict String String

/-- The files of a directory whose names meet a test. -/
def restrict (left : String → Bool) (directory : Directory) : Directory where
  entries := directory.entries.filter fun e => left e.1
  nodup := directory.nodup.sublist (List.Sublist.map _ List.filter_sublist)

/-- The directories of the material root, by name. -/
abbrev MaterialRoot := Dict String Directory

/-- What a step leaves when it fails: of the file that it writes, and of the files that it
removes. -/
structure Fault where
  written : Option String
  left : String → Bool

/-- The material root, and what it was before each of the steps so far. -/
structure Disk where
  root : MaterialRoot
  former : List MaterialRoot

/-- A step changes the root. -/
def Disk.become (d : Disk) (root : MaterialRoot) : Disk := ⟨root, d.former ++ [d.root]⟩

@[simp] lemma root_become (d : Disk) (root : MaterialRoot) : (d.become root).root = root := rfl

/-- The states of the root at every point of a run. -/
def Disk.points (d : Disk) : List MaterialRoot := d.former ++ [d.root]

@[simp] lemma points_become (d : Disk) (root : MaterialRoot) :
    (d.become root).points = d.points ++ [root] := rfl

/-! ## Steps of the file system -/

section Steps

variable (fault : Option Fault)

/-- `path.exists()`. -/
def pathExists (name : String) : Action Disk Bool := fun d =>
  if fault.isSome then (.error .osError, d) else (.ok (name ∈ d.root), d)

/-- `path.mkdir()`. -/
def mkdir (name : String) : Action Disk Unit := fun d =>
  if fault.isSome ∨ name ∈ d.root then (.error .osError, d)
  else (.ok (), d.become (d.root.set name Dict.empty))

/-- `os.replace(source, target)`, for a directory; a directory with files is not replaced. -/
def osReplace (source target : String) : Action Disk Unit := fun d =>
  match d.root.get? source with
  | none => (.error .osError, d)
  | some directory =>
    if fault.isSome ∨ (d.root.get? target).any (fun t => t.entries ≠ []) then (.error .osError, d)
    else (.ok (), d.become ((d.root.pop source).set target directory))

/-- `shutil.rmtree(name)`. -/
def rmtree (name : String) : Action Disk Unit := fun d =>
  match d.root.get? name, fault with
  | none, _ => (.error .osError, d)
  | some _, none => (.ok (), d.become (d.root.pop name))
  | some directory, some f =>
    (.error .osError, d.become (d.root.set name (restrict f.left directory)))

/-- What `_write` makes of a value. -/
def fileText (value : String) : String :=
  if Text.strip value = "" then "" else Text.strip value ++ "\n"

/-- `_write`: the file is opened, written, flushed and made private. -/
def write (name file value : String) : Action Disk Unit := fun d =>
  match d.root.get? name, fault with
  | none, _ => (.error .osError, d)
  | some directory, none =>
    (.ok (), d.become (d.root.set name (directory.set file (fileText value))))
  | some directory, some f =>
    (.error .osError,
      d.become (d.root.set name (f.written.elim directory fun s => directory.set file s)))

/-- `if name.exists(): x`. -/
def whenExists (name : String) (x : Action Disk Unit) : Action Disk Unit := do
  let found ← pathExists fault name
  if found then x else pure ()

end Steps

/-! ### What a step does -/

variable {d : Disk} {name other : String} {directory : Directory}

lemma pathExists_of_none : pathExists none name d = (.ok (name ∈ d.root), d) := rfl

lemma pathExists_of_some (f : Fault) : pathExists (some f) name d = (.error .osError, d) := rfl

lemma mkdir_of_none (h : name ∉ d.root) :
    mkdir none name d = (.ok (), d.become (d.root.set name Dict.empty)) := by
  simp [mkdir, h]

lemma mkdir_of_error {fault : Option Fault} (h : fault.isSome ∨ name ∈ d.root) :
    mkdir fault name d = (.error .osError, d) := by
  rw [mkdir, if_pos h]

lemma osReplace_of_none (h : d.root.get? name = some directory) (hother : other ∉ d.root) :
    osReplace none name other d = (.ok (), d.become ((d.root.pop name).set other directory)) := by
  simp [osReplace, h, Dict.get?_eq_none_iff.mpr hother]

lemma osReplace_of_some (f : Fault) : osReplace (some f) name other d = (.error .osError, d) := by
  unfold osReplace
  rcases d.root.get? name with _ | directory <;> simp

lemma rmtree_of_none (h : d.root.get? name = some directory) :
    rmtree none name d = (.ok (), d.become (d.root.pop name)) := by
  simp [rmtree, h]

lemma rmtree_of_some (f : Fault) (h : d.root.get? name = some directory) :
    rmtree (some f) name d
      = (.error .osError, d.become (d.root.set name (restrict f.left directory))) := by
  simp [rmtree, h]

lemma write_of_none {file value : String} (h : d.root.get? name = some directory) :
    write none name file value d
      = (.ok (), d.become (d.root.set name (directory.set file (fileText value)))) := by
  simp [write, h]

/-- A write that fails raises. -/
lemma write_of_some {file value : String} (f : Fault) :
    (write (some f) name file value d).1 = .error .osError := by
  unfold write
  rcases d.root.get? name with _ | directory <;> rfl

lemma whenExists_of_mem {x : Action Disk Unit} (h : name ∈ d.root) :
    whenExists none name x d = x d := by
  have hfound : pathExists none name d = (.ok true, d) := by simp [pathExists, h]
  exact Action.bind_of_ok hfound

lemma whenExists_of_not_mem {x : Action Disk Unit} (h : name ∉ d.root) :
    whenExists none name x d = (.ok (), d) := by
  have hfound : pathExists none name d = (.ok false, d) := by simp [pathExists, h]
  exact Action.bind_of_ok hfound

lemma whenExists_of_some {x : Action Disk Unit} (f : Fault) :
    whenExists (some f) name x d = (.error .osError, d) :=
  Action.bind_of_error (pathExists_of_some f)

/-! ### What a step leaves alone -/

/-- The directories whose names are not in the list are the same. -/
def SameOutside (names : List String) (d d' : Disk) : Prop :=
  ∀ name ∉ names, d'.root.get? name = d.root.get? name

variable {names : List String}

instance : Std.Refl (SameOutside names) := ⟨fun _ _ _ => rfl⟩

instance : IsTrans Disk (SameOutside names) :=
  ⟨fun _ _ _ h h' name hname => (h' name hname).trans (h name hname)⟩

/-- A change of the directories of the given names is one that the relation knows. -/
class Covers (R : Disk → Disk → Prop) (names : List String) : Prop where
  become {d : Disk} {root : MaterialRoot} (h : ∀ name ∉ names, root.get? name = d.root.get? name) :
    R d (d.become root)

instance : Covers (SameOutside names) names := ⟨fun h => h⟩

section Preserved

variable {R : Disk → Disk → Prop} [Covers R names] {fault : Option Fault}

variable (R names) in
lemma related_become {root : MaterialRoot}
    (h : ∀ name ∉ names, root.get? name = d.root.get? name) : R d (d.become root) :=
  Covers.become h

variable (R) in
lemma related_set (value : Directory) (h : name ∈ names) :
    R d (d.become (d.root.set name value)) :=
  related_become names R fun _ hother =>
    Dict.get?_set_of_ne _ _ (ne_of_mem_of_not_mem h hother).symm

variable (R) in
lemma related_pop (h : name ∈ names) : R d (d.become (d.root.pop name)) := by
  refine related_become names R fun other hother => ?_
  rw [Dict.get?_pop, if_neg (ne_of_mem_of_not_mem h hother).symm]

variable [Std.Refl R]

omit [Covers R names] in
lemma preserves_pathExists : Action.Preserves R (pathExists fault name) := by
  intro d
  unfold pathExists
  split <;> exact refl_of _ d

lemma preserves_mkdir (h : name ∈ names) : Action.Preserves R (mkdir fault name) := by
  intro d
  unfold mkdir
  split
  · exact refl_of _ d
  · exact related_set R _ h

lemma preserves_osReplace (h : name ∈ names) (hother : other ∈ names) :
    Action.Preserves R (osReplace fault name other) := by
  intro d
  unfold osReplace
  split
  · exact refl_of _ d
  · split
    · exact refl_of _ d
    · refine related_become names R fun k hk => ?_
      rw [Dict.get?_set_of_ne _ _ (ne_of_mem_of_not_mem hother hk).symm, Dict.get?_pop,
        if_neg (ne_of_mem_of_not_mem h hk).symm]

lemma preserves_rmtree (h : name ∈ names) : Action.Preserves R (rmtree fault name) := by
  intro d
  unfold rmtree
  split
  · exact refl_of _ d
  · exact related_pop R h
  · exact related_set R _ h

lemma preserves_write {file value : String} (h : name ∈ names) :
    Action.Preserves R (write fault name file value) := by
  intro d
  unfold write
  split
  · exact refl_of _ d
  · exact related_set R _ h
  · exact related_set R _ h

omit [Covers R names] in
lemma preserves_whenExists [IsTrans Disk R] {x : Action Disk Unit} (hx : Action.Preserves R x) :
    Action.Preserves R (whenExists fault name x) := by
  refine Action.Preserves.bind preserves_pathExists fun found => ?_
  split
  · exact hx
  · exact Action.Preserves.pure _

end Preserved

/-! ## The store -/

/-- `CustomCertificateBundle`. -/
structure CustomCertificateBundle where
  certificate : String
  privateKey : String
  intermediateCertificate : String := ""

/-- `CustomCertificateBundle.fullchain`. -/
def CustomCertificateBundle.fullchain (bundle : CustomCertificateBundle) : String :=
  if Text.strip bundle.intermediateCertificate = "" then Text.strip bundle.certificate ++ "\n"
  else Text.strip bundle.certificate ++ "\n" ++ Text.strip bundle.intermediateCertificate ++ "\n"

/-- The value of `uuid.uuid4().hex`. -/
structure Uuid where
  text : String
  hex : ∀ c ∈ text.toList, (Numeral.digitValue c).isSome

/-- `_directory`: the name below the material root. -/
def directoryName (lead suffix : String) (id : ℕ) : Result String := do
  raiseIf (id < 1) (.valueError "certificate ID must be a positive integer")
  pure (lead ++ toString id ++ suffix)

/-- The name of the directory that Nginx loads a certificate from. -/
def liveName (id : ℕ) : String := "npm-" ++ toString id ++ ""

/-- The name of the directory that new material is written to. -/
def stageName (id : ℕ) (uuid : Uuid) : String := ".npm-" ++ toString id ++ ("-" ++ uuid.text)

/-- The name of the directory that `put` moves former material to. -/
def backupName (id : ℕ) : String := ".npm-" ++ toString id ++ "-backup"

/-- The name of the directory that `detach` moves material to. -/
def quarantineName (id : ℕ) (uuid : Uuid) : String :=
  ".npm-" ++ toString id ++ ("-delete-" ++ uuid.text)

/-- The steps of `put` that may fail. -/
inductive PutStep
  | mkdirStage | writeCertificate | writeChain | writeFullchain | writePrivateKey
  | findStale | removeStale | findTarget | setAside | swap | findBackup | restore
  | findSetAside | removeSetAside | findStage | removeStage
deriving DecidableEq

section Put

variable (faults : PutStep → Option Fault) (bundle : CustomCertificateBundle)

/-- The files of new material are written. -/
def writeMaterial (stage : String) : Action Disk Unit := do
  write (faults .writeCertificate) stage "cert.pem" bundle.certificate
  write (faults .writeChain) stage "chain.pem" bundle.intermediateCertificate
  write (faults .writeFullchain) stage "fullchain.pem" bundle.fullchain
  write (faults .writePrivateKey) stage "privkey.pem" bundle.privateKey

/-- Former material is set aside. -/
def setAside (target backup : String) : Action Disk Unit := do
  whenExists (faults .findStale) backup (rmtree (faults .removeStale) backup)
  whenExists (faults .findTarget) target (osReplace (faults .setAside) target backup)

/-- New material is put in place; when that fails, the former material is put back. -/
def swapIn (stage target backup : String) : Action Disk Unit :=
  Action.undoing (osReplace (faults .swap) stage target)
    (whenExists (faults .findBackup) backup (osReplace (faults .restore) backup target))

/-- `put`, once the stage is there. -/
def publish (stage target : String) (id : ℕ) : Action Disk Unit := do
  writeMaterial faults bundle stage
  let backup ← Action.lift (directoryName ".npm-" "-backup" id)
  setAside faults target backup
  swapIn faults stage target backup
  whenExists (faults .findSetAside) backup (rmtree (faults .removeSetAside) backup)

/-- `put`. -/
def put (uuid : Uuid) (id : ℕ) : Action Disk Unit := do
  let target ← Action.lift (directoryName "npm-" "" id)
  let stage ← Action.lift (directoryName ".npm-" ("-" ++ uuid.text) id)
  mkdir (faults .mkdirStage) stage
  Action.ensuring (publish faults bundle stage target id)
    (whenExists (faults .findStage) stage (rmtree (faults .removeStage) stage))

/-- The contents of a directory that holds new material. -/
def material : Directory :=
  Dict.ofList
    [ ("cert.pem", fileText bundle.certificate),
      ("chain.pem", fileText bundle.intermediateCertificate),
      ("fullchain.pem", fileText bundle.fullchain),
      ("privkey.pem", fileText bundle.privateKey) ]

end Put

/-- The steps of the other operations that may fail. -/
inductive StoreStep
  | find | rename | remove
deriving DecidableEq

section Store

variable (faults : StoreStep → Option Fault) (id : ℕ)

/-- `delete`. -/
def delete : Action Disk Bool := do
  let target ← Action.lift (directoryName "npm-" "" id)
  if ← pathExists (faults .find) target then
    rmtree (faults .remove) target
    pure true
  else pure false

/-- `detach`: the name of the quarantine, when there is material. -/
def detach (uuid : Uuid) : Action Disk (Option String) := do
  let target ← Action.lift (directoryName "npm-" "" id)
  if ← pathExists (faults .find) target then
    let quarantine ← Action.lift (directoryName ".npm-" ("-delete-" ++ uuid.text) id)
    osReplace (faults .rename) target quarantine
    pure (some quarantine)
  else pure none

/-- `rollback_detach`. -/
def rollbackDetach (quarantine : Option String) : Action Disk Unit :=
  match quarantine with
  | none => pure ()
  | some quarantine => do
    if ← pathExists (faults .find) quarantine then
      let target ← Action.lift (directoryName "npm-" "" id)
      osReplace (faults .rename) quarantine target
    else pure ()

/-- `commit_detach`. -/
def commitDetach (quarantine : Option String) : Action Disk Unit :=
  match quarantine with
  | none => pure ()
  | some quarantine => whenExists (faults .find) quarantine (rmtree (faults .remove) quarantine)

end Store

end Portwyrm.Certificates

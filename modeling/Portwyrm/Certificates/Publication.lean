import Portwyrm.Certificates.Material

/-!
# Publishing certificate material

When `CertificateMaterialStore.put` raises, the former material is there, and when it returns, the
new material is: this holds in the runs in which nothing fails behind the renaming that puts the
new material in place, and in which the former material can be put back when that renaming fails.
-/

namespace Portwyrm.Certificates

open Base

/-! ## Names -/

lemma liveName_injective : Function.Injective liveName := by
  intro id id' h
  rw [liveName, liveName, String.append_empty, String.append_empty] at h
  exact Numeral.toString_injective ((String.append_right_inj _).mp h)

/-- The names of hidden directories begin with a dot. -/
lemma liveName_ne_hidden (id id' : ℕ) (s : String) :
    liveName id ≠ ".npm-" ++ toString id' ++ s := by
  intro h
  have hhead := congrArg (fun t => t.toList.head?) h
  simp [liveName, String.toList_append] at hhead

/-- The hexadecimal digits of a stage are no word. -/
lemma stageName_ne_backupName (id : ℕ) (uuid : Uuid) : stageName id uuid ≠ backupName id := by
  intro h
  have htext : "-" ++ uuid.text = "-backup" := (String.append_right_inj _).mp h
  have hmem : 'k' ∈ uuid.text.toList := by
    have hlist : "-".toList ++ uuid.text.toList = "-".toList ++ "backup".toList := by
      rw [← String.toList_append, htext]
      rfl
    have htail : uuid.text.toList = "backup".toList := List.append_cancel_left hlist
    rw [htail]
    decide
  exact absurd (uuid.hex _ hmem) (by decide)

/-! ## The phases of `put` -/

lemma directoryName_of_pos {id : ℕ} (lead suffix : String) (hid : 1 ≤ id) :
    directoryName lead suffix id = .ok (lead ++ toString id ++ suffix) := by
  rw [directoryName, raiseIf, if_neg (by omega)]
  rfl

lemma directoryName_zero (lead suffix : String) :
    directoryName lead suffix 0
      = .error (.valueError "certificate ID must be a positive integer") := rfl

section Phases

variable {faults : PutStep → Option Fault} {bundle : CustomCertificateBundle} {d d' : Disk}
variable {stage target backup : String}

/-- The steps that write the files of new material. -/
def writeSteps : List PutStep :=
  [.writeCertificate, .writeChain, .writeFullchain, .writePrivateKey]

lemma writeMaterial_of_none (bundle : CustomCertificateBundle)
    (hfaults : ∀ s ∈ writeSteps, faults s = none)
    (hstage : d.root.get? stage = some Dict.empty) :
    ∃ d', writeMaterial faults bundle stage d = (.ok (), d') ∧
      d'.root = d.root.set stage (material bundle) := by
  have hwrites := hfaults
  simp only [writeSteps, List.forall_mem_cons, List.not_mem_nil, false_imp_iff, implies_true,
    and_true] at hwrites
  obtain ⟨h1, h2, h3, h4⟩ := hwrites
  rw [writeMaterial, h1, h2, h3, h4]
  refine ⟨_, (Action.bind_of_ok (write_of_none hstage)).trans
    ((Action.bind_of_ok (write_of_none (Dict.get?_set_self _ _ _))).trans
      ((Action.bind_of_ok (write_of_none (Dict.get?_set_self _ _ _))).trans
        (write_of_none (Dict.get?_set_self _ _ _)))), ?_⟩
  simp only [root_become, Dict.set_set, material, Dict.ofList, List.foldl_cons, List.foldl_nil]

lemma eq_none_of_write {fault : Option Fault} {name file value : String} {u : Unit}
    (h : write fault name file value d = (.ok u, d')) : fault = none := by
  rcases fault with _ | f
  · rfl
  · have hraises : (write (some f) name file value d).1 = .error .osError := write_of_some f
    rw [h] at hraises
    exact absurd hraises (by simp)

lemma eq_none_of_writeMaterial {u : Unit}
    (h : writeMaterial faults bundle stage d = (.ok u, d')) :
    ∀ s ∈ writeSteps, faults s = none := by
  simp only [writeMaterial, Action.bind_eq_ok_iff] at h
  obtain ⟨_, _, h1, _, _, h2, _, _, h3, h4⟩ := h
  simp only [writeSteps, List.forall_mem_cons, List.not_mem_nil, false_imp_iff, implies_true,
    and_true]
  exact ⟨eq_none_of_write h1, eq_none_of_write h2, eq_none_of_write h3, eq_none_of_write h4⟩

variable {R : Disk → Disk → Prop} [Std.Refl R] [IsTrans Disk R] {names : List String}
  [Covers R names]

lemma preserves_writeMaterial (hstage : stage ∈ names) :
    Action.Preserves R (writeMaterial faults bundle stage) := by
  refine (preserves_write hstage).bind fun _ => ?_
  refine (preserves_write hstage).bind fun _ => ?_
  exact (preserves_write hstage).bind fun _ => preserves_write hstage

/-- Nothing fails when former material is set aside. -/
def Clears (faults : PutStep → Option Fault) (target backup : String) (root : MaterialRoot) :
    Prop :=
  faults .findStale = none ∧ (backup ∈ root → faults .removeStale = none) ∧
    faults .findTarget = none ∧ (target ∈ root → faults .setAside = none)

/-- A backup that is left from an earlier call is removed. -/
lemma whenExists_rmtree (fault fault' : Option Fault) (name : String) (d : Disk) :
    (fault = none ∧ (name ∈ d.root → fault' = none) ∧
      ∃ d', whenExists fault name (rmtree fault' name) d = (.ok (), d') ∧ name ∉ d'.root) ∨
    (¬ (fault = none ∧ (name ∈ d.root → fault' = none)) ∧
      ∃ e d', whenExists fault name (rmtree fault' name) d = (.error e, d')) := by
  rcases fault with _ | f
  · by_cases hname : name ∈ d.root
    · obtain ⟨directory, hdirectory⟩ := Dict.mem_iff.mp hname
      rw [whenExists_of_mem hname]
      rcases fault' with _ | f
      · refine .inl ⟨rfl, fun _ => rfl, _, rmtree_of_none hdirectory, ?_⟩
        exact fun h => (Dict.mem_pop.mp h).1 rfl
      · exact .inr ⟨fun h => (nomatch h.2 hname), _, _, rmtree_of_some f hdirectory⟩
    · exact .inl ⟨rfl, fun h => absurd h hname, _, whenExists_of_not_mem hname, hname⟩
  · exact .inr ⟨fun h => (nomatch h.1), _, _, whenExists_of_some f⟩

/-- Former material is set aside, or stays where it is. -/
lemma setAside_cases (faults : PutStep → Option Fault) (d : Disk) (hne : target ≠ backup) :
    (Clears faults target backup d.root ∧
      ∃ d', setAside faults target backup d = (.ok (), d') ∧ target ∉ d'.root ∧
        d'.root.get? backup = d.root.get? target) ∨
    (¬ Clears faults target backup d.root ∧
      ∃ e d', setAside faults target backup d = (.error e, d') ∧
        d'.root.get? target = d.root.get? target) := by
  have hkept : ∀ d, (whenExists (faults .findStale) backup
      (rmtree (faults .removeStale) backup) d).2.root.get? target = d.root.get? target := by
    intro d
    have hstep : Action.Preserves (SameOutside [backup])
        (whenExists (faults .findStale) backup (rmtree (faults .removeStale) backup)) :=
      preserves_whenExists (preserves_rmtree (List.mem_singleton_self backup))
    exact hstep d target (by simpa using hne)
  have hkept' := hkept d
  rcases whenExists_rmtree (faults .findStale) (faults .removeStale) backup d with
    ⟨h1, h2, d₁, hd₁, hgone⟩ | ⟨hno, e, d₁, hd₁⟩
  · rw [hd₁] at hkept'
    have hrest : setAside faults target backup d = whenExists (faults .findTarget) target
        (osReplace (faults .setAside) target backup) d₁ := Action.bind_of_ok hd₁
    have hmem : target ∈ d₁.root ↔ target ∈ d.root := by
      rw [Dict.mem_iff, Dict.mem_iff, hkept']
    rcases h3 : faults .findTarget with _ | f
    · by_cases htarget : target ∈ d.root
      · obtain ⟨directory, hdirectory⟩ := Dict.mem_iff.mp htarget
        have hdirectory' : d₁.root.get? target = some directory := hkept'.trans hdirectory
        rw [hrest, h3, whenExists_of_mem (hmem.mpr htarget)]
        rcases h4 : faults .setAside with _ | f
        · refine .inl ⟨⟨h1, h2, h3, fun _ => h4⟩, _, osReplace_of_none hdirectory' hgone, ?_, ?_⟩
          · rw [root_become, Dict.mem_set, Dict.mem_pop]
            exact fun h => h.elim hne fun h => h.1 rfl
          · rw [root_become, Dict.get?_set_self, hdirectory]
        · refine .inr ⟨fun h => ?_, _, _, osReplace_of_some f, hkept'⟩
          exact nomatch h4.symm.trans (h.2.2.2 htarget)
      · have htarget' : target ∉ d₁.root := fun h => htarget (hmem.mp h)
        rw [hrest, h3, whenExists_of_not_mem htarget']
        refine .inl ⟨⟨h1, h2, h3, fun h => absurd h htarget⟩, _, rfl, htarget', ?_⟩
        rw [Dict.get?_eq_none_iff.mpr hgone, Dict.get?_eq_none_iff.mpr htarget]
    · refine .inr ⟨fun h => ?_, .osError, d₁, ?_, hkept'⟩
      · exact nomatch h3.symm.trans h.2.2.1
      · rw [hrest, h3, whenExists_of_some f]
  · rw [hd₁] at hkept'
    exact .inr ⟨fun h => hno ⟨h.1, h.2.1⟩, e, d₁, Action.bind_of_error hd₁, hkept'⟩

variable (names) in
lemma preserves_setAside (htarget : target ∈ names) (hbackup : backup ∈ names) :
    Action.Preserves R (setAside faults target backup) := by
  refine (preserves_whenExists (preserves_rmtree hbackup)).bind fun _ => ?_
  exact preserves_whenExists (preserves_osReplace htarget hbackup)

/-- The former material cannot be put back. -/
def RestoreFails (faults : PutStep → Option Fault) : Prop :=
  faults .findBackup ≠ none ∨ faults .restore ≠ none

/-- New material is put in place, or the former material put back when that can be done. -/
lemma swapIn_cases (faults : PutStep → Option Fault) {new : Directory}
    (hstage : d.root.get? stage = some new) (htarget : target ∉ d.root) (hst : stage ≠ target)
    (hsb : stage ≠ backup) (hbt : backup ≠ target) :
    (faults .swap = none ∧ ∃ d', swapIn faults stage target backup d = (.ok (), d') ∧
      d'.root.get? target = some new ∧ stage ∉ d'.root ∧
      d'.root.get? backup = d.root.get? backup) ∨
    (faults .swap ≠ none ∧ ∃ e d', swapIn faults stage target backup d = (.error e, d') ∧
      (¬ (backup ∈ d.root ∧ RestoreFails faults) →
        d'.root.get? target = d.root.get? backup) ∧
      (RestoreFails faults → target ∉ d'.root)) := by
  unfold swapIn
  rcases hswap : faults .swap with _ | f
  · refine .inl ⟨rfl, _, Action.undoing_of_ok (osReplace_of_none hstage htarget), ?_, ?_, ?_⟩
    · exact Dict.get?_set_self _ _ _
    · rw [root_become, Dict.mem_set, Dict.mem_pop]
      exact fun h => h.elim hst fun h => h.1 rfl
    · rw [root_become, Dict.get?_set_of_ne _ _ hbt, Dict.get?_pop, if_neg hsb.symm]
  · have hraises : osReplace (some f) stage target d = (.error .osError, d) :=
      osReplace_of_some f
    obtain ⟨e, he⟩ := Action.undoing_of_error (whenExists (faults .findBackup) backup
      (osReplace (faults .restore) backup target)) hraises
    refine .inr ⟨by simp, e, _, he, ?_⟩
    by_cases hbackup : backup ∈ d.root
    · obtain ⟨directory, hdirectory⟩ := Dict.mem_iff.mp hbackup
      rcases h1 : faults .findBackup with _ | f
      · rw [whenExists_of_mem hbackup]
        rcases h2 : faults .restore with _ | f
        · rw [osReplace_of_none hdirectory htarget, hdirectory]
          refine ⟨fun _ => Dict.get?_set_self _ _ _, fun h => ?_⟩
          exact h.elim (fun h => absurd h1 h) fun h => absurd h2 h
        · rw [osReplace_of_some f]
          refine ⟨fun h => absurd ⟨hbackup, .inr ?_⟩ h, fun _ => htarget⟩
          exact fun h => nomatch h2.symm.trans h
      · rw [whenExists_of_some f]
        refine ⟨fun h => absurd ⟨hbackup, .inl ?_⟩ h, fun _ => htarget⟩
        exact fun h => nomatch h1.symm.trans h
    · have hsame : d.root.get? target = d.root.get? backup := by
        rw [Dict.get?_eq_none_iff.mpr hbackup, Dict.get?_eq_none_iff.mpr htarget]
      rcases h1 : faults .findBackup with _ | f
      · rw [whenExists_of_not_mem hbackup]
        exact ⟨fun _ => hsame, fun _ => htarget⟩
      · rw [whenExists_of_some f]
        exact ⟨fun _ => hsame, fun _ => htarget⟩

lemma preserves_swapIn (hstage : stage ∈ names) (htarget : target ∈ names)
    (hbackup : backup ∈ names) : Action.Preserves R (swapIn faults stage target backup) :=
  Action.Preserves.undoing (preserves_osReplace hstage htarget)
    (preserves_whenExists (preserves_osReplace hbackup htarget))

lemma publish_of_pos {id : ℕ} (hid : 1 ≤ id) :
    publish faults bundle stage target id = (do
      writeMaterial faults bundle stage
      setAside faults target (backupName id)
      swapIn faults stage target (backupName id)
      whenExists (faults .findSetAside) (backupName id)
        (rmtree (faults .removeSetAside) (backupName id))) := by
  rw [publish, directoryName_of_pos _ _ hid]
  rfl

/-- What is left behind the renaming fails. -/
def CleanUpFails (faults : PutStep → Option Fault) (target : String) (root : MaterialRoot) : Prop :=
  faults .findSetAside ≠ none ∨ (target ∈ root ∧ faults .removeSetAside ≠ none)

/-- How `put` proceeds once the stage is there. -/
lemma publish_cases (faults : PutStep → Option Fault) (bundle : CustomCertificateBundle) {id : ℕ}
    (hid : 1 ≤ id) (hst : stage ≠ target) (hsb : stage ≠ backupName id)
    (hbt : backupName id ≠ target) (hstage : d.root.get? stage = some Dict.empty) :
    (¬ ((∀ s ∈ writeSteps, faults s = none) ∧ Clears faults target (backupName id) d.root) ∧
      ∃ e d', publish faults bundle stage target id d = (.error e, d') ∧
        d'.root.get? target = d.root.get? target) ∨
    (((∀ s ∈ writeSteps, faults s = none) ∧ Clears faults target (backupName id) d.root) ∧
      faults .swap = none ∧ ∃ d', (publish faults bundle stage target id d).2 = d' ∧
        ((publish faults bundle stage target id d).1 = .ok () ↔
          ¬ CleanUpFails faults target d.root) ∧
        d'.root.get? target = some (material bundle) ∧ stage ∉ d'.root) ∨
    (((∀ s ∈ writeSteps, faults s = none) ∧ Clears faults target (backupName id) d.root) ∧
      faults .swap ≠ none ∧ ∃ e d', publish faults bundle stage target id d = (.error e, d') ∧
        (¬ (target ∈ d.root ∧ RestoreFails faults) →
          d'.root.get? target = d.root.get? target) ∧
        (RestoreFails faults → target ∉ d'.root)) := by
  have hkept : SameOutside [stage] d (writeMaterial faults bundle stage d).2 :=
    preserves_writeMaterial (List.mem_singleton_self stage) d
  by_cases hwrites : ∀ s ∈ writeSteps, faults s = none
  swap
  · -- a file cannot be written
    rcases hrun : writeMaterial faults bundle stage d with ⟨e | u, d₁⟩
    · rw [hrun] at hkept
      exact .inl ⟨fun h => hwrites h.1, e, d₁, Action.bind_of_error hrun,
        hkept target (by simpa using hst.symm)⟩
    · exact absurd (eq_none_of_writeMaterial hrun) hwrites
  obtain ⟨d₁, hd₁, hroot⟩ := writeMaterial_of_none bundle hwrites hstage
  have htarget₁ : d₁.root.get? target = d.root.get? target := by
    rw [hroot, Dict.get?_set_of_ne _ _ hst.symm]
  have hbackup₁ : d₁.root.get? (backupName id) = d.root.get? (backupName id) := by
    rw [hroot, Dict.get?_set_of_ne _ _ hsb.symm]
  have hclears : Clears faults target (backupName id) d₁.root ↔
      Clears faults target (backupName id) d.root := by
    simp only [Clears, Dict.mem_iff, htarget₁, hbackup₁]
  have hrest : publish faults bundle stage target id d
      = (setAside faults target (backupName id) >>= fun _ =>
        swapIn faults stage target (backupName id) >>= fun _ =>
          whenExists (faults .findSetAside) (backupName id)
            (rmtree (faults .removeSetAside) (backupName id))) d₁ := by
    rw [publish_of_pos hid]
    exact Action.bind_of_ok hd₁
  rcases setAside_cases faults d₁ hbt.symm with
    ⟨hclear, d₂, hd₂, htarget₂, hbackup₂⟩ | ⟨hno, e, d₂, hd₂, htarget₂⟩
  swap
  · -- the former material cannot be set aside
    exact .inl ⟨fun h => hno (hclears.mpr h.2), e, d₂, hrest.trans (Action.bind_of_error hd₂),
      htarget₂.trans htarget₁⟩
  have hreached := And.intro hwrites (hclears.mp hclear)
  have hstage₂ : d₂.root.get? stage = some (material bundle) := by
    have hkept₂ : SameOutside [target, backupName id] d₁
        (setAside faults target (backupName id) d₁).2 :=
      preserves_setAside [target, backupName id] (by simp) (by simp) d₁
    rw [hd₂] at hkept₂
    rw [hkept₂ stage (by simp [hst, hsb]), hroot, Dict.get?_set_self]
  rcases swapIn_cases faults hstage₂ htarget₂ hst hsb hbt with
    ⟨hswap, d₃, hd₃, htarget₃, hstage₃, hbackup₃⟩ | ⟨hswap, e, d₃, hd₃, hback, hlost⟩
  swap
  · -- the former material is put back, or lost
    refine .inr (.inr ⟨hreached, hswap, e, d₃, ?_, fun h => ?_, hlost⟩)
    · exact hrest.trans ((Action.bind_of_ok hd₂).trans (Action.bind_of_error hd₃))
    · rw [← htarget₁, ← hbackup₂]
      refine hback fun hlost => h ⟨?_, hlost.2⟩
      rw [Dict.mem_iff, ← htarget₁, ← hbackup₂]
      exact Dict.mem_iff.mp hlost.1
  have hrun : publish faults bundle stage target id d = whenExists (faults .findSetAside)
      (backupName id) (rmtree (faults .removeSetAside) (backupName id)) d₃ :=
    hrest.trans ((Action.bind_of_ok hd₂).trans (Action.bind_of_ok hd₃))
  have hmem : backupName id ∈ d₃.root ↔ target ∈ d.root := by
    rw [Dict.mem_iff, Dict.mem_iff, hbackup₃, hbackup₂, htarget₁]
  have hkept₃ : SameOutside [backupName id] d₃ (publish faults bundle stage target id d).2 := by
    rw [hrun]
    exact preserves_whenExists (preserves_rmtree (List.mem_singleton_self _)) d₃
  refine .inr (.inl ⟨hreached, hswap, _, rfl, ?_, ?_, ?_⟩)
  · rw [hrun, CleanUpFails, not_or, not_and, not_not, not_not, ← hmem]
    rcases whenExists_rmtree (faults .findSetAside) (faults .removeSetAside) (backupName id) d₃ with
      ⟨h1, h2, d₄, hd₄, -⟩ | ⟨hno, e, d₄, hd₄⟩
    · rw [hd₄]
      exact iff_of_true rfl ⟨h1, h2⟩
    · rw [hd₄]
      exact iff_of_false (by rintro ⟨⟩) hno
  · rw [hkept₃ target (by simpa using hbt.symm), htarget₃]
  · rwa [Dict.mem_iff, hkept₃ stage (by simpa using hsb), ← Dict.mem_iff]

end Phases

/-! ## The law -/

/-- The files of a directory, when it is there: the text under each name. -/
def contents (root : MaterialRoot) (name : String) : Option (String → Option String) :=
  (root.get? name).map Dict.get?

/-- A change of the material of a certificate is all or nothing: an exception leaves the directory
as it was, a return leaves the new contents in it, and the other certificates keep theirs. -/
structure AllOrNothing (x : Action Disk Unit) (id : ℕ) (new : Directory) (d : Disk) : Prop where
  raised : ∀ e, (x d).1 = .error e →
    contents (x d).2.root (liveName id) = contents d.root (liveName id)
  returned : (x d).1 = .ok () → contents (x d).2.root (liveName id) = some new.get?
  others : ∀ other, other ≠ id →
    contents (x d).2.root (liveName other) = contents d.root (liveName other)

/-- `put` comes to the renaming of the stage. -/
def SwapReached (faults : PutStep → Option Fault) (uuid : Uuid) (id : ℕ) (root : MaterialRoot) :
    Prop :=
  1 ≤ id ∧ faults .mkdirStage = none ∧ stageName id uuid ∉ root ∧
    (∀ s ∈ writeSteps, faults s = none) ∧ Clears faults (liveName id) (backupName id) root

/-- A step behind the renaming fails, with new contents in place, or the renaming and the step that
undoes it. -/
def FailsBehindSwap (faults : PutStep → Option Fault) (bundle : CustomCertificateBundle) (id : ℕ)
    (root : MaterialRoot) : Prop :=
  (faults .swap = none ∧ contents root (liveName id) ≠ some (material bundle).get? ∧
    (CleanUpFails faults (liveName id) root ∨ faults .findStage ≠ none)) ∨
  (faults .swap ≠ none ∧ liveName id ∈ root ∧ RestoreFails faults)

section Law

variable {faults : PutStep → Option Fault} {bundle : CustomCertificateBundle} {uuid : Uuid}
variable {id : ℕ} {d : Disk}

lemma put_of_pos (hid : 1 ≤ id) : put faults bundle uuid id = (do
    mkdir (faults .mkdirStage) (stageName id uuid)
    Action.ensuring (publish faults bundle (stageName id uuid) (liveName id) id)
      (whenExists (faults .findStage) (stageName id uuid)
        (rmtree (faults .removeStage) (stageName id uuid)))) := by
  rw [put, directoryName_of_pos _ _ hid, directoryName_of_pos _ _ hid]
  rfl

lemma put_zero : put faults bundle uuid 0 d =
    (.error (.valueError "certificate ID must be a positive integer"), d) :=
  Action.bind_of_error (by rw [Action.lift, directoryName_zero])

/-- `put` touches the stage, the backup and the directory of its certificate. -/
lemma preserves_put {R : Disk → Disk → Prop} [Std.Refl R] [IsTrans Disk R] (names : List String)
    [Covers R names] (hstage : stageName id uuid ∈ names) (hlive : liveName id ∈ names)
    (hbackup : backupName id ∈ names) : Action.Preserves R (put faults bundle uuid id) := by
  rcases Nat.eq_zero_or_pos id with rfl | hid
  · intro d
    rw [put_zero]
    exact refl_of _ d
  rw [put_of_pos hid, publish_of_pos hid]
  refine (preserves_mkdir hstage).bind fun _ => Action.Preserves.ensuring ?_ ?_
  · refine (preserves_writeMaterial hstage).bind fun _ => ?_
    refine (preserves_setAside names hlive hbackup).bind fun _ => ?_
    refine (preserves_swapIn hstage hlive hbackup).bind fun _ => ?_
    exact preserves_whenExists (preserves_rmtree hbackup)
  · exact preserves_whenExists (preserves_rmtree hstage)

/-- The other certificates have no part. -/
lemma contents_put_of_ne {other : ℕ} (hother : other ≠ id) :
    contents (put faults bundle uuid id d).2.root (liveName other) =
      contents d.root (liveName other) := by
  have hkept : SameOutside [stageName id uuid, liveName id, backupName id] d
      (put faults bundle uuid id d).2 :=
    preserves_put [stageName id uuid, liveName id, backupName id] (by simp) (by simp) (by simp) d
  refine congrArg (Option.map Dict.get?) (hkept _ ?_)
  simp only [List.mem_cons, List.not_mem_nil, or_false, not_or]
  exact ⟨liveName_ne_hidden _ _ _, fun h => hother (liveName_injective h),
    liveName_ne_hidden _ _ _⟩

/-- Cleaning up behind a publication that has used the stage finds nothing to remove. -/
lemma cleanup_eq_ok_iff {stage : String} (hstage : stage ∉ d.root) :
    (whenExists (faults .findStage) stage (rmtree (faults .removeStage) stage) d).1 = .ok () ↔
      faults .findStage = none := by
  rcases faults .findStage with _ | f
  · rw [whenExists_of_not_mem hstage]
    exact iff_of_true rfl rfl
  · rw [whenExists_of_some f]
    exact iff_of_false nofun nofun

/-- How `put` proceeds: it raises before the stage is renamed, or the renaming puts the new
material in place, or the renaming fails and the former material is put back or lost. -/
lemma put_cases (faults : PutStep → Option Fault) (bundle : CustomCertificateBundle) (uuid : Uuid)
    (id : ℕ) (d : Disk) :
    (¬ SwapReached faults uuid id d.root ∧ (put faults bundle uuid id d).1 ≠ .ok () ∧
      contents (put faults bundle uuid id d).2.root (liveName id) =
        contents d.root (liveName id)) ∨
    (SwapReached faults uuid id d.root ∧ faults .swap = none ∧
      ((put faults bundle uuid id d).1 = .ok () ↔
        ¬ (CleanUpFails faults (liveName id) d.root ∨ faults .findStage ≠ none)) ∧
      contents (put faults bundle uuid id d).2.root (liveName id) =
        some (material bundle).get?) ∨
    (SwapReached faults uuid id d.root ∧ faults .swap ≠ none ∧
      (put faults bundle uuid id d).1 ≠ .ok () ∧
      (¬ (liveName id ∈ d.root ∧ RestoreFails faults) →
        contents (put faults bundle uuid id d).2.root (liveName id) =
          contents d.root (liveName id)) ∧
      (RestoreFails faults → liveName id ∉ (put faults bundle uuid id d).2.root)) := by
  rcases Nat.eq_zero_or_pos id with rfl | hid
  · rw [put_zero]
    exact .inl ⟨fun h => absurd h.1 (by decide), (by rintro ⟨⟩), rfl⟩
  by_cases hmkdir : (faults .mkdirStage).isSome ∨ stageName id uuid ∈ d.root
  · -- there is no stage
    have hrun : put faults bundle uuid id d = (.error .osError, d) := by
      rw [put_of_pos hid]
      exact Action.bind_of_error (mkdir_of_error hmkdir)
    rw [hrun]
    exact .inl ⟨fun h => hmkdir.elim (fun hs => by simp [h.2.1] at hs) h.2.2.1, (by rintro ⟨⟩), rfl⟩
  rw [not_or, Option.not_isSome_iff_eq_none] at hmkdir
  set stage := stageName id uuid with hstage
  set d₀ : Disk := d.become (d.root.set stage Dict.empty) with hd₀
  have hrun : put faults bundle uuid id d = Action.ensuring
      (publish faults bundle stage (liveName id) id)
      (whenExists (faults .findStage) stage (rmtree (faults .removeStage) stage)) d₀ := by
    rw [put_of_pos hid, ← hstage, hmkdir.1]
    exact Action.bind_of_ok (mkdir_of_none hmkdir.2)
  have hst : stage ≠ liveName id := (liveName_ne_hidden _ _ _).symm
  have hsb : stage ≠ backupName id := stageName_ne_backupName id uuid
  have hbt : backupName id ≠ liveName id := (liveName_ne_hidden _ _ _).symm
  -- the stage is not among the names that the phases ask for
  have htarget : d₀.root.get? (liveName id) = d.root.get? (liveName id) :=
    Dict.get?_set_of_ne _ _ hst.symm
  have hbackup : d₀.root.get? (backupName id) = d.root.get? (backupName id) :=
    Dict.get?_set_of_ne _ _ hsb.symm
  have hmem : liveName id ∈ d₀.root ↔ liveName id ∈ d.root := by
    rw [Dict.mem_iff, Dict.mem_iff, htarget]
  have hreached : SwapReached faults uuid id d.root ↔ (∀ s ∈ writeSteps, faults s = none) ∧
      Clears faults (liveName id) (backupName id) d₀.root := by
    have hclears : Clears faults (liveName id) (backupName id) d₀.root ↔
        Clears faults (liveName id) (backupName id) d.root := by
      simp only [Clears, Dict.mem_iff, htarget, hbackup]
    rw [hclears]
    exact ⟨fun h => h.2.2.2, fun h => ⟨hid, hmkdir.1, hmkdir.2, h⟩⟩
  have hfinal : (put faults bundle uuid id d).2.root.get? (liveName id)
      = (publish faults bundle stage (liveName id) id d₀).2.root.get? (liveName id) := by
    have hcleanup : Action.Preserves (SameOutside [stage])
        (whenExists (faults .findStage) stage (rmtree (faults .removeStage) stage)) :=
      preserves_whenExists (preserves_rmtree (List.mem_singleton_self stage))
    rw [hrun, Action.ensuring_snd]
    exact hcleanup _ _ (by simpa using hst.symm)
  have hraised : ∀ e d₁, publish faults bundle stage (liveName id) id d₀ = (.error e, d₁) →
      (put faults bundle uuid id d).1 ≠ .ok () := by
    intro e d₁ hd₁ h
    rw [hrun, Action.ensuring_eq_ok_iff, hd₁] at h
    cases h.1
  rcases publish_cases faults bundle hid hst hsb hbt
    (d := d₀) (Dict.get?_set_self _ _ _) with ⟨hno, e, d₁, hd₁, hsame⟩ |
      ⟨hyes, hswap, d₁, hd₁, hok, hnew, hstage₁⟩ | ⟨hyes, hswap, e, d₁, hd₁, hback, hlost⟩
  · refine .inl ⟨fun h => hno (hreached.mp h), hraised e d₁ hd₁,
      congrArg (Option.map Dict.get?) ?_⟩
    rw [hfinal, hd₁, hsame, htarget]
  · refine .inr (.inl ⟨hreached.mpr hyes, hswap, ?_, ?_⟩)
    · rw [hrun, Action.ensuring_eq_ok_iff, hok, hd₁, cleanup_eq_ok_iff hstage₁, not_or, not_not]
      simp only [CleanUpFails, Dict.mem_iff, htarget]
    · rw [contents, hfinal, hd₁, hnew]
      rfl
  · refine .inr (.inr ⟨hreached.mpr hyes, hswap, hraised e d₁ hd₁, fun h => ?_, fun h => ?_⟩)
    · refine congrArg (Option.map Dict.get?) ?_
      rw [hfinal, hd₁, hback fun hlost => h ⟨hmem.mp hlost.1, hlost.2⟩, htarget]
    · rw [Dict.mem_iff, hfinal, hd₁, ← Dict.mem_iff]
      exact hlost h

/-- Publishing material is all or nothing, unless a step fails behind the renaming of the stage. -/
theorem put_allOrNothing_iff :
    AllOrNothing (put faults bundle uuid id) id (material bundle) d ↔
      ¬ (SwapReached faults uuid id d.root ∧ FailsBehindSwap faults bundle id d.root) := by
  have hothers : ∀ other, other ≠ id →
      contents (put faults bundle uuid id d).2.root (liveName other)
        = contents d.root (liveName other) := fun _ => contents_put_of_ne
  rcases put_cases faults bundle uuid id d with ⟨hno, hraised, hsame⟩ |
    ⟨hreached, hswap, hreturns, hnew⟩ | ⟨hreached, hswap, hraised, hback, hlost⟩
  · -- nothing has been renamed
    exact iff_of_true ⟨fun _ _ => hsame, fun h => absurd h hraised, hothers⟩ fun h => hno h.1
  · -- the new material is in place
    by_cases hfails : CleanUpFails faults (liveName id) d.root ∨ faults .findStage ≠ none
    · have hraised := fun h => (hreturns.mp h) hfails
      constructor
      · rintro h ⟨-, ⟨-, hold, -⟩ | ⟨hswap', -⟩⟩
        · rcases hout : (put faults bundle uuid id d).1 with e | u
          · exact hold ((h.raised e hout).symm.trans hnew)
          · exact hraised hout
        · exact hswap' hswap
      · intro h
        have hold : contents d.root (liveName id) = some (material bundle).get? := by
          by_contra hold
          exact h ⟨hreached, .inl ⟨hswap, hold, hfails⟩⟩
        exact ⟨fun _ _ => hnew.trans hold.symm, fun h => absurd h hraised, hothers⟩
    · refine iff_of_true ⟨fun e h => ?_, fun _ => hnew, hothers⟩ ?_
      · rw [hreturns.mpr hfails] at h
        exact nomatch h
      · rintro ⟨-, ⟨-, -, h⟩ | ⟨h, -⟩⟩
        · exact hfails h
        · exact h hswap
  · -- the former material is put back, or lost
    by_cases hfails : liveName id ∈ d.root ∧ RestoreFails faults
    · refine iff_of_false (fun h => ?_) fun h => h ⟨hreached, .inr ⟨hswap, hfails⟩⟩
      rcases hout : (put faults bundle uuid id d).1 with e | u
      · have hsame := h.raised e hout
        obtain ⟨directory, hdirectory⟩ := Dict.mem_iff.mp hfails.1
        rw [contents, Dict.get?_eq_none_iff.mpr (hlost hfails.2), contents, hdirectory] at hsame
        exact nomatch hsame
      · exact hraised hout
    · refine iff_of_true ⟨fun _ _ => hback hfails, fun h => absurd h hraised, hothers⟩ ?_
      rintro ⟨-, ⟨h, -⟩ | ⟨-, h⟩⟩
      · exact hswap h
      · exact hfails h

end Law

/-- The former material of a certificate cannot be removed. -/
def removalFails : PutStep → Option Fault
  | .removeSetAside => some ⟨none, fun _ => true⟩
  | _ => none

/-- The removal of what `put` has set aside fails: `put` raises, with the new material in place. -/
theorem removalFails_not_allOrNothing :
    ¬ AllOrNothing (put removalFails ⟨"new", "key", ""⟩ ⟨"0", by decide⟩ 1) 1
      (material ⟨"new", "key", ""⟩)
      ⟨Dict.ofList [("npm-1", Dict.ofList [("cert.pem", "old\n")])], []⟩ := by
  intro h
  have hsame := congrArg (Option.map fun files => files "cert.pem")
    (h.raised .osError (by decide))
  exact absurd hsame (by decide)

end Portwyrm.Certificates

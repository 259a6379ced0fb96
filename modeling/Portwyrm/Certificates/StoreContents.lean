import Portwyrm.Certificates.Publication
import Mathlib.Logic.Function.Basic

/-!
# What the operations of the material store change

Each operation of `CertificateMaterialStore` by the contents of the material root before it and
behind it, when nothing fails that would leave a hidden directory.
-/

namespace Portwyrm.Certificates

open Base

/-! ## The contents of the material root -/

section Contents

variable {root : MaterialRoot} {name : String} {directory : Directory}

lemma contents_set : contents (root.set name directory)
    = Function.update (contents root) name (some directory.get?) := by
  funext other
  by_cases hother : other = name
  · subst hother
    rw [contents, Dict.get?_set_self, Function.update_self]
    rfl
  · rw [contents, Dict.get?_set_of_ne _ _ hother, Function.update_of_ne hother, contents]

lemma contents_pop : contents (root.pop name) = Function.update (contents root) name none := by
  funext other
  by_cases hother : other = name
  · subst hother
    rw [contents, Dict.get?_pop_self, Function.update_self]
    rfl
  · rw [contents, Dict.get?_pop, if_neg hother, Function.update_of_ne hother, contents]

lemma contents_eq_none_iff : contents root name = none ↔ name ∉ root := by
  rw [contents, Option.map_eq_none_iff, Dict.get?_eq_none_iff]

lemma contents_eq_some (h : root.get? name = some directory) :
    contents root name = some directory.get? := by
  rw [contents, h]
  rfl

/-- Removing what is not there changes nothing. -/
lemma update_contents_of_not_mem (h : name ∉ root) :
    Function.update (contents root) name none = contents root := by
  rw [← contents_eq_none_iff.mpr h, Function.update_eq_self]

/-- Every directory of the root is the one of a certificate. -/
def Tidy (root : MaterialRoot) : Prop := ∀ name ∈ root, ∃ id, name = liveName id

/-- There is no hidden directory. -/
lemma Tidy.hidden_not_mem (h : Tidy root) (id : ℕ) (suffix : String) :
    ".npm-" ++ toString id ++ suffix ∉ root := by
  intro hmem
  obtain ⟨id', hid'⟩ := h _ hmem
  exact liveName_ne_hidden id' id suffix hid'.symm

end Contents

/-! ### Names of hidden directories -/

/-- A letter that is no hexadecimal digit keeps the text of a `uuid` apart. -/
lemma uuid_ne_of_mem (uuid : Uuid) {s : String} {c : Char} (hc : c ∈ s.toList)
    (hdigit : ¬ (Numeral.digitValue c).isSome) : "-" ++ uuid.text ≠ "-" ++ s := by
  intro h
  have htext : uuid.text = s := (String.append_right_inj _).mp h
  exact hdigit (uuid.hex c (htext ▸ hc))

lemma stageName_ne_quarantineName (id : ℕ) (uuid uuid' : Uuid) :
    stageName id uuid ≠ quarantineName id uuid' := by
  intro h
  have hsuffix : "-" ++ uuid.text = "-delete-" ++ uuid'.text := (String.append_right_inj _).mp h
  have hsplit : "-delete-" ++ uuid'.text = "-" ++ ("delete-" ++ uuid'.text) := by
    rw [← String.append_assoc]
    rfl
  refine uuid_ne_of_mem uuid (c := 'l') ?_ (by decide) (hsuffix.trans hsplit)
  rw [String.toList_append]
  exact List.mem_append_left _ (by decide)

lemma backupName_ne_quarantineName (id : ℕ) (uuid : Uuid) :
    backupName id ≠ quarantineName id uuid := by
  intro h
  have hsuffix : "-backup" = "-delete-" ++ uuid.text := (String.append_right_inj _).mp h
  have hlist := congrArg (fun t => t.toList[1]?) hsuffix
  rw [String.toList_append] at hlist
  exact absurd (show some 'b' = some 'd' from hlist) (by decide)

/-! ## Operations -/

/-- Nothing fails in `put` behind the renaming of the stage, nor in what it undoes. -/
def PutRecovers (faults : PutStep → Option Fault) : Prop :=
  ∀ step ∈ [PutStep.findBackup, .restore, .findSetAside, .removeSetAside, .findStage,
    .removeStage], faults step = none

section Store

variable {id : ℕ} {uuid : Uuid} {d : Disk}

/-- Removing a directory, if it is there. -/
lemma whenExists_rmtree_of_none (name : String) (d : Disk) :
    ∃ d', whenExists none name (rmtree none name) d = (.ok (), d') ∧
      contents d'.root = Function.update (contents d.root) name none := by
  by_cases hname : name ∈ d.root
  · obtain ⟨directory, hdirectory⟩ := Dict.mem_iff.mp hname
    refine ⟨_, (whenExists_of_mem hname).trans (rmtree_of_none hdirectory), ?_⟩
    rw [root_become, contents_pop]
  · exact ⟨d, whenExists_of_not_mem hname, (update_contents_of_not_mem hname).symm⟩

/-- A renaming that fails leaves both names as they are. -/
lemma eq_of_osReplace_error {fault : Option Fault} {name other : String} {d' : Disk} {e : Exc}
    (h : osReplace fault name other d = (.error e, d')) : d' = d := by
  unfold osReplace at h
  split at h
  · exact (Prod.mk.inj h).2.symm
  · split at h
    · exact (Prod.mk.inj h).2.symm
    · cases (Prod.mk.inj h).1

lemma eq_of_whenExists_osReplace_error {fault fault' : Option Fault} {name other : String}
    {d' : Disk} {e : Exc}
    (h : whenExists fault name (osReplace fault' name other) d = (.error e, d')) : d' = d := by
  rcases fault with _ | f
  · by_cases hname : name ∈ d.root
    · exact eq_of_osReplace_error ((whenExists_of_mem hname).symm.trans h)
    · cases (Prod.mk.inj ((whenExists_of_not_mem hname).symm.trans h)).1
  · exact (Prod.mk.inj ((whenExists_of_some f).symm.trans h)).2.symm

/-- A backup that cannot be made is not there. -/
lemma backup_setAside {faults : PutStep → Option Fault} {target backup : String} {d' : Disk}
    {e : Exc} (hbackup : backup ∉ d.root) (h : setAside faults target backup d = (.error e, d')) :
    backup ∉ d'.root := by
  rcases hstale : faults .findStale with _ | f
  · rw [setAside, hstale, Action.bind_of_ok (whenExists_of_not_mem hbackup)] at h
    rw [eq_of_whenExists_osReplace_error h]
    exact hbackup
  · rw [setAside, hstale, Action.bind_of_error (whenExists_of_some f)] at h
    obtain ⟨-, rfl⟩ := Prod.mk.inj h
    exact hbackup

/-- A backup that has been put back is gone. -/
lemma backup_swapIn {faults : PutStep → Option Fault} {stage target backup : String} {d' : Disk}
    {e : Exc} (hfind : faults .findBackup = none) (hrestore : faults .restore = none)
    (hbt : backup ≠ target) (htarget : target ∉ d.root)
    (h : swapIn faults stage target backup d = (.error e, d')) : backup ∉ d'.root := by
  rw [swapIn, hfind, hrestore] at h
  rcases hswap : osReplace (faults .swap) stage target d with ⟨e' | u, d₁⟩
  swap
  · rw [Action.undoing_of_ok hswap] at h
    cases (Prod.mk.inj h).1
  obtain rfl := eq_of_osReplace_error hswap
  obtain ⟨e', he'⟩ := Action.undoing_of_error
    (whenExists none backup (osReplace none backup target)) hswap
  obtain ⟨-, rfl⟩ := Prod.mk.inj (h.symm.trans he')
  by_cases hbackup : backup ∈ d₁.root
  · obtain ⟨directory, hdirectory⟩ := Dict.mem_iff.mp hbackup
    rw [whenExists_of_mem hbackup, osReplace_of_none hdirectory htarget, root_become, Dict.mem_set,
      Dict.mem_pop]
    exact fun h => h.elim hbt fun h => h.1 rfl
  · rw [whenExists_of_not_mem hbackup]
    exact hbackup

/-- Nothing is left of what `publish` sets aside. -/
lemma backup_publish {faults : PutStep → Option Fault} {bundle : CustomCertificateBundle}
    {stage target : String} (hfaults : PutRecovers faults) (hid : 1 ≤ id)
    (hsb : stage ≠ backupName id) (hbt : backupName id ≠ target)
    (hbackup : backupName id ∉ d.root) :
    backupName id ∉ (publish faults bundle stage target id d).2.root := by
  simp only [PutRecovers, List.forall_mem_cons] at hfaults
  obtain ⟨hfindBackup, hrestore, hfindSetAside, hremoveSetAside, -⟩ := hfaults
  have hkept : SameOutside [stage] d (writeMaterial faults bundle stage d).2 :=
    preserves_writeMaterial (List.mem_singleton_self stage) d
  have hbackup₁ : backupName id ∉ (writeMaterial faults bundle stage d).2.root := by
    rw [Dict.mem_iff, hkept _ (by simpa using hsb.symm), ← Dict.mem_iff]
    exact hbackup
  rw [publish_of_pos hid]
  rcases hwrite : writeMaterial faults bundle stage d with ⟨e | u, d₁⟩
  · rw [Action.bind_of_error hwrite]
    rwa [hwrite] at hbackup₁
  rw [hwrite] at hbackup₁
  rw [Action.bind_of_ok hwrite]
  rcases setAside_cases faults d₁ hbt.symm with ⟨-, d₂, hd₂, htarget₂, -⟩ | ⟨-, e, d₂, hd₂, -⟩
  swap
  · rw [Action.bind_of_error hd₂]
    exact backup_setAside hbackup₁ hd₂
  rw [Action.bind_of_ok hd₂]
  rcases hswap : swapIn faults stage target (backupName id) d₂ with ⟨e | u, d₃⟩
  · rw [Action.bind_of_error hswap]
    exact backup_swapIn hfindBackup hrestore hbt htarget₂ hswap
  · rw [Action.bind_of_ok hswap, hfindSetAside, hremoveSetAside]
    obtain ⟨d₄, hd₄, hcontents⟩ := whenExists_rmtree_of_none (backupName id) d₃
    rw [hd₄, ← contents_eq_none_iff, hcontents, Function.update_self]

/-- `put` leaves no hidden directory. -/
lemma hidden_put {faults : PutStep → Option Fault} {bundle : CustomCertificateBundle}
    (hfaults : PutRecovers faults) (hstage : stageName id uuid ∉ d.root)
    (hbackup : backupName id ∉ d.root) :
    stageName id uuid ∉ (put faults bundle uuid id d).2.root ∧
      backupName id ∉ (put faults bundle uuid id d).2.root := by
  rcases Nat.eq_zero_or_pos id with rfl | hid
  · rw [put_zero]
    exact ⟨hstage, hbackup⟩
  have hsb : stageName id uuid ≠ backupName id := stageName_ne_backupName id uuid
  have hrecovers := hfaults
  simp only [PutRecovers, List.forall_mem_cons] at hrecovers
  obtain ⟨-, -, -, -, hfindStage, hremoveStage, -⟩ := hrecovers
  rw [put_of_pos hid]
  by_cases hmkdir : (faults .mkdirStage).isSome ∨ stageName id uuid ∈ d.root
  · rw [Action.bind_of_error (mkdir_of_error hmkdir)]
    exact ⟨hstage, hbackup⟩
  rw [not_or, Option.not_isSome_iff_eq_none] at hmkdir
  rw [hmkdir.1, Action.bind_of_ok (mkdir_of_none hmkdir.2), hfindStage, hremoveStage,
    Action.ensuring_snd]
  set d₁ := (publish faults bundle (stageName id uuid) (liveName id) id
    (d.become (d.root.set (stageName id uuid) Dict.empty))).2 with hd₁
  have hbackup₁ : backupName id ∉ d₁.root := by
    refine backup_publish hfaults hid hsb (liveName_ne_hidden _ _ _).symm ?_
    rw [root_become, Dict.mem_set, not_or]
    exact ⟨hsb.symm, hbackup⟩
  obtain ⟨d₂, hd₂, hcontents⟩ := whenExists_rmtree_of_none (stageName id uuid) d₁
  rw [hd₂]
  constructor
  · rw [← contents_eq_none_iff, hcontents, Function.update_self]
  · rw [← contents_eq_none_iff, hcontents, Function.update_of_ne hsb.symm, contents_eq_none_iff]
    exact hbackup₁

/-- `put` publishes the material and changes nothing else, or raises and changes nothing. -/
lemma contents_put {faults : PutStep → Option Fault} {bundle : CustomCertificateBundle}
    (hfaults : PutRecovers faults) (hstage : stageName id uuid ∉ d.root)
    (hbackup : backupName id ∉ d.root) :
    (∃ e d', put faults bundle uuid id d = (.error e, d') ∧ contents d'.root = contents d.root) ∨
    (1 ≤ id ∧ ∃ d', put faults bundle uuid id d = (.ok (), d') ∧ contents d'.root
      = Function.update (contents d.root) (liveName id) (some (material bundle).get?)) := by
  have hkept : SameOutside [stageName id uuid, liveName id, backupName id] d
      (put faults bundle uuid id d).2 :=
    preserves_put [stageName id uuid, liveName id, backupName id] (by simp) (by simp) (by simp) d
  obtain ⟨hstage', hbackup'⟩ : stageName id uuid ∉ (put faults bundle uuid id d).2.root ∧
      backupName id ∉ (put faults bundle uuid id d).2.root :=
    hidden_put hfaults hstage hbackup
  -- the directory of the certificate settles what the root holds
  have hothers : contents (put faults bundle uuid id d).2.root
      = Function.update (contents d.root) (liveName id)
        (contents (put faults bundle uuid id d).2.root (liveName id)) := by
    funext name
    by_cases hlive : name = liveName id
    · rw [hlive, Function.update_self]
    rw [Function.update_of_ne hlive]
    by_cases hname : name = stageName id uuid ∨ name = backupName id
    · rcases hname with rfl | rfl
      · rw [contents_eq_none_iff.mpr hstage', contents_eq_none_iff.mpr hstage]
      · rw [contents_eq_none_iff.mpr hbackup', contents_eq_none_iff.mpr hbackup]
    · rw [not_or] at hname
      refine congrArg (Option.map Dict.get?) (hkept name ?_)
      simp only [List.mem_cons, List.not_mem_nil, or_false, not_or]
      exact ⟨hname.1, hlive, hname.2⟩
  have hraised : ∀ {x : Result Unit × Disk}, x.1 ≠ .ok () → ∃ e, x = (.error e, x.2) := by
    rintro ⟨e | u, d'⟩ h
    · exact ⟨e, rfl⟩
    · exact absurd rfl h
  have hsame : contents (put faults bundle uuid id d).2.root (liveName id)
        = contents d.root (liveName id) →
      contents (put faults bundle uuid id d).2.root = contents d.root := by
    intro h
    rw [hothers, h, Function.update_eq_self]
  have hrecovers := hfaults
  simp only [PutRecovers, List.forall_mem_cons] at hrecovers
  obtain ⟨hfindBackup, hrestore, hfindSetAside, hremoveSetAside, hfindStage, -⟩ := hrecovers
  rcases put_cases faults bundle uuid id d with ⟨-, hne, hlive⟩ | ⟨hreached, -, hreturns, hlive⟩ |
    ⟨-, -, hne, hlive, -⟩
  · obtain ⟨e, he⟩ := hraised hne
    exact .inl ⟨e, _, he, hsame hlive⟩
  · refine .inr ⟨hreached.1, _, Prod.ext (hreturns.mpr ?_) rfl, by rw [hothers, hlive]⟩
    rintro (hclean | hfind)
    · exact hclean.elim (fun h => h hfindSetAside) fun h => h.2 hremoveSetAside
    · exact hfind hfindStage
  · obtain ⟨e, he⟩ := hraised hne
    refine .inl ⟨e, _, he, hsame (hlive ?_)⟩
    rintro ⟨-, hfind | hput⟩
    · exact hfind hfindBackup
    · exact hput hrestore

lemma delete_of_pos (faults : StoreStep → Option Fault) (hid : 1 ≤ id) : delete faults id = (do
    if ← pathExists (faults .find) (liveName id) then
      rmtree (faults .remove) (liveName id)
      pure true
    else pure false) := by
  rw [delete, directoryName_of_pos _ _ hid]
  rfl

/-- `delete` removes the material, if nothing fails. -/
lemma contents_delete {faults : StoreStep → Option Fault} (hfaults : ∀ step, faults step = none)
    (hid : 1 ≤ id) (d : Disk) : ∃ b d', delete faults id d = (.ok b, d') ∧
      contents d'.root = Function.update (contents d.root) (liveName id) none := by
  rw [delete_of_pos faults hid, hfaults .find, hfaults .remove]
  by_cases hlive : liveName id ∈ d.root
  · obtain ⟨directory, hdirectory⟩ := Dict.mem_iff.mp hlive
    have hfound : pathExists none (liveName id) d = (.ok true, d) := by simp [pathExists, hlive]
    refine ⟨true, _, (Action.bind_of_ok hfound).trans
      (Action.bind_of_ok (rmtree_of_none hdirectory)), ?_⟩
    rw [root_become, contents_pop]
  · have hfound : pathExists none (liveName id) d = (.ok false, d) := by simp [pathExists, hlive]
    exact ⟨false, d, Action.bind_of_ok hfound, (update_contents_of_not_mem hlive).symm⟩

/-- `delete` changes nothing where there is no material. -/
lemma delete_of_not_mem (faults : StoreStep → Option Fault) (hlive : liveName id ∉ d.root) :
    (delete faults id d).2 = d := by
  rcases Nat.eq_zero_or_pos id with rfl | hid
  · rw [delete, Action.bind_of_error (by rw [Action.lift, directoryName_zero])]
  rw [delete_of_pos faults hid]
  rcases faults .find with _ | f
  · have hfound : pathExists none (liveName id) d = (.ok false, d) := by simp [pathExists, hlive]
    rw [Action.bind_of_ok hfound]
    rfl
  · rw [Action.bind_of_error (pathExists_of_some f)]

/-- `detach` moves the material into quarantine, or leaves the root as it is. -/
lemma contents_detach (faults : StoreStep → Option Fault)
    (hquarantine : quarantineName id uuid ∉ d.root) :
    (∃ e, detach faults id uuid d = (.error e, d)) ∨
    (liveName id ∉ d.root ∧ detach faults id uuid d = (.ok none, d)) ∨
    (1 ≤ id ∧ liveName id ∈ d.root ∧
      ∃ d', detach faults id uuid d = (.ok (some (quarantineName id uuid)), d') ∧
      contents d'.root = Function.update (Function.update (contents d.root) (liveName id) none)
        (quarantineName id uuid) (contents d.root (liveName id))) := by
  rcases Nat.eq_zero_or_pos id with rfl | hid
  · exact .inl ⟨_, Action.bind_of_error (by rw [Action.lift, directoryName_zero])⟩
  have hrun : detach faults id uuid = (do
      if ← pathExists (faults .find) (liveName id) then
        osReplace (faults .rename) (liveName id) (quarantineName id uuid)
        pure (some (quarantineName id uuid))
      else pure none) := by
    rw [detach, directoryName_of_pos _ _ hid, directoryName_of_pos _ _ hid]
    rfl
  rw [hrun]
  rcases faults .find with _ | f
  swap
  · exact .inl ⟨_, Action.bind_of_error (pathExists_of_some f)⟩
  by_cases hlive : liveName id ∈ d.root
  swap
  · have hfound : pathExists none (liveName id) d = (.ok false, d) := by simp [pathExists, hlive]
    exact .inr (.inl ⟨hlive, Action.bind_of_ok hfound⟩)
  have hfound : pathExists none (liveName id) d = (.ok true, d) := by simp [pathExists, hlive]
  obtain ⟨directory, hdirectory⟩ := Dict.mem_iff.mp hlive
  rw [Action.bind_of_ok hfound]
  rcases faults .rename with _ | f
  · refine .inr (.inr ⟨hid, hlive, _,
      Action.bind_of_ok (osReplace_of_none hdirectory hquarantine), ?_⟩)
    rw [root_become, contents_set, contents_pop, contents_eq_some hdirectory]
  · exact .inl ⟨_, Action.bind_of_error (osReplace_of_some f)⟩

/-- `rollback_detach` moves the material back. -/
lemma contents_rollbackDetach {faults : StoreStep → Option Fault}
    (hfaults : ∀ step, faults step = none) (hid : 1 ≤ id) {quarantine : String}
    (hquarantine : quarantine ∈ d.root) (hlive : liveName id ∉ d.root) :
    ∃ d', rollbackDetach faults id (some quarantine) d = (.ok (), d') ∧
      contents d'.root = Function.update (Function.update (contents d.root) quarantine none)
        (liveName id) (contents d.root quarantine) := by
  obtain ⟨directory, hdirectory⟩ := Dict.mem_iff.mp hquarantine
  have hfound : pathExists none quarantine d = (.ok true, d) := by simp [pathExists, hquarantine]
  have htarget : Action.lift (directoryName "npm-" "" id) d = (.ok (liveName id), d) := by
    rw [Action.lift, directoryName_of_pos _ _ hid]
    rfl
  rw [rollbackDetach, hfaults .find, hfaults .rename]
  refine ⟨_, (Action.bind_of_ok hfound).trans
    ((Action.bind_of_ok htarget).trans (osReplace_of_none hdirectory hlive)), ?_⟩
  rw [root_become, contents_set, contents_pop, contents_eq_some hdirectory]

/-- `commit_detach` removes the material, or cannot look for it. -/
lemma contents_commitDetach {faults : StoreStep → Option Fault} (hremove : faults .remove = none)
    (quarantine : String) (d : Disk) :
    (∃ d', commitDetach faults (some quarantine) d = (.ok (), d') ∧
      contents d'.root = Function.update (contents d.root) quarantine none) ∨
    (faults .find ≠ none ∧ ∃ e, commitDetach faults (some quarantine) d = (.error e, d)) := by
  rw [commitDetach, hremove]
  rcases faults .find with _ | f
  · exact .inl (whenExists_rmtree_of_none quarantine d)
  · exact .inr ⟨by simp, _, whenExists_of_some f⟩

end Store

end Portwyrm.Certificates

import Portwyrm.Certificates.Manager
import Portwyrm.Certificates.Publication

/-!
# Material during a renewal

`_replace_acme` moves the former material out of the directory that Nginx loads before it publishes
the new material.  The directory holds the former or the new material at every point of the
renewals that do not come to that renaming, and of no others.
-/

namespace Portwyrm.Certificates

open Base Portwyrm.Identity
open Portwyrm.Tables (Actor CertificateRow CertificatePayload)

/-! ## The points of a run -/

/-- The points that have been passed are passed for good. -/
def Passed (d d' : Disk) : Prop := d.points <+: d'.points

instance : Std.Refl Passed := ⟨fun _ => List.prefix_rfl⟩

instance : IsTrans Disk Passed := ⟨fun _ _ _ h h' => h.trans h'⟩

instance {names : List String} : Covers Passed names where
  become {d root} _ := by
    rw [Passed, points_become]
    exact List.prefix_append _ _

section Steps

variable {fault : Option Fault} {name other : String}

lemma passed_osReplace : Action.Preserves Passed (osReplace fault name other) :=
  preserves_osReplace (List.mem_cons_self (a := name) (l := [other])) (by simp)

lemma passed_rmtree : Action.Preserves Passed (rmtree fault name) :=
  preserves_rmtree (List.mem_singleton_self name)

end Steps

section Store

variable {id : ℕ} {uuid : Uuid}

lemma passed_put {faults : PutStep → Option Fault} {bundle : CustomCertificateBundle} :
    Action.Preserves Passed (put faults bundle uuid id) :=
  preserves_put [stageName id uuid, liveName id, backupName id] (by simp) (by simp) (by simp)

variable {faults : StoreStep → Option Fault}

lemma passed_delete : Action.Preserves Passed (delete faults id) := by
  refine (Action.Preserves.lift _).bind fun target => preserves_pathExists.bind fun present => ?_
  split
  · exact passed_rmtree.bind fun _ => Action.Preserves.pure _
  · exact Action.Preserves.pure _

lemma passed_rollbackDetach {quarantine : Option String} :
    Action.Preserves Passed (rollbackDetach faults id quarantine) := by
  unfold rollbackDetach
  split
  · exact Action.Preserves.pure _
  · refine preserves_pathExists.bind fun present => ?_
    split
    · exact (Action.Preserves.lift _).bind fun _ => passed_osReplace
    · exact Action.Preserves.pure _

lemma passed_commitDetach {quarantine : Option String} :
    Action.Preserves Passed (commitDetach faults quarantine) := by
  unfold commitDetach
  split
  · exact Action.Preserves.pure _
  · exact preserves_whenExists passed_rmtree

end Store

/-! ## The points of a renewal -/

/-- The points of a run of the manager that have been passed are passed for good. -/
def DiskPassed (s s' : ManagerState) : Prop := Passed s.disk s'.disk

instance : Std.Refl DiskPassed := ⟨fun s => refl_of Passed s.disk⟩

instance : IsTrans ManagerState DiskPassed := ⟨fun _ _ _ h h' => trans_of Passed h h'⟩

section Manager

variable {faults : RenewalFaults} {names : RenewalNames} {id : ℕ} {actor : Actor}

lemma diskPassed_onDisk {α : Type} {x : Action Disk α} (hx : Action.Preserves Passed x) :
    Action.Preserves DiskPassed (onDisk x) := fun s => hx s.disk

lemma diskPassed_onRows {fault : Option Exc}
    {op : Dict ℕ CertificateRow → Result (Dict ℕ CertificateRow)} :
    Action.Preserves DiskPassed (onRows fault op) := by
  intro s
  unfold onRows
  split <;> exact refl_of Passed s.disk

lemma diskPassed_getRecord {fault : Option Exc} :
    Action.Preserves DiskPassed (getRecord fault id) := by
  intro s
  unfold getRecord
  split <;> exact refl_of Passed s.disk

lemma diskPassed_updateRecord {faults : UpdateFaults} {payload : CertificatePayload} :
    Action.Preserves DiskPassed (updateRecord faults actor id payload) :=
  diskPassed_onRows.bind fun _ => diskPassed_getRecord

lemma diskPassed_found {record : Option CertificatePayload} :
    Action.Preserves DiskPassed (found id record) := by
  unfold found
  split
  · exact Action.Preserves.raise _
  · exact Action.Preserves.pure _

lemma diskPassed_putBack {quarantine : Option String} :
    Action.Preserves DiskPassed (putBack faults id quarantine) :=
  (diskPassed_onDisk passed_delete).bind fun _ => diskPassed_onDisk passed_rollbackDetach

lemma diskPassed_replaceDetached {issued : IssuedCertificate}
    {previous : Option CertificatePayload} {quarantine : Option String} :
    Action.Preserves DiskPassed
      (replaceDetached faults names id actor issued previous quarantine) := by
  refine Action.Preserves.bind ?_ fun _ => Action.Preserves.bind ?_ fun _ =>
    Action.Preserves.pure _
  · refine Action.Preserves.undoing ?_ diskPassed_putBack
    refine (diskPassed_onDisk passed_put).bind fun _ => ?_
    exact diskPassed_updateRecord.bind fun _ => diskPassed_found
  · refine Action.Preserves.undoing (diskPassed_onDisk passed_commitDetach) ?_
    refine diskPassed_putBack.bind fun _ => ?_
    exact diskPassed_updateRecord.bind fun _ => Action.Preserves.pure _

end Manager

/-! ## The law -/

section Law

variable {issuer : Option Issuer} {faults : RenewalFaults} {names : RenewalNames} {id : ℕ}
variable {request : CertificateRequest} {actor : Actor} {s : ManagerState}

/-- At every point of a renewal, the directory of the certificate holds what it held before, or all
of the material that has been issued. -/
def KeepsMaterial (issuer : Option Issuer) (faults : RenewalFaults) (names : RenewalNames) (id : ℕ)
    (request : CertificateRequest) (actor : Actor) (s : ManagerState) : Prop :=
  ∀ root ∈ (replaceAcme issuer faults names id request actor s).2.disk.points,
    contents root (liveName id) = contents s.disk.root (liveName id) ∨
      ∃ issue ∈ issuer, ∃ issued, issue (request.call none) = .ok issued ∧
        contents root (liveName id) = some (material (bundleOf issued)).get?

/-- The former material is moved into quarantine. -/
def Detaches (faults : RenewalFaults) (names : RenewalNames) (id : ℕ) (root : MaterialRoot) :
    Prop :=
  1 ≤ id ∧ faults.detach .find = none ∧ faults.detach .rename = none ∧
    (root.get? (quarantineName id names.quarantine)).any (fun t => t.entries ≠ []) = false

/-- A renewal comes to the renaming that moves the former material into quarantine. -/
def ComesToDetach (issuer : Option Issuer) (faults : RenewalFaults) (names : RenewalNames) (id : ℕ)
    (request : CertificateRequest) (root : MaterialRoot) : Prop :=
  (∃ issue ∈ issuer, ∃ issued, issue (request.call none) = .ok issued) ∧
    faults.readPrevious = none ∧ Detaches faults names id root

lemma detach_of_pos (hid : 1 ≤ id) :
    detach faults.detach id names.quarantine = (do
      if ← pathExists (faults.detach .find) (liveName id) then
        osReplace (faults.detach .rename) (liveName id) (quarantineName id names.quarantine)
        pure (some (quarantineName id names.quarantine))
      else pure none) := by
  rw [detach, directoryName_of_pos _ _ hid, directoryName_of_pos _ _ hid]
  rfl

/-- Material that is there is moved into quarantine, or stays where it is. -/
lemma detach_cases (faults : RenewalFaults) (names : RenewalNames) {d : Disk}
    {directory : Directory} (hlive : d.root.get? (liveName id) = some directory) :
    (Detaches faults names id d.root ∧
      detach faults.detach id names.quarantine d
        = (.ok (some (quarantineName id names.quarantine)),
          d.become ((d.root.pop (liveName id)).set (quarantineName id names.quarantine)
            directory))) ∨
    (¬ Detaches faults names id d.root ∧
      ∃ e, detach faults.detach id names.quarantine d = (.error e, d)) := by
  rcases Nat.eq_zero_or_pos id with rfl | hid
  · exact .inr ⟨fun h => absurd h.1 (by decide), _,
      Action.bind_of_error (by rw [Action.lift, directoryName_zero])⟩
  rw [detach_of_pos hid]
  rcases hfind : faults.detach .find with _ | f
  swap
  · refine .inr ⟨fun h => ?_, _, Action.bind_of_error (pathExists_of_some f)⟩
    cases hfind.symm.trans h.2.1
  have hfound : pathExists none (liveName id) d = (.ok true, d) := by
    rw [pathExists_of_none, decide_eq_true (Dict.mem_iff.mpr ⟨directory, hlive⟩)]
  by_cases hrename : (faults.detach .rename).isSome ∨
      (d.root.get? (quarantineName id names.quarantine)).any (fun t => t.entries ≠ []) = true
  · refine .inr ⟨fun h => ?_, .osError, ?_⟩
    · rcases hrename with hrename | hblocked
      · rw [h.2.2.1] at hrename
        cases hrename
      · cases h.2.2.2.symm.trans hblocked
    · refine (Action.bind_of_ok hfound).trans (Action.bind_of_error ?_)
      rw [osReplace, hlive]
      exact if_pos hrename
  · refine .inl ⟨⟨hid, hfind, ?_, ?_⟩, ?_⟩
    · exact Option.not_isSome_iff_eq_none.mp fun h => hrename (.inl h)
    · exact Bool.eq_false_iff.mpr fun h => hrename (.inr h)
    · refine (Action.bind_of_ok hfound).trans (Action.bind_of_ok (a := ()) ?_)
      rw [osReplace, hlive]
      exact if_neg hrename

/-- The issuer is called, and the disk has no part in it. -/
lemma issueWith_cases (issuer : Option Issuer) (call : IssuerCall) (s : ManagerState) :
    (∃ issue ∈ issuer, ∃ issued s', issue call = .ok issued ∧
      issueWith issuer call s = (.ok issued, s') ∧ s'.disk = s.disk) ∨
    ((¬ ∃ issue ∈ issuer, ∃ issued, issue call = .ok issued) ∧
      ∃ e s', issueWith issuer call s = (.error e, s') ∧ s'.disk = s.disk) := by
  rcases issuer with _ | issue
  · exact .inr ⟨by simp, _, s, rfl, rfl⟩
  · rcases hissue : issue call with e | issued
    · exact .inr ⟨by simp [hissue], e, { s with issuerCalls := s.issuerCalls ++ [call] },
        by rw [issueWith, hissue], rfl⟩
    · exact .inl ⟨issue, rfl, issued, { s with issuerCalls := s.issuerCalls ++ [call] }, hissue,
        by rw [issueWith, hissue], rfl⟩

/-- A renewal moves the former material into quarantine and goes on from there, or leaves the disk
as it is. -/
lemma replaceAcme_cases (issuer : Option Issuer) (faults : RenewalFaults) (names : RenewalNames)
    (request : CertificateRequest) (actor : Actor) {directory : Directory}
    (hlive : s.disk.root.get? (liveName id) = some directory) :
    (ComesToDetach issuer faults names id request s.disk.root ∧ ∃ s' : ManagerState,
      s'.disk = s.disk.become ((s.disk.root.pop (liveName id)).set
        (quarantineName id names.quarantine) directory) ∧
      Passed s'.disk (replaceAcme issuer faults names id request actor s).2.disk) ∨
    (¬ ComesToDetach issuer faults names id request s.disk.root ∧
      (replaceAcme issuer faults names id request actor s).2.disk = s.disk) := by
  rcases issueWith_cases issuer (request.call none) s with
    ⟨issue, hmem, issued, s₁, hissued, hrun, hdisk⟩ | ⟨hno, e, s₁, hrun, hdisk⟩
  swap
  · refine .inr ⟨fun h => hno h.1, ?_⟩
    rw [replaceAcme, Action.bind_of_error hrun, hdisk]
  rcases hprevious : faults.readPrevious with _ | e
  swap
  · refine .inr ⟨fun h => (nomatch hprevious.symm.trans h.2.1), ?_⟩
    have hread : getRecord faults.readPrevious id s₁ = (.error e, s₁) := by
      rw [hprevious]
      rfl
    rw [replaceAcme, Action.bind_of_ok hrun, Action.bind_of_error hread, hdisk]
  have hread : getRecord faults.readPrevious id s₁
      = (.ok ((s₁.rows.get? id).map Tables.projectCertificate), s₁) := by
    rw [hprevious]
    rfl
  rw [replaceAcme, Action.bind_of_ok hrun, Action.bind_of_ok hread]
  rcases detach_cases faults names hlive with ⟨hdetaches, hdetach⟩ | ⟨hno, e, hdetach⟩
  · refine .inl ⟨⟨⟨issue, hmem, issued, hissued⟩, hprevious, hdetaches⟩, _, ?_,
      Action.Preserves.bind_snd (R := DiskPassed) (fun _ => diskPassed_replaceDetached) s₁⟩
    rw [onDisk, hdisk, hdetach]
  · refine .inr ⟨fun h => hno h.2.2, ?_⟩
    have hstays : onDisk (detach faults.detach id names.quarantine) s₁ = (.error e, s₁) := by
      rw [onDisk, hdisk, hdetach, ← hdisk]
    rw [Action.bind_of_error hstays, hdisk]

/-- A renewal keeps the material in place at every point exactly when it does not come to the
renaming that moves the former material away. -/
theorem keepsMaterial_iff (hnew : s.disk.former = []) (hlive : liveName id ∈ s.disk.root) :
    KeepsMaterial issuer faults names id request actor s ↔
      ¬ ComesToDetach issuer faults names id request s.disk.root := by
  obtain ⟨directory, hdirectory⟩ := Dict.mem_iff.mp hlive
  rcases replaceAcme_cases issuer faults names request actor hdirectory with
    ⟨hcomes, s', hs', hpassed⟩ | ⟨hno, hdisk⟩
  · refine iff_of_false (fun h => ?_) fun h => h hcomes
    -- the point behind the renaming
    have hne : liveName id ≠ quarantineName id names.quarantine := liveName_ne_hidden _ _ _
    have hgone : s'.disk.root.get? (liveName id) = none := by
      rw [hs', root_become, Dict.get?_set_of_ne _ _ hne, Dict.get?_pop_self]
    have hpoint : s'.disk.root ∈ s'.disk.points :=
      List.mem_append_right _ (List.mem_singleton_self _)
    rcases h _ (hpassed.subset hpoint) with hold | ⟨_, -, issued, -, hissued⟩
    · rw [contents, hgone, contents, hdirectory] at hold
      cases hold
    · rw [contents, hgone] at hissued
      cases hissued
  · refine iff_of_true (fun root hroot => .inl ?_) hno
    rw [hdisk, Disk.points, hnew, List.nil_append, List.mem_singleton] at hroot
    rw [hroot]

end Law

/-! ### A renewal in which nothing fails -/

/-- No step fails. -/
def noRenewalFaults : RenewalFaults :=
  ⟨none, none, fun _ => none, fun _ => none, ⟨none, none⟩, fun _ => none, fun _ => none,
    fun _ => none, ⟨none, none⟩⟩

/-- An issuer that issues the same certificate for every request. -/
def renewingIssuer : Issuer := fun _ => .ok ⟨"new", "key", "chain", 0, "1970-01-01T00:00:00+00:00"⟩

/-- The names of the directories of the renewal. -/
def renewalNames : RenewalNames := ⟨⟨"0", by decide⟩, ⟨"1", by decide⟩⟩

/-- The certificate that is renewed, with its material. -/
def renewable : ManagerState where
  rows := Dict.ofList
    [ (1, ⟨none, "Certificate", "letsencrypt", some "http-01", "rsa", none, none, "active",
        Dict.empty, ["example.com"]⟩) ]
  disk := ⟨Dict.ofList [("npm-1", Dict.ofList [("cert.pem", "old\n")])], []⟩
  issuerCalls := []

/-- The renewal of `renewable`. -/
def renewalOfRenewable : CertificateRequest :=
  ⟨"Certificate", ["example.com"], "", .http01, "rsa", .null⟩

theorem keepsMaterial_iff_renewable :
    KeepsMaterial (some renewingIssuer) noRenewalFaults renewalNames 1 renewalOfRenewable none
        renewable ↔
      ¬ ComesToDetach (some renewingIssuer) noRenewalFaults renewalNames 1 renewalOfRenewable
        renewable.disk.root :=
  keepsMaterial_iff rfl (by decide)

/-- The renewal succeeds, and its certificate has had no directory in between. -/
theorem renewable_not_keepsMaterial :
    ¬ KeepsMaterial (some renewingIssuer) noRenewalFaults renewalNames 1 renewalOfRenewable none
      renewable := by
  intro h
  have hpoint : ((replaceAcme (some renewingIssuer) noRenewalFaults renewalNames 1
      renewalOfRenewable none renewable).2.disk.points.any
        fun root => (root.get? (liveName 1)).isNone) = true := by
    decide
  obtain ⟨root, hroot, hgone⟩ := List.any_eq_true.mp hpoint
  rw [Option.isNone_iff_eq_none] at hgone
  rcases h root hroot with hold | ⟨_, -, issued, -, hissued⟩
  · rw [contents, hgone] at hold
    have hthere := congrArg Option.isNone hold
    exact absurd hthere (by decide)
  · rw [contents, hgone] at hissued
    cases hissued

end Portwyrm.Certificates

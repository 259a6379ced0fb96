import Portwyrm.Certificates.RenewalCalls
import Portwyrm.Certificates.StoreContents

/-!
# Runs of the certificate manager

`upload`, `delete` and `download` of `TableCertificateManager`, and runs of its calls, one after
the other.  A call that returns publishes a bundle or removes one.  A call that raises publishes
nothing: what it has done to the material root is undone.

A call recovers when no step fails behind the point from which nothing is undone, and none of the
steps that undo.
-/

namespace Portwyrm.Certificates

open Base Portwyrm.Identity
open Portwyrm.Tables (Actor CertificatePayload CertificateRow uploadPayload)

/-! ## Uploads, removals and downloads -/

/-- The steps of an upload that may fail. -/
structure UploadFaults where
  create : Option Exc
  readPrevious : Option Exc
  update : UpdateFaults
  put : PutStep → Option Fault
  activate : UpdateFaults
  delete : StoreStep → Option Fault
  remove : Option Exc
  restore : UpdateFaults

/-- Material is published, and the row of its certificate updated. -/
def putAndUpdate (putFaults : PutStep → Option Fault) (update : UpdateFaults)
    (bundle : CustomCertificateBundle) (uuid : Uuid) (id : ℕ) (actor : Actor)
    (payload : CertificatePayload) : Action ManagerState CertificatePayload := do
  onDisk (put putFaults bundle uuid id)
  let result ← updateRecord update actor id payload
  found id result

/-- The material of a row that has just been created is published, and the row activated; when one
of them fails, both go. -/
def publishCreated (putFaults : PutStep → Option Fault) (activate : UpdateFaults)
    (deleteFaults : StoreStep → Option Fault) (remove : Option Exc)
    (bundle : CustomCertificateBundle) (uuid : Uuid) (generated : ℕ) (actor : Actor) :
    Action ManagerState CertificatePayload :=
  Action.undoing
    (putAndUpdate putFaults activate bundle uuid generated actor { status := .of "active" })
    (do
      let _ ← onDisk (delete deleteFaults generated)
      onRows remove fun rows => pure (rows.pop generated))

/-- `upload`; the validator reports of the bundle, or raises, and the database generates the id of a
new row. -/
def upload (validated : Result Tables.CertificateInfo) (faults : UploadFaults) (uuid : Uuid)
    (generated : ℕ) (actor : Actor) (owner : Option ℕ) (members : Dict String Json)
    (bundle : CustomCertificateBundle) (niceName : String) (certificateId : Option ℕ) :
    Action ManagerState CertificatePayload := do
  let info ← Action.lift validated
  let payload := uploadPayload info niceName owner members
  match certificateId with
  | none => do
    onRows faults.create
      (Tables.createCertificate actor generated { payload with status := .of "pending" })
    publishCreated faults.put faults.activate faults.delete faults.remove bundle uuid generated
      actor
  | some id => do
    let previous ← getRecord faults.readPrevious id
    let previous ← found id previous
    let record ← updateRecord faults.update actor id payload
    let record ← found id record
    Action.undoing (onDisk (put faults.put bundle uuid id))
      (do
        let _ ← updateRecord faults.restore none id previous
        pure ())
    pure record

/-- The steps of a removal that may fail. -/
structure RemovalFaults where
  detach : StoreStep → Option Fault
  remove : Option Exc
  rollback : StoreStep → Option Fault
  commit : StoreStep → Option Fault

/-- `delete`; the four collections are listed by the certificates that their rows show. -/
def removeCertificate (collections : List (Result (List (Option ℕ)))) (faults : RemovalFaults)
    (uuid : Uuid) (id : ℕ) : Action ManagerState Unit := do
  Action.lift (collections.forM fun listed => do
    let shown ← listed
    raiseIf (shown.any fun certificate => certificate.getD 0 = id)
      (.valueError "certificate is still assigned to an active resource"))
  let quarantine ← onDisk (detach faults.detach id uuid)
  Action.undoing
    (onRows faults.remove fun rows => do
      raiseIf (id ∉ rows) (.fileNotFoundError s!"certificate {id} was not found")
      pure (rows.pop id))
    (onDisk (rollbackDetach faults.rollback id quarantine))
  onDisk (commitDetach faults.commit quarantine)

/-- The files of a certificate that `archive` packs, in the order of the archive. -/
def archivedNames : List String := ["cert.pem", "chain.pem", "fullchain.pem", "privkey.pem"]

/-- `archive`: the members of the archive, with their texts. -/
def archive (id : ℕ) : Action Disk (List (String × String)) := fun d =>
  match directoryName "npm-" "" id with
  | .error e => (.error e, d)
  | .ok target =>
    match d.root.get? target with
    | none => (.error (.fileNotFoundError s!"certificate material {id} was not found"), d)
    | some directory =>
      (.ok (archivedNames.filterMap fun name => (directory.get? name).map fun s => (name, s)), d)

/-- `download`. -/
def download (fault : Option Exc) (id : ℕ) : Action ManagerState (List (String × String)) := do
  let record ← getRecord fault id
  let _ ← found id record
  onDisk (archive id)

/-! ## Runs -/

/-- A call of the manager. -/
inductive ManagerCall
  | upload (validated : Result Tables.CertificateInfo) (faults : UploadFaults) (uuid : Uuid)
      (generated : ℕ) (actor : Actor) (owner : Option ℕ) (members : Dict String Json)
      (bundle : CustomCertificateBundle) (niceName : String) (certificateId : Option ℕ)
  | request (issuer : Option Issuer) (faults : RequestFaults) (uuid : Uuid) (generated : ℕ)
      (actor : Actor) (owner : Option ℕ) (members : Dict String Json)
      (req : CertificateRequest) (credentialsFile : Option String)
  | renew (str : Json → String) (issuer : Option Issuer) (due : Json → Result Bool)
      (faults : RenewalFaults) (names : RenewalNames) (id : ℕ) (force : Bool) (actor : Actor)
  | remove (collections : List (Result (List (Option ℕ)))) (faults : RemovalFaults) (uuid : Uuid)
      (id : ℕ)

/-- What a call does. -/
def ManagerCall.run : ManagerCall → Action ManagerState Unit
  | .upload validated faults uuid generated actor owner members bundle niceName certificateId => do
    let _ ← Certificates.upload validated faults uuid generated actor owner members bundle niceName
      certificateId
    pure ()
  | .request issuer faults uuid generated actor owner members req credentialsFile => do
    let _ ← Certificates.request issuer faults uuid generated actor owner members req
      credentialsFile
    pure ()
  | .renew str issuer due faults names id force actor => do
    let _ ← Certificates.renew str issuer due faults names id force actor
    pure ()
  | .remove collections faults uuid id => removeCertificate collections faults uuid id

/-- Nothing fails behind the point of a call from which nothing is undone, nor in what it undoes. -/
def ManagerCall.Recovers : ManagerCall → Prop
  | .upload _ faults _ _ _ _ _ _ _ _ =>
    PutRecovers faults.put ∧ ∀ step, faults.delete step = none
  | .request _ faults _ _ _ _ _ _ _ => PutRecovers faults.put ∧ ∀ step, faults.delete step = none
  | .renew _ _ _ faults _ _ _ _ =>
    PutRecovers faults.put ∧ (∀ step, faults.delete step = none) ∧
      (∀ step, faults.rollback step = none) ∧ faults.commit .remove = none
  | .remove _ faults _ _ =>
    (∀ step, faults.rollback step = none) ∧ ∀ step, faults.commit step = none

/-- What the issuer returned for the call that has been added to the record of its calls. -/
def issuedBetween (issuer : Option Issuer) (s s' : ManagerState) :
    Option CustomCertificateBundle := do
  let call ← (s'.issuerCalls.drop s.issuerCalls.length).getLast?
  let issue ← issuer
  let issued ← (issue call).toOption
  pure (bundleOf issued)

/-- The bundles that are published, by certificate. -/
abbrev Published := ℕ → Option CustomCertificateBundle

/-- What is published behind a call that returns. -/
def ManagerCall.publishes (p : Published) (s s' : ManagerState) : ManagerCall → Published
  | .upload _ _ _ generated _ _ _ bundle _ certificateId =>
    Function.update p (certificateId.getD generated) (some bundle)
  | .request issuer _ _ generated _ _ _ _ _ =>
    Function.update p generated (issuedBetween issuer s s')
  | .renew _ issuer _ _ _ id _ _ =>
    -- a certificate that does not expire soon is left alone
    (issuedBetween issuer s s').elim p fun bundle => Function.update p id (some bundle)
  | .remove _ _ _ id => Function.update p id none

/-- A run of calls that recover, from an empty material root, with what the calls that returned have
published.  Other operations on the table of the certificates remove none of them. -/
inductive ManagerRun : Published → ManagerState → Prop
  | start (rows : Dict ℕ CertificateRow) (calls : List IssuerCall) (former : List MaterialRoot) :
    ManagerRun (fun _ => none) ⟨rows, ⟨Dict.empty, former⟩, calls⟩
  | edits {p : Published} {s : ManagerState} (rows : Dict ℕ CertificateRow) (h : ManagerRun p s)
      (hkept : ∀ id ∈ s.rows, id ∈ rows) : ManagerRun p { s with rows := rows }
  | returns {p : Published} {s s' : ManagerState} (call : ManagerCall) (h : ManagerRun p s)
      (hrecovers : call.Recovers) (hrun : call.run s = (.ok (), s')) :
      ManagerRun (call.publishes p s s') s'
  | raises {p : Published} {s s' : ManagerState} {e : Exc} (call : ManagerCall)
      (h : ManagerRun p s) (hrecovers : call.Recovers) (hrun : call.run s = (.error e, s')) :
      ManagerRun p s'

/-! ## The calls of the manager -/

/-- What an operation on the table leaves: the disk is the same, and no certificate is gone. -/
def RowsWritten (s s' : ManagerState) : Prop := s'.disk = s.disk ∧ ∀ id ∈ s.rows, id ∈ s'.rows

instance : Std.Refl RowsWritten := ⟨fun _ => ⟨rfl, fun _ h => h⟩⟩

instance : IsTrans ManagerState RowsWritten :=
  ⟨fun _ _ _ h h' => ⟨h'.1.trans h.1, fun id hid => h'.2 id (h.2 id hid)⟩⟩

section Rows

variable {s s' : ManagerState} {id : ℕ} {actor : Actor} {payload : CertificatePayload}

lemma rowsWritten_onRows {fault : Option Exc}
    {op : Dict ℕ CertificateRow → Result (Dict ℕ CertificateRow)}
    (h : ∀ rows rows', op rows = .ok rows' → ∀ id ∈ rows, id ∈ rows') :
    Action.Preserves RowsWritten (onRows fault op) := by
  intro s
  unfold onRows
  split
  · rename_i rows hop
    exact ⟨rfl, h _ _ hop⟩
  · exact refl_of RowsWritten s
  · exact refl_of RowsWritten s

lemma rowsWritten_getRecord {fault : Option Exc} :
    Action.Preserves RowsWritten (getRecord fault id) := by
  intro s
  unfold getRecord
  split <;> exact refl_of RowsWritten s

lemma rowsWritten_updateRecord {faults : UpdateFaults} :
    Action.Preserves RowsWritten (updateRecord faults actor id payload) := by
  refine (rowsWritten_onRows fun rows rows' hrows id' hid' => ?_).bind fun _ =>
    rowsWritten_getRecord
  rcases Tables.updateCertificate_cases hrows with ⟨rfl, -⟩ | ⟨stored, row, -, rfl, -⟩
  · exact hid'
  · exact Dict.mem_set.mpr (.inr hid')

lemma rowsWritten_issueWith {issuer : Option Issuer} {call : IssuerCall} :
    Action.Preserves RowsWritten (issueWith issuer call) := by
  intro s
  rcases issuer with _ | issue
  · exact refl_of RowsWritten s
  · exact ⟨rfl, fun _ h => h⟩

lemma rowsWritten_found {record : Option CertificatePayload} :
    Action.Preserves RowsWritten (found id record) := by
  unfold found
  split
  · exact Action.Preserves.raise _
  · exact Action.Preserves.pure _

/-- A transaction that fails is rolled back. -/
lemma eq_of_onRows_error {fault : Option Exc}
    {op : Dict ℕ CertificateRow → Result (Dict ℕ CertificateRow)} {e : Exc}
    (h : onRows fault op s = (.error e, s')) : s' = s := by
  unfold onRows at h
  split at h
  · cases (Prod.mk.inj h).1
  · exact (Prod.mk.inj h).2.symm
  · exact (Prod.mk.inj h).2.symm

/-- A record that an update has shown is there. -/
lemma mem_of_updateRecord {faults : UpdateFaults} {record : CertificatePayload}
    (h : updateRecord faults actor id payload s = (.ok (some record), s')) : id ∈ s'.rows := by
  simp only [updateRecord, Action.bind_eq_ok_iff, getRecord_eq_ok_iff] at h
  obtain ⟨_, s₁, -, -, hrecord, rfl⟩ := h
  obtain ⟨row, hrow, -⟩ := Option.map_eq_some_iff.mp hrecord
  exact Dict.mem_iff.mpr ⟨row, hrow⟩

end Rows

section Calls

variable {s s' : ManagerState} {id : ℕ} {uuid : Uuid} {actor : Actor}
variable {bundle : CustomCertificateBundle}

/-- The material is published and the row updated, or the material may be published and the call
raises. -/
lemma putAndUpdate_cases {putFaults : PutStep → Option Fault} (hput : PutRecovers putFaults)
    (hstage : stageName id uuid ∉ s.disk.root) (hbackup : backupName id ∉ s.disk.root)
    (update : UpdateFaults) (bundle : CustomCertificateBundle) (actor : Actor)
    (payload : CertificatePayload) :
    (∃ record s', putAndUpdate putFaults update bundle uuid id actor payload s = (.ok record, s') ∧
      contents s'.disk.root = Function.update (contents s.disk.root) (liveName id)
        (some (material bundle).get?) ∧
      (1 ≤ id ∧ id ∈ s'.rows) ∧ ∀ id' ∈ s.rows, id' ∈ s'.rows) ∨
    (∃ e s', putAndUpdate putFaults update bundle uuid id actor payload s = (.error e, s') ∧
      (contents s'.disk.root = contents s.disk.root ∨ 1 ≤ id ∧ contents s'.disk.root
        = Function.update (contents s.disk.root) (liveName id) (some (material bundle).get?)) ∧
      ∀ id' ∈ s.rows, id' ∈ s'.rows) := by
  have hcases : (∃ e d', put putFaults bundle uuid id s.disk = (.error e, d') ∧ _) ∨ _ :=
    contents_put hput hstage hbackup
  rcases hcases with ⟨e, d', hrun, hcontents⟩ | ⟨hid, d', hrun, hcontents⟩
  · have herror : onDisk (put putFaults bundle uuid id) s = (.error e, { s with disk := d' }) := by
      rw [onDisk, hrun]
    exact .inr ⟨e, _, Action.bind_of_error herror, .inl hcontents, fun _ h => h⟩
  have hok : onDisk (put putFaults bundle uuid id) s = (.ok (), { s with disk := d' }) := by
    rw [onDisk, hrun]
  set s₁ : ManagerState := { s with disk := d' } with hs₁
  have hwritten : RowsWritten s₁ (updateRecord update actor id payload s₁).2 :=
    rowsWritten_updateRecord s₁
  rcases hupdate : updateRecord update actor id payload s₁ with ⟨e | record, s₂⟩
  · rw [hupdate] at hwritten
    refine .inr ⟨e, s₂, (Action.bind_of_ok hok).trans (Action.bind_of_error hupdate),
      .inr ⟨hid, ?_⟩, hwritten.2⟩
    rw [hwritten.1, hcontents]
  rw [hupdate] at hwritten
  have hrest : putAndUpdate putFaults update bundle uuid id actor payload s = found id record s₂ :=
    (Action.bind_of_ok hok).trans (Action.bind_of_ok hupdate)
  have hcontents₂ : contents s₂.disk.root = Function.update (contents s.disk.root) (liveName id)
      (some (material bundle).get?) := by
    rw [hwritten.1, hcontents]
  rcases record with _ | record
  · exact .inr ⟨_, s₂, hrest, .inr ⟨hid, hcontents₂⟩, hwritten.2⟩
  · exact .inl ⟨record, s₂, hrest, hcontents₂, ⟨hid, mem_of_updateRecord hupdate⟩, hwritten.2⟩

/-- The material of a new row is published, or the row and its material are gone. -/
lemma publishCreated_cases {putFaults : PutStep → Option Fault} (hput : PutRecovers putFaults)
    {deleteFaults : StoreStep → Option Fault} (hdelete : ∀ step, deleteFaults step = none)
    (htidy : Tidy s.disk.root) (hlive : liveName id ∉ s.disk.root) (activate : UpdateFaults)
    (remove : Option Exc) (bundle : CustomCertificateBundle) (uuid : Uuid) (actor : Actor) :
    (∃ record s', publishCreated putFaults activate deleteFaults remove bundle uuid id actor s
        = (.ok record, s') ∧
      contents s'.disk.root = Function.update (contents s.disk.root) (liveName id)
        (some (material bundle).get?) ∧
      (1 ≤ id ∧ id ∈ s'.rows) ∧ ∀ id' ∈ s.rows, id' ∈ s'.rows) ∨
    (∃ e s', publishCreated putFaults activate deleteFaults remove bundle uuid id actor s
        = (.error e, s') ∧
      contents s'.disk.root = contents s.disk.root ∧
      ∀ id' ∈ s.rows, id' ≠ id → id' ∈ s'.rows) := by
  rcases putAndUpdate_cases hput (htidy.hidden_not_mem _ _) (htidy.hidden_not_mem _ _) activate
    bundle actor { status := .of "active" } with
      ⟨record, s₁, hrun, hcontents, hid, hkept⟩ | ⟨e, s₁, hrun, hcontents, hkept⟩
  · exact .inl ⟨record, s₁, Action.undoing_of_ok hrun, hcontents, hid, hkept⟩
  obtain ⟨e', he'⟩ := Action.undoing_of_error (do
    let _ ← onDisk (delete deleteFaults id)
    onRows remove fun rows => pure (rows.pop id)) hrun
  refine .inr ⟨e', _, he', ?_⟩
  -- the material is removed, and then the row
  have hremoved : contents (delete deleteFaults id s₁.disk).2.root = contents s.disk.root := by
    rcases hcontents with hsame | ⟨hpos, hnew⟩
    · rw [delete_of_not_mem deleteFaults, hsame]
      rw [← contents_eq_none_iff, hsame, contents_eq_none_iff]
      exact hlive
    · obtain ⟨b, d', hd', hgone⟩ := contents_delete hdelete hpos s₁.disk
      rw [hd', hgone, hnew, Function.update_idem, update_contents_of_not_mem hlive]
  have hpopped : ∀ t : ManagerState, t.rows = s₁.rows →
      (onRows remove (fun rows => pure (rows.pop id)) t).2.disk = t.disk ∧
      ∀ id' ∈ s.rows, id' ≠ id →
        id' ∈ (onRows remove (fun rows => pure (rows.pop id)) t).2.rows := by
    intro t ht
    rcases remove with _ | e
    · exact ⟨rfl, fun id' hid' hne => Dict.mem_pop.mpr ⟨hne, ht ▸ hkept id' hid'⟩⟩
    · exact ⟨rfl, fun id' hid' _ => ht ▸ hkept id' hid'⟩
  rcases hdel : onDisk (delete deleteFaults id) s₁ with ⟨e'' | b, s₂⟩
  · obtain ⟨-, rfl⟩ := Prod.mk.inj hdel
    rw [Action.bind_of_error hdel]
    exact ⟨hremoved, fun id' hid' _ => hkept id' hid'⟩
  · obtain ⟨-, rfl⟩ := Prod.mk.inj hdel
    rw [Action.bind_of_ok hdel]
    obtain ⟨hdisk, hrows⟩ := hpopped { s₁ with disk := (delete deleteFaults id s₁.disk).2 } rfl
    exact ⟨by rw [hdisk]; exact hremoved, hrows⟩

/-- Where the material of a certificate is while it is replaced or removed: there is none, or it is
in quarantine. -/
def Detached (view : String → Option (String → Option String)) (id : ℕ) (uuid : Uuid)
    (quarantine : Option String) (root : MaterialRoot) : Prop :=
  (quarantine = none ∧ view (liveName id) = none ∧ contents root = view) ∨
  (quarantine = some (quarantineName id uuid) ∧ 1 ≤ id ∧ view (liveName id) ≠ none ∧
    contents root = Function.update (Function.update view (liveName id) none)
      (quarantineName id uuid) (view (liveName id)))

lemma detach_detached (faults : StoreStep → Option Fault) (htidy : Tidy s.disk.root) :
    (∃ e, onDisk (detach faults id uuid) s = (.error e, s)) ∨
    ∃ quarantine s', onDisk (detach faults id uuid) s = (.ok quarantine, s') ∧ s'.rows = s.rows ∧
      Detached (contents s.disk.root) id uuid quarantine s'.disk.root := by
  rcases contents_detach (d := s.disk) faults (htidy.hidden_not_mem id ("-delete-" ++ uuid.text))
    with ⟨e, he⟩ | ⟨hlive, hd⟩ | ⟨hid, hlive, d', hd', hcontents⟩
  · refine .inl ⟨e, ?_⟩
    rw [onDisk, he]
  · refine .inr ⟨none, s, ?_, rfl, .inl ⟨rfl, contents_eq_none_iff.mpr hlive, rfl⟩⟩
    rw [onDisk, hd]
  · refine .inr ⟨_, { s with disk := d' }, ?_, rfl, .inr ⟨rfl, hid, ?_, hcontents⟩⟩
    · rw [onDisk, hd']
    · exact fun h => contents_eq_none_iff.mp h hlive

/-- Material in quarantine is moved back when nothing is in its place. -/
lemma rollback_detached {view : String → Option (String → Option String)}
    {faults : StoreStep → Option Fault} (hfaults : ∀ step, faults step = none)
    {quarantine : Option String} {d : Disk} (hview : view (quarantineName id uuid) = none)
    (h : Detached view id uuid quarantine d.root) :
    contents (rollbackDetach faults id quarantine d).2.root = view := by
  rcases h with ⟨rfl, -, hcontents⟩ | ⟨rfl, hid, hlive, hcontents⟩
  · exact hcontents
  have hne : liveName id ≠ quarantineName id uuid := liveName_ne_hidden _ _ _
  have hquarantine : quarantineName id uuid ∈ d.root := by
    by_contra hno
    rw [← contents_eq_none_iff, hcontents, Function.update_self] at hno
    exact hlive hno
  have hgone : liveName id ∉ d.root := by
    rw [← contents_eq_none_iff, hcontents, Function.update_of_ne hne, Function.update_self]
  obtain ⟨d', hd', hback⟩ := contents_rollbackDetach hfaults hid hquarantine hgone
  rw [hd', hback, hcontents, Function.update_idem, Function.update_self]
  funext name
  by_cases hname : name = liveName id
  · rw [hname, Function.update_self]
  rw [Function.update_of_ne hname]
  by_cases hname' : name = quarantineName id uuid
  · rw [hname', Function.update_self, hview]
  · rw [Function.update_of_ne hname', Function.update_of_ne hname]

/-- Material in quarantine is removed, and nothing is left. -/
lemma commit_detached {view : String → Option (String → Option String)}
    {faults : StoreStep → Option Fault} (hfaults : ∀ step, faults step = none)
    {quarantine : Option String} {d : Disk} (hview : view (quarantineName id uuid) = none)
    (h : Detached view id uuid quarantine d.root) :
    ∃ d', commitDetach faults quarantine d = (.ok (), d') ∧
      contents d'.root = Function.update view (liveName id) none := by
  rcases h with ⟨rfl, hlive, hcontents⟩ | ⟨rfl, -, -, hcontents⟩
  · exact ⟨d, rfl, by rw [hcontents, ← hlive, Function.update_eq_self]⟩
  rcases contents_commitDetach (hfaults .remove) (quarantineName id uuid) d with
    ⟨d', hd', hgone⟩ | ⟨hfind, -⟩
  · have hne : quarantineName id uuid ≠ liveName id := (liveName_ne_hidden _ _ _).symm
    have hkept : Function.update view (liveName id) none (quarantineName id uuid) = none := by
      rw [Function.update_of_ne hne, hview]
    refine ⟨d', hd', ?_⟩
    rw [hgone, hcontents, Function.update_idem]
    exact Function.update_eq_self_iff.mpr hkept.symm
  · exact absurd (hfaults .find) hfind

/-- What `_replace_acme` undoes, wherever it has raised. -/
lemma putBack_detached {view : String → Option (String → Option String)} {faults : RenewalFaults}
    (hdelete : ∀ step, faults.delete step = none) (hrollback : ∀ step, faults.rollback step = none)
    {quarantine : Option String} {root : MaterialRoot}
    (hview : view (quarantineName id uuid) = none) (h : Detached view id uuid quarantine root)
    {new : Option (String → Option String)}
    (hs : contents s.disk.root = contents root ∨ 1 ≤ id ∧
      contents s.disk.root = Function.update (contents root) (liveName id) new) :
    contents (putBack faults id quarantine s).2.disk.root = view ∧
      (putBack faults id quarantine s).2.rows = s.rows := by
  have hne : liveName id ≠ quarantineName id uuid := liveName_ne_hidden _ _ _
  have hgone : contents root (liveName id) = none := by
    rcases h with ⟨-, hlive, hcontents⟩ | ⟨-, -, -, hcontents⟩
    · rw [hcontents, hlive]
    · rw [hcontents, Function.update_of_ne hne, Function.update_self]
  -- first the new material goes
  have hdeleted : contents (delete faults.delete id s.disk).2.root = contents root := by
    rcases hs with hsame | ⟨hid, hnew⟩
    · rw [delete_of_not_mem _ (contents_eq_none_iff.mp (hsame ▸ hgone)), hsame]
    · obtain ⟨b, d', hd', hcontents⟩ := contents_delete hdelete hid s.disk
      rw [hd', hcontents, hnew, Function.update_idem, ← hgone, Function.update_eq_self]
  have hdetached : Detached view id uuid quarantine (delete faults.delete id s.disk).2.root := by
    simpa only [Detached, hdeleted] using h
  rcases hrun : onDisk (delete faults.delete id) s with ⟨e | b, s₁⟩
  · obtain ⟨herror, rfl⟩ := Prod.mk.inj hrun
    rw [putBack, Action.bind_of_error hrun]
    refine ⟨?_, rfl⟩
    rcases h with ⟨-, -, hcontents⟩ | ⟨-, hid, -, -⟩
    · exact hdeleted.trans hcontents
    · -- where there is a quarantine, the removal does not fail
      obtain ⟨b, d', hd', -⟩ := contents_delete hdelete hid s.disk
      rw [hd'] at herror
      cases herror
  · obtain ⟨-, rfl⟩ := Prod.mk.inj hrun
    rw [putBack, Action.bind_of_ok hrun]
    exact ⟨rollback_detached hrollback hview hdetached, rfl⟩

/-- New material takes the place of the former, or the former is back. -/
lemma replaceDetached_cases {view : String → Option (String → Option String)}
    {faults : RenewalFaults} {names : RenewalNames} (hput : PutRecovers faults.put)
    (hdelete : ∀ step, faults.delete step = none) (hrollback : ∀ step, faults.rollback step = none)
    (hcommit : faults.commit .remove = none)
    (hview : ∀ suffix, view (".npm-" ++ toString id ++ suffix) = none)
    {quarantine : Option String} (h : Detached view id names.quarantine quarantine s.disk.root)
    (actor : Actor) (issued : IssuedCertificate) (previous : Option CertificatePayload) :
    (∃ record s', replaceDetached faults names id actor issued previous quarantine s
        = (.ok record, s') ∧
      contents s'.disk.root
        = Function.update view (liveName id) (some (material (bundleOf issued)).get?) ∧
      (1 ≤ id ∧ id ∈ s'.rows) ∧ ∀ id' ∈ s.rows, id' ∈ s'.rows) ∨
    (∃ e s', replaceDetached faults names id actor issued previous quarantine s = (.error e, s') ∧
      contents s'.disk.root = view ∧ ∀ id' ∈ s.rows, id' ∈ s'.rows) := by
  have hne : liveName id ≠ quarantineName id names.quarantine := liveName_ne_hidden _ _ _
  -- the quarantine is the only hidden directory
  have hhidden : ∀ suffix, ".npm-" ++ toString id ++ suffix ≠ quarantineName id names.quarantine →
      ".npm-" ++ toString id ++ suffix ∉ s.disk.root := by
    intro suffix hsuffix
    rw [← contents_eq_none_iff]
    rcases h with ⟨-, -, hcontents⟩ | ⟨-, -, -, hcontents⟩
    · rw [hcontents, hview]
    · rw [hcontents, Function.update_of_ne hsuffix,
        Function.update_of_ne (liveName_ne_hidden _ _ _).symm, hview]
  rcases putAndUpdate_cases hput
      (hhidden _ (stageName_ne_quarantineName id names.stage names.quarantine))
      (hhidden _ (backupName_ne_quarantineName id names.quarantine)) faults.update
      (bundleOf issued) actor (renewedPayload issued) with
    ⟨record, s₁, hrun, hcontents, hid, hkept⟩ | ⟨e, s₁, hrun, hcontents, hkept⟩
  swap
  · obtain ⟨e', he'⟩ := Action.undoing_of_error (putBack faults id quarantine) hrun
    obtain ⟨hback, hrows⟩ := putBack_detached hdelete hrollback (hview _) h hcontents
    exact .inr ⟨e', _, Action.bind_of_error he', hback, fun id' hid' => hrows ▸ hkept id' hid'⟩
  have hpublished : Action.undoing (publishIssued faults names id actor issued)
      (putBack faults id quarantine) s = (.ok record, s₁) := Action.undoing_of_ok hrun
  rw [replaceDetached, Action.bind_of_ok hpublished]
  -- the former material is removed
  have hcommitted : (∃ d', onDisk (commitDetach faults.commit quarantine) s₁
        = (.ok (), { s₁ with disk := d' }) ∧ contents d'.root
          = Function.update view (liveName id) (some (material (bundleOf issued)).get?)) ∨
      ∃ e, onDisk (commitDetach faults.commit quarantine) s₁ = (.error e, s₁) := by
    rcases h with ⟨rfl, -, hview'⟩ | ⟨rfl, -, -, hview'⟩
    · exact .inl ⟨s₁.disk, rfl, by rw [hcontents, hview']⟩
    rcases contents_commitDetach hcommit (quarantineName id names.quarantine) s₁.disk with
      ⟨d', hd', hgone⟩ | ⟨-, e, he⟩
    · refine .inl ⟨d', by rw [onDisk, hd'], ?_⟩
      rw [hgone, hcontents, hview']
      funext name
      by_cases hname : name = quarantineName id names.quarantine
      · rw [hname, Function.update_self, Function.update_of_ne hne.symm]
        exact (hview _).symm
      rw [Function.update_of_ne hname]
      by_cases hname' : name = liveName id
      · rw [hname', Function.update_self, Function.update_self]
      · rw [Function.update_of_ne hname', Function.update_of_ne hname', Function.update_of_ne hname,
          Function.update_of_ne hname']
    · exact .inr ⟨e, by rw [onDisk, he]⟩
  rcases hcommitted with ⟨d', hd', hnew⟩ | ⟨e, he⟩
  · exact .inl ⟨record, _, Action.bind_of_ok (Action.undoing_of_ok hd'), hnew, hid, hkept⟩
  · -- the quarantine cannot be looked for, and everything is undone
    obtain ⟨e', he'⟩ := Action.undoing_of_error (do
      putBack faults id quarantine
      let _ ← updateRecord faults.restore none id (previous.getD {})
      pure ()) he
    obtain ⟨hback, hrows⟩ := putBack_detached hdelete hrollback (hview _) h
      (.inr ⟨hid.1, hcontents⟩)
    have hwritten : RowsWritten (putBack faults id quarantine s₁).2 ((do
        putBack faults id quarantine
        let _ ← updateRecord faults.restore none id (previous.getD {})
        pure ()) s₁).2 :=
      Action.Preserves.bind_snd (fun _ =>
        rowsWritten_updateRecord.bind fun _ => Action.Preserves.pure ()) s₁
    refine .inr ⟨e', _, Action.bind_of_error he', ?_, fun id' hid' => hwritten.2 id' ?_⟩
    · rw [hwritten.1, hback]
    · rw [hrows]
      exact hkept id' hid'

end Calls

/-! ## What a run publishes -/

/-- The material root holds what has been published, and nothing else. -/
structure Holds (p : Published) (s : ManagerState) : Prop where
  live : ∀ id, contents s.disk.root (liveName id) = (p id).map fun bundle => (material bundle).get?
  tidy : Tidy s.disk.root
  known : ∀ id, p id ≠ none → 1 ≤ id ∧ id ∈ s.rows

namespace Holds

variable {p : Published} {s s' : ManagerState} {id : ℕ}

lemma hidden (h : Holds p s) (id : ℕ) (suffix : String) :
    contents s.disk.root (".npm-" ++ toString id ++ suffix) = none :=
  contents_eq_none_iff.mpr (h.tidy.hidden_not_mem id suffix)

lemma tidy_of_contents (h : Holds p s) {new : Option (String → Option String)}
    (hcontents : contents s'.disk.root
      = Function.update (contents s.disk.root) (liveName id) new) : Tidy s'.disk.root := by
  intro name hname
  by_cases hlive : name = liveName id
  · exact ⟨id, hlive⟩
  refine h.tidy name ?_
  by_contra hno
  rw [← contents_eq_none_iff] at hno
  refine contents_eq_none_iff.mp ?_ hname
  rw [hcontents, Function.update_of_ne hlive, hno]

lemma tidy_of_same (h : Holds p s) (hcontents : contents s'.disk.root = contents s.disk.root) :
    Tidy s'.disk.root := by
  have hupdate : contents s'.disk.root =
      Function.update (contents s.disk.root) (liveName 0) (contents s.disk.root (liveName 0)) := by
    rw [hcontents, Function.update_eq_self]
  exact h.tidy_of_contents hupdate

lemma same (h : Holds p s) (hcontents : contents s'.disk.root = contents s.disk.root)
    (hkept : ∀ id ∈ s.rows, id ∈ s'.rows) : Holds p s' where
  live id := by rw [hcontents, h.live]
  tidy := h.tidy_of_same hcontents
  known id hid := ⟨(h.known id hid).1, hkept id (h.known id hid).2⟩

lemma update (h : Holds p s) {bundle : Option CustomCertificateBundle}
    (hcontents : contents s'.disk.root = Function.update (contents s.disk.root) (liveName id)
      (bundle.map fun bundle => (material bundle).get?))
    (hid : bundle ≠ none → 1 ≤ id ∧ id ∈ s'.rows) (hkept : ∀ id' ∈ s.rows, id' ≠ id → id' ∈ s'.rows) :
    Holds (Function.update p id bundle) s' where
  live id' := by
    rw [hcontents]
    by_cases hid' : id' = id
    · rw [hid', Function.update_self, Function.update_self]
    · rw [Function.update_of_ne fun heq => hid' (liveName_injective heq),
        Function.update_of_ne hid', h.live]
  tidy := h.tidy_of_contents hcontents
  known id' hsome := by
    by_cases hid' : id' = id
    · subst hid'
      rw [Function.update_self] at hsome
      exact hid hsome
    · rw [Function.update_of_ne hid'] at hsome
      exact ⟨(h.known id' hsome).1, hkept id' (h.known id' hsome).2 hid'⟩

lemma publish (h : Holds p s) {bundle : CustomCertificateBundle}
    (hcontents : contents s'.disk.root = Function.update (contents s.disk.root) (liveName id)
      (some (material bundle).get?))
    (hid : 1 ≤ id ∧ id ∈ s'.rows) (hkept : ∀ id' ∈ s.rows, id' ∈ s'.rows) :
    Holds (Function.update p id (some bundle)) s' :=
  h.update hcontents (fun _ => hid) fun id' hid' _ => hkept id' hid'

end Holds

/-- What a call does to the material root: it publishes `q` when it returns, and nothing when it
raises. -/
structure Keeps {α : Type} (p : Published) (q : ManagerState → Published)
    (out : Result α × ManagerState) : Prop where
  returned : ∀ a, out.1 = .ok a → Holds (q out.2) out.2
  raised : ∀ e, out.1 = .error e → Holds p out.2

section Keeps

variable {α : Type} {p : Published} {q : ManagerState → Published} {s s' : ManagerState}
variable {out : Result α × ManagerState}

lemma Keeps.of_error {e : Exc} (hout : out = (.error e, s')) (h : Holds p s') :
    Keeps p q out where
  returned a ha := by
    rw [hout] at ha
    cases ha
  raised _ _ := by
    rw [hout]
    exact h

lemma Keeps.of_ok {a : α} (hout : out = (.ok a, s')) (h : Holds (q s') s') : Keeps p q out where
  returned _ _ := by
    rw [hout]
    exact h
  raised e he := by
    rw [hout] at he
    cases he

lemma Keeps.map {x : Action ManagerState α} (h : Keeps p q (x s)) :
    Keeps p q ((do
      let _ ← x
      pure () : Action ManagerState Unit) s) := by
  rcases hx : x s with ⟨e | a, s'⟩
  · refine .of_error (Action.bind_of_error hx) ?_
    rw [hx] at h
    exact h.raised e rfl
  · refine .of_ok (Action.bind_of_ok hx) ?_
    rw [hx] at h
    exact h.returned a rfl

lemma Holds.written (h : Holds p s) (hwritten : RowsWritten s s') : Holds p s' :=
  h.same (by rw [hwritten.1]) hwritten.2

/-- A step that writes no material leaves a call to what follows it. -/
lemma Keeps.bind {β : Type} {x : Action ManagerState β} {f : β → Action ManagerState α}
    (hx : Action.Preserves RowsWritten x) (h : Holds p s)
    (hf : ∀ b s', x s = (.ok b, s') → Holds p s' → Keeps p q (f b s')) :
    Keeps p q ((x >>= f) s) := by
  have hwritten := hx s
  rcases hrun : x s with ⟨e | b, s'⟩
  · rw [hrun] at hwritten
    exact .of_error (Action.bind_of_error hrun) (h.written hwritten)
  · rw [hrun] at hwritten
    rw [Action.bind_of_ok hrun]
    exact hf b s' hrun (h.written hwritten)

lemma keeps_publishCreated {putFaults : PutStep → Option Fault} (hput : PutRecovers putFaults)
    {deleteFaults : StoreStep → Option Fault} (hdelete : ∀ step, deleteFaults step = none)
    {id : ℕ} (h : Holds p s) (hid : p id = none) (activate : UpdateFaults)
    (remove : Option Exc) (bundle : CustomCertificateBundle) (uuid : Uuid) (actor : Actor) :
    Keeps p (fun _ => Function.update p id (some bundle))
      (publishCreated putFaults activate deleteFaults remove bundle uuid id actor s) := by
  have hlive : liveName id ∉ s.disk.root := by
    rw [← contents_eq_none_iff, h.live, hid]
    rfl
  rcases publishCreated_cases hput hdelete h.tidy hlive activate remove bundle uuid actor with
    ⟨record, s', hrun, hcontents, hmem, hkept⟩ | ⟨e, s', hrun, hcontents, hkept⟩
  · exact .of_ok hrun (h.publish hcontents hmem hkept)
  · refine .of_error hrun
      { live := fun id' => by rw [hcontents, h.live]
        tidy := h.tidy_of_same hcontents
        known := fun id' hid' =>
          ⟨(h.known id' hid').1, hkept id' (h.known id' hid').2 fun heq => hid' (heq ▸ hid)⟩ }

/-- A row is created, under an id that has published nothing. -/
lemma onRows_create {fault : Option Exc} {actor : Actor} {id : ℕ} {payload : CertificatePayload}
    (h : Holds p s) :
    (∃ e, onRows fault (Tables.createCertificate actor id payload) s = (.error e, s)) ∨
    ∃ s', onRows fault (Tables.createCertificate actor id payload) s = (.ok (), s') ∧
      p id = none ∧ Holds p s' := by
  rcases hrun : onRows fault (Tables.createCertificate actor id payload) s with ⟨e | u, s'⟩
  · exact .inl ⟨e, congrArg _ (eq_of_onRows_error hrun)⟩
  · obtain ⟨-, rows, hrows, rfl⟩ := onRows_eq_ok_iff.mp hrun
    obtain ⟨row, rfl, hnew, -⟩ := Tables.createCertificate_spec hrows
    refine .inr ⟨_, rfl, by_contra fun hsome => ?_,
      h.same rfl fun id' hid' => Dict.mem_set.mpr (.inr hid')⟩
    exact Dict.get?_eq_none_iff.mp hnew (h.known id hsome).2

lemma keeps_upload {validated : Result Tables.CertificateInfo} {faults : UploadFaults} {uuid : Uuid}
    {generated : ℕ} {actor : Actor} {owner : Option ℕ} {members : Dict String Json}
    {bundle : CustomCertificateBundle} {niceName : String} {certificateId : Option ℕ}
    (hput : PutRecovers faults.put) (hdelete : ∀ step, faults.delete step = none)
    (h : Holds p s) :
    Keeps p (fun _ => Function.update p (certificateId.getD generated) (some bundle))
      (upload validated faults uuid generated actor owner members bundle niceName certificateId
        s) := by
  rcases validated with e | info
  · exact .of_error (Action.bind_of_error rfl) h
  rw [upload, Action.bind_of_ok (show Action.lift (.ok info) s = (.ok info, s) from rfl)]
  rcases certificateId with _ | id
  · -- a new certificate
    show Keeps p _ ((onRows faults.create (Tables.createCertificate actor generated _) >>= fun _ =>
      publishCreated faults.put faults.activate faults.delete faults.remove bundle uuid generated
        actor) s)
    rcases onRows_create h with ⟨e, he⟩ | ⟨s₁, hs₁, hnew, h₁⟩
    · exact .of_error (Action.bind_of_error he) h
    · rw [Action.bind_of_ok hs₁]
      exact keeps_publishCreated hput hdelete h₁ hnew _ _ _ _ _
  · -- new material for a certificate that is there
    show Keeps p _ ((getRecord faults.readPrevious id >>= fun previous => found id previous >>=
      fun previous => updateRecord faults.update actor id _ >>= fun record => found id record >>=
        fun record => Action.undoing (onDisk (put faults.put bundle uuid id)) (do
          let _ ← updateRecord faults.restore none id previous
          pure ()) >>= fun _ => pure record) s)
    refine .bind rowsWritten_getRecord h fun previous s₁ _ h₁ => ?_
    refine .bind rowsWritten_found h₁ fun previous s₂ _ h₂ => ?_
    refine .bind rowsWritten_updateRecord h₂ fun record s₃ hupdate h₃ => ?_
    refine .bind rowsWritten_found h₃ fun record s₄ hfound h₄ => ?_
    obtain ⟨rfl, rfl⟩ := found_eq_ok_iff.mp hfound
    have hmem := mem_of_updateRecord hupdate
    have hcases : (∃ e d', put faults.put bundle uuid id s₃.disk = (.error e, d') ∧ _) ∨ _ :=
      contents_put hput (h₄.tidy.hidden_not_mem id ("-" ++ uuid.text)) (h₄.tidy.hidden_not_mem _ _)
    rcases hcases with ⟨e, d', hrun, hcontents⟩ | ⟨hpos, d', hrun, hcontents⟩
    · -- the former row is written again
      have herror : onDisk (put faults.put bundle uuid id) s₃
          = (.error e, { s₃ with disk := d' }) := by
        rw [onDisk, hrun]
      obtain ⟨e', he'⟩ := Action.undoing_of_error (do
        let _ ← updateRecord faults.restore none id previous
        pure ()) herror
      refine .of_error (Action.bind_of_error he') (Holds.written (s := { s₃ with disk := d' }) ?_ ?_)
      · exact h₄.same hcontents fun _ h => h
      · exact (rowsWritten_updateRecord.bind fun _ => Action.Preserves.pure ()) _
    · have hok : onDisk (put faults.put bundle uuid id) s₃
          = (.ok (), { s₃ with disk := d' }) := by
        rw [onDisk, hrun]
      exact .of_ok (Action.bind_of_ok (Action.undoing_of_ok hok))
        (h₄.publish hcontents ⟨hpos, hmem⟩ fun _ h => h)

lemma Keeps.congr {q' : ManagerState → Published} (h : Keeps p q out)
    (hq : ∀ a, out.1 = .ok a → q out.2 = q' out.2) : Keeps p q' out where
  returned a ha := hq a ha ▸ h.returned a ha
  raised := h.raised

lemma issueWith_eq_ok_iff {issuer : Option Issuer} {call : IssuerCall} {issued : IssuedCertificate}
    (h : issueWith issuer call s = (.ok issued, s')) :
    ∃ issue, issuer = some issue ∧ issue call = .ok issued := by
  rcases issuer with _ | issue
  · cases (Prod.mk.inj h).1
  · exact ⟨issue, rfl, (Prod.mk.inj h).1⟩

lemma issuedBetween_eq {issue : Issuer} {call : IssuerCall} {issued : IssuedCertificate}
    (hissue : issue call = .ok issued) (hcalls : s'.issuerCalls = s.issuerCalls ++ [call]) :
    issuedBetween (some issue) s s' = some (bundleOf issued) := by
  rw [issuedBetween, hcalls, List.drop_left]
  simp [hissue, Except.toOption]

lemma keeps_request {issuer : Option Issuer} {faults : RequestFaults} {uuid : Uuid}
    {generated : ℕ} {actor : Actor} {owner : Option ℕ} {members : Dict String Json}
    {req : CertificateRequest} {credentialsFile : Option String} (hput : PutRecovers faults.put)
    (hdelete : ∀ step, faults.delete step = none) (h : Holds p s) :
    Keeps p (fun s' => Function.update p generated (issuedBetween issuer s s'))
      (request issuer faults uuid generated actor owner members req credentialsFile s) := by
  have hissued : RowsWritten s (issueWith issuer (req.call credentialsFile) s).2 :=
    rowsWritten_issueWith s
  rcases hissue : issueWith issuer (req.call credentialsFile) s with ⟨e | issued, s₁⟩
  · rw [hissue] at hissued
    exact .of_error (Action.bind_of_error hissue) (h.written hissued)
  rw [hissue] at hissued
  obtain ⟨issue, rfl, hcall⟩ := issueWith_eq_ok_iff hissue
  have hrest : Keeps p (fun _ => Function.update p generated (some (bundleOf issued)))
      (request (some issue) faults uuid generated actor owner members req credentialsFile s) := by
    rw [request, Action.bind_of_ok hissue]
    rcases onRows_create (h.written hissued) with ⟨e, he⟩ | ⟨s₂, hs₂, hnew, h₂⟩
    · exact .of_error (Action.bind_of_error he) (h.written hissued)
    · rw [Action.bind_of_ok hs₂]
      exact keeps_publishCreated hput hdelete h₂ hnew _ _ _ _ _
  refine hrest.congr fun record hrecord => ?_
  have hcalls := (issuedFor_of_request (Prod.ext hrecord rfl)).1
  rw [issuedBetween_eq hcall hcalls]

lemma keeps_replaceAcme {issuer : Option Issuer} {faults : RenewalFaults} {names : RenewalNames}
    {id : ℕ} {req : CertificateRequest} {actor : Actor} (hput : PutRecovers faults.put)
    (hdelete : ∀ step, faults.delete step = none) (hrollback : ∀ step, faults.rollback step = none)
    (hcommit : faults.commit .remove = none) (h : Holds p s) :
    Keeps p (fun s' =>
        (issuedBetween issuer s s').elim p fun bundle => Function.update p id (some bundle))
      (replaceAcme issuer faults names id req actor s) := by
  have hissued : RowsWritten s (issueWith issuer (req.call none) s).2 := rowsWritten_issueWith s
  rcases hissue : issueWith issuer (req.call none) s with ⟨e | issued, s₁⟩
  · rw [hissue] at hissued
    exact .of_error (Action.bind_of_error hissue) (h.written hissued)
  rw [hissue] at hissued
  obtain ⟨issue, rfl, hcall⟩ := issueWith_eq_ok_iff hissue
  have hrest : Keeps p (fun _ => Function.update p id (some (bundleOf issued)))
      (replaceAcme (some issue) faults names id req actor s) := by
    rw [replaceAcme, Action.bind_of_ok hissue]
    refine .bind rowsWritten_getRecord (h.written hissued) fun previous s₂ _ h₂ => ?_
    have hcases : (∃ e, onDisk (detach faults.detach id names.quarantine) s₂ = (.error e, s₂)) ∨ _ :=
      detach_detached faults.detach h₂.tidy
    rcases hcases with ⟨e, he⟩ | ⟨quarantine, s₃, hs₃, hrows, hdetached⟩
    · exact .of_error (Action.bind_of_error he) h₂
    rw [Action.bind_of_ok hs₃]
    rcases replaceDetached_cases hput hdelete hrollback hcommit (h₂.hidden id) hdetached actor issued
      previous with ⟨record, s₄, hrun, hcontents, hmem, hkept⟩ | ⟨e, s₄, hrun, hcontents, hkept⟩
    · exact .of_ok hrun (h₂.publish hcontents hmem fun id' hid' => hkept id' (hrows ▸ hid'))
    · exact .of_error hrun (h₂.same hcontents fun id' hid' => hkept id' (hrows ▸ hid'))
  refine hrest.congr fun record _ => ?_
  rw [issuedBetween_eq hcall (issuerCalls_replaceAcme s)]
  rfl

lemma keeps_renew {str : Json → String} {issuer : Option Issuer} {due : Json → Result Bool}
    {faults : RenewalFaults} {names : RenewalNames} {id : ℕ} {force : Bool} {actor : Actor}
    (hput : PutRecovers faults.put) (hdelete : ∀ step, faults.delete step = none)
    (hrollback : ∀ step, faults.rollback step = none) (hcommit : faults.commit .remove = none)
    (h : Holds p s) :
    Keeps p (fun s' =>
        (issuedBetween issuer s s').elim p fun bundle => Function.update p id (some bundle))
      (renew str issuer due faults names id force actor s) := by
  rcases hread : getRecord faults.read id s with ⟨e | record, s₁⟩
  · have hwritten : RowsWritten s (getRecord faults.read id s).2 := rowsWritten_getRecord s
    rw [hread] at hwritten
    exact .of_error (Action.bind_of_error hread) (h.written hwritten)
  obtain ⟨-, hrecord, rfl⟩ := getRecord_eq_ok_iff.mp hread
  rw [renew, Action.bind_of_ok hread]
  rcases record with _ | record
  · exact .of_error (Action.bind_of_error rfl) h
  rw [Action.bind_of_ok (show found id (some record) s = (.ok record, s) from rfl)]
  split
  · exact .of_error rfl h
  rcases renewsNow due force (record.extensions.get? "expires_on") with e | b
  · exact .of_error (Action.bind_of_error rfl) h
  rw [Action.bind_of_ok (show Action.lift (.ok b) s = (.ok b, s) from rfl)]
  cases b with
  | false =>
    -- the certificate does not expire soon
    show Keeps p _ ((.ok record, s) : Result CertificatePayload × ManagerState)
    refine .of_ok rfl ?_
    rw [issuedBetween, List.drop_length]
    exact h
  | true =>
    rw [if_pos rfl]
    rcases renewalRequest str record with e | req
    · exact .of_error (Action.bind_of_error rfl) h
    · rw [Action.bind_of_ok (show Action.lift (.ok req) s = (.ok req, s) from rfl)]
      exact keeps_replaceAcme hput hdelete hrollback hcommit h

lemma keeps_removeCertificate {collections : List (Result (List (Option ℕ)))}
    {faults : RemovalFaults} {uuid : Uuid} {id : ℕ}
    (hrollback : ∀ step, faults.rollback step = none) (hcommit : ∀ step, faults.commit step = none)
    (h : Holds p s) :
    Keeps p (fun _ => Function.update p id none)
      (removeCertificate collections faults uuid id s) := by
  refine .bind (Action.Preserves.lift _) h fun _ s₁ _ h₁ => ?_
  have hcases : (∃ e, onDisk (detach faults.detach id uuid) s₁ = (.error e, s₁)) ∨ _ :=
    detach_detached faults.detach h₁.tidy
  rcases hcases with ⟨e, he⟩ | ⟨quarantine, s₂, hs₂, hrows, hdetached⟩
  · exact .of_error (Action.bind_of_error he) h₁
  rw [Action.bind_of_ok hs₂]
  have hview := h₁.hidden id ("-delete-" ++ uuid.text)
  rcases hremove : onRows faults.remove (fun rows => do
      raiseIf (id ∉ rows) (.fileNotFoundError s!"certificate {id} was not found")
      pure (rows.pop id)) s₂ with ⟨e | u, s₃⟩
  · -- the material is put back
    obtain rfl := eq_of_onRows_error hremove
    obtain ⟨e', he'⟩ :=
      Action.undoing_of_error (onDisk (rollbackDetach faults.rollback id quarantine)) hremove
    exact .of_error (Action.bind_of_error he') (h₁.same (rollback_detached hrollback hview hdetached)
      fun id' hid' => hrows ▸ hid')
  · rw [Action.bind_of_ok (Action.undoing_of_ok hremove)]
    obtain ⟨-, rows, hpop, rfl⟩ := onRows_eq_ok_iff.mp hremove
    simp only [bind_eq_ok_iff, pure_eq_ok_iff] at hpop
    obtain ⟨-, -, rfl⟩ := hpop
    obtain ⟨d', hd', hgone⟩ := commit_detached hcommit hview hdetached
    have hcommitted : onDisk (commitDetach faults.commit quarantine)
        { s₂ with rows := s₂.rows.pop id }
          = (.ok (), { s₂ with rows := s₂.rows.pop id, disk := d' }) := by
      rw [onDisk, hd']
    refine .of_ok hcommitted (h₁.update hgone (fun h => absurd rfl h) fun id' hid' hne => ?_)
    exact Dict.mem_pop.mpr ⟨hne, hrows ▸ hid'⟩

end Keeps

/-! ## The law -/

section Law

variable {p : Published} {s s' : ManagerState}

lemma keeps_run (call : ManagerCall) (hrecovers : call.Recovers) (h : Holds p s) :
    Keeps p (fun s' => call.publishes p s s') (call.run s) := by
  cases call with
  | upload => exact (keeps_upload hrecovers.1 hrecovers.2 h).map
  | request => exact (keeps_request hrecovers.1 hrecovers.2 h).map
  | renew =>
    obtain ⟨hput, hdelete, hrollback, hcommit⟩ := hrecovers
    exact (keeps_renew hput hdelete hrollback hcommit h).map
  | remove => exact keeps_removeCertificate hrecovers.1 hrecovers.2 h

lemma ManagerRun.holds (h : ManagerRun p s) : Holds p s := by
  induction h with
  | start rows calls former =>
    refine ⟨fun id => rfl, fun name hname => absurd hname (Dict.not_mem_empty name), fun id hid => ?_⟩
    exact absurd rfl hid
  | edits rows _ hkept ih =>
    exact ⟨ih.live, ih.tidy, fun id hid => ⟨(ih.known id hid).1, hkept id (ih.known id hid).2⟩⟩
  | @returns p s s' call _ hrecovers hrun ih =>
    have hkeeps := keeps_run call hrecovers ih
    rw [hrun] at hkeeps
    exact hkeeps.returned () rfl
  | @raises p s s' e call _ hrecovers hrun ih =>
    have hkeeps := keeps_run call hrecovers ih
    rw [hrun] at hkeeps
    exact hkeeps.raised e rfl

lemma archive_of_not_mem {d : Disk} {id : ℕ} (hlive : d.root.get? (liveName id) = none) :
    ∃ e, archive id d = (.error e, d) := by
  rcases Nat.eq_zero_or_pos id with rfl | hid
  · exact ⟨_, rfl⟩
  · have htarget : d.root.get? ("npm-" ++ toString id ++ "") = none := hlive
    refine ⟨.fileNotFoundError s!"certificate material {id} was not found", ?_⟩
    rw [archive, directoryName_of_pos _ _ hid]
    dsimp only
    rw [htarget]

/-- The archive of a directory with the files of a bundle has all of them. -/
lemma archive_of_material {d : Disk} {id : ℕ} {bundle : CustomCertificateBundle}
    {directory : Directory} (hid : 1 ≤ id) (hlive : d.root.get? (liveName id) = some directory)
    (hfiles : directory.get? = (material bundle).get?) :
    archive id d = (.ok (material bundle).entries, d) := by
  have htarget : d.root.get? ("npm-" ++ toString id ++ "") = some directory := hlive
  have hentries : (archivedNames.filterMap fun name =>
      ((material bundle).get? name).map fun s => (name, s)) = (material bundle).entries := rfl
  rw [archive, directoryName_of_pos _ _ hid]
  dsimp only
  rw [htarget]
  dsimp only
  rw [hfiles, hentries]

/-- What is downloaded is what has been published. -/
lemma download_eq_ok_iff (h : Holds p s) {id : ℕ} {files : List (String × String)} :
    (download none id s).1 = .ok files ↔
      ∃ bundle, p id = some bundle ∧ files = (material bundle).entries := by
  have hlive := h.live id
  have hread : getRecord none id s = (.ok ((s.rows.get? id).map Tables.projectCertificate), s) :=
    rfl
  rw [download, Action.bind_of_ok hread]
  rcases hp : p id with _ | bundle
  · -- there is no row, or no material
    rw [hp, contents, Option.map_none, Option.map_eq_none_iff] at hlive
    obtain ⟨e, he⟩ := archive_of_not_mem hlive
    have hraises : ∃ e, (found id ((s.rows.get? id).map Tables.projectCertificate) >>= fun _ =>
        onDisk (archive id)) s = (.error e, s) := by
      rcases (s.rows.get? id).map Tables.projectCertificate with _ | record
      · exact ⟨_, Action.bind_of_error rfl⟩
      · have hfound : found id (some record) s = (.ok record, s) := rfl
        refine ⟨e, (Action.bind_of_ok hfound).trans ?_⟩
        rw [onDisk, he]
    obtain ⟨e', he'⟩ := hraises
    rw [he']
    exact iff_of_false (by rintro ⟨⟩) (by rintro ⟨bundle, ⟨⟩, -⟩)
  · obtain ⟨hid, hmem⟩ := h.known id (by simp [hp])
    obtain ⟨row, hrow⟩ := Dict.mem_iff.mp hmem
    rw [hp, contents] at hlive
    obtain ⟨directory, hdirectory, hfiles⟩ := Option.map_eq_some_iff.mp hlive
    have hfound : found id ((s.rows.get? id).map Tables.projectCertificate) s
        = (.ok (Tables.projectCertificate row), s) := by
      rw [hrow]
      rfl
    rw [Action.bind_of_ok hfound, onDisk, archive_of_material hid hdirectory hfiles]
    constructor
    · intro hok
      exact ⟨bundle, rfl, (Except.ok.inj hok).symm⟩
    · rintro ⟨_, ⟨⟩, rfl⟩
      rfl

/-- In every run of calls that recover, the material root holds, complete, what the last calls that
returned have published for each certificate, and nothing else; and that is what is downloaded. -/
theorem published_exact (h : ManagerRun p s) :
    (∀ id, contents s.disk.root (liveName id)
      = (p id).map fun bundle => (material bundle).get?) ∧
    (∀ name ∈ s.disk.root, ∃ id, p id ≠ none ∧ name = liveName id) ∧
    (∀ id, p id ≠ none → id ∈ s.rows) ∧
    ∀ id files, (download none id s).1 = .ok files ↔
      ∃ bundle, p id = some bundle ∧ files = (material bundle).entries := by
  have hholds := h.holds
  refine ⟨hholds.live, fun name hname => ?_, fun id hid => (hholds.known id hid).2,
    fun id files => download_eq_ok_iff hholds⟩
  obtain ⟨id, rfl⟩ := hholds.tidy name hname
  refine ⟨id, fun hnone => contents_eq_none_iff.mp ?_ hname, rfl⟩
  rw [hholds.live, hnone]
  rfl

end Law

/-! ### A certificate that has been requested -/

/-- A request in which nothing fails. -/
def requestCall : ManagerCall :=
  .request (some renewingIssuer) noRequestFaults renewalNames.stage 1 none none Dict.empty
    httpRequest none

/-- The manager behind the request. -/
def afterRequest : ManagerState := (requestCall.run emptyManager).2

lemma run_afterRequest :
    ManagerRun (requestCall.publishes (fun _ => none) emptyManager afterRequest) afterRequest := by
  have hrun : requestCall.run emptyManager = (.ok (), afterRequest) := by
    refine Prod.ext ?_ rfl
    exact eq_getD_of_isSome (a := ()) (by decide)
  exact .returns requestCall (.start Dict.empty [] []) ⟨fun _ _ => rfl, fun _ => rfl⟩ hrun

theorem published_exact_requested :
    (download none 1 afterRequest).1 = .ok [("cert.pem", "new\n"), ("chain.pem", "chain\n"),
      ("fullchain.pem", "new\nchain\n"), ("privkey.pem", "key\n")] :=
  ((published_exact run_afterRequest).2.2.2 1 _).mpr ⟨⟨"new", "key", "chain"⟩, rfl, by decide⟩

end Portwyrm.Certificates

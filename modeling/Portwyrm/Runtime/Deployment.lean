import Portwyrm.Runtime.Controller

/-!
# The deployment state of a host

`RoutingHostStore._deployment_state` of `portwyrm.tables.routing`: what is reported of a host is
derived from its newest revision, the active generation and the file of the host in it.

A revision is recorded once for a host and a generation, by the first call that comes to it.
-/

namespace Portwyrm.Runtime

open Base

/-! ## The reported state -/

/-- `DeploymentState`. -/
inductive DeploymentState
  | pending
  | applying
  | applied
  | failed
  | drifted
  | rolledBack
deriving DecidableEq, Repr

/-- The first file of a host in the directory of the active generation. -/
def activeHostFile (store : GenerationStore) (host : ℕ) : Option String := do
  let tree ← store.activeId.bind store.generations.get?
  hostFamilies.findSome? fun family => tree.get? ["http", s!"{family}-{host}.conf"]

/-- The newest revision of a host. -/
def RevisionTable.latest (t : RevisionTable) (host : ℕ) : Option RevisionRow :=
  t.selectLast fun row => row.hostId = host

section State

variable (sha256 : List UInt8 → HexDigest)

/-- `host_revision_drifted`. -/
def hostRevisionDrifted (store : GenerationStore) (revision : RevisionRow) : Bool :=
  match store.activeId with
  | none => false
  | some _ =>
    match activeHostFile store revision.hostId with
    | some text => configDigest sha256 text ≠ revision.configDigest
    | none => true

/-- `_deployment_state`, with the hosts of a reconciliation in progress. -/
def deploymentState (applying : List ℕ) (s : ControllerState) (host : ℕ) : DeploymentState :=
  if host ∈ applying then .applying
  else
    match s.revisions.latest host with
    | none => .pending
    | some revision =>
      if revision.applied = false then
        if s.activeGeneration = none then .failed else .rolledBack
      else if s.activeGeneration ≠ none ∧ s.activeGeneration ≠ some revision.generation then .pending
      else if hostRevisionDrifted sha256 s.reconciler.store revision then .drifted
      else .applied

end State

/-- The files of a reconciliation have one file for a host. -/
structure RendersHost (files : Files) (family : String) (host : ℕ) (text : String) : Prop where
  mem : family ∈ hostFamilies
  file : files.get? (hostFile family host) = some text
  only : ∀ path ∈ files, hostOfPath path = some host → path = hostFile family host

/-- The generation has no revision of the host yet. -/
def Unrecorded (t : RevisionTable) (host : ℕ) (generation : String) : Prop :=
  ∀ row ∈ t.select (fun row => row.hostId = host), row.generation ≠ generation

/-- The newest revision of the host is that of the generation, of the same text, and applied. -/
def LatestApplied (sha256 : List UInt8 → HexDigest) (t : RevisionTable) (host : ℕ)
    (generation text : String) : Prop :=
  ∃ row, t.latest host = some row ∧ row.generation = generation ∧ row.applied = true ∧
    row.configDigest = configDigest sha256 text

/-! ## File names -/

lemma numberBetween_append (start stop : List Char) (n : ℕ) :
    numberBetween start stop (start ++ (Nat.toDigits 10 n ++ stop)) = some n := by
  have hstart : (start ++ (Nat.toDigits 10 n ++ stop)).dropPrefix? start =
      some (Nat.toDigits 10 n ++ stop) :=
    List.dropPrefix?_append_of_beq _ (BEq.rfl)
  have hstop : (Nat.toDigits 10 n ++ stop).dropSuffix? stop = some (Nat.toDigits 10 n) :=
    List.dropSuffix?_eq_some_iff.mpr ⟨stop, rfl, BEq.rfl⟩
  rw [numberBetween, hstart]
  dsimp only [Option.bind_eq_bind, Option.bind_some]
  rw [hstop, Option.bind_some, if_neg Nat.toDigits_ne_nil]
  exact Numeral.numeral_toDigits (by decide) (by decide) n

lemma toList_hostFile (family : String) (host : ℕ) : (hostFile family host).toList =
    s!"http/{family}-".toList ++ (Nat.toDigits 10 host ++ ".conf".toList) := by
  rw [← Nat.toList_repr]
  simp only [hostFile, String.toList_append, List.append_assoc]
  rfl

/-- The regular expression finds the host in the name of its file. -/
lemma hostOfPath_hostFile {family : String} (hfamily : family ∈ hostFamilies) (host : ℕ) :
    hostOfPath (hostFile family host) = some host := by
  have hmatch : numberBetween s!"http/{family}-".toList ".conf".toList
      (hostFile family host).toList = some host := by
    rw [toList_hostFile, numberBetween_append]
  -- the other families do not match
  have hother : ∀ other ∈ hostFamilies, other ≠ family →
      (hostFile family host).toList.dropPrefix? s!"http/{other}-".toList = none := by
    intro other hmem hne
    simp only [hostFamilies, List.mem_cons, List.not_mem_nil, or_false] at hfamily hmem
    rcases hfamily with rfl | rfl | rfl <;> rcases hmem with rfl | rfl | rfl
    all_goals first
      | exact absurd rfl hne
      | (simp only [hostFile, String.toList_append]; rfl)
  have hfound : (hostOfPath (hostFile family host)).isSome :=
    List.findSome?_isSome_iff.mpr ⟨family, hfamily, by rw [hmatch]; rfl⟩
  obtain ⟨id, hid⟩ := Option.isSome_iff_exists.mp hfound
  obtain ⟨other, hmem, hother'⟩ := List.exists_of_findSome?_eq_some hid
  by_cases hne : other = family
  · rw [hid, ← hother', hne, hmatch]
  · rw [numberBetween, hother other hmem hne] at hother'
    cases hother'

/-! ## Recording -/

section Record

variable {sha256 : List UInt8 → HexDigest} {t : RevisionTable} {files : Files} {host : ℕ}
  {family text generation : String} {applied : Bool}

instance (t : RevisionTable) (host : ℕ) (generation : String) :
    Decidable (Unrecorded t host generation) :=
  inferInstanceAs (Decidable (∀ row ∈ t.select (fun row => row.hostId = host), _))

/-- A revision is added to those of its host, unless its generation is there. -/
lemma select_record (t : RevisionTable) (row : RevisionRow) (host : ℕ) :
    (t.record row).select (fun r => r.hostId = host) =
      t.select (fun r => r.hostId = host) ++
        if row.hostId = host ∧ Unrecorded t host row.generation then [row] else [] := by
  unfold RevisionTable.record
  split
  · rename_i hnone
    have hnew : row.hostId = host → Unrecorded t host row.generation := by
      intro hhost r hr hgeneration
      obtain ⟨hr, hrHost⟩ := List.mem_filter.mp hr
      obtain ⟨id, hr⟩ := Dict.mem_values_iff.mp hr
      refine Table.selectOne_eq_none_iff.mp hnone id r hr (decide_eq_true ⟨?_, hgeneration⟩)
      exact (of_decide_eq_true hrHost).trans hhost.symm
    rw [Table.select, Table.values_add, List.filter_append, Table.select]
    by_cases hhost : row.hostId = host
    · rw [if_pos ⟨hhost, hnew hhost⟩]
      simp [hhost]
    · rw [if_neg fun h => hhost h.1]
      simp [hhost]
  · rename_i e hsome
    obtain ⟨hrow, hboth⟩ := Table.get?_of_selectOne hsome
    obtain ⟨hhost, hgeneration⟩ := of_decide_eq_true hboth
    have hold : ¬ (row.hostId = host ∧ Unrecorded t host row.generation) := by
      rintro ⟨hhost', hnew⟩
      refine hnew e.2 (List.mem_filter.mpr ⟨?_, ?_⟩) hgeneration
      · exact Dict.mem_values_iff.mpr ⟨e.1, hrow⟩
      · exact decide_eq_true (hhost.trans hhost')
    rw [if_neg hold, List.append_nil]

/-- The revision of one file. -/
def revisionOf (sha256 : List UInt8 → HexDigest) (host : ℕ) (generation text : String)
    (applied : Bool) : RevisionRow where
  hostId := host
  generation := generation
  configText := text
  configDigest := configDigest sha256 text
  applied := applied

/-- The files of other hosts do not touch the revisions of a host. -/
lemma select_recordRevision_of_ne {file : String × String} (h : hostOfPath file.1 ≠ some host) :
    (recordRevision sha256 generation applied t file).select (fun r => r.hostId = host) =
      t.select fun r => r.hostId = host := by
  unfold recordRevision
  split
  · rfl
  · rename_i id hid
    rw [select_record, if_neg fun hboth => h (hid.trans (congrArg some hboth.1)), List.append_nil]

lemma select_foldl_of_ne {items : List (String × String)}
    (h : ∀ file ∈ items, hostOfPath file.1 ≠ some host) :
    (items.foldl (recordRevision sha256 generation applied) t).select (fun r => r.hostId = host) =
      t.select fun r => r.hostId = host := by
  induction items generalizing t with
  | nil => rfl
  | cons file items ih =>
    rw [List.foldl_cons, ih fun f hf => h f (List.mem_cons_of_mem _ hf),
      select_recordRevision_of_ne (h file List.mem_cons_self)]

lemma Unrecorded.congr {t t' : RevisionTable} (h : t.select (fun r => r.hostId = host) =
    t'.select fun r => r.hostId = host) : Unrecorded t host generation ↔
      Unrecorded t' host generation := by
  rw [Unrecorded, Unrecorded, h]

/-- What a reconciliation adds to the revisions of a host that it renders. -/
lemma select_recordRevisions (h : RendersHost files family host text) (result : ReconcileResult)
    (t : RevisionTable) :
    (recordRevisions sha256 files result t).select (fun r => r.hostId = host) =
      t.select (fun r => r.hostId = host) ++
        if Unrecorded t host result.generation then
          [revisionOf sha256 host result.generation text result.applied]
        else [] := by
  obtain ⟨before, behind, hentries⟩ :=
    List.append_of_mem (Dict.mem_entries_iff.mpr h.file)
  -- every other file is about another host
  have hkeys := files.nodup
  rw [hentries, List.map_append, List.map_cons, List.nodup_append] at hkeys
  obtain ⟨-, hbehind, hdisjoint⟩ := hkeys
  have hother : ∀ file ∈ files.entries, file.1 ≠ hostFile family host →
      hostOfPath file.1 ≠ some host := by
    intro file hfile hne hhost
    exact hne (h.only file.1 (Dict.mem_iff.mpr ⟨_, Dict.mem_entries_iff.mp hfile⟩) hhost)
  have hbefore : ∀ file ∈ before, hostOfPath file.1 ≠ some host := by
    intro file hfile
    refine hother file (by rw [hentries]; exact List.mem_append_left _ hfile) ?_
    exact hdisjoint _ (List.mem_map_of_mem hfile) _ List.mem_cons_self
  have hbehind : ∀ file ∈ behind, hostOfPath file.1 ≠ some host := by
    intro file hfile
    refine hother file (by rw [hentries]; simp [hfile]) fun heq => ?_
    exact (List.nodup_cons.mp hbehind).1 (List.mem_map.mpr ⟨file, hfile, heq⟩)
  have hrecorded : recordRevision sha256 result.generation result.applied
      (before.foldl (recordRevision sha256 result.generation result.applied) t)
      (hostFile family host, text) =
      (before.foldl (recordRevision sha256 result.generation result.applied) t).record
        (revisionOf sha256 host result.generation text result.applied) := by
    rw [recordRevision, hostOfPath_hostFile h.mem host]
    rfl
  rw [recordRevisions, hentries, List.foldl_append, List.foldl_cons, select_foldl_of_ne hbehind,
    hrecorded, select_record, select_foldl_of_ne hbefore]
  have hnew : ((revisionOf sha256 host result.generation text result.applied).hostId = host ∧
      Unrecorded (before.foldl (recordRevision sha256 result.generation result.applied) t) host
        (revisionOf sha256 host result.generation text result.applied).generation) ↔
      Unrecorded t host result.generation :=
    (and_iff_right rfl).trans (Unrecorded.congr (select_foldl_of_ne hbefore))
  simp only [hnew]

end Record

/-! ## Truth -/

section Truth

variable {sha256 : List UInt8 → HexDigest} {str : Exc → String} {s : ControllerState} {host : ℕ}
  {text generation : String}

/-- What is reported of a host whose file is in the active generation. -/
lemma deploymentState_eq_applied_iff (hactive : s.activeGeneration = some generation)
    (hfile : activeHostFile s.reconciler.store host = some text) :
    deploymentState sha256 [] s host = .applied ↔
      LatestApplied sha256 s.revisions host generation text := by
  rw [deploymentState, if_neg List.not_mem_nil]
  cases hlatest : s.revisions.latest host with
  | none =>
    refine iff_of_false nofun ?_
    rintro ⟨row, hrow, -⟩
    rw [hlatest] at hrow
    exact nomatch hrow
  | some row =>
    have hhost : row.hostId = host :=
      of_decide_eq_true (List.mem_filter.mp (List.mem_of_getLast? hlatest)).2
    have hdrifted : hostRevisionDrifted sha256 s.reconciler.store row = true ↔
        row.configDigest ≠ configDigest sha256 text := by
      have hid : s.reconciler.store.activeId = some generation := hactive
      rw [hostRevisionDrifted, hid, hhost, hfile]
      exact decide_eq_true_iff.trans ne_comm
    have hrow : LatestApplied sha256 s.revisions host generation text ↔
        row.generation = generation ∧ row.applied = true ∧
          row.configDigest = configDigest sha256 text := by
      rw [LatestApplied, hlatest]
      simp
    rw [hrow, hactive]
    dsimp only
    cases happlied : row.applied with
    | false => simp
    | true =>
      by_cases hgeneration : row.generation = generation
      · simp [hgeneration, hdrifted]
      · simp [hgeneration, Ne.symm hgeneration]

/-- Deployment states are truthful.  In every run of reconciliations, behind every call that
returns, a host whose file in the active generation is the rendered one is reported as applied if
and only if the call was the first one to record its generation for the host, or the newest revision
of the host was that of the generation, as applied. -/
theorem deployment_truthful_iff (calls : List FilesCall) {c : FilesCall} {result : ReconcileResult}
    {family : String}
    (hok : (reconcileFiles sha256 str c (runCalls sha256 str calls)).1 = .ok result)
    (hrenders : RendersHost c.files family host text)
    (hfile : activeHostFile (runCalls sha256 str (calls ++ [c])).reconciler.store host =
      some text) :
    deploymentState sha256 [] (runCalls sha256 str (calls ++ [c])) host = .applied ↔
      Unrecorded (runCalls sha256 str calls).revisions host result.generation ∨
        LatestApplied sha256 (runCalls sha256 str calls).revisions host result.generation text := by
  rw [runCalls_append] at hfile ⊢
  generalize runCalls sha256 str calls = s at hok hfile ⊢
  have hcase := filesReconciled sha256 str c s
  generalize reconcileFiles sha256 str c s = r at hcase hok hfile ⊢
  cases hcase with
  | refused => exact nomatch hok
  | unsafeNames => exact nomatch hok
  | failed => exact nomatch hok
  | applied result' reconciler leases hlease happlied hid hpersisted hreconciled hstaged hactive =>
    obtain rfl : result' = result := Except.ok.inj hok
    have hgeneration : ControllerState.activeGeneration ⟨reconciler, leases,
        s.generations.persist c.files result', recordRevisions sha256 c.files result' s.revisions⟩ =
        some result'.generation := hactive
    refine (deploymentState_eq_applied_iff hgeneration hfile).trans ?_
    have hselect : (recordRevisions sha256 c.files result' s.revisions).select
        (fun r => r.hostId = host) = _ :=
      select_recordRevisions hrenders result' s.revisions
    unfold LatestApplied RevisionTable.latest Table.selectLast
    dsimp only
    rw [hselect]
    by_cases hnew : Unrecorded s.revisions host result'.generation
    · -- the revision that is recorded now is the newest one, and is applied
      rw [if_pos hnew, List.getLast?_concat]
      exact iff_of_true ⟨_, rfl, rfl, happlied, rfl⟩ (.inl hnew)
    · rw [if_neg hnew, List.append_nil]
      exact (or_iff_right hnew).symm

/-! ### A generation that comes back -/

/-- A hash that tells texts of different sums apart. -/
def sumHash (bytes : List UInt8) : HexDigest where
  text := Nat.digitChar ((bytes.map UInt8.toNat).sum % 16) :: List.replicate 63 '0'
  length_eq := by simp
  hex c hc := by
    rcases List.mem_cons.mp hc with rfl | hc
    · have hall : ∀ n < 16, Nat.digitChar n ∈ hexDigits := by decide
      exact hall _ (Nat.mod_lt _ (by decide))
    · obtain rfl := List.eq_of_mem_replicate hc
      decide

/-- The file of one host. -/
def hostFiles (text : String) : Files := Dict.ofList [("http/proxy-1.conf", text)]

/-- A call for it. -/
def hostCall (text : String) : FilesCall := ⟨"a", 0, {}, hostFiles text⟩

lemma rendersHost_hostFiles (text : String) : RendersHost (hostFiles text) "proxy" 1 text where
  mem := by decide
  file := by
    have hname : hostFile "proxy" 1 = "http/proxy-1.conf" := by decide
    rw [hname]
    rfl
  only path hpath _ := by
    have hname : hostFile "proxy" 1 = "http/proxy-1.conf" := by decide
    rw [hname]
    simpa [hostFiles, Dict.mem_ofList_iff] using hpath

/-- A first reconciliation is reported truthfully. -/
theorem deployment_truthful_first :
    deploymentState sumHash [] (runCalls sumHash (fun _ => "") [hostCall "a"]) 1 = .applied := by
  have hok : ∃ result, (reconcileFiles sumHash (fun _ => "") (hostCall "a")
      (runCalls sumHash (fun _ => "") [])).1 = .ok result :=
    ⟨⟨(sumHash (encode (hostFiles "a"))).short, none, true, true, none⟩, by decide⟩
  obtain ⟨result, hok⟩ := hok
  have hfile : activeHostFile (runCalls sumHash (fun _ => "") ([] ++ [hostCall "a"])).reconciler.store
      1 = some "a" := by
    decide
  refine (deployment_truthful_iff [] hok (rendersHost_hostFiles "a") hfile).mpr (.inl ?_)
  intro row hrow
  exact nomatch hrow

/-- A generation comes back behind another one: its host is reported as pending, though the active
file is the rendered one. -/
theorem deployment_pending_back :
    ¬ ∀ (calls : List FilesCall) (c : FilesCall) (result : ReconcileResult) (family text : String)
      (host : ℕ), (reconcileFiles sumHash (fun _ => "") c
        (runCalls sumHash (fun _ => "") calls)).1 = .ok result →
      RendersHost c.files family host text →
      activeHostFile (runCalls sumHash (fun _ => "") (calls ++ [c])).reconciler.store host =
        some text →
      deploymentState sumHash [] (runCalls sumHash (fun _ => "") (calls ++ [c])) host =
        .applied := by
  intro hall
  have hstate := hall [hostCall "a", hostCall "b"] (hostCall "a")
    ⟨(sumHash (encode (hostFiles "a"))).short, some (sumHash (encode (hostFiles "b"))).short, true,
      true, none⟩
    "proxy" "a" 1 (by decide) (rendersHost_hostFiles "a") (by decide)
  exact absurd hstate (by decide)

end Truth

end Portwyrm.Runtime

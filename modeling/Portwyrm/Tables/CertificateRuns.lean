import Portwyrm.Tables.StaleRender

/-!
# Certificates and reloads

`TableCertificateManager.upload`, for a certificate that is there, and `renew`: the steps in which
material is published on disk, and the reconciliations behind the commits of a run.  A certificate
has no part in what is rendered, so publishing its material leaves the generation as it is.

The last part is about whether Nginx has been reloaded since material was published.
-/

namespace Portwyrm.Tables

open Base Portwyrm.Runtime

/-! ## Operations -/

/-- The tables, and the runtime root with what has happened around it. -/
structure CertificateSystem where
  tables : RoutingTables
  reconciler : ReconcilerState

/-- How an upload that replaces the material of a certificate proceeds, with what the validator and
the reloader do in each of the reconciliations that it triggers. -/
inductive UploadCourse
  /-- The bundle is refused, or its row is not written. -/
  | refused
  /-- `store.put` raises, and the former row is written again. -/
  | unpublished (nested compensation : Outcomes)
  /-- The row is written, and then the material published. -/
  | finished (nested outer : Outcomes)

/-- How a renewal proceeds. -/
inductive RenewalCourse
  /-- There is nothing to renew, or nothing is issued. -/
  | refused
  /-- The certificate does not expire soon. -/
  | notDue (outer : Outcomes)
  /-- `store.put` raises, and the former material is put back, if there was any. -/
  | unpublished (former : Bool)
  /-- The material is published, but the row is not written. -/
  | unwritten (former : Bool)
  /-- The material is published and the row written, but the former material cannot be removed; the
  former row is written again. -/
  | uncommitted (nested compensation : Outcomes) (former : Bool)
  /-- The material is published, and then the row written. -/
  | finished (nested outer : Outcomes)

/-- An operation of a run. -/
inductive CertificateEvent
  /-- A mutation commits, and leaves these tables. -/
  | mutated (t : RoutingTables) (outcomes : Outcomes)
  | uploaded (certificate : ℕ) (course : UploadCourse)
  | renewed (certificate : ℕ) (course : RenewalCourse)

namespace CertificateSystem

/-- The start of the application, on an empty root. -/
def start (t : RoutingTables) : CertificateSystem := ⟨t, .start⟩

/-- The material of a certificate is put in place. -/
def publish (c : ℕ) (s : CertificateSystem) : CertificateSystem :=
  { s with reconciler := s.reconciler.happen (.published c) }

/-- `rollback_detach`. -/
def putBack (c : ℕ) (former : Bool) (s : CertificateSystem) : CertificateSystem :=
  if former then s.publish c else s

section Operations

variable (sha256 : List UInt8 → HexDigest)

/-- `reconcile_committed_change`: what `runtime.changed` returns or raises. -/
def changed (outcomes : Outcomes) (s : CertificateSystem) :
    Result ReconcileResult × CertificateSystem :=
  match renderTables s.tables with
  | .error e => (.error e, s)
  | .ok files =>
    let (result, reconciler) := reconcile sha256 outcomes files s.reconciler
    (result, { s with reconciler := reconciler })

/-- `upload`: what its post-commit reconciliation returns or raises, unless the operation raises. -/
def upload (c : ℕ) (s : CertificateSystem) :
    UploadCourse → Option (Result ReconcileResult) × CertificateSystem
  | .refused => (none, s)
  | .unpublished nested compensation =>
    (none, ((s.changed sha256 nested).2.changed sha256 compensation).2)
  | .finished nested outer =>
    let (result, s) := ((s.changed sha256 nested).2.publish c).changed sha256 outer
    (some result, s)

/-- `renew`, with its post-commit reconciliation. -/
def renew (c : ℕ) (s : CertificateSystem) :
    RenewalCourse → Option (Result ReconcileResult) × CertificateSystem
  | .refused => (none, s)
  | .notDue outer =>
    let (result, s) := s.changed sha256 outer
    (some result, s)
  | .unpublished former => (none, s.putBack c former)
  | .unwritten former => (none, (s.publish c).putBack c former)
  | .uncommitted nested compensation former =>
    let s := ((s.publish c).changed sha256 nested).2.putBack c former
    (none, (s.changed sha256 compensation).2)
  | .finished nested outer =>
    let (result, s) := ((s.publish c).changed sha256 nested).2.changed sha256 outer
    (some result, s)

/-- The system behind an operation, and what the reconciliation behind it returned or raised. -/
def step (s : CertificateSystem) :
    CertificateEvent → Option (Result ReconcileResult) × CertificateSystem
  | .mutated t outcomes =>
    let (result, s) := changed sha256 outcomes { s with tables := t }
    (some result, s)
  | .uploaded c course => s.upload sha256 c course
  | .renewed c course => s.renew sha256 c course

/-- The system behind a run. -/
def run (s : CertificateSystem) (events : List CertificateEvent) : CertificateSystem :=
  events.foldl (fun s e => (s.step sha256 e).2) s

end Operations

end CertificateSystem

/-! ## The law -/

/-- The reloader has run since the material of a certificate was last published. -/
def Loaded (c : ℕ) (events : List Event) : Prop :=
  ∀ before behind, events = before ++ .published c :: behind → .published c ∉ behind →
    ∃ generation failure, .reloaded generation failure ∈ behind

/-- The directory that Nginx loads a certificate from. -/
def materialPath (c : ℕ) : String := s!"/etc/letsencrypt/live/npm-{c}/"

/-- The active generation has a file with the directory of a certificate. -/
def References (c : ℕ) (s : CertificateSystem) : Prop :=
  ∃ id tree path text, s.reconciler.store.activeId = some id ∧
    s.reconciler.store.generations.get? id = some tree ∧ tree.get? path = some text ∧
    Text.Contains text (materialPath c)

/-- The certificate of an operation. -/
def CertificateEvent.certificate : CertificateEvent → Option ℕ
  | .mutated _ _ => none
  | .uploaded c _ => some c
  | .renewed c _ => some c

namespace CertificateSystem

section Law

variable (sha256 : List UInt8 → HexDigest)

/-- The active generation is that of the tables. -/
def Current (s : CertificateSystem) : Prop :=
  ∃ id, generationOf sha256 s.tables = .ok id ∧ s.reconciler.store.activeId = some id

/-- An operation on a certificate has finished, its reconciliation has returned, and the active
generation references the certificate. -/
def Finishes (s : CertificateSystem) (e : CertificateEvent) (c : ℕ) : Prop :=
  e.certificate = some c ∧ (∃ result, (s.step sha256 e).1 = some (.ok result)) ∧
    References c (s.step sha256 e).2

/-- Published material is loaded. -/
def Serves (s : CertificateSystem) (e : CertificateEvent) : Prop :=
  ∀ c, s.Finishes sha256 e c → Loaded c (s.step sha256 e).2.reconciler.events

/-- The condition: a renewal begins while the active generation is not that of the tables, and so
does an upload, whose first reconciliation has to fail besides; a renewal that is not due does no
harm to what is loaded already. -/
def Meets (s : CertificateSystem) : CertificateEvent → Prop
  | .uploaded _ (.finished nested _) =>
    ¬ s.Current sha256 ∧ (nested.validator ≠ none ∨ nested.reloader ≠ none)
  | .renewed _ (.finished _ _) => ¬ s.Current sha256
  | .renewed c (.notDue _) => ¬ s.Current sha256 ∨ Loaded c s.reconciler.events
  | _ => True

end Law

end CertificateSystem

/-! ## Events -/

section Events

variable {c : ℕ} {events added : List Event}

lemma not_loaded_published : ¬ Loaded c (events ++ [.published c]) := by
  intro h
  obtain ⟨generation, failure, hmem⟩ := h events [] rfl (by simp)
  exact absurd hmem (by simp)

lemma loaded_append (h : .published c ∉ added) : Loaded c (events ++ added) ↔
    Loaded c events ∨ ∃ generation failure, Event.reloaded generation failure ∈ added := by
  constructor
  · intro hloaded
    by_cases hreloaded : ∃ generation failure, Event.reloaded generation failure ∈ added
    · exact .inr hreloaded
    · refine .inl fun before behind hevents hlast => ?_
      have hsplit : events ++ added = before ++ .published c :: (behind ++ added) := by
        rw [hevents, List.append_assoc, List.cons_append]
      obtain ⟨generation, failure, hmem⟩ := hloaded _ _ hsplit (by simp [hlast, h])
      rcases List.mem_append.mp hmem with hmem | hmem
      · exact ⟨generation, failure, hmem⟩
      · exact absurd ⟨generation, failure, hmem⟩ hreloaded
  · intro hloaded before behind hevents hlast
    -- the last publication is not one of the events that are added
    rcases List.append_eq_append_iff.mp hevents with ⟨rest, -, hadded⟩ | ⟨rest, hbefore, hrest⟩
    · exact absurd (hadded ▸ List.mem_append_right rest List.mem_cons_self) h
    · cases rest with
      | nil =>
        rw [List.nil_append] at hrest
        exact absurd (hrest ▸ List.mem_cons_self) h
      | cons first rest =>
        obtain ⟨rfl, rfl⟩ := List.cons.inj hrest
        rcases hloaded with hloaded | ⟨generation, failure, hmem⟩
        · obtain ⟨generation, failure, hmem⟩ := hloaded before rest hbefore
            fun hmem => hlast (List.mem_append_left _ hmem)
          exact ⟨generation, failure, List.mem_append_left _ hmem⟩
        · exact ⟨generation, failure, List.mem_append_right _ hmem⟩

end Events

/-! ## One reconciliation -/

namespace CertificateSystem

section Changed

variable {sha256 : List UInt8 → HexDigest} {outcomes : Outcomes} {s : CertificateSystem}

/-- The ways in which a reconciliation ends. -/
inductive Changed (sha256 : List UInt8 → HexDigest) (outcomes : Outcomes) (s : CertificateSystem) :
    Result ReconcileResult × CertificateSystem → Prop
  /-- The tables cannot be rendered. -/
  | unrendered (e : Exc) (hrender : ∀ id, generationOf sha256 s.tables ≠ .ok id) :
      Changed sha256 outcomes s (.error e, s)
  /-- The generation of the tables is active. -/
  | current (result : ReconcileResult) (hcurrent : s.Current sha256) :
      Changed sha256 outcomes s (.ok result, s)
  /-- It is refused, or cannot be loaded. -/
  | failed (e : Exc) (reconciler : ReconcilerState) (added : List Event)
      (hnot : ¬ s.Current sha256) (hfails : outcomes.validator ≠ none ∨ outcomes.reloader ≠ none)
      (hevents : reconciler.events = s.reconciler.events ++ added)
      (hadded : ∀ c, .published c ∉ added)
      (hreloaded : outcomes.validator = none →
        ∃ generation failure, .reloaded generation failure ∈ added)
      (hactive : reconciler.store.activeId = s.reconciler.store.activeId) :
      Changed sha256 outcomes s (.error e, { s with reconciler := reconciler })
  /-- It is loaded. -/
  | applied (result : ReconcileResult) (reconciler : ReconcilerState) (added : List Event)
      (hnot : ¬ s.Current sha256) (hok : outcomes.validator = none ∧ outcomes.reloader = none)
      (hevents : reconciler.events = s.reconciler.events ++ added)
      (hadded : ∀ c, .published c ∉ added)
      (hreloaded : ∃ generation failure, .reloaded generation failure ∈ added)
      (hcurrent : Current sha256 { s with reconciler := reconciler }) :
      Changed sha256 outcomes s (.ok result, { s with reconciler := reconciler })

theorem changed_cases (sha256 : List UInt8 → HexDigest) (outcomes : Outcomes)
    (hs : ActiveStaged s.reconciler.store) :
    Changed sha256 outcomes s (s.changed sha256 outcomes) := by
  unfold changed
  cases hrender : renderTables s.tables with
  | error e =>
    refine .unrendered e fun id hid => ?_
    rw [generationOf, hrender] at hid
    cases hid
  | ok files =>
    have hid := generationId_ok sha256 (generated_renderTables hrender)
    have hstripped := stripped_short (sha256 (encode files))
    have hne := short_ne_empty (sha256 (encode files))
    generalize (sha256 (encode files)).short = id at hid hstripped hne
    have hgeneration : generationOf sha256 s.tables = .ok id := by
      rw [generationOf, hrender]
      exact hid
    dsimp only
    by_cases hactive : s.reconciler.store.activeId = some id
    · rw [reconcile_of_active hid hactive]
      exact .current _ ⟨id, hgeneration, hactive⟩
    · have hnot : ¬ s.Current sha256 := by
        rintro ⟨id', hgeneration', hactive'⟩
        obtain rfl := Except.ok.inj (hgeneration.symm.trans hgeneration')
        exact hactive hactive'
      obtain ⟨created, store, hstage⟩ :=
        stage_generated (generated_renderTables hrender) s.reconciler.store id
      obtain ⟨hmem, hmanifest, -⟩ := stage_spec hstage
      have hstore : store.activeId = s.reconciler.store.activeId := by
        rw [GenerationStore.activeId, GenerationStore.activeId, hmanifest]
      rw [reconcile, hid]
      dsimp only
      rw [if_neg hactive, hstage]
      dsimp only [applyCandidate, ReconcilerState.store_happen]
      cases hvalidator : outcomes.validator with
      | some exc =>
        refine .failed _ _ [.validated id (some exc)] hnot (.inl ?_) rfl (by simp) ?_ hstore
        · rw [hvalidator]
          exact Option.some_ne_none exc
        · rw [hvalidator]
          rintro ⟨⟩
      | none =>
        dsimp only
        rw [activate_of_mem hmem]
        dsimp only
        cases hreloader : outcomes.reloader with
        | none =>
          dsimp only
          refine .applied _ _ [.validated id none, .reloaded id none] hnot ⟨hvalidator, hreloader⟩
            ?_ (by simp) ⟨id, none, List.mem_cons_of_mem _ List.mem_cons_self⟩ ⟨id, hgeneration, ?_⟩
          · rw [ReconcilerState.happen, ReconcilerState.events_happen, List.append_assoc]
            rfl
          · exact activeId_activated store hstripped hne
        | some exc =>
          have hfails : outcomes.validator ≠ none ∨ outcomes.reloader ≠ none := by
            rw [hreloader]
            exact .inr (Option.some_ne_none exc)
          cases hprevious : s.reconciler.store.activeId with
          | none =>
            dsimp only [rollBack]
            refine .failed _ _ [.validated id none, .reloaded id (some exc)] hnot hfails ?_ (by simp)
              (fun _ => ⟨id, some exc, List.mem_cons_of_mem _ List.mem_cons_self⟩) hprevious.symm
            rw [ReconcilerState.happen, ReconcilerState.events_happen, List.append_assoc]
            rfl
          | some previous =>
            obtain ⟨-, hstripped', hne', hprevious'⟩ := hs.of_activeId hprevious
            dsimp only
            rw [rollBack_of_mem exc outcomes.rollback (mem_of_stage hstage _ hprevious')]
            refine .failed _ _
              [.validated id none, .reloaded id (some exc), .reloaded previous outcomes.rollback]
              hnot hfails ?_ (by simp)
              (fun _ => ⟨id, some exc, List.mem_cons_of_mem _ List.mem_cons_self⟩) ?_
            · rw [ReconcilerState.happen, ReconcilerState.events_happen, List.append_assoc,
                List.append_assoc]
              rfl
            · rw [hprevious]
              exact activeId_activated store hstripped' hne'

lemma tables_changed (outcomes : Outcomes) (s : CertificateSystem) :
    (s.changed sha256 outcomes).2.tables = s.tables := by
  unfold changed
  cases renderTables s.tables with
  | error e => rfl
  | ok files => rfl

lemma staged_changed (hs : ActiveStaged s.reconciler.store) :
    ActiveStaged (s.changed sha256 outcomes).2.reconciler.store := by
  unfold changed
  cases renderTables s.tables with
  | error e => exact hs
  | ok files => exact activeStaged_reconciled (reconciled sha256 outcomes files s.reconciler) hs

/-- A reconciliation that returns leaves the generation of the tables active. -/
lemma current_of_ok (hs : ActiveStaged s.reconciler.store) {result : ReconcileResult}
    (hok : (s.changed sha256 outcomes).1 = .ok result) :
    (s.changed sha256 outcomes).2.Current sha256 := by
  have hcase := changed_cases sha256 outcomes hs
  generalize s.changed sha256 outcomes = r at hcase hok ⊢
  cases hcase with
  | unrendered => exact nomatch hok
  | current result hcurrent => exact hcurrent
  | failed => exact nomatch hok
  | applied result reconciler added hnot houtcomes hevents hadded hreloaded hcurrent =>
    exact hcurrent

/-- When a reconciliation makes the generation of the tables the active one. -/
lemma current_changed_iff (hs : ActiveStaged s.reconciler.store) {id : String}
    (hrender : generationOf sha256 s.tables = .ok id) :
    (s.changed sha256 outcomes).2.Current sha256 ↔
      s.Current sha256 ∨ outcomes.validator = none ∧ outcomes.reloader = none := by
  have hcase := changed_cases sha256 outcomes hs
  generalize s.changed sha256 outcomes = r at hcase
  cases hcase with
  | unrendered e hnone => exact absurd hrender (hnone id)
  | current result hcurrent => exact iff_of_true hcurrent (.inl hcurrent)
  | failed e reconciler added hnot hfails hevents hadded hreloaded hactive =>
    refine iff_of_false ?_ ?_
    · rintro ⟨id', hid', hactive'⟩
      exact hnot ⟨id', hid', hactive.symm.trans hactive'⟩
    · rintro (hcurrent | ⟨hvalidator, hreloader⟩)
      · exact hnot hcurrent
      · exact hfails.elim (fun h => h hvalidator) fun h => h hreloader
  | applied result reconciler added hnot houtcomes hevents hadded hreloaded hcurrent =>
    exact iff_of_true hcurrent (.inr houtcomes)

/-- What has been published is loaded, or will be by the next reconciliation that returns. -/
def Bound (sha256 : List UInt8 → HexDigest) (c : ℕ) (s : CertificateSystem) : Prop :=
  Loaded c s.reconciler.events ∨ ¬ s.Current sha256

/-- No reconciliation changes that. -/
lemma bound_changed_iff {c : ℕ} (hs : ActiveStaged s.reconciler.store) :
    Bound sha256 c (s.changed sha256 outcomes).2 ↔ Bound sha256 c s := by
  have hcase := changed_cases sha256 outcomes hs
  generalize s.changed sha256 outcomes = r at hcase
  cases hcase with
  | unrendered => exact Iff.rfl
  | current => exact Iff.rfl
  | failed e reconciler added hnot hfails hevents hadded hreloaded hactive =>
    refine iff_of_true (.inr ?_) (.inr hnot)
    rintro ⟨id', hid', hactive'⟩
    exact hnot ⟨id', hid', hactive.symm.trans hactive'⟩
  | applied result reconciler added hnot houtcomes hevents hadded hreloaded hcurrent =>
    refine iff_of_true (.inl ?_) (.inr hnot)
    rw [hevents]
    exact (loaded_append (hadded c)).mpr (.inr hreloaded)

/-- Who finds nothing loaded behind a publication is bound by the active generation alone. -/
lemma bound_publish_iff {c : ℕ} : Bound sha256 c (s.publish c) ↔ ¬ s.Current sha256 :=
  or_iff_right not_loaded_published

/-- A reconciliation that returns leaves what was published loaded, if what was there before binds
it to. -/
lemma loaded_changed_iff {c : ℕ} (hs : ActiveStaged s.reconciler.store) {result : ReconcileResult}
    (hok : (s.changed sha256 outcomes).1 = .ok result) :
    Loaded c (s.changed sha256 outcomes).2.reconciler.events ↔ Bound sha256 c s := by
  rw [← bound_changed_iff hs, Bound, or_iff_left (not_not_intro (current_of_ok hs hok))]

/-- The tables of a reconciliation that returns can be rendered. -/
lemma generationOf_of_ok (hs : ActiveStaged s.reconciler.store) {result : ReconcileResult}
    (hok : (s.changed sha256 outcomes).1 = .ok result) :
    ∃ id, generationOf sha256 s.tables = .ok id := by
  obtain ⟨id, hid, -⟩ := current_of_ok hs hok
  exact ⟨id, tables_changed outcomes s ▸ hid⟩

end Changed

/-! ## One operation -/

section Step

variable {sha256 : List UInt8 → HexDigest} {s : CertificateSystem}

/-- What an operation that finishes leaves loaded. -/
lemma loaded_step_iff (hs : ActiveStaged s.reconciler.store) {e : CertificateEvent} {c : ℕ}
    (hcertificate : e.certificate = some c) {result : ReconcileResult}
    (hok : (s.step sha256 e).1 = some (.ok result)) :
    Loaded c (s.step sha256 e).2.reconciler.events ↔ s.Meets sha256 e := by
  cases e with
  | mutated t outcomes => exact nomatch hcertificate
  | uploaded certificate course =>
    obtain rfl := Option.some.inj hcertificate
    cases course with
    | refused => exact nomatch hok
    | unpublished nested compensation => exact nomatch hok
    | finished nested outer =>
      have hnested : ActiveStaged (s.changed sha256 nested).2.reconciler.store := staged_changed hs
      have hpublished : ActiveStaged
          ((s.changed sha256 nested).2.publish certificate).reconciler.store := hnested
      have hok : (((s.changed sha256 nested).2.publish certificate).changed sha256 outer).1 =
          .ok result := Option.some.inj hok
      obtain ⟨id, hid⟩ := generationOf_of_ok hpublished hok
      have hrender : generationOf sha256 s.tables = .ok id := tables_changed nested s ▸ hid
      show Loaded certificate
        (((s.changed sha256 nested).2.publish certificate).changed sha256 outer).2.reconciler.events ↔ _
      rw [loaded_changed_iff hpublished hok, bound_publish_iff, current_changed_iff hs hrender,
        not_or, not_and_or]
      rfl
  | renewed certificate course =>
    obtain rfl := Option.some.inj hcertificate
    cases course with
    | refused => exact nomatch hok
    | notDue outer =>
      have hok : (s.changed sha256 outer).1 = .ok result := Option.some.inj hok
      show Loaded certificate (s.changed sha256 outer).2.reconciler.events ↔ _
      rw [loaded_changed_iff hs hok, Bound, or_comm]
      rfl
    | unpublished former => exact nomatch hok
    | unwritten former => exact nomatch hok
    | uncommitted nested compensation former => exact nomatch hok
    | finished nested outer =>
      have hpublished : ActiveStaged (s.publish certificate).reconciler.store := hs
      have hok : (((s.publish certificate).changed sha256 nested).2.changed sha256 outer).1 =
          .ok result := Option.some.inj hok
      show Loaded certificate
        (((s.publish certificate).changed sha256 nested).2.changed sha256 outer).2.reconciler.events ↔ _
      rw [loaded_changed_iff (staged_changed hpublished) hok, bound_changed_iff hpublished,
        bound_publish_iff]
      rfl

lemma serves_iff (hs : ActiveStaged s.reconciler.store) (e : CertificateEvent) :
    s.Serves sha256 e ↔ ((∃ c, s.Finishes sha256 e c) → s.Meets sha256 e) := by
  constructor
  · rintro hserves ⟨c, hfinishes⟩
    obtain ⟨result, hok⟩ := hfinishes.2.1
    exact (loaded_step_iff hs hfinishes.1 hok).mp (hserves c hfinishes)
  · intro hmeets c hfinishes
    obtain ⟨result, hok⟩ := hfinishes.2.1
    exact (loaded_step_iff hs hfinishes.1 hok).mpr (hmeets ⟨c, hfinishes⟩)

lemma staged_step (hs : ActiveStaged s.reconciler.store) (e : CertificateEvent) :
    ActiveStaged (s.step sha256 e).2.reconciler.store := by
  have hputBack : ∀ {s : CertificateSystem} (c : ℕ) (former : Bool),
      ActiveStaged s.reconciler.store → ActiveStaged (s.putBack c former).reconciler.store := by
    intro s c former hs
    cases former with
    | false => exact hs
    | true => exact hs
  cases e with
  | mutated t outcomes => exact staged_changed (s := { s with tables := t }) hs
  | uploaded c course =>
    cases course with
    | refused => exact hs
    | unpublished nested compensation => exact staged_changed (staged_changed hs)
    | finished nested outer =>
      exact staged_changed (s := (s.changed sha256 nested).2.publish c) (staged_changed hs)
  | renewed c course =>
    cases course with
    | refused => exact hs
    | notDue outer => exact staged_changed hs
    | unpublished former => exact hputBack c former hs
    | unwritten former => exact hputBack (s := s.publish c) c former hs
    | uncommitted nested compensation former =>
      exact staged_changed (hputBack c former (staged_changed (s := s.publish c) hs))
    | finished nested outer => exact staged_changed (staged_changed (s := s.publish c) hs)

lemma staged_run (t : RoutingTables) (events : List CertificateEvent) :
    ActiveStaged ((start t).run sha256 events).reconciler.store := by
  induction events using List.reverseRecOn with
  | nil => exact .inl rfl
  | append_singleton events e ih =>
    rw [run, List.foldl_append]
    exact staged_step ih e

end Step

/-- Published certificates and reloads.  In a run from an empty root, material that an upload or a
renewal has published is loaded when its reconciliation returns, if and only if each of those
operations meets the condition. -/
theorem published_loaded_iff (sha256 : List UInt8 → HexDigest) (t : RoutingTables)
    (events : List CertificateEvent) :
    (∀ before e, before ++ [e] <+: events → ((start t).run sha256 before).Serves sha256 e) ↔
    ∀ before e, before ++ [e] <+: events →
      (∃ c, ((start t).run sha256 before).Finishes sha256 e c) →
      ((start t).run sha256 before).Meets sha256 e := by
  constructor
  · intro hserves before e hprefix
    exact (serves_iff (staged_run t before) e).mp (hserves before e hprefix)
  · intro hmeets before e hprefix
    exact (serves_iff (staged_run t before) e).mpr (hmeets before e hprefix)

/-! ### A stream with a certificate -/

/-- A reconciliation that finds the generation of the tables active does nothing. -/
lemma changed_of_current {sha256 : List UInt8 → HexDigest} {s : CertificateSystem}
    (hs : ActiveStaged s.reconciler.store) (hcurrent : s.Current sha256) (outcomes : Outcomes) :
    ∃ result, s.changed sha256 outcomes = (.ok result, s) := by
  have hcase := changed_cases sha256 outcomes hs
  generalize s.changed sha256 outcomes = r at hcase
  cases hcase with
  | unrendered e hnone =>
    obtain ⟨id, hid, -⟩ := hcurrent
    exact absurd hid (hnone id)
  | current result => exact ⟨result, rfl⟩
  | failed e reconciler added hnot => exact absurd hcurrent hnot
  | applied result reconciler added hnot => exact absurd hcurrent hnot

/-- A stream that is served with a certificate. -/
def tlsStream : StreamRow := { LiveSystem.servedStream with certificateId := some 1 }

/-- The tables with the stream. -/
def tlsTables : RoutingTables := { streams := Dict.empty.set 1 tlsStream }

/-- The file of the stream. -/
def tlsFile : String × String :=
  ("stream/stream-1.conf", renderStream {} (runtimeStream 1 tlsStream))

lemma contains_joinLines {line sub : String} {lines : List String} (hline : line ∈ lines)
    (hsub : Text.Contains line sub) : Text.Contains (Text.joinLines lines) sub := by
  have hpart : ∀ lines : List (List Char), line.toList ∈ lines →
      line.toList <:+: ['\n'].intercalate lines := by
    intro lines hmem
    induction lines with
    | nil => exact absurd hmem List.not_mem_nil
    | cons first rest ih =>
      by_cases hrest : rest = []
      · subst hrest
        simp only [List.intercalate_singleton, List.mem_singleton.mp hmem, List.infix_refl]
      · rw [List.intercalate_cons_of_ne_nil hrest, List.append_assoc]
        rcases List.mem_cons.mp hmem with heq | hmem
        · rw [heq]
          exact (List.prefix_append _ _).isInfix
        · exact (ih hmem).trans ((List.suffix_append _ _).isInfix.trans
            (List.suffix_append _ _).isInfix)
  refine List.IsInfix.trans hsub ?_
  rw [Text.joinLines, String.toList_intercalate]
  exact hpart _ (List.mem_map_of_mem hline)

lemma contains_tlsFile : Text.Contains tlsFile.2 (materialPath 1) := by
  have hline : "  ssl_certificate /etc/letsencrypt/live/npm-1/fullchain.pem;" ∈
      streamTcpLines {} (runtimeStream 1 tlsStream) := by
    decide +kernel
  have hpath : Text.Contains "  ssl_certificate /etc/letsencrypt/live/npm-1/fullchain.pem;"
      (materialPath 1) := by
    decide +kernel
  have hlines := contains_joinLines hline hpath
  show Text.Contains ("\n\n".intercalate
    [Text.joinLines (streamTcpLines {} (runtimeStream 1 tlsStream))] ++ "\n") _
  rw [String.intercalate_singleton, Text.Contains, String.toList_append]
  exact hlines.trans (List.prefix_append _ _).isInfix

/-- The files of the tables with the stream. -/
def tlsFiles : Files := (addFiles Dict.empty (platformFiles {} [])).set tlsFile.1 tlsFile.2

lemma renders_tls : renderTables tlsTables = .ok tlsFiles := rfl

/-- No other file has the path of the stream. -/
lemma name_of_pathParts {name : String} (hname : name ∈ tlsFiles)
    (hpath : pathParts name = pathParts tlsFile.1) : name = tlsFile.1 := by
  have hall : ∀ name ∈ platformNames, pathParts name ≠ pathParts tlsFile.1 := by
    decide +kernel
  rcases Dict.mem_set.mp hname with rfl | hname
  · rfl
  · rcases mem_addFiles.mp hname with hname | ⟨e, he, rfl⟩
    · exact absurd hname (Dict.not_mem_empty name)
    · refine absurd hpath (hall e.1 ?_)
      rw [← map_fst_platformFiles []]
      exact List.mem_map_of_mem he

/-- The system behind a first mutation: the generation of its tables is loaded, and holds their
files. -/
lemma first_mutated {sha256 : List UInt8 → HexDigest} {t : RoutingTables} {files : Files}
    (hrender : renderTables t = .ok files) :
    ((start {}).run sha256 [.mutated t {}]).Current sha256 ∧ ∃ id tree,
      ((start {}).run sha256 [.mutated t {}]).reconciler.store.activeId = some id ∧
      ((start {}).run sha256 [.mutated t {}]).reconciler.store.generations.get? id = some tree ∧
      HoldsExactly tree files := by
  have hgenerated := generated_renderTables hrender
  have hid := generationId_ok sha256 hgenerated
  obtain ⟨result, hok⟩ := reconcile_generated sha256 hgenerated .start
  have hsystem : (start {}).run sha256 [.mutated t {}] =
      ⟨t, (reconcile sha256 {} files .start).2⟩ := by
    show (changed sha256 {} ⟨t, .start⟩).2 = _
    rw [changed, hrender]
  have hcase := reconciled sha256 {} files .start
  rw [hok] at hcase
  rw [hsystem]
  generalize (reconcile sha256 {} files .start).2 = reconciler at hcase
  cases hcase with
  | unchanged id hid hactive => exact nomatch hactive
  | applied id created store hid' hactive hstage =>
    obtain rfl := Except.ok.inj (hid'.symm.trans hid)
    have hnow := activeId_activated store (stripped_short (sha256 (encode files)))
      (short_ne_empty _)
    have hgeneration : generationOf sha256 t = .ok (sha256 (encode files)).short := by
      rw [generationOf, hrender]
      exact hid
    rcases stage_eq_ok.mp hstage with ⟨hmem, -⟩ | ⟨-, -, tree, htree, rfl⟩
    · exact absurd hmem (Dict.not_mem_empty _)
    · exact ⟨⟨_, hgeneration, hnow⟩, _, tree, hnow, Dict.get?_set_self _ _ _,
        holdsExactly_of_stagedTree htree⟩

/-- A certificate whose directory stands in one of the files. -/
lemma references_first {sha256 : List UInt8 → HexDigest} {t : RoutingTables} {files : Files} {c : ℕ}
    {name text : String} (hrender : renderTables t = .ok files) (hget : files.get? name = some text)
    (honly : ∀ name' ∈ files, pathParts name' = pathParts name → name' = name)
    (htext : Text.Contains text (materialPath c)) :
    References c ((start {}).run sha256 [.mutated t {}]) := by
  obtain ⟨-, id, tree, hactive, htree, hfiles⟩ : _ ∧ ∃ id tree,
      ((start {}).run sha256 [.mutated t {}]).reconciler.store.activeId = some id ∧
      ((start {}).run sha256 [.mutated t {}]).reconciler.store.generations.get? id = some tree ∧
      HoldsExactly tree files := first_mutated hrender
  refine ⟨id, tree, pathParts name, text, hactive, htree, ?_, htext⟩
  refine (hfiles _ _).mpr ⟨name, hget, rfl, fun name' hname' hpath => ?_⟩
  rw [honly name' hname' hpath]

/-- The system that serves the stream. -/
def tlsSystem : CertificateSystem := (start {}).run zeroHash [.mutated tlsTables {}]

/-- The generation of the stream is loaded, and references its certificate. -/
lemma tlsSystem_served : tlsSystem.Current zeroHash ∧ References 1 tlsSystem := by
  have hget : tlsFiles.get? tlsFile.1 = some tlsFile.2 := by
    rw [tlsFiles]
    exact Dict.get?_set_self _ _ _
  rw [tlsSystem]
  exact ⟨(first_mutated renders_tls).1, references_first renders_tls hget
    (fun name hname hpath => name_of_pathParts hname hpath) contains_tlsFile⟩

/-- When the generation of the tables is active and references a certificate, replacing the
certificate does not reload Nginx. -/
lemma not_serves_uploaded {sha256 : List UInt8 → HexDigest} {s : CertificateSystem} {c : ℕ}
    (hs : ActiveStaged s.reconciler.store) (hcurrent : s.Current sha256)
    (hreferences : References c s) : ¬ s.Serves sha256 (.uploaded c (.finished {} {})) := by
  -- both reconciliations find the generation of the tables active
  obtain ⟨result, hnested⟩ := changed_of_current hs hcurrent {}
  have hpublished : (s.publish c).Current sha256 := hcurrent
  have hs' : ActiveStaged (s.publish c).reconciler.store := hs
  obtain ⟨result', houter⟩ := changed_of_current hs' hpublished {}
  have hstep : s.step sha256 (.uploaded c (.finished {} {})) =
      (some (.ok result'), s.publish c) := by
    rw [step, upload, hnested]
    dsimp only
    rw [houter]
  have hfinishes : s.Finishes sha256 (.uploaded c (.finished {} {})) c :=
    ⟨rfl, ⟨result', congrArg Prod.fst hstep⟩, hstep ▸ hreferences⟩
  exact fun hserves => ((serves_iff hs _).mp hserves ⟨c, hfinishes⟩).1 hcurrent

/-- The certificate of a stream is replaced, and Nginx is not reloaded. -/
theorem replaced_not_loaded : ¬ ∀ (sha256 : List UInt8 → HexDigest) (t : RoutingTables)
    (events : List CertificateEvent) (before : List CertificateEvent) (e : CertificateEvent),
    before ++ [e] <+: events → ((start t).run sha256 before).Serves sha256 e := by
  intro hall
  obtain ⟨hcurrent, hreferences⟩ := tlsSystem_served
  exact not_serves_uploaded (staged_run {} _) hcurrent hreferences
    (hall zeroHash {} _ [.mutated tlsTables {}] _ (List.prefix_refl _))

end CertificateSystem

end Portwyrm.Tables

import Portwyrm.Base.Iso8601
import Portwyrm.Tables.Audit

/-!
# The list of audit rows

`TableResources.list_audit`: the audit rows as they are shown, all of them or those since a time.  The
time is compared with the times of the rows as a text, and the texts are not always in the order of
the instants.
-/

namespace Portwyrm.Tables

open Base

/-! ## Rows -/

/-- A time in a row: a `datetime`, by its fields in UTC, or a text. -/
inductive StoredTime
  | datetime (wall : WallTime) (microsecond : Fin 1000000)
  | text (spelling : Spelling)

/-- A row of `audit_events`, with its id and its time. -/
structure AuditRow where
  id : ℕ
  createdAt : Option StoredTime
  event : AuditEvent

/-- `datetime.isoformat`, of a time in UTC. -/
def isoformat (wall : WallTime) (microsecond : Fin 1000000) : Spelling where
  wall := wall
  fraction :=
    if microsecond = 0 then []
    else (List.range 6).reverse.map fun k => Fin.ofNat 10 (microsecond / 10 ^ k)
  zone := .minutes false 0 0

/-- `_iso`, at a time `now`. -/
def iso (now : Spelling) : Option StoredTime → Spelling
  | none => now
  | some (.datetime wall microsecond) => isoformat wall microsecond
  | some (.text spelling) => spelling

/-! ## What is shown -/

/-- What `list_audit` reads of a principal. -/
structure AuditPrincipal where
  nickname : String
  displayName : String
  email : String

/-- Who has done something. -/
structure AuditActor where
  actorId : Option ℕ
  actorKind : String
  actorName : String
  actorEmail : Option String

/-- An item of `list_audit`. -/
structure ListedEvent where
  id : ℕ
  createdOn : String
  action : String
  objectType : String
  objectId : String
  resourceLabel : String
  summary : String
  userId : Option ℕ
  targetPrincipalId : Option ℤ
  outcome : String
  actor : AuditActor
  executorName : Json
  details : Dict String Json

/-- `a or b`, for texts. -/
def orText (a b : String) : String := if a ≠ "" then a else b

/-- `_audit_actor`. -/
def auditActor (actorId : Option ℕ) (principals : Dict ℕ AuditPrincipal) : AuditActor :=
  match actorId with
  | none => ⟨none, "system", "System", none⟩
  | some id =>
    match principals.get? id with
    | some principal => ⟨some id, "user", orText principal.nickname
        (orText principal.displayName (orText principal.email s!"Principal {id}")), some principal.email⟩
    | none => ⟨some id, "user", s!"Principal {id}", none⟩

/-- The actor that a snapshot tells. -/
def snapshotActor (snapshot : ActorSnapshot) : AuditActor where
  actorId := some snapshot.principalId
  actorKind := if snapshot.principalId ≠ 0 then "user" else "system"
  actorName := orText snapshot.actorName (orText snapshot.displayName snapshot.email)
  actorEmail := some snapshot.email

/-- `_audit_resource_label`. -/
def auditResourceLabel (event : AuditEvent) : String :=
  let domains :=
    match event.details.get? "deleted_resource" with
    | some (.object members) => Json.get? members "domain_names"
    | _ => event.details.get? "domain_names"
  match domains with
  | some (.list (domain :: rest)) => ", ".intercalate ((domain :: rest).map strJson)
  | _ => s!"{event.objectType} #{event.objectId}"

/-- The name of the executor.  An attribution that is no object has no members to ask for. -/
def executorName (event : AuditEvent) : Result Json :=
  match event.details.get? "attribution" with
  | none => pure .null
  | some (.object members) => pure ((Json.get? members "executor_name").getD .null)
  | some _ => throw (.runtimeError "the attribution has no attribute 'get'")

/-- An item of the list. -/
def projectAudit (now : Spelling) (principals : Dict ℕ AuditPrincipal) (row : AuditRow) :
    Result ListedEvent := do
  let event := row.event
  let label := auditResourceLabel event
  let executor ← executorName event
  pure {
    id := row.id
    createdOn := String.ofList (iso now row.createdAt).text
    action := event.action
    objectType := event.objectType
    objectId := event.objectId
    resourceLabel := label
    summary := s!"{event.action} {label}"
    userId := event.actorPrincipalId
    targetPrincipalId := event.targetPrincipalId
    outcome := orText event.outcome "success"
    actor := (event.actorSnapshot.map snapshotActor).getD
      (auditActor event.actorPrincipalId principals)
    executorName := executor
    details := event.details }

/-- `list_audit`. -/
def listAudit (now : Spelling) (principals : Dict ℕ AuditPrincipal) (rows : List AuditRow)
    (since : Option String) : Result (List ListedEvent) := do
  let projected ← rows.mapM (projectAudit now principals)
  pure (projected.filter fun item => since.all fun since => since ≤ item.createdOn)

/-! ## The instants of rows -/

/-- The time that is shown of a row. -/
def AuditRow.createdOn (now : Spelling) (row : AuditRow) : Spelling := iso now row.createdAt

/-- The instant that is shown of a `datetime` is the one that it stands for. -/
theorem instant_isoformat (wall : WallTime) (microsecond : Fin 1000000) :
    (isoformat wall microsecond).instant = wall.seconds + microsecond.val / 1000000 := by
  have hoffset : (isoformat wall microsecond).zone.offset = 0 := rfl
  rw [Spelling.instant, hoffset]
  unfold isoformat
  dsimp only
  split
  · rename_i hzero
    rw [hzero]
    simp [fractionValue]
  · rw [fractionValue_digits _ 6 microsecond.isLt]
    norm_num

/-! ## The rows since a time -/

/-- The list since a time shows the rows from that instant on, one item for each, in their order. -/
def ListsExactly (now : Spelling) (principals : Dict ℕ AuditPrincipal) (rows : List AuditRow)
    (since : Spelling) : Prop :=
  ∃ items, listAudit now principals rows (some (String.ofList since.text)) = .ok items ∧
    List.Forall₂ (fun row item => projectAudit now principals row = .ok item)
      (rows.filter fun row => since.instant ≤ (row.createdOn now).instant) items

/-- The attribution of a row is an object, if it has one. -/
def IsAttributed (row : AuditRow) : Prop :=
  ∀ attribution, row.event.details.get? "attribution" = some attribution →
    ∃ members, attribution = .object members

lemma projectAudit_ok_iff {now : Spelling} {principals : Dict ℕ AuditPrincipal} {row : AuditRow} :
    (∃ item, projectAudit now principals row = .ok item) ↔ IsAttributed row := by
  have hexecutor : (∃ name, executorName row.event = .ok name) ↔ IsAttributed row := by
    unfold executorName IsAttributed
    cases row.event.details.get? "attribution" with
    | none => exact iff_of_true ⟨_, rfl⟩ nofun
    | some attribution =>
      cases attribution with
      | object members =>
        exact iff_of_true ⟨_, rfl⟩ fun _ h => ⟨members, (Option.some.inj h).symm⟩
      | _ => exact iff_of_false nofun fun h => nomatch h _ rfl
  rw [← hexecutor]
  constructor
  · rintro ⟨item, h⟩
    obtain ⟨name, hname, -⟩ := bind_eq_ok_iff.mp h
    exact ⟨name, hname⟩
  · rintro ⟨name, hname⟩
    exact ⟨_, bind_eq_ok_iff.mpr ⟨name, hname, rfl⟩⟩

/-- Filters that keep the same values of a function, which decides the first one, agree. -/
lemma agree_of_map_filter_eq {α β : Type} [DecidableEq β] {f : α → β} {p q : α → Bool}
    (hp : ∀ a b, f a = f b → p a = p b) {l : List α}
    (h : (l.filter p).map f = (l.filter q).map f) {a : α} (ha : a ∈ l) : p a = q a := by
  -- as many elements with the value of `a` are kept on both sides
  let same := l.filter fun b => f b = f a
  have hmem : a ∈ same := List.mem_filter.mpr ⟨ha, decide_eq_true rfl⟩
  have hcount : (same.filter p).length = (same.filter q).length := by
    have hkept := congrArg (fun values => (values.filter fun v => v = f a).length) h
    simpa only [List.filter_map, List.length_map, Function.comp_def, same, List.filter_comm]
      using hkept
  cases hpa : p a with
  | true =>
    have hall : same.filter p = same := List.filter_eq_self.mpr fun b hb =>
      (hp b a (of_decide_eq_true (List.mem_filter.mp hb).2)).trans hpa
    rw [hall] at hcount
    exact (List.length_filter_eq_length_iff.mp hcount.symm a hmem).symm
  | false =>
    have hnone : same.filter p = [] := List.filter_eq_nil_iff.mpr fun b hb => by
      rw [hp b a (of_decide_eq_true (List.mem_filter.mp hb).2), hpa]
      exact Bool.false_ne_true
    rw [hnone] at hcount
    have hq := List.filter_eq_nil_iff.mp (List.length_eq_zero_iff.mp hcount.symm) a hmem
    exact (Bool.eq_false_iff.mpr hq).symm

lemma createdOn_of_projectAudit {now : Spelling} {principals : Dict ℕ AuditPrincipal}
    {row : AuditRow} {item : ListedEvent} (h : projectAudit now principals row = .ok item) :
    item.createdOn = String.ofList (row.createdOn now).text := by
  obtain ⟨name, -, h⟩ := bind_eq_ok_iff.mp h
  rw [← pure_eq_ok_iff.mp h]
  rfl

/-- The text of a time is before the text that is shown of a row. -/
def IsKept (now since : Spelling) (row : AuditRow) : Bool :=
  decide (since.text ≤ (row.createdOn now).text)

/-- The items that are kept are those of the rows that are kept. -/
lemma forall₂_kept (since : Spelling) {now : Spelling} {principals : Dict ℕ AuditPrincipal}
    {rows : List AuditRow} {items : List ListedEvent}
    (h : List.Forall₂ (fun row item => projectAudit now principals row = .ok item) rows items) :
    List.Forall₂ (fun row item => projectAudit now principals row = .ok item)
      (rows.filter (IsKept now since))
      (items.filter fun item => String.ofList since.text ≤ item.createdOn) := by
  induction h with
  | nil => exact .nil
  | @cons row item rows items hitem _ ih =>
    have hkept : IsKept now since row =
        decide (String.ofList since.text ≤ item.createdOn) := by
      rw [createdOn_of_projectAudit hitem, IsKept, decide_eq_decide, String.le_iff_toList_le,
        String.toList_ofList, String.toList_ofList]
    rw [List.filter_cons, List.filter_cons, hkept]
    split
    · exact .cons hitem ih
    · exact ih

/-- The first of January 2024, at a time of day. -/
def newYear (hour minute : ℕ) (hhour : hour < 24) (hminute : minute < 60) : WallTime :=
  ⟨2024, 1, 1, hour, minute, 0, ⟨by decide, by decide, by decide, by decide, by decide⟩, hhour,
    hminute, by decide⟩

/-- Half past eleven of an offset of one hour, which is half past ten. -/
def halfPastTen : Spelling := ⟨newYear 11 30 (by decide) (by decide), [], .minutes false 1 0⟩

/-- A row of eleven o'clock. -/
def elevenRow : AuditRow where
  id := 1
  createdAt := some (.datetime (newYear 11 0 (by decide) (by decide)) 0)
  event := ⟨none, none, none, "success", "created", "streams", "1", .empty⟩

end Portwyrm.Tables

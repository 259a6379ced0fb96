import Portwyrm.Tables.Imports

/-!
# Importing from Nginx Proxy Manager

`preflight_npm` of `portwyrm.migration.npm`, which makes a report of the tables of an NPM database,
and `_apply_npm_report` of `portwyrm.api.compat`, which imports a report, or only counts its
resources.
-/

namespace Portwyrm.Tables

open Base Portwyrm.Runtime Portwyrm.Identity

/-! ## Sources and reports -/

/-- The rows of the tables of a source, by table. -/
abbrev NpmSource := Dict String (List Document)

/-- `QuarantinedRecord`. -/
structure QuarantinedRecord where
  collection : String
  sourceId : String
  reason : String
  resource : Document

/-- `PreflightReport`, as `preflight_npm` builds it. -/
structure PreflightReport where
  records : Dict String (List Document) := Dict.empty
  quarantine : List QuarantinedRecord := []
  warnings : List String := []

/-- `TABLE_COLLECTIONS`. -/
def tableCollections : Dict String String := Dict.ofList
  [ ("user", "users"), ("certificate", "certificates"), ("access_list", "access_lists"),
    ("proxy_host", "proxy_hosts"), ("redirection_host", "redirection_hosts"),
    ("dead_host", "dead_hosts"), ("stream", "streams"), ("setting", "settings"),
    ("audit_log", "audit_log"), ("_credentials", "_credentials") ]

/-- The collection of a table. -/
def tableCollection (table : String) : Option String :=
  (tableCollections.get? table).or (if table ∈ tableCollections.values then some table else none)

/-- `JSON_FIELDS`. -/
def jsonFields : List String :=
  ["domain_names", "meta", "roles", "permissions", "items", "clients", "locations"]

/-- `_decode_row`. -/
def decodeRow (row : Document) : Document :=
  row.mapEntries fun key v =>
    match v with
    | .text s => if key ∈ jsonFields ∧ s ≠ "" then (Json.loads s).getD v else v
    | v => v

/-- `str(row.get(key))`. -/
def rowText (row : Document) (key : String) : String := strJson ((row.get? key).getD .null)

/-! ## Related tables -/

/-- Change the last row whose id has a text: the row that `{str(row.get("id")): row}` leads to. -/
def modifyRow (id : String) (f : Document → Document) (rows : List Document) : List Document :=
  (go rows.reverse).reverse
where
  go : List Document → List Document
    | [] => []
    | row :: rest => if rowText row "id" = id then f row :: rest else row :: go rest

/-- The last row whose id has a text. -/
def rowOf (id : String) (rows : List Document) : Option Document :=
  rows.reverse.find? fun row => rowText row "id" = id

/-- The sections of the permissions of a user. -/
def permissionFields : List String :=
  ["proxy_hosts", "redirection_hosts", "dead_hosts", "streams", "access_lists", "certificates"]

/-- The rows of a table, and the source without it. -/
def popTable (table : String) (source : NpmSource) : List Document × NpmSource :=
  ((source.get? table).getD [], source.pop table)

/-- Change a row of a table of the source. -/
def modifyTable (table id : String) (f : Document → Document) (source : NpmSource) : NpmSource :=
  source.set table (modifyRow id f ((source.get? table).getD []))

/-- One row of `user_permission`. -/
def addPermission (state : NpmSource × PreflightReport) (permission : Document) :
    NpmSource × PreflightReport :=
  let (source, report) := state
  let userId := rowText permission "user_id"
  match rowOf userId ((source.get? "user").getD []) with
  | none =>
    (source, { report with warnings :=
        report.warnings ++ [s!"orphan user_permission ignored: user_id={userId}"] })
  | some _ =>
    let permissions := permissionFields.map fun field =>
      (field, (permission.get? field).getD (.text "hidden"))
    let write := fun user : Document =>
      (user.set "visibility" ((permission.get? "visibility").getD (.text "user"))).set "permissions"
        (.object permissions)
    (modifyTable "user" userId write source, report)

/-- One row of `auth`: a credential, or a warning. -/
def readAuth (source : NpmSource) (auth : Document) : String ⊕ Document :=
  let type_ := (auth.get? "type").getD (.text "password")
  if sameJson type_ (.text "password") = false then
    let given := rowText auth "type"
    .inl s!"unsupported auth type ignored: {given}"
  else
    let id := rowText auth "id"
    let user := rowOf (rowText auth "user_id") ((source.get? "user").getD [])
    let email := (user.bind fun row => row.get? "email").filter truthy
    let secret := (auth.get? "secret").filter truthy
    match email, secret with
    | some email, some secret => .inr <| Dict.ofList
      [ ("id", .text (Text.casefold (Text.strip (strJson email)))),
        ("password_hash", .text (strJson secret)) ]
    | _, _ => .inl s!"orphan auth record ignored: id={id}"

/-- The members of a related row that an access list keeps. -/
def relatedChild (item : Document) : Json :=
  .object (otherMembers ["id", "access_list_id", "created_on", "modified_on"] item).entries

/-- One row of a table that is related to access lists. -/
def addChild (related field : String) (state : NpmSource × PreflightReport) (item : Document) :
    Result (NpmSource × PreflightReport) :=
  let (source, report) := state
  let listId := rowText item "access_list_id"
  match rowOf listId ((source.get? "access_list").getD []) with
  | none => pure
    (source, { report with warnings :=
        report.warnings ++ [s!"orphan {related} ignored: access_list_id={listId}"] })
  | some row =>
    match (row.get? field).getD (.list []) with
    | .list items =>
      let write := fun row : Document => row.set field (.list (items ++ [relatedChild item]))
      pure (modifyTable "access_list" listId write source, report)
    | _ => throw (.runtimeError "object has no attribute 'append'")

/-- `_normalize_related_tables`. -/
def normalizeRelatedTables (source : NpmSource) (report : PreflightReport) :
    Result (NpmSource × PreflightReport) := do
  let (permissions, source) := popTable "user_permission" source
  let (source, report) := permissions.foldl addPermission (source, report)
  let (auths, source) := popTable "auth" source
  let read := auths.map (readAuth source)
  let report := { report with warnings := report.warnings ++ read.filterMap Sum.getLeft? }
  let credentials := read.filterMap Sum.getRight?
  let source := if credentials = [] then source else source.set "_credentials" credentials
  let (items, source) := popTable "access_list_auth" source
  let state ← items.foldlM (addChild "access_list_auth" "items") (source, report)
  let (clients, source) := popTable "access_list_client" state.1
  clients.foldlM (addChild "access_list_client" "clients") (source, state.2)

/-! ## The preflight -/

/-- Why a row is put into quarantine. -/
def quarantineReason (seen : List String) (sourceId : String) (resource : Document) :
    Option String :=
  if sourceId = "" then some "missing id"
  else if sourceId ∈ seen then some "duplicate id"
  else
    match resource.get? "is_deleted" with
    | some (.number 1) | some (.bool true) | some (.text "1") => some "soft-deleted source record"
    | _ => none

/-- One row of a table of a collection. -/
def addRow (collection : String) (report : PreflightReport) (raw : Document) : PreflightReport :=
  let resource := decodeRow raw
  let sourceId := strJson ((resource.get? "id").getD (.text ""))
  let bucket := (report.records.get? collection).getD []
  let seen := bucket.map fun row => rowText row "id"
  match quarantineReason seen sourceId resource with
  | some reason =>
    let sourceId := if sourceId = "" then "unknown" else sourceId
    { report with quarantine := report.quarantine ++ [⟨collection, sourceId, reason, resource⟩] }
  | none => { report with records := report.records.set collection (bucket ++ [resource]) }

/-- One table of the source. -/
def addTable (report : PreflightReport) (entry : String × List Document) : PreflightReport :=
  let (table, rows) := entry
  match tableCollection table with
  | none =>
    { report with warnings :=
        report.warnings ++ [s!"unsupported source table ignored: {table}"] }
  | some collection =>
    rows.foldl (addRow collection)
      { report with records :=
          report.records.set collection ((report.records.get? collection).getD []) }

/-- `reference_rules`. -/
def referenceRules : List (String × String) :=
  [("certificate_id", "certificates"), ("access_list_id", "access_lists"),
    ("owner_user_id", "users")]

/-- A reference that names nothing. -/
def namesNothing : Json → Bool
  | .null | .number 0 | .bool false | .text "0" | .text "" => true
  | _ => false

/-- The references of a resource that do not resolve. -/
def brokenReferences (existing : Dict String (List String)) (resource : Document) : List String :=
  referenceRules.filterMap fun (field, target) =>
    let v := (resource.get? field).getD .null
    let text := strJson v
    if namesNothing v ∨ text ∈ (existing.get? target).getD [] then none
    else some s!"{field}={text} does not resolve in {target}"

/-- One collection of `_quarantine_broken_references`. -/
def quarantineCollection (existing : Dict String (List String)) (report : PreflightReport)
    (collection : String) : PreflightReport :=
  let resources := (report.records.get? collection).getD []
  let broken := resources.filter fun resource => brokenReferences existing resource ≠ []
  { report with
    records := report.records.set collection
      (resources.filter fun resource => brokenReferences existing resource = [])
    quarantine := report.quarantine ++ broken.map fun resource =>
      ⟨collection, rowText resource "id", "; ".intercalate (brokenReferences existing resource),
        resource⟩ }

/-- `_quarantine_broken_references`. -/
def quarantineBrokenReferences (report : PreflightReport) : PreflightReport :=
  let existing := report.records.mapValues fun resources =>
    resources.map fun resource => rowText resource "id"
  ["proxy_hosts", "redirection_hosts", "dead_hosts", "streams"].foldl
    (quarantineCollection existing) report

/-- `preflight_npm`. -/
def preflightNpm (source : NpmSource) : Result PreflightReport := do
  let (source, report) ← normalizeRelatedTables source {}
  pure (quarantineBrokenReferences (source.entries.foldl addTable report))

/-! ## Importing a report -/

/-- A record of a report, and the moment at which an import writes it. -/
structure NpmRecord where
  collection : String
  resource : Document
  now : String

/-- The collections of a report that are not imported. -/
def unsupportedCollections : List String := ["_credentials", "audit_log"]

/-- The records of a report in the order of its collections; `clock` tells when an import comes to
each of them. -/
def npmRecords (clock : ℕ → String) (report : PreflightReport) : List NpmRecord :=
  let supported := report.records.entries.filter fun e => e.1 ∉ unsupportedCollections
  let resources := supported.flatMap fun (collection, resources) =>
    resources.map fun resource => (collection, resource)
  resources.zipIdx.map fun ((collection, resource), position) =>
    ⟨collection, resource, clock position⟩

/-- What an import of a report returns. -/
structure NpmCounts where
  created : ℕ
  replaced : ℕ
  unchanged : ℕ
  quarantined : ℕ
  dryRun : Bool
deriving DecidableEq

/-- The counts of a report, after what was found. -/
def npmCounts (replace dryRun : Bool) (report : PreflightReport) (found : List Finding) :
    NpmCounts where
  created := found.count .absent
  replaced := if replace then found.count .different else 0
  unchanged := found.count .equal
  quarantined := report.quarantine.length +
    ((report.records.entries.filter fun e => e.1 ∈ unsupportedCollections).map
      fun e => e.2.length).sum +
    if replace then 0 else found.count .different
  dryRun := dryRun

/-- The collection of a record. -/
def NpmRecord.target (r : NpmRecord) : Result Collection :=
  match Collection.ofName? r.collection with
  | some c => pure c
  | none => throw (.valueError s!"unknown compatibility collection {Text.repr r.collection}")

section Import

variable (bcryptHash : ℕ → String → String) (digest : String → String) (newId : List ℕ → ℕ)
  (replace : Bool) (clock : ℕ → String)

/-- The tables, as `_apply_npm_report` uses them: nobody is named as the actor. -/
def npmStore : RecordStore AllTables NpmRecord Exc where
  find t r := do
    let c ← r.target
    findRecord sameDocument t c r.resource
  writes _ found :=
    match found with
    | .absent => pure true
    | .equal => pure false
    | .different => pure replace
  write found r t := do
    let c ← r.target
    writeRecord bcryptHash digest newId none r.now found c r.resource t

/-- `_apply_npm_report`: the counts, and the tables afterwards. -/
def applyNpmReport (report : PreflightReport) (dryRun : Bool) (t : AllTables) :
    Result NpmCounts × AllTables :=
  let records := npmRecords clock report
  if dryRun then
    (((npmStore bcryptHash digest newId replace).dryRun t records).map
      (npmCounts replace dryRun report), t)
  else
    let written := (npmStore bcryptHash digest newId replace).run t records
    (written.1.map (npmCounts replace dryRun report), written.2)

/-- `npm_import`, up to the reload: the report of a source is imported. -/
def npmImport (source : NpmSource) (dryRun : Bool) (t : AllTables) : Result NpmCounts × AllTables :=
  match preflightNpm source with
  | .error e => (.error e, t)
  | .ok report => applyNpmReport bcryptHash digest newId replace clock report dryRun t

/-- The condition under which a report is imported as it is counted: when no look-up in the tables
as they are refuses a record, each of them is accepted at its turn, no new resource was stored by a
record before, and as many records as before find their resource unchanged. -/
def ImportableReport (report : PreflightReport) (t : AllTables) : Prop :=
  (∀ r ∈ npmRecords clock report,
      ∃ found, (npmStore bcryptHash digest newId replace).check t r = .ok found) →
    (npmStore bcryptHash digest newId replace).Foreseen t (npmRecords clock report)

end Import

variable {bcryptHash : ℕ → String → String} {digest : String → String} {newId : List ℕ → ℕ}
  {replace : Bool} {clock : ℕ → String} {t : AllTables}

/-- What an import has stored stays stored. -/
lemma persistent_npmStore : (npmStore bcryptHash digest newId replace).Persistent := by
  rintro t r ⟨found, t'⟩ r' happly hfinds
  have hkept : Kept t t' := by
    simp only [RecordStore.apply, bind_eq_ok_iff] at happly
    obtain ⟨found', -, writes, -, happly⟩ := happly
    cases writes with
    | false =>
      obtain ⟨-, rfl⟩ := Prod.mk.inj (pure_eq_ok_iff.mp happly)
      exact Kept.refl t
    | true =>
      simp only [if_true, bind_eq_ok_iff, pure_eq_ok_iff, npmStore] at happly
      obtain ⟨t'', ⟨c, -, hwrite⟩, heq⟩ := happly
      obtain ⟨-, rfl⟩ := Prod.mk.inj heq
      exact kept_of_writeRecord hwrite
  obtain ⟨c, htarget, habsent⟩ := bind_eq_ok_iff.mp hfinds
  exact bind_eq_ok_iff.mpr ⟨c, htarget, hkept.findRecord_absent habsent⟩

/-- Counts are the same, but for the flag, when as many findings of each kind are made. -/
lemma npmCounts_eq_iff {report : PreflightReport} {found found' : List Finding} :
    npmCounts replace false report found =
        { npmCounts replace true report found' with dryRun := false } ↔ found.Perm found' := by
  rw [List.perm_iff_count, npmCounts, npmCounts, NpmCounts.mk.injEq]
  constructor
  · rintro ⟨habsent, hreplaced, hequal, hquarantined, -⟩ found
    cases found with
    | absent => exact habsent
    | equal => exact hequal
    | different =>
      cases replace with
      | true => exact hreplaced
      | false => exact Nat.add_left_cancel hquarantined
  · intro h
    rw [h .absent, h .different, h .equal]
    exact ⟨rfl, rfl, rfl, rfl, rfl⟩

/-- The tables of a source with one user: NPM keeps the digests of passwords in another table. -/
def oneUserSource : NpmSource := Dict.ofList
  [("user", [Dict.ofList [("id", .number 1), ("email", .text "a@b")]])]

/-- The tables of a source: a proxy host, and behind it the access list that it uses. -/
def hostFirstSource : NpmSource := Dict.ofList
  [ ("proxy_host",
      [Dict.ofList
        [ ("id", .number 1), ("domain_names", .list [.text "a.example"]),
          ("forward_host", .text "backend"), ("forward_port", .number 80),
          ("access_list_id", .number 5) ]]),
    ("access_list", [Dict.ofList [("id", .number 5), ("name", .text "staff")]]) ]

/-- The collections are imported in the order of the source: a host may come before the access list
that it refers to. -/
example : (npmImport (fun _ s => s) (fun s => s) List.length false (fun _ => "") hostFirstSource
    false {}).1 = .error .integrityError := by
  decide

end Portwyrm.Tables

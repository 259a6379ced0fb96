import Portwyrm.Tables.Imports

/-!
# Configuration bundles

`TablePortability` of `portwyrm.api.portability`: a bundle is previewed and imported record by
record.  The preview looks every record up in the tables as they are; an import creates or updates
each record before it comes to the next one.
-/

namespace Portwyrm.Tables

open Base Portwyrm.Runtime Portwyrm.Identity

/-! ## Bundles -/

/-- `BUNDLE_VERSION`. -/
def bundleVersion : String := "portwyrm.export.v2"

/-- `PORTABLE_COLLECTIONS`. -/
def portableCollections : List Collection :=
  [.settings, .accessLists, .certificates, .hosts .proxy, .hosts .redirect, .hosts .dead, .streams]

/-- `_comparable_resource`. -/
def comparableResource (d : Document) : Document :=
  d.restrict fun _ v => match v with
    | .null => false
    | _ => true

/-- Whether a resource is the existing one. -/
def isUnchanged (existing resource : Document) : Bool :=
  sameDocument (comparableResource existing) (comparableResource resource)

/-- A record of a bundle, and the moment at which an import writes it. -/
structure BundleRecord where
  collection : String
  /-- The resource, when it is a mapping. -/
  resource : Option Document
  now : String

/-- An entry of the records of a bundle. -/
def bundleRecord (now : String) : Json → Result BundleRecord
  | .object members =>
    match Json.get? members "collection", Json.get? members "resource" with
    | some collection, some resource => pure
      { collection := strJson collection
        resource := match resource with
          | .object members => some (Dict.ofList members)
          | _ => none
        now := now }
    | _, _ => throw (.valueError "invalid export record")
  | _ => throw (.valueError "invalid export record")

/-- `_validate`: the records of a bundle; `clock` tells when an import comes to each of them. -/
def validateBundle (checksum : Document → String) (clock : ℕ → String) (bundle : Document) :
    Result (List BundleRecord) := do
  raiseIf (bundle.get? "schema_version" |>.all fun v => !sameJson v (.text bundleVersion))
    (.valueError "unsupported export bundle version")
  raiseIf (bundle.get? "checksum" |>.all fun v =>
      !sameJson v (.text (checksum (bundle.pop "checksum"))))
    (.valueError "export bundle checksum mismatch")
  match bundle.get? "records" with
  | some (.list entries) => entries.zipIdx.mapM fun e => bundleRecord (clock e.2) e.1
  | _ => throw (.valueError "export records must be an array")

/-! ## Previewing and importing -/

/-- The summary of a preview or an import. -/
structure ImportSummary where
  created : ℕ
  replaced : ℕ
  unchanged : ℕ
deriving DecidableEq

/-- The summary of what was found. -/
def importSummary (found : List Finding) : ImportSummary where
  created := found.count .absent
  replaced := found.count .different
  unchanged := found.count .equal

/-- The collection of a record, and its resource. -/
def BundleRecord.target (r : BundleRecord) : Result (Collection × Document) :=
  match (Collection.ofName? r.collection).filter (· ∈ portableCollections), r.resource with
  | some c, some resource => pure (c, resource)
  | none, _ => throw (.valueError s!"unsupported portable collection {Text.repr r.collection}")
  | _, none => throw (.valueError "dictionary update sequence element is no pair")

section Import

variable (bcryptHash : ℕ → String → String) (digest : String → String) (newId : List ℕ → ℕ)
  (actor : Option {p : SecurityPrincipal // p.isAdmin = true}) (replace : Bool)

/-- The tables, as `_apply` uses them. -/
def bundleStore : RecordStore AllTables BundleRecord Exc where
  find t r := do
    let (c, resource) ← r.target
    findRecord isUnchanged t c resource
  writes r found :=
    match found with
    | .absent => pure true
    | .equal => pure false
    | .different =>
      if replace then pure true
      else
        let id := strJson ((r.resource.bind fun resource => resource.get? "id").getD .null)
        throw (.valueError s!"{r.collection}/{id} already exists")
  write found r t := do
    let (c, resource) ← r.target
    writeRecord bcryptHash digest newId (actor.map Subtype.val) r.now found c resource t

/-- `preview`. -/
def previewBundle (checksum : Document → String) (clock : ℕ → String) (bundle : Document)
    (t : AllTables) : Result ImportSummary := do
  let records ← validateBundle checksum clock bundle
  let found ← (bundleStore bcryptHash digest newId actor replace).dryRun t records
  pure (importSummary found)

/-- `import_`: the summary, and the tables afterwards. -/
def importBundle (checksum : Document → String) (clock : ℕ → String) (bundle : Document)
    (t : AllTables) : Result ImportSummary × AllTables :=
  match validateBundle checksum clock bundle with
  | .error e => (.error e, t)
  | .ok records =>
    let written := (bundleStore bcryptHash digest newId actor replace).run t records
    (written.1.map importSummary, written.2)

/-- An import applies every record, or raises and leaves the tables as they were. -/
def AllOrNothing (checksum : Document → String) (clock : ℕ → String) (bundle : Document)
    (t : AllTables) : Prop :=
  (∃ summary, (importBundle bcryptHash digest newId actor replace checksum clock bundle t).1 =
    .ok summary) ∨
  (importBundle bcryptHash digest newId actor replace checksum clock bundle t).2 = t

/-- What a preview returns is what an import returns. -/
def Predicted (checksum : Document → String) (clock : ℕ → String) (bundle : Document)
    (t : AllTables) : Prop :=
  ∀ summary, previewBundle bcryptHash digest newId actor replace checksum clock bundle t =
      .ok summary →
    (importBundle bcryptHash digest newId actor replace checksum clock bundle t).1 = .ok summary

/-- The condition under which records are imported as they are previewed.  A record that is refused
meets the tables as they were before the first one; and when no look-up in those tables refuses a
record, each of them is accepted at its turn, no new resource was stored by a record before, and as
many records as before find their resource unchanged. -/
structure Importable (t : AllTables) (records : List BundleRecord) : Prop where
  refused : ∀ x ∈ (bundleStore bcryptHash digest newId actor replace).turns t records,
    ¬ (bundleStore bcryptHash digest newId actor replace).Accepts x.1 x.2 → x.1 = t
  foreseen : (∀ r ∈ records,
      ∃ found, (bundleStore bcryptHash digest newId actor replace).check t r = .ok found) →
    (bundleStore bcryptHash digest newId actor replace).Foreseen t records

end Import

variable {bcryptHash : ℕ → String → String} {digest : String → String} {newId : List ℕ → ℕ}
  {actor : Option {p : SecurityPrincipal // p.isAdmin = true}} {replace : Bool}
  {checksum : Document → String} {clock : ℕ → String} {bundle : Document} {t : AllTables}

/-- What an import has stored stays stored. -/
lemma persistent_bundleStore :
    (bundleStore bcryptHash digest newId actor replace).Persistent := by
  rintro t r ⟨found, t'⟩ r' happly hfinds
  have hkept : Kept t t' := by
    simp only [RecordStore.apply, bind_eq_ok_iff] at happly
    obtain ⟨found', -, writes, -, happly⟩ := happly
    cases writes with
    | false =>
      obtain ⟨-, rfl⟩ := Prod.mk.inj (pure_eq_ok_iff.mp happly)
      exact Kept.refl t
    | true =>
      simp only [if_true, bind_eq_ok_iff, pure_eq_ok_iff, bundleStore] at happly
      obtain ⟨t'', ⟨⟨c, resource⟩, -, hwrite⟩, heq⟩ := happly
      obtain ⟨-, rfl⟩ := Prod.mk.inj heq
      exact kept_of_writeRecord hwrite
  obtain ⟨⟨c, resource⟩, htarget, habsent⟩ := bind_eq_ok_iff.mp hfinds
  exact bind_eq_ok_iff.mpr ⟨(c, resource), htarget, hkept.findRecord_absent habsent⟩

/-- Summaries count the findings of each kind. -/
lemma importSummary_eq_iff {found found' : List Finding} :
    importSummary found = importSummary found' ↔ found.Perm found' := by
  rw [List.perm_iff_count, importSummary, importSummary, ImportSummary.mk.injEq]
  constructor
  · rintro ⟨habsent, hdifferent, hequal⟩ found
    cases found with
    | absent => exact habsent
    | equal => exact hequal
    | different => exact hdifferent
  · exact fun h => ⟨h .absent, h .different, h .equal⟩

lemma importBundle_eq {records : List BundleRecord}
    (h : validateBundle checksum clock bundle = .ok records) :
    importBundle bcryptHash digest newId actor replace checksum clock bundle t =
      (((bundleStore bcryptHash digest newId actor replace).run t records).1.map importSummary,
        ((bundleStore bcryptHash digest newId actor replace).run t records).2) := by
  rw [importBundle, h]

lemma previewBundle_eq {records : List BundleRecord}
    (h : validateBundle checksum clock bundle = .ok records) :
    previewBundle bcryptHash digest newId actor replace checksum clock bundle t =
      ((bundleStore bcryptHash digest newId actor replace).dryRun t records).map importSummary := by
  rw [previewBundle, h, ok_bind]
  cases (bundleStore bcryptHash digest newId actor replace).dryRun t records with
  | error e => rfl
  | ok found => rfl

/-- A dry run succeeds when every record passes. -/
lemma dryRun_ok_iff {records : List BundleRecord} :
    (∃ found, (bundleStore bcryptHash digest newId actor replace).dryRun t records = .ok found) ↔
      ∀ r ∈ records, ∃ found, (bundleStore bcryptHash digest newId actor replace).check t r =
        .ok found :=
  mapM_ok_iff

/-- A record for a proxy host. -/
def sharedDomainHost (id : ℕ) : Json :=
  .object
    [ ("collection", .text "proxy_hosts"),
      ("resource", .object
        [ ("id", .number id), ("domain_names", .list [.text "a.example"]),
          ("forward_host", .text "backend"), ("forward_port", .number 80) ]) ]

/-- A bundle with two hosts that claim the same domain. -/
def sharedDomainContent : Document := Dict.ofList
  [ ("schema_version", .text bundleVersion),
    ("records", .list [sharedDomainHost 1, sharedDomainHost 2]) ]

/-- The text of a document in place of its checksum. -/
def contentText (content : Document) : String := strJson (.object content.entries)

/-- The bundle, under its checksum. -/
def sharedDomainBundle : Document :=
  sharedDomainContent.set "checksum" (.text (contentText sharedDomainContent))

/-- Neither half of the law holds: the first host has been stored. -/
example : (importBundle (fun _ s => s) (fun s => s) List.length none false contentText
    (fun _ => "") sharedDomainBundle {}).2.hosts.keys = [1] := by
  decide +kernel

end Portwyrm.Tables

import Portwyrm.Base.Survivors
import Portwyrm.Tables.NpmImport

/-!
# What the preflight does with every row

`preflight_npm` moves every row of a collection either to the accepted records or to the quarantine.
The rows of related tables are joined to the rows that they name before that; the preflight fails
when such a row is not a list where a row is joined to it.
-/

namespace Portwyrm.Tables

open Base Portwyrm.Runtime Portwyrm.Identity

/-! ## Conservation -/

/-- The records of a collection that are accepted. -/
def PreflightReport.accepted (report : PreflightReport) (collection : String) : List Document :=
  (report.records.get? collection).getD []

/-- The resources of a collection that are in quarantine. -/
def PreflightReport.quarantined (report : PreflightReport) (collection : String) : List Document :=
  (report.quarantine.filter fun q => q.collection = collection).map QuarantinedRecord.resource

/-- The rows of the tables of a collection. -/
def collectionRows (collection : String) (tables : List (String × List Document)) : List Document :=
  tables.flatMap fun e => if tableCollection e.1 = some collection then e.2 else []

/-- The members that rows of related tables are joined under. -/
def relatedFields : List String := ["visibility", "permissions", "items", "clients"]

/-- A row that nothing but related rows has been joined to. -/
def Joined (row row' : Document) : Prop := ∀ key ∉ relatedFields, row'.get? key = row.get? key

/-- The resource that a row is decoded to, with the related rows that are joined to it. -/
def Carried (row resource : Document) : Prop :=
  ∀ key ∉ relatedFields, resource.get? key = (decodeRow row).get? key

/-- The collections whose references are checked. -/
def referringCollections : List String :=
  ["proxy_hosts", "redirection_hosts", "dead_hosts", "streams"]

/-- A report conserves the rows of a source: each row of a collection is accepted or in quarantine,
once; accepted ids are given and different; and the references of accepted hosts and streams resolve
to accepted records.  Nothing but the rows of `auth` is in the collection `_credentials`. -/
structure Conserves (source : NpmSource) (report : PreflightReport) : Prop where
  rows : ∀ c, c ≠ "_credentials" → ∃ resources,
    List.Forall₂ Carried (collectionRows c source.entries) resources ∧
      (report.accepted c ++ report.quarantined c).Perm resources
  ids : ∀ c, ((report.accepted c).map fun r => rowText r "id").Nodup ∧
    ∀ r ∈ report.accepted c, r.get? "id" ≠ none ∧ rowText r "id" ≠ ""
  references : ∀ c ∈ referringCollections, ∀ r ∈ report.accepted c, ∀ rule ∈ referenceRules,
      namesNothing ((r.get? rule.1).getD .null) = true ∨
        ∃ r' ∈ report.accepted rule.2, rowText r' "id" = rowText r rule.1

/-! ## Rows of a collection -/

section Rows

variable {c : String}

lemma Joined.refl (row : Document) : Joined row row := fun _ _ => rfl

lemma Joined.trans {row row' row'' : Document} (h : Joined row row') (h' : Joined row' row'') :
    Joined row row'' := fun key hkey => (h' key hkey).trans (h key hkey)

/-- Two lists of rows that differ in what is joined to them. -/
def JoinedRows : List Document → List Document → Prop := List.Forall₂ Joined

lemma JoinedRows.refl (rows : List Document) : JoinedRows rows rows := by
  induction rows with
  | nil => exact .nil
  | cons row rest ih => exact .cons (Joined.refl row) ih

lemma JoinedRows.trans {rows rows' rows'' : List Document} (h : JoinedRows rows rows')
    (h' : JoinedRows rows' rows'') : JoinedRows rows rows'' := by
  induction h generalizing rows'' with
  | nil => exact h'
  | cons hrow _ ih =>
    cases h' with
    | cons hrow' h' => exact .cons (hrow.trans hrow') (ih h')

lemma collectionRows_cons (e : String × List Document) (rest : List (String × List Document)) :
    collectionRows c (e :: rest) =
      (if tableCollection e.1 = some c then e.2 else []) ++ collectionRows c rest :=
  List.flatMap_cons

/-- A table of another kind is taken out. -/
lemma collectionRows_pop {table : String} (h : tableCollection table ≠ some c)
    (source : NpmSource) :
    collectionRows c (source.pop table).entries = collectionRows c source.entries :=
  Dict.flatMap_entries_pop (fun _ => if_neg h) source

/-- A table of another kind is stored. -/
lemma collectionRows_set {table : String} (h : tableCollection table ≠ some c)
    (rows : List Document) (source : NpmSource) :
    collectionRows c (source.set table rows).entries = collectionRows c source.entries :=
  Dict.flatMap_entries_set_of_nil (fun _ => if_neg h) rows source

/-- The rows of a table are stored again, with related rows joined to them. -/
lemma joinedRows_set {table : String} {rows rows' : List Document} {source : NpmSource}
    (hrows : source.get? table = some rows) (h : JoinedRows rows rows') (c : String) :
    JoinedRows (collectionRows c source.entries) (collectionRows c (source.set table rows').entries) := by
  rw [collectionRows, collectionRows, Dict.flatMap_entries_set hrows]
  refine List.rel_flatMap (R := fun e e' => e = e' ∧ e ∈ source.entries)
    (List.forall₂_same.mpr fun e he => ⟨rfl, he⟩) ?_
  rintro ⟨table', rows₁⟩ - ⟨rfl, hmem⟩
  dsimp only
  by_cases htable : table' = table
  · subst htable
    obtain rfl := Option.some.inj ((Dict.mem_entries_iff.mp hmem).symm.trans hrows)
    rw [if_pos rfl]
    split
    · exact h
    · exact .nil
  · rw [if_neg htable]
    exact JoinedRows.refl _

end Rows

/-! ## Joining related rows -/

section Joining

variable {id id' : String} {f : Document → Document} {rows : List Document}

lemma joinedRows_modifyRow (hf : ∀ row, Joined row (f row)) (id : String) (rows : List Document) :
    JoinedRows rows (modifyRow id f rows) := by
  have hgo : ∀ rows, JoinedRows rows (modifyRow.go id f rows) := by
    intro rows
    induction rows with
    | nil => exact .nil
    | cons row rest ih =>
      rw [modifyRow.go]
      split
      · exact .cons (hf row) (JoinedRows.refl rest)
      · exact .cons (Joined.refl row) ih
  have hreverse := List.rel_reverse (hgo rows.reverse)
  rwa [List.reverse_reverse] at hreverse

/-- The row that is found under an id after one row has been changed. -/
lemma rowOf_modifyRow (hf : ∀ row, rowText (f row) "id" = rowText row "id") :
    rowOf id' (modifyRow id f rows) =
      (rowOf id' rows).map fun row => if id' = id then f row else row := by
  simp only [rowOf, modifyRow, List.reverse_reverse]
  induction rows.reverse with
  | nil => rfl
  | cons row rest ih =>
    rw [modifyRow.go]
    by_cases hid : rowText row "id" = id
    · rw [if_pos hid, List.find?_cons, List.find?_cons, hf row]
      by_cases hid' : rowText row "id" = id'
      · simp [← hid, ← hid']
      · have hne : id' ≠ id := fun h => hid' (hid.trans h.symm)
        simp [hid', hne]
    · rw [if_neg hid, List.find?_cons, List.find?_cons, ih]
      by_cases hid' : rowText row "id" = id'
      · have hne : id' ≠ id := fun h => hid (hid'.trans h)
        simp [hid', hne]
      · simp [hid']

lemma exists_table {table : String} {source : NpmSource} {row : Document}
    (h : rowOf id ((source.get? table).getD []) = some row) :
    ∃ rows, source.get? table = some rows := by
  cases hrows : source.get? table with
  | some rows => exact ⟨rows, rfl⟩
  | none =>
    rw [hrows] at h
    exact nomatch h

end Joining

/-- A related row can be joined: where it names a row, that has a list, or nothing, under the
field. -/
def Joinable (field : String) (source : NpmSource) (item : Document) : Prop :=
  ∀ row, rowOf (rowText item "access_list_id") ((source.get? "access_list").getD []) = some row →
    ∃ items, (row.get? field).getD (.list []) = .list items

/-- The related tables of access lists, and the fields of their rows. -/
def relatedTables : List (String × String) :=
  [("access_list_auth", "items"), ("access_list_client", "clients")]

/-- The rows of related tables can be joined. -/
def JoinableTables (source : NpmSource) : Prop :=
  ∀ related ∈ relatedTables, ∀ item ∈ (source.get? related.1).getD [],
    Joinable related.2 source item

section AddChild

variable {related field : String} {source source' : NpmSource} {report report' : PreflightReport}
  {item : Document}

lemma joined_set {key : String} (hkey : key ∈ relatedFields) (row : Document) (v : Json) :
    Joined row (row.set key v) := by
  intro key' hkey'
  exact Dict.get?_set_of_ne _ _ fun h => hkey' (h ▸ hkey)

/-- What joining one row does: the report gets a warning at most, other tables stay, and every row
keeps what is not joined to it. -/
lemma addChild_spec (hfield : field ∈ ["items", "clients"])
    (h : addChild related field (source, report) item = .ok (source', report')) :
    Joinable field source item ∧ report'.records = report.records ∧
      report'.quarantine = report.quarantine ∧
      (∀ table, table ≠ "access_list" → source'.get? table = source.get? table) ∧
      (∀ c, JoinedRows (collectionRows c source.entries) (collectionRows c source'.entries)) ∧
      ∀ field' item', Joinable field' source' item' ↔ Joinable field' source item' := by
  simp only [addChild] at h
  split at h
  · rename_i hnone
    obtain ⟨rfl, rfl⟩ := Prod.mk.inj (pure_eq_ok_iff.mp h)
    refine ⟨fun row hrow => ?_, rfl, rfl, fun _ _ => rfl, fun c => JoinedRows.refl _,
      fun _ _ => Iff.rfl⟩
    rw [hnone] at hrow
    cases hrow
  · rename_i row hrow
    split at h
    · rename_i items hitems
      obtain ⟨rfl, rfl⟩ := Prod.mk.inj (pure_eq_ok_iff.mp h)
      obtain ⟨rows, hrows⟩ := exists_table hrow
      have hjoined : ∀ row : Document, Joined row (row.set field (.list (items ++ [relatedChild item]))) :=
        fun row => joined_set (by
          rcases List.mem_cons.mp hfield with rfl | hfield
          · decide
          · obtain rfl := List.mem_singleton.mp hfield
            decide) row _
      have hid : ∀ row : Document,
          rowText (row.set field (.list (items ++ [relatedChild item]))) "id" = rowText row "id" := by
        intro row
        rw [rowText, hjoined row "id" (by decide)]
        rfl
      refine ⟨fun row' hrow' => ?_, rfl, rfl, fun table htable => ?_, fun c => ?_, ?_⟩
      · obtain rfl := Option.some.inj (hrow.symm.trans hrow')
        exact ⟨items, hitems⟩
      · exact Dict.get?_set_of_ne _ _ htable
      · rw [modifyTable, hrows]
        exact joinedRows_set hrows (joinedRows_modifyRow hjoined _ _) c
      · intro field' item'
        -- the row that was changed has a list under the field before and after
        rw [Joinable, Joinable, modifyTable, Dict.get?_set_self, Option.getD_some,
          rowOf_modifyRow hid]
        cases hrow' : rowOf (rowText item' "access_list_id")
            ((source.get? "access_list").getD []) with
        | none => simp
        | some row' =>
          simp only [Option.map_some, Option.some.injEq, forall_eq']
          split
          · rename_i hsame
            rw [hsame, hrow] at hrow'
            obtain rfl := Option.some.inj hrow'
            by_cases hf : field' = field
            · subst hf
              rw [Dict.get?_set_self]
              exact iff_of_true ⟨_, rfl⟩ ⟨items, hitems⟩
            · rw [Dict.get?_set_of_ne _ _ hf]
          · rfl
    · exact absurd h throw_ne_ok

lemma addChild_ok (related field : String) (report : PreflightReport)
    (h : Joinable field source item) :
    ∃ state, addChild related field (source, report) item = .ok state := by
  simp only [addChild]
  split
  · exact ⟨_, rfl⟩
  · rename_i row hrow
    obtain ⟨items, hitems⟩ := h row hrow
    rw [hitems]
    exact ⟨_, rfl⟩

/-- What joining the rows of a related table does. -/
lemma foldlM_addChild (hfield : field ∈ ["items", "clients"]) {items : List Document} :
    ((∃ state, items.foldlM (addChild related field) (source, report) = .ok state) ↔
      ∀ item ∈ items, Joinable field source item) ∧
    ∀ source' report', items.foldlM (addChild related field) (source, report) =
        .ok (source', report') →
      report'.records = report.records ∧ report'.quarantine = report.quarantine ∧
      (∀ table, table ≠ "access_list" → source'.get? table = source.get? table) ∧
      (∀ c, JoinedRows (collectionRows c source.entries) (collectionRows c source'.entries)) ∧
      ∀ field' item', Joinable field' source' item' ↔ Joinable field' source item' := by
  induction items generalizing source report with
  | nil =>
    refine ⟨iff_of_true ⟨_, rfl⟩ (by simp), fun source' report' h => ?_⟩
    obtain ⟨rfl, rfl⟩ := Prod.mk.inj (pure_eq_ok_iff.mp h)
    exact ⟨rfl, rfl, fun _ _ => rfl, fun c => JoinedRows.refl _, fun _ _ => Iff.rfl⟩
  | cons item rest ih =>
    simp only [List.foldlM_cons, bind_eq_ok_iff, Prod.exists]
    constructor
    · constructor
      · rintro ⟨source'', report'', source', report', hitem, hrest⟩
        obtain ⟨hjoin, -, -, -, -, hsame⟩ := addChild_spec hfield hitem
        have hall := ih.1.mp ⟨_, hrest⟩
        rintro item' (_ | ⟨_, hmem⟩)
        · exact hjoin
        · exact (hsame field item').mp (hall item' hmem)
      · intro hall
        obtain ⟨⟨source', report'⟩, hitem⟩ :=
          addChild_ok related field report (hall item List.mem_cons_self)
        obtain ⟨-, -, -, -, -, hsame⟩ := addChild_spec hfield hitem
        obtain ⟨⟨source'', report''⟩, hrest⟩ := (@ih source' report').1.mpr fun item' hmem =>
          (hsame field item').mpr (hall item' (List.mem_cons_of_mem _ hmem))
        exact ⟨source'', report'', source', report', hitem, hrest⟩
    · rintro source'' report'' ⟨source', report', hitem, hrest⟩
      obtain ⟨-, hrecords, hquarantine, htables, hjoined, hsame⟩ := addChild_spec hfield hitem
      obtain ⟨hrecords', hquarantine', htables', hjoined', hsame'⟩ := ih.2 _ _ hrest
      exact ⟨hrecords'.trans hrecords, hquarantine'.trans hquarantine,
        fun table htable => (htables' table htable).trans (htables table htable),
        fun c => (hjoined c).trans (hjoined' c),
        fun field' item' => (hsame' field' item').trans (hsame field' item')⟩

end AddChild

/-! ## The related tables of a source -/

section Normalize

variable {source source' : NpmSource} {report report' : PreflightReport}

/-- Joining permissions to users changes the table of users only. -/
lemma foldl_addPermission (permissions : List Document) (source : NpmSource)
    (report : PreflightReport) :
    (permissions.foldl addPermission (source, report)).2.records = report.records ∧
      (permissions.foldl addPermission (source, report)).2.quarantine = report.quarantine ∧
      (∀ table, table ≠ "user" →
        (permissions.foldl addPermission (source, report)).1.get? table = source.get? table) ∧
      ∀ c, JoinedRows (collectionRows c source.entries)
        (collectionRows c (permissions.foldl addPermission (source, report)).1.entries) := by
  induction permissions generalizing source report with
  | nil => exact ⟨rfl, rfl, fun _ _ => rfl, fun c => JoinedRows.refl _⟩
  | cons permission rest ih =>
    have hstep : ∃ source' report', addPermission (source, report) permission = (source', report') ∧
        report'.records = report.records ∧ report'.quarantine = report.quarantine ∧
        (∀ table, table ≠ "user" → source'.get? table = source.get? table) ∧
        ∀ c, JoinedRows (collectionRows c source.entries) (collectionRows c source'.entries) := by
      simp only [addPermission]
      split
      · exact ⟨_, _, rfl, rfl, rfl, fun _ _ => rfl, fun c => JoinedRows.refl _⟩
      · rename_i user huser
        obtain ⟨rows, hrows⟩ := exists_table huser
        refine ⟨_, _, rfl, rfl, rfl, fun table htable => Dict.get?_set_of_ne _ _ htable, fun c => ?_⟩
        rw [modifyTable, hrows]
        refine joinedRows_set hrows (joinedRows_modifyRow (fun row => ?_) _ _) c
        exact (joined_set (by decide) row _).trans (joined_set (by decide) _ _)
    obtain ⟨source', report', heq, hrecords, hquarantine, htables, hjoined⟩ := hstep
    obtain ⟨hrecords', hquarantine', htables', hjoined'⟩ := ih source' report'
    rw [List.foldl_cons, heq]
    exact ⟨hrecords'.trans hrecords, hquarantine'.trans hquarantine,
      fun table htable => (htables' table htable).trans (htables table htable),
      fun c => (hjoined c).trans (hjoined' c)⟩

/-- The related tables are no tables of a collection. -/
lemma tableCollection_related {table : String}
    (h : table ∈ ["user_permission", "auth", "access_list_auth", "access_list_client"])
    (c : String) : tableCollection table ≠ some c := by
  have hall : ∀ table ∈ ["user_permission", "auth", "access_list_auth", "access_list_client"],
      tableCollection table = none := by decide
  rw [hall table h]
  exact nofun

/-- Credentials are stored in a table of their own, when there are any. -/
def storeCredentials (credentials : List Document) (source : NpmSource) : NpmSource :=
  if credentials = [] then source else source.set "_credentials" credentials

/-- The rows of `auth` become the table `_credentials`. -/
def addCredentials (state : NpmSource × PreflightReport) : NpmSource × PreflightReport :=
  let (auths, source) := popTable "auth" state.1
  let read := auths.map (readAuth source)
  (storeCredentials (read.filterMap Sum.getRight?) source,
    { state.2 with warnings := state.2.warnings ++ read.filterMap Sum.getLeft? })

lemma storeCredentials_spec (credentials : List Document) (source : NpmSource) :
    (∀ table, table ≠ "_credentials" →
      (storeCredentials credentials source).get? table = source.get? table) ∧
    ∀ c, c ≠ "_credentials" → collectionRows c (storeCredentials credentials source).entries =
      collectionRows c source.entries := by
  rw [storeCredentials]
  split
  · exact ⟨fun _ _ => rfl, fun _ _ => rfl⟩
  · refine ⟨fun table htable => Dict.get?_set_of_ne _ _ htable, fun c hc => ?_⟩
    have heq : tableCollection "_credentials" = some "_credentials" := by decide
    exact collectionRows_set (by rw [heq]; exact fun h => hc (Option.some.inj h).symm) _ _

lemma addCredentials_spec (state : NpmSource × PreflightReport) :
    (addCredentials state).2.records = state.2.records ∧
      (addCredentials state).2.quarantine = state.2.quarantine ∧
      (∀ table, table ≠ "_credentials" → table ≠ "auth" →
        (addCredentials state).1.get? table = state.1.get? table) ∧
      ∀ c, c ≠ "_credentials" →
        collectionRows c (addCredentials state).1.entries = collectionRows c state.1.entries := by
  refine ⟨rfl, rfl, fun table htable hauth => ?_, fun c hc => ?_⟩
  · refine ((storeCredentials_spec _ _).1 table htable).trans ?_
    show (state.1.pop "auth").get? table = state.1.get? table
    rw [Dict.get?_pop, if_neg hauth]
  · exact ((storeCredentials_spec _ _).2 c hc).trans
      (collectionRows_pop (tableCollection_related (by decide) c) _)

/-- Before the rows of access lists are joined, permissions and passwords are. -/
lemma normalize_eq (source : NpmSource) (report : PreflightReport) : ∃ front report₁,
    normalizeRelatedTables source report = (do
      let state ← ((source.get? "access_list_auth").getD []).foldlM
        (addChild "access_list_auth" "items") (front, report₁)
      ((state.1.get? "access_list_client").getD []).foldlM
        (addChild "access_list_client" "clients") (state.1.pop "access_list_client", state.2)) ∧
    report₁.records = report.records ∧ report₁.quarantine = report.quarantine ∧
    front.get? "access_list" = source.get? "access_list" ∧
    front.get? "access_list_client" = source.get? "access_list_client" ∧
    ∀ c, c ≠ "_credentials" →
      JoinedRows (collectionRows c source.entries) (collectionRows c front.entries) := by
  obtain ⟨hrecords, hquarantine, htables, hjoined⟩ := foldl_addPermission
    ((source.get? "user_permission").getD []) (source.pop "user_permission") report
  have heq : normalizeRelatedTables source report = (do
      let front := addCredentials (((source.get? "user_permission").getD []).foldl addPermission
        (source.pop "user_permission", report))
      let state ← ((front.1.get? "access_list_auth").getD []).foldlM
        (addChild "access_list_auth" "items") (front.1.pop "access_list_auth", front.2)
      ((state.1.get? "access_list_client").getD []).foldlM
        (addChild "access_list_client" "clients") (state.1.pop "access_list_client", state.2)) := rfl
  rw [heq]
  generalize ((source.get? "user_permission").getD []).foldl addPermission
    (source.pop "user_permission", report) = users at hrecords hquarantine htables hjoined ⊢
  obtain ⟨hrecords', hquarantine', htables', hrows⟩ := addCredentials_spec users
  generalize addCredentials users = front at hrecords' hquarantine' htables' hrows ⊢
  have hget : ∀ table, table ≠ "_credentials" → table ≠ "auth" → table ≠ "user" →
      table ≠ "user_permission" → front.1.get? table = source.get? table := by
    intro table h1 h2 h3 h4
    rw [htables' table h1 h2, htables table h3, Dict.get?_pop, if_neg h4]
  refine ⟨front.1.pop "access_list_auth", front.2, ?_, hrecords'.trans hrecords,
    hquarantine'.trans hquarantine, ?_, ?_, fun c hc => ?_⟩
  · dsimp only
    rw [hget "access_list_auth" (by decide) (by decide) (by decide) (by decide)]
  · rw [Dict.get?_pop, if_neg (by decide)]
    exact hget "access_list" (by decide) (by decide) (by decide) (by decide)
  · rw [Dict.get?_pop, if_neg (by decide)]
    exact hget "access_list_client" (by decide) (by decide) (by decide) (by decide)
  · have hauth : tableCollection "access_list_auth" ≠ some c := tableCollection_related (by decide) c
    have hpermission : tableCollection "user_permission" ≠ some c :=
      tableCollection_related (by decide) c
    rw [collectionRows_pop hauth, hrows c hc, ← collectionRows_pop hpermission source]
    exact hjoined c

/-- The related tables can be joined exactly when each of their rows can; the rows of the
collections keep what is not joined to them. -/
lemma normalizeRelatedTables_spec (source : NpmSource) (report : PreflightReport) :
    ((∃ state, normalizeRelatedTables source report = .ok state) ↔ JoinableTables source) ∧
    ∀ source' report', normalizeRelatedTables source report = .ok (source', report') →
      report'.records = report.records ∧ report'.quarantine = report.quarantine ∧
      ∀ c, c ≠ "_credentials" →
        JoinedRows (collectionRows c source.entries) (collectionRows c source'.entries) := by
  obtain ⟨front, report₁, heq, hrecords, hquarantine, hlists, hclients, hjoined⟩ :=
    normalize_eq source report
  have hjoinable : ∀ field item, Joinable field front item ↔ Joinable field source item := by
    intro field item
    rw [Joinable, Joinable, hlists]
  -- what the second table meets after the first
  have hsecond : ∀ source₂ report₂, ((source.get? "access_list_auth").getD []).foldlM
        (addChild "access_list_auth" "items") (front, report₁) = .ok (source₂, report₂) →
      source₂.get? "access_list_client" = source.get? "access_list_client" ∧
        ∀ item, Joinable "clients" (source₂.pop "access_list_client") item ↔
          Joinable "clients" source item := by
    intro source₂ report₂ h
    obtain ⟨-, -, htables, -, hsame⟩ := (foldlM_addChild (by decide)).2 _ _ h
    refine ⟨(htables _ (by decide)).trans hclients, fun item => ?_⟩
    have hpop : Joinable "clients" (source₂.pop "access_list_client") item ↔
        Joinable "clients" source₂ item := by
      rw [Joinable, Joinable, Dict.get?_pop, if_neg (by decide)]
    rw [hpop, hsame, hjoinable]
  rw [heq]
  simp only [bind_eq_ok_iff, Prod.exists]
  refine ⟨?_, ?_⟩
  · rw [JoinableTables, relatedTables, List.forall_mem_cons, List.forall_mem_singleton]
    constructor
    · rintro ⟨source', report', source₂, report₂, hitems, hrest⟩
      obtain ⟨hget, hsame⟩ := hsecond _ _ hitems
      rw [hget] at hrest
      refine ⟨fun item hitem => (hjoinable _ _).mp ((foldlM_addChild (by decide)).1.mp ⟨_, hitems⟩
        item hitem), fun item hitem => (hsame item).mp ?_⟩
      exact (foldlM_addChild (by decide)).1.mp ⟨_, hrest⟩ item hitem
    · rintro ⟨hitems, hclients'⟩
      obtain ⟨⟨source₂, report₂⟩, hfirst⟩ := (foldlM_addChild (by decide)).1.mpr
        fun item hitem => (hjoinable "items" item).mpr (hitems item hitem)
      obtain ⟨hget, hsame⟩ := hsecond _ _ hfirst
      obtain ⟨⟨source', report'⟩, hrest⟩ := (foldlM_addChild (by decide)).1.mpr
        fun item hitem => (hsame item).mpr (hclients' item hitem)
      refine ⟨source', report', source₂, report₂, hfirst, ?_⟩
      rw [hget]
      exact hrest
  · rintro source' report' ⟨source₂, report₂, hitems, hrest⟩
    obtain ⟨hrecords₂, hquarantine₂, -, hjoined₂, -⟩ := (foldlM_addChild (by decide)).2 _ _ hitems
    obtain ⟨hrecords', hquarantine', -, hjoined', -⟩ := (foldlM_addChild (by decide)).2 _ _ hrest
    refine ⟨hrecords'.trans (hrecords₂.trans hrecords),
      hquarantine'.trans (hquarantine₂.trans hquarantine), fun c hc => ?_⟩
    have hclient : tableCollection "access_list_client" ≠ some c :=
      tableCollection_related (by decide) c
    have hpop := collectionRows_pop hclient source₂
    exact ((hjoined c hc).trans (hjoined₂ c)).trans (hpop ▸ hjoined' c)

end Normalize

/-! ## Accepting rows -/

/-- The text of the id of a row. -/
abbrev rowId (row : Document) : String := rowText row "id"

/-- A row that is accepted when no row with its id has been accepted before. -/
def Live (row : Document) : Prop :=
  quarantineReason [] (strJson (((decodeRow row).get? "id").getD (.text ""))) (decodeRow row) = none

instance : DecidablePred Live := fun _ => inferInstanceAs (Decidable (_ = none))

section Accept

variable {c : String} {report : PreflightReport} {row : Document}

/-- The accepted records of a collection can be told apart by their ids. -/
def Identified (records : List Document) : Prop :=
  (records.map fun r => rowText r "id").Nodup ∧
    ∀ r ∈ records, r.get? "id" ≠ none ∧ rowText r "id" ≠ ""

lemma accepted_set (report : PreflightReport) (collection : String) (rows : List Document) (c : String) :
    PreflightReport.accepted { report with records := report.records.set collection rows } c =
      if c = collection then rows else report.accepted c := by
  rw [PreflightReport.accepted, Dict.get?_set]
  split <;> rfl

lemma quarantined_append (report : PreflightReport) (items : List QuarantinedRecord) (c : String) :
    PreflightReport.quarantined { report with quarantine := report.quarantine ++ items } c =
      report.quarantined c ++
        (items.filter fun q => q.collection = c).map QuarantinedRecord.resource := by
  simp only [PreflightReport.quarantined, List.filter_append, List.map_append]

/-- A row that is not put into quarantine has an id that no accepted record has. -/
lemma id_of_quarantineReason {seen : List String} {resource : Document}
    (h : quarantineReason seen (strJson ((resource.get? "id").getD (.text ""))) resource = none) :
    resource.get? "id" ≠ none ∧ rowText resource "id" ≠ "" ∧ rowText resource "id" ∉ seen := by
  unfold quarantineReason at h
  split at h
  · cases h
  · rename_i hempty
    split at h
    · cases h
    · rename_i hseen
      cases hid : resource.get? "id" with
      | none =>
        rw [hid] at hempty
        exact absurd rfl hempty
      | some v =>
        rw [hid, Option.getD_some] at hempty hseen
        rw [rowText, hid, Option.getD_some]
        exact ⟨(by rintro ⟨⟩), hempty, hseen⟩

lemma get?_decodeRow_of_notMem {key : String} (h : key ∉ jsonFields) (row : Document) :
    (decodeRow row).get? key = row.get? key := by
  rw [decodeRow, Dict.get?_mapEntries]
  cases row.get? key with
  | none => rfl
  | some v =>
    cases v with
    | text s => exact congrArg some (if_neg fun hfield => h hfield.1)
    | _ => rfl

@[simp] lemma rowId_decodeRow (row : Document) : rowId (decodeRow row) = rowId row := by
  rw [rowId, rowText, get?_decodeRow_of_notMem (by decide)]
  rfl

lemma quarantineReason_eq_none_iff (seen : List String) (sourceId : String) (resource : Document) :
    quarantineReason seen sourceId resource = none ↔
      quarantineReason [] sourceId resource = none ∧ sourceId ∉ seen := by
  unfold quarantineReason
  by_cases hid : sourceId = ""
  · simp [hid]
  · by_cases hseen : sourceId ∈ seen
    · simp [hid, hseen]
    · simp [hid, hseen]

/-- A row is not put into quarantine when it is live and its id is free. -/
lemma quarantineReason_decodeRow_iff {seen : List String} :
    quarantineReason seen (strJson (((decodeRow row).get? "id").getD (.text ""))) (decodeRow row) =
      none ↔ Live row ∧ rowId row ∉ seen := by
  rw [quarantineReason_eq_none_iff]
  refine and_congr_right fun hlive => ?_
  obtain ⟨v, hid⟩ := Option.ne_none_iff_exists'.mp (id_of_quarantineReason hlive).1
  rw [← rowId_decodeRow, rowId, rowText, hid, Option.getD_some, Option.getD_some]

/-- A row is accepted when it is live and its id is free. -/
lemma addRow_settle (collection : String) (report : PreflightReport) (raw : Document) (c : String)
    {s : List Document × List Document} (haccepted : report.accepted c = s.1.map decodeRow)
    (hquarantined : report.quarantined c = s.2.map decodeRow) :
    (addRow collection report raw).accepted c =
        (if collection = c then settleRow rowId Live s raw else s).1.map decodeRow ∧
      (addRow collection report raw).quarantined c =
        (if collection = c then settleRow rowId Live s raw else s).2.map decodeRow := by
  have hids : collection = c →
      ((report.records.get? collection).getD []).map (fun row => rowText row "id") =
        s.1.map rowId := by
    rintro rfl
    show (report.accepted collection).map rowId = _
    rw [haccepted, List.map_map]
    exact List.map_congr_left fun row _ => rowId_decodeRow row
  simp only [addRow]
  split
  · rename_i reason hreason
    rw [quarantined_append]
    show report.accepted c = _ ∧ _
    by_cases hc : collection = c
    · have hnot : ¬ (Live raw ∧ rowId raw ∉ s.1.map rowId) := by
        rw [← hids hc, ← quarantineReason_decodeRow_iff, hreason]
        rintro ⟨⟩
      rw [if_pos hc, settleRow, if_neg hnot, haccepted, hquarantined]
      simp [hc]
    · rw [if_neg hc, haccepted, hquarantined]
      simp [hc]
  · rename_i hreason
    obtain ⟨hlive, hfree⟩ := quarantineReason_decodeRow_iff.mp hreason
    rw [accepted_set]
    show _ ∧ report.quarantined c = _
    by_cases hc : collection = c
    · rw [if_pos hc.symm, if_pos hc, settleRow, if_pos ⟨hlive, hids hc ▸ hfree⟩,
        hquarantined, hc]
      show report.accepted c ++ _ = _ ∧ _
      rw [haccepted]
      simp
    · rw [if_neg (Ne.symm hc), if_neg hc, haccepted, hquarantined]
      exact ⟨rfl, rfl⟩

/-- A table of a collection is accepted row by row; other tables are left out. -/
lemma addTable_settle (report : PreflightReport) (entry : String × List Document) (c : String)
    {s : List Document × List Document} (haccepted : report.accepted c = s.1.map decodeRow)
    (hquarantined : report.quarantined c = s.2.map decodeRow) :
    (addTable report entry).accepted c =
        ((if tableCollection entry.1 = some c then entry.2 else []).foldl
          (settleRow rowId Live) s).1.map decodeRow ∧
      (addTable report entry).quarantined c =
        ((if tableCollection entry.1 = some c then entry.2 else []).foldl
          (settleRow rowId Live) s).2.map decodeRow := by
  obtain ⟨table, rows⟩ := entry
  have hrows : ∀ (collection : String) (report : PreflightReport)
      (s : List Document × List Document), report.accepted c = s.1.map decodeRow →
      report.quarantined c = s.2.map decodeRow →
      (rows.foldl (addRow collection) report).accepted c =
          ((if collection = c then rows else []).foldl (settleRow rowId Live) s).1.map decodeRow ∧
        (rows.foldl (addRow collection) report).quarantined c =
          ((if collection = c then rows else []).foldl (settleRow rowId Live) s).2.map decodeRow := by
    intro collection
    induction rows with
    | nil =>
      intro report s haccepted hquarantined
      rw [ite_self]
      exact ⟨haccepted, hquarantined⟩
    | cons raw rest ih =>
      intro report s haccepted hquarantined
      obtain ⟨haccepted', hquarantined'⟩ := addRow_settle collection report raw c haccepted hquarantined
      have hnext := ih (addRow collection report raw) _ haccepted' hquarantined'
      rw [List.foldl_cons]
      by_cases hc : collection = c
      · simpa only [if_pos hc, List.foldl_cons] using hnext
      · simpa only [if_neg hc] using hnext
  simp only [addTable]
  split
  · rename_i hnone
    rw [hnone, if_neg (by rintro ⟨⟩)]
    exact ⟨haccepted, hquarantined⟩
  · rename_i collection hcollection
    have hsame : PreflightReport.accepted
        ⟨report.records.set collection ((report.records.get? collection).getD []),
          report.quarantine, report.warnings⟩ c = report.accepted c := by
      rw [accepted_set]
      split
      · rename_i hc
        rw [hc]
        rfl
      · rfl
    rw [hcollection]
    simp only [Option.some.injEq]
    exact hrows collection _ s (hsame.trans haccepted) hquarantined

/-- The tables of a source are accepted row by row. -/
lemma foldl_addTable_settle (tables : List (String × List Document)) (report : PreflightReport)
    (c : String) {s : List Document × List Document}
    (haccepted : report.accepted c = s.1.map decodeRow)
    (hquarantined : report.quarantined c = s.2.map decodeRow) :
    (tables.foldl addTable report).accepted c =
        ((collectionRows c tables).foldl (settleRow rowId Live) s).1.map decodeRow ∧
      (tables.foldl addTable report).quarantined c =
        ((collectionRows c tables).foldl (settleRow rowId Live) s).2.map decodeRow := by
  induction tables generalizing report s with
  | nil => exact ⟨haccepted, hquarantined⟩
  | cons entry rest ih =>
    obtain ⟨haccepted', hquarantined'⟩ := addTable_settle report entry c haccepted hquarantined
    rw [List.foldl_cons, collectionRows_cons, List.foldl_append]
    exact ih (addTable report entry) haccepted' hquarantined'

/-- Rows that are settled are accepted under ids that tell them apart. -/
lemma identified_settle (rows : List Document) :
    Identified ((settle rowId Live rows).1.map decodeRow) := by
  constructor
  · rw [List.map_map]
    have hids : (settle rowId Live rows).1.map ((fun r => rowText r "id") ∘ decodeRow) =
        (settle rowId Live rows).1.map rowId :=
      List.map_congr_left fun row _ => rowId_decodeRow row
    rw [hids]
    exact nodup_settle rows
  · intro r hr
    obtain ⟨row, hrow, rfl⟩ := List.mem_map.mp hr
    obtain ⟨-, -, -, hlive, -⟩ := mem_settle_iff.mp hrow
    obtain ⟨hgiven, hempty, -⟩ := id_of_quarantineReason hlive
    exact ⟨hgiven, hempty⟩

end Accept

/-! ## References -/

section References

variable {report : PreflightReport} {existing : Dict String (List String)} {c : String}

/-- Resources that refer to nothing else stay, the others are put into quarantine. -/
lemma quarantineCollection_spec (existing : Dict String (List String)) (report : PreflightReport)
    (collection c : String) :
    ((quarantineCollection existing report collection).accepted c ++
        (quarantineCollection existing report collection).quarantined c).Perm
        (report.accepted c ++ report.quarantined c) ∧
      (quarantineCollection existing report collection).accepted c =
        if c = collection then
          (report.accepted c).filter fun resource => brokenReferences existing resource = []
        else report.accepted c := by
  have haccepted : (quarantineCollection existing report collection).accepted c =
      if c = collection then
        (report.accepted c).filter fun resource => brokenReferences existing resource = []
      else report.accepted c := by
    rw [quarantineCollection, PreflightReport.accepted, Dict.get?_set]
    split
    · rename_i hc
      rw [hc]
      rfl
    · rfl
  refine ⟨?_, haccepted⟩
  have hquarantined : (quarantineCollection existing report collection).quarantined c =
      report.quarantined c ++ if c = collection then
        (report.accepted c).filter fun resource => brokenReferences existing resource ≠ []
      else [] := by
    simp only [quarantineCollection, PreflightReport.quarantined, List.filter_append,
      List.map_append]
    refine congrArg _ ?_
    by_cases hc : c = collection
    · subst hc
      simp [List.filter_map, Function.comp_def, PreflightReport.accepted]
    · simp [List.filter_map, Function.comp_def, hc, Ne.symm hc]
  rw [haccepted, hquarantined]
  split
  · have hsplit := List.filter_append_perm
      (fun resource => decide (brokenReferences existing resource = [])) (report.accepted c)
    rw [← List.append_assoc]
    refine List.perm_append_comm.trans ?_
    rw [← List.append_assoc]
    refine List.Perm.append_right _ (List.perm_append_comm.trans ?_)
    simpa using hsplit
  · rw [List.append_nil]

/-- What checking the references of some collections leaves. -/
lemma foldl_quarantineCollection (existing : Dict String (List String)) (collections : List String)
    (report : PreflightReport) (c : String) :
    ((collections.foldl (quarantineCollection existing) report).accepted c ++
        (collections.foldl (quarantineCollection existing) report).quarantined c).Perm
        (report.accepted c ++ report.quarantined c) ∧
      (collections.foldl (quarantineCollection existing) report).accepted c =
        if c ∈ collections then
          (report.accepted c).filter fun resource => brokenReferences existing resource = []
        else report.accepted c := by
  induction collections generalizing report with
  | nil => exact ⟨List.Perm.refl _, rfl⟩
  | cons collection rest ih =>
    obtain ⟨hperm, haccepted⟩ := quarantineCollection_spec existing report collection c
    obtain ⟨hperm', haccepted'⟩ := ih (quarantineCollection existing report collection)
    rw [List.foldl_cons]
    refine ⟨hperm'.trans hperm, ?_⟩
    rw [haccepted', haccepted]
    by_cases hc : c = collection
    · by_cases hrest : c ∈ rest
      · simp [hc, List.filter_filter]
      · rw [if_neg hrest, if_pos hc, if_pos (hc ▸ List.mem_cons_self)]
    · simp [hc]

/-- A resource without broken references names nothing, or what is there. -/
lemma resolves_of_brokenReferences {resource : Document}
    (h : brokenReferences existing resource = []) {rule : String × String}
    (hrule : rule ∈ referenceRules) :
    namesNothing ((resource.get? rule.1).getD .null) = true ∨
      rowText resource rule.1 ∈ (existing.get? rule.2).getD [] := by
  have hnone := List.filterMap_eq_nil_iff.mp h rule hrule
  dsimp only at hnone
  split at hnone
  · rename_i hor
    exact hor
  · cases hnone

end References

/-! ## The preflight -/

section Preflight

variable {source : NpmSource} {report : PreflightReport}

/-- Decoding does not mix members. -/
lemma carried_of_joined {row row' : Document} (h : Joined row row') : Carried row (decodeRow row') := by
  intro key hkey
  rw [decodeRow, decodeRow, Dict.get?_mapEntries, Dict.get?_mapEntries, h key hkey]

lemma Identified.filter {records : List Document} (h : Identified records) (p : Document → Bool) :
    Identified (records.filter p) :=
  ⟨(List.filter_sublist.map _).nodup h.1, fun r hr => h.2 r (List.mem_filter.mp hr).1⟩

/-- A report that is made conserves the rows of its source. -/
lemma conserves_of_preflight (h : preflightNpm source = .ok report) : Conserves source report := by
  obtain ⟨⟨source', report₁⟩, hnormalize, hreport⟩ := bind_eq_ok_iff.mp h
  obtain rfl := pure_eq_ok_iff.mp hreport
  obtain ⟨hrecords, hquarantine, hjoined⟩ := (normalizeRelatedTables_spec source {}).2 _ _ hnormalize
  have hempty : ∀ c, report₁.accepted c = [] ∧ report₁.quarantined c = [] := by
    intro c
    rw [PreflightReport.accepted, PreflightReport.quarantined, hrecords, hquarantine]
    exact ⟨rfl, rfl⟩
  have hmoved : ∀ c, ((source'.entries.foldl addTable report₁).accepted c ++
      (source'.entries.foldl addTable report₁).quarantined c).Perm
        ((collectionRows c source'.entries).map decodeRow) ∧
      Identified ((source'.entries.foldl addTable report₁).accepted c) := by
    intro c
    obtain ⟨haccepted, hquarantined⟩ :=
      foldl_addTable_settle source'.entries report₁ c (s := ([], [])) (hempty c).1 (hempty c).2
    rw [haccepted, hquarantined, ← List.map_append]
    exact ⟨(perm_settle _).map decodeRow, identified_settle _⟩
  generalize source'.entries.foldl addTable report₁ = moved at hmoved ⊢
  have hchecked := foldl_quarantineCollection
    (moved.records.mapValues fun resources => resources.map fun resource => rowText resource "id")
    referringCollections moved
  have hquarantine : quarantineBrokenReferences moved = referringCollections.foldl
      (quarantineCollection (moved.records.mapValues fun resources =>
        resources.map fun resource => rowText resource "id")) moved := rfl
  rw [hquarantine]
  refine ⟨fun c hc => ⟨(collectionRows c source'.entries).map decodeRow, ?_, ?_⟩, fun c => ?_, ?_⟩
  · rw [List.forall₂_map_right_iff]
    exact (hjoined c hc).imp fun _ _ => carried_of_joined
  · exact (hchecked c).1.trans (hmoved c).1
  · rw [(hchecked c).2]
    split
    · exact (hmoved c).2.filter _
    · exact (hmoved c).2
  · intro c hc r hr rule hrule
    have htarget : rule.2 ∉ referringCollections := by
      have hall : ∀ rule ∈ referenceRules, rule.2 ∉ referringCollections := by decide
      exact hall rule hrule
    rw [(hchecked c).2, if_pos hc] at hr
    rw [(hchecked rule.2).2, if_neg htarget]
    obtain ⟨-, hbroken⟩ := List.mem_filter.mp hr
    refine (resolves_of_brokenReferences (of_decide_eq_true hbroken) hrule).imp_right fun hmem => ?_
    rw [Dict.get?_mapValues] at hmem
    rw [PreflightReport.accepted]
    cases hget : moved.records.get? rule.2 with
    | none =>
      rw [hget] at hmem
      cases hmem
    | some resources =>
      rw [hget, Option.map_some, Option.getD_some] at hmem
      exact List.mem_map.mp hmem

/-- **The preflight conserves rows** where it makes a report, and it makes one exactly when the rows
of related tables can be joined to the access lists that they name. -/
theorem preflight_conserves_iff (source : NpmSource) :
    (∃ report, preflightNpm source = .ok report ∧ Conserves source report) ↔
      JoinableTables source := by
  rw [← (normalizeRelatedTables_spec source {}).1]
  constructor
  · rintro ⟨report, hreport, -⟩
    obtain ⟨state, hstate, -⟩ := bind_eq_ok_iff.mp hreport
    exact ⟨state, hstate⟩
  · rintro ⟨state, hstate⟩
    have hreport : preflightNpm source =
        .ok (quarantineBrokenReferences (state.1.entries.foldl addTable state.2)) := by
      rw [preflightNpm, hstate]
      rfl
    exact ⟨_, hreport, conserves_of_preflight hreport⟩

end Preflight

/-- An access list whose items are null, and a row of `access_list_auth` for it. -/
def nullItemsSource : NpmSource := Dict.ofList
  [ ("access_list", [Dict.ofList [("id", .number 1), ("name", .text "staff"), ("items", .null)]]),
    ("access_list_auth",
      [Dict.ofList [("access_list_id", .number 1), ("username", .text "amy")]]) ]

/-- Nothing of this source is conserved: the preflight fails on it. -/
theorem nullItems_not_conserved : ¬ ∀ source : NpmSource, source.get? "_credentials" = none →
    ∃ report, preflightNpm source = .ok report ∧ Conserves source report := by
  intro hall
  obtain ⟨report, hreport, -⟩ := hall nullItemsSource (by decide)
  have herror : preflightNpm nullItemsSource =
      .error (.runtimeError "object has no attribute 'append'") := rfl
  exact nomatch herror.symm.trans hreport

end Portwyrm.Tables

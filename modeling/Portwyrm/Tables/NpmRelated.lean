import Portwyrm.Tables.NpmConservation

/-!
# Related rows of an import

The preflight of an NPM source joins the rows of related tables to the last row of the table of
their parents that has the id they name.  Which of several rows with one id is accepted is decided
later, by the first of them that is not deleted.  This file says when both choose the same row.
-/

namespace Portwyrm.Tables

open Base Portwyrm.Runtime

/-! ## Ids and accepted rows -/

section Joined

variable {row row' : Document}

lemma Joined.rowId_eq (h : Joined row row') : rowId row' = rowId row := by
  rw [rowId, rowText, h "id" (by decide)]
  rfl

/-- A row that nothing but related rows is joined to is as live as before. -/
lemma Joined.live_iff (h : Joined row row') : Live row' ↔ Live row := by
  have hid : (decodeRow row').get? "id" = (decodeRow row).get? "id" := by
    rw [get?_decodeRow_of_notMem (by decide), get?_decodeRow_of_notMem (by decide), h "id" (by decide)]
  have hdeleted : (decodeRow row').get? "is_deleted" = (decodeRow row).get? "is_deleted" := by
    rw [get?_decodeRow_of_notMem (by decide), get?_decodeRow_of_notMem (by decide),
      h "is_deleted" (by decide)]
  rw [Live, Live, quarantineReason, quarantineReason, hid, hdeleted]

end Joined

/-! ## The last row with an id -/

/-- The rows of a collection, of which the last ones with their ids in one table are marked. -/
def markedRows (c table : String) (tables : List (String × List Document)) :
    List (Document × Bool) :=
  tables.flatMap fun e =>
    if tableCollection e.1 = some c then
      if e.1 = table then markLast rowId e.2 else e.2.map fun row => (row, false)
    else []

/-- A source in which the last row of each id of a table is changed. -/
def joinTable (table : String) (f : Document → Document) (source : NpmSource) : NpmSource :=
  match source.get? table with
  | some rows => source.set table ((markLast rowId rows).map (updateMarked f))
  | none => source

section Modify

variable {id : String} {f g : Document → Document} {row : Document} {rows rest : List Document}

lemma go_append (l l' : List Document) : modifyRow.go id g (l ++ l') =
    if ∃ r ∈ l, rowId r = id then modifyRow.go id g l ++ l' else l ++ modifyRow.go id g l' := by
  induction l with
  | nil => simp
  | cons row l ih =>
    rw [List.cons_append, modifyRow.go, modifyRow.go]
    by_cases hrow : rowText row "id" = id
    · rw [if_pos hrow, if_pos hrow, if_pos ⟨row, List.mem_cons_self, hrow⟩, List.cons_append]
    · rw [if_neg hrow, if_neg hrow, ih]
      have hiff : (∃ r ∈ row :: l, rowId r = id) ↔ ∃ r ∈ l, rowId r = id := by
        simp [hrow]
      rw [if_congr hiff rfl rfl]
      split <;> rfl

/-- A row is changed when no later row has the id. -/
lemma modifyRow_cons : modifyRow id g (row :: rest) =
    if ∃ r ∈ rest, rowId r = id then row :: modifyRow id g rest
    else (if rowId row = id then g row else row) :: rest := by
  have hmem : (∃ r ∈ rest.reverse, rowId r = id) ↔ ∃ r ∈ rest, rowId r = id := by
    simp only [List.mem_reverse]
  rw [modifyRow, List.reverse_cons, go_append, if_congr hmem rfl rfl]
  split
  · rw [List.reverse_append]
    rfl
  · rw [List.reverse_append, List.reverse_reverse, modifyRow.go]
    by_cases hrow : rowText row "id" = id
    · rw [if_pos hrow, if_pos hrow]
      rfl
    · rw [if_neg hrow, if_neg hrow]
      rfl

lemma rowOf_eq_none_iff : rowOf id rows = none ↔ ∀ r ∈ rows, rowId r ≠ id := by
  rw [rowOf, List.find?_eq_none]
  simp

lemma exists_rowId_iff : (∃ r ∈ rows, rowId r = id) ↔ id ∈ rows.map rowId :=
  List.mem_map.symm

/-- The changes of marked rows are changes of the rows that are found. -/
lemma modifyRow_updateMarked (hf : ∀ row, rowId (f row) = rowId row) :
    modifyRow id g ((markLast rowId rows).map (updateMarked f)) =
      (markLast rowId rows).map
        (updateMarked fun row => if rowId row = id then g (f row) else f row) := by
  induction rows with
  | nil => rfl
  | cons row rest ih =>
    have hmem : (∃ r ∈ (markLast rowId rest).map (updateMarked f), rowId r = id) ↔
        ∃ r ∈ rest, rowId r = id := by
      rw [exists_rowId_iff, exists_rowId_iff, map_key_updateMarked hf]
    rw [markLast, List.map_cons, List.map_cons, modifyRow_cons, if_congr hmem rfl rfl]
    split
    · -- a later row has the id: this one is marked for another id at most
      rename_i hlater
      rw [ih]
      refine congrArg (· :: _) ?_
      rw [updateMarked, updateMarked]
      split
      · rename_i hlast
        rw [if_neg]
        rintro rfl
        obtain ⟨r, hr, hkey⟩ := hlater
        exact of_decide_eq_true hlast r hr hkey
      · rfl
    · -- this is the last row with the id, when it has the id
      rename_i hlast
      have hrest : (markLast rowId rest).map (updateMarked f) = (markLast rowId rest).map
          (updateMarked fun row => if rowId row = id then g (f row) else f row) := by
        refine List.map_congr_left fun e he => ?_
        have hne : rowId e.1 ≠ id := fun hkey =>
          hlast ⟨e.1, fst_mem_of_mem_markLast he, hkey⟩
        rw [updateMarked, updateMarked, if_neg hne]
      have hhead : rowId (updateMarked f (row, decide (∀ r ∈ rest, rowId r ≠ rowId row))) =
          rowId row := by
        rw [updateMarked]
        split
        · exact hf row
        · rfl
      rw [hrest, hhead]
      refine congrArg (· :: _) ?_
      by_cases hkey : rowId row = id
      · have hmark : decide (∀ r ∈ rest, rowId r ≠ rowId row) = true :=
          decide_eq_true fun r hr h => hlast ⟨r, hr, h.trans hkey⟩
        rw [hmark, updateMarked, updateMarked, if_pos rfl, if_pos rfl, if_pos hkey]
      · simp [updateMarked, hkey]

lemma rowId_of_rowOf (h : rowOf id rows = some row) : rowId row = id := by
  simpa using List.find?_some h

lemma rowOf_cons : rowOf id (row :: rest) =
    (rowOf id rest).or (if rowId row = id then some row else none) := by
  rw [rowOf, List.reverse_cons, List.find?_append, List.find?_singleton]
  simp [rowOf]

/-- The row that is found under its id is the marked one. -/
lemma rowOf_of_marked {e : Document × Bool} (he : e ∈ markLast rowId rows) (hmark : e.2 = true) :
    rowOf (rowId e.1) rows = some e.1 := by
  induction rows with
  | nil => exact absurd he List.not_mem_nil
  | cons row rest ih =>
    rw [markLast] at he
    rw [rowOf_cons]
    rcases List.mem_cons.mp he with rfl | he
    · rw [rowOf_eq_none_iff.mpr (of_decide_eq_true hmark), Option.none_or, if_pos rfl]
    · rw [ih he, Option.some_or]

/-- Only the row that is found is changed. -/
lemma modifyRow_congr (h : ∀ row, rowOf id rows = some row → f row = g row) :
    modifyRow id f rows = modifyRow id g rows := by
  induction rows with
  | nil => rfl
  | cons row rest ih =>
    rw [modifyRow_cons, modifyRow_cons]
    split
    · rw [ih fun row' hrow' => h row' (by rw [rowOf_cons, hrow', Option.some_or])]
    · rename_i hnone
      have hrest : rowOf id rest = none := rowOf_eq_none_iff.mpr fun r hr hkey => hnone ⟨r, hr, hkey⟩
      split
      · rename_i hkey
        rw [h row (by rw [rowOf_cons, hrest, if_pos hkey, Option.none_or])]
      · rfl

end Modify

section Join

variable {c table : String} {f g : Document → Document} {source : NpmSource}
  {rows : List Document} {id : String}

lemma joinTable_id (table : String) (source : NpmSource) :
    joinTable table (fun row => row) source = source := by
  rw [joinTable]
  cases hrows : source.get? table with
  | none => rfl
  | some rows =>
    refine Dict.set_eq_self (hrows.trans (congrArg some ?_))
    exact ((map_updateMarked_id _).trans (map_fst_markLast rows)).symm

lemma get?_joinTable (table : String) (f : Document → Document) (source : NpmSource)
    (table' : String) : (joinTable table f source).get? table' =
      if table' = table then
        (source.get? table).map fun rows => (markLast rowId rows).map (updateMarked f)
      else source.get? table' := by
  rw [joinTable]
  cases hrows : source.get? table with
  | none =>
    dsimp only
    split
    · rename_i h
      rw [h, hrows]
      rfl
    · rfl
  | some rows =>
    dsimp only
    rw [Dict.get?_set, Option.map_some]

lemma joinTable_congr (h : ∀ row ∈ (source.get? table).getD [], f row = g row) :
    joinTable table f source = joinTable table g source := by
  rw [joinTable, joinTable]
  cases hrows : source.get? table with
  | none => rfl
  | some rows =>
    refine congrArg (source.set table) (List.map_congr_left fun e he => ?_)
    have hmem : e.1 ∈ (source.get? table).getD [] := by
      rw [hrows]
      exact fst_mem_of_mem_markLast he
    rw [updateMarked, updateMarked, h e.1 hmem]

lemma joinTable_pop {table' : String} (hne : table ≠ table') :
    (joinTable table f source).pop table' = joinTable table f (source.pop table') := by
  rw [joinTable, joinTable, Dict.get?_pop, if_neg hne]
  cases source.get? table with
  | none => rfl
  | some rows => exact Dict.pop_set_of_ne hne _ _

/-- Changing the row that is found under an id. -/
lemma modifyTable_joinTable (hf : ∀ row, rowId (f row) = rowId row) (table id : String)
    (g : Document → Document) (source : NpmSource) (h : source.get? table ≠ none) :
    modifyTable table id g (joinTable table f source) =
      joinTable table (fun row => if rowId row = id then g (f row) else f row) source := by
  obtain ⟨rows, hrows⟩ := Option.ne_none_iff_exists'.mp h
  rw [modifyTable, get?_joinTable, if_pos rfl, joinTable, joinTable, hrows]
  dsimp only
  rw [Option.map_some, Option.getD_some, Dict.set_set, modifyRow_updateMarked hf]

lemma rowOf_joinTable_eq_none_iff (hf : ∀ row, rowId (f row) = rowId row) :
    rowOf id (((joinTable table f source).get? table).getD []) = none ↔
      rowOf id ((source.get? table).getD []) = none := by
  rw [get?_joinTable, if_pos rfl, rowOf_eq_none_iff, rowOf_eq_none_iff]
  cases source.get? table with
  | none => rfl
  | some rows =>
    have hiff : (∃ r ∈ (markLast rowId rows).map (updateMarked f), rowId r = id) ↔
        ∃ r ∈ rows, rowId r = id := by
      rw [exists_rowId_iff, exists_rowId_iff, map_key_updateMarked hf]
    simpa using not_congr hiff

/-- The rows of the collection of the table. -/
lemma collectionRows_joinTable (hc : tableCollection table = some c) :
    collectionRows c (joinTable table f source).entries =
      (markedRows c table source.entries).map (updateMarked f) := by
  have hplain : ∀ rows : List Document,
      (rows.map fun row => (row, false)).map (updateMarked f) = rows := by
    intro rows
    rw [List.map_map]
    exact List.map_id rows
  rw [joinTable, markedRows, List.map_flatMap]
  cases hrows : source.get? table with
  | none =>
    refine List.flatMap_congr fun e he => ?_
    have hne : e.1 ≠ table := by
      rintro rfl
      rw [Dict.mem_entries_iff.mp he] at hrows
      exact nomatch hrows
    split
    · exact (hplain _).symm
    · rfl
  | some rows =>
    dsimp only
    rw [collectionRows, Dict.flatMap_entries_set hrows]
    refine List.flatMap_congr fun e he => ?_
    by_cases htable : e.1 = table
    · have heq : e.2 = rows := by
        obtain ⟨table', rows'⟩ := e
        subst htable
        exact Option.some.inj ((Dict.mem_entries_iff.mp he).symm.trans hrows)
      rw [if_pos htable, htable, if_pos hc, if_pos hc, if_pos rfl, heq]
    · rw [if_neg htable]
      split
      · exact (hplain _).symm
      · rfl

end Join

/-! ## What is joined -/

/-- What a row of `user_permission` writes to a user. -/
def showPermission (user permission : Document) : Document :=
  (user.set "visibility" ((permission.get? "visibility").getD (.text "user"))).set "permissions"
    (.object (permissionFields.map fun field =>
      (field, (permission.get? field).getD (.text "hidden"))))

/-- The list under a field. -/
def listOf (row : Document) (field : String) : List Json :=
  match row.get? field with
  | some (.list items) => items
  | _ => []

/-- Rows of a related table, behind the list that an access list has. -/
def addChildren (field : String) (row : Document) (items : List Document) : Document :=
  if items = [] then row
  else row.set field (.list (listOf row field ++ items.map relatedChild))

/-- The rows of a related table that name an id. -/
def relatedRows (source : NpmSource) (related key id : String) : List Document :=
  ((source.get? related).getD []).filter fun item => rowText item key = id

/-- A user with its permissions: the last row is what remains. -/
def withPermissions (source : NpmSource) (user : Document) : Document :=
  (relatedRows source "user_permission" "user_id" (rowId user)).foldl showPermission user

/-- An access list with its items and its clients. -/
def withChildren (source : NpmSource) (row : Document) : Document :=
  let id := rowId row
  addChildren "clients"
    (addChildren "items" row (relatedRows source "access_list_auth" "access_list_id" id))
    (relatedRows source "access_list_client" "access_list_id" id)

/-- The warning about a permission that names no user. -/
def orphanPermission (permission : Document) : String :=
  let userId := rowText permission "user_id"
  s!"orphan user_permission ignored: user_id={userId}"

/-- The warning about a row that names no access list. -/
def orphanChild (related : String) (item : Document) : String :=
  let listId := rowText item "access_list_id"
  s!"orphan {related} ignored: access_list_id={listId}"

section Folds

variable {f : Document → Document} {source : NpmSource} {report : PreflightReport}
  {related field : String}

lemma joined_showPermission (user permission : Document) :
    Joined user (showPermission user permission) :=
  (joined_set (by decide) user _).trans (joined_set (by decide) _ _)

lemma joined_foldl {β : Type} {g : Document → β → Document} (hg : ∀ row b, Joined row (g row b))
    (l : List β) (row : Document) : Joined row (l.foldl g row) := by
  induction l generalizing row with
  | nil => exact Joined.refl row
  | cons b l ih => exact (hg row b).trans (ih (g row b))

/-- The rows that name the id of a row, one more of them. -/
lemma foldl_filter_cons {g : Document → Document → Document} (key : String) (item : Document)
    (rest : List Document) (row : Document) (id : String) :
    ((item :: rest).filter fun item => rowText item key = id).foldl g row =
      (rest.filter fun item => rowText item key = id).foldl g
        (if id = rowText item key then g row item else row) := by
  by_cases h : rowText item key = id
  · rw [List.filter_cons_of_pos (by simpa using h), List.foldl_cons, if_pos h.symm]
  · rw [List.filter_cons_of_neg (by simpa using h), if_neg (Ne.symm h)]

/-- The warnings about rows that name nothing. -/
def orphanWarnings (text : Document → String) (key table : String) (source : NpmSource)
    (items : List Document) : List String :=
  (items.filter fun item => rowOf (rowText item key) ((source.get? table).getD []) = none).map text

lemma orphanWarnings_cons (text : Document → String) (key table : String) (source : NpmSource)
    (item : Document) (rest : List Document) : orphanWarnings text key table source (item :: rest) =
      (if rowOf (rowText item key) ((source.get? table).getD []) = none then [text item] else []) ++
        orphanWarnings text key table source rest := by
  rw [orphanWarnings, List.filter_cons]
  split
  · rename_i h
    rw [if_pos (of_decide_eq_true h)]
    rfl
  · rename_i h
    rw [if_neg fun hnone => h (decide_eq_true hnone)]
    rfl

/-- A row that is found nowhere leaves the source as it is. -/
lemma joinTable_orphan {table id : String} {g : Document → Document}
    (h : rowOf id ((source.get? table).getD []) = none) :
    joinTable table f source =
      joinTable table (fun row => if rowId row = id then g (f row) else f row) source :=
  joinTable_congr fun row hrow => (if_neg (rowOf_eq_none_iff.mp h row hrow)).symm

lemma addPermission_joinTable (hf : ∀ row, rowId (f row) = rowId row) (permission : Document) :
    addPermission (joinTable "user" f source, report) permission =
      (joinTable "user" (fun user => if rowId user = rowText permission "user_id" then
          showPermission (f user) permission else f user) source,
        { report with warnings := report.warnings ++
            orphanWarnings orphanPermission "user_id" "user" source [permission] }) := by
  have hnone : rowOf (rowText permission "user_id")
      (((joinTable "user" f source).get? "user").getD []) = none ↔
        rowOf (rowText permission "user_id") ((source.get? "user").getD []) = none :=
    rowOf_joinTable_eq_none_iff hf
  simp only [addPermission, orphanWarnings_cons]
  split
  · rename_i horphan
    -- no row has the id, so that the change under it changes nothing
    rw [if_pos (hnone.mp horphan)]
    have hsame := joinTable_orphan (f := f) (g := fun user => showPermission user permission)
      (hnone.mp horphan)
    exact Prod.ext hsame rfl
  · rename_i user huser
    have hfound : rowOf (rowText permission "user_id") ((source.get? "user").getD []) ≠ none := by
      intro h
      have hmissing := hnone.mpr h
      rw [huser] at hmissing
      cases hmissing
    rw [if_neg hfound]
    refine Prod.ext ?_ (by simp [orphanWarnings])
    refine modifyTable_joinTable hf _ _ _ _ fun hget => hfound ?_
    rw [hget]
    rfl

/-- All permissions. -/
lemma foldl_addPermission_joinTable (hf : ∀ row, rowId (f row) = rowId row)
    (permissions : List Document) :
    permissions.foldl addPermission (joinTable "user" f source, report) =
      (joinTable "user" (fun user => (permissions.filter fun permission =>
          rowText permission "user_id" = rowId user).foldl showPermission (f user)) source,
        { report with warnings := report.warnings ++
            orphanWarnings orphanPermission "user_id" "user" source permissions }) := by
  induction permissions generalizing f report with
  | nil => simp [orphanWarnings]
  | cons permission rest ih =>
    have hnext : ∀ user, rowId (if rowId user = rowText permission "user_id" then
        showPermission (f user) permission else f user) = rowId user := by
      intro user
      split
      · rw [(joined_showPermission (f user) permission).rowId_eq, hf]
      · exact hf user
    rw [List.foldl_cons, addPermission_joinTable hf, ih hnext, orphanWarnings_cons _ _ _ _ _ rest,
      orphanWarnings_cons]
    refine Prod.ext (congrArg (joinTable "user" · source) (funext fun user => ?_)) ?_
    · rw [foldl_filter_cons]
    · simp [orphanWarnings]

/-- A row of a related table behind the list that an access list has. -/
def addItem (field : String) (row item : Document) : Document :=
  row.set field (.list (listOf row field ++ [relatedChild item]))

lemma joined_addItem (hfield : field ∈ ["items", "clients"]) (row item : Document) :
    Joined row (addItem field row item) :=
  joined_set (by revert hfield; simp [relatedFields]; tauto) row _

lemma foldl_addItem (items : List Document) (row : Document) :
    items.foldl (addItem field) row = addChildren field row items := by
  induction items generalizing row with
  | nil => rfl
  | cons item rest ih =>
    have hlist : listOf (addItem field row item) field = listOf row field ++ [relatedChild item] := by
      rw [listOf, addItem, Dict.get?_set_self]
    rw [List.foldl_cons, ih, addChildren, addChildren, if_neg (List.cons_ne_nil _ _), hlist]
    split
    · rename_i hrest
      rw [hrest]
      rfl
    · rw [addItem, Dict.set_set]
      simp

/-- One row of a related table. -/
lemma addChild_joinTable (hf : ∀ row, rowId (f row) = rowId row) {item : Document}
    {state : NpmSource × PreflightReport}
    (h : addChild related field (joinTable "access_list" f source, report) item = .ok state) :
    state = (joinTable "access_list" (fun row => if rowId row = rowText item "access_list_id" then
          addItem field (f row) item else f row) source,
        { report with warnings := report.warnings ++
            orphanWarnings (orphanChild related) "access_list_id" "access_list" source [item] }) := by
  have hnone : rowOf (rowText item "access_list_id")
      (((joinTable "access_list" f source).get? "access_list").getD []) = none ↔
        rowOf (rowText item "access_list_id") ((source.get? "access_list").getD []) = none :=
    rowOf_joinTable_eq_none_iff hf
  simp only [addChild] at h
  rw [orphanWarnings_cons]
  split at h
  · rename_i horphan
    rw [← pure_eq_ok_iff.mp h, if_pos (hnone.mp horphan)]
    have hsame := joinTable_orphan (f := f) (g := fun row => addItem field row item)
      (hnone.mp horphan)
    exact Prod.ext hsame rfl
  · rename_i row hrow
    have hfound : rowOf (rowText item "access_list_id") ((source.get? "access_list").getD []) ≠
        none := by
      intro h
      have hmissing := hnone.mpr h
      rw [hrow] at hmissing
      cases hmissing
    split at h
    · rename_i items hitems
      rw [← pure_eq_ok_iff.mp h, if_neg hfound]
      refine Prod.ext ?_ (by simp [orphanWarnings])
      have hget : source.get? "access_list" ≠ none := by
        intro hget
        rw [hget] at hfound
        exact hfound rfl
      refine Eq.trans ?_ (modifyTable_joinTable hf "access_list" (rowText item "access_list_id")
        (fun row => addItem field row item) source hget)
      rw [modifyTable]
      show Dict.set _ _ _ = Dict.set _ _ _
      refine congrArg (Dict.set _ "access_list") (modifyRow_congr fun row' hrow' => ?_)
      -- the row that is found is the one whose list has been read
      rw [hrow] at hrow'
      obtain rfl := Option.some.inj hrow'
      have hlist : listOf row field = items := by
        rw [listOf]
        cases hget : row.get? field with
        | none =>
          rw [hget] at hitems
          exact Json.list.inj hitems
        | some v =>
          rw [hget, Option.getD_some] at hitems
          rw [hitems]
      rw [addItem, hlist]
    · cases h

/-- All rows of a related table. -/
lemma foldlM_addChild_joinTable (hfield : field ∈ ["items", "clients"])
    (hf : ∀ row, rowId (f row) = rowId row) {items : List Document}
    {state : NpmSource × PreflightReport}
    (h : items.foldlM (addChild related field) (joinTable "access_list" f source, report) =
      .ok state) :
    state = (joinTable "access_list" (fun row => addChildren field (f row)
          (items.filter fun item => rowText item "access_list_id" = rowId row)) source,
        { report with warnings := report.warnings ++
            orphanWarnings (orphanChild related) "access_list_id" "access_list" source items }) := by
  induction items generalizing f report with
  | nil =>
    rw [← pure_eq_ok_iff.mp h]
    simp [orphanWarnings, addChildren]
  | cons item rest ih =>
    rw [List.foldlM_cons] at h
    obtain ⟨state₁, hitem, hrest⟩ := bind_eq_ok_iff.mp h
    obtain rfl := addChild_joinTable hf hitem
    have hnext : ∀ row, rowId (if rowId row = rowText item "access_list_id" then
        addItem field (f row) item else f row) = rowId row := by
      intro row
      split
      · rw [(joined_addItem hfield (f row) item).rowId_eq, hf]
      · exact hf row
    rw [ih hnext hrest, orphanWarnings_cons _ _ _ _ _ rest, orphanWarnings_cons]
    refine Prod.ext (congrArg (joinTable "access_list" · source) (funext fun row => ?_)) ?_
    · rw [← foldl_addItem, ← foldl_addItem, foldl_filter_cons]
    · simp [orphanWarnings]

end Folds

/-! ## The related tables of a source -/

section Normalized

variable {c table table' : String} {f : Document → Document} {source source' : NpmSource}
  {report report' : PreflightReport}

lemma markedRows_pop (h : tableCollection table' ≠ some c) (source : NpmSource) :
    markedRows c table (source.pop table').entries = markedRows c table source.entries :=
  Dict.flatMap_entries_pop (fun _ => if_neg h) source

lemma markedRows_set (h : tableCollection table' ≠ some c) (rows : List Document)
    (source : NpmSource) :
    markedRows c table (source.set table' rows).entries = markedRows c table source.entries :=
  Dict.flatMap_entries_set_of_nil (fun _ => if_neg h) rows source

lemma markedRows_joinTable (h : tableCollection table' ≠ some c) (source : NpmSource) :
    markedRows c table (joinTable table' f source).entries = markedRows c table source.entries := by
  rw [joinTable]
  cases source.get? table' with
  | none => rfl
  | some rows => exact markedRows_set h _ _

lemma markedRows_storeCredentials (hc : c ≠ "_credentials") (credentials : List Document)
    (source : NpmSource) : markedRows c table (storeCredentials credentials source).entries =
      markedRows c table source.entries := by
  rw [storeCredentials]
  split
  · rfl
  · have heq : tableCollection "_credentials" = some "_credentials" := by decide
    exact markedRows_set (by rw [heq]; exact fun h => hc (Option.some.inj h).symm) _ _

lemma collectionRows_joinTable_of_ne (h : tableCollection table' ≠ some c) (source : NpmSource) :
    collectionRows c (joinTable table' f source).entries = collectionRows c source.entries := by
  rw [joinTable]
  cases source.get? table' with
  | none => rfl
  | some rows => exact collectionRows_set h _ _

lemma orphanWarnings_congr {text : Document → String} {key : String} {source₂ : NpmSource}
    (h : source₂.get? table = source.get? table) (items : List Document) :
    orphanWarnings text key table source₂ items = orphanWarnings text key table source items := by
  rw [orphanWarnings, h]
  rfl

lemma joined_addChildren {field : String} (hfield : field ∈ ["items", "clients"]) (row : Document)
    (items : List Document) : Joined row (addChildren field row items) := by
  rw [← foldl_addItem]
  exact joined_foldl (joined_addItem hfield) items row

/-- Passwords leave the other tables, and the warnings that are there. -/
lemma addCredentials_frame (hc : c ≠ "_credentials") (state : NpmSource × PreflightReport) :
    markedRows c table (addCredentials state).1.entries = markedRows c table state.1.entries ∧
      state.2.warnings ⊆ (addCredentials state).2.warnings := by
  refine ⟨(markedRows_storeCredentials hc _ _).trans ?_, List.subset_append_left _ _⟩
  exact markedRows_pop (tableCollection_related (by decide) c) _

/-- What the related tables leave of a source. -/
structure Normalized (source source' : NpmSource) (report' : PreflightReport) : Prop where
  users : collectionRows "users" source'.entries =
    (markedRows "users" "user" source.entries).map (updateMarked (withPermissions source))
  lists : collectionRows "access_lists" source'.entries =
    (markedRows "access_lists" "access_list" source.entries).map (updateMarked (withChildren source))
  orphanPermissions : orphanWarnings orphanPermission "user_id" "user" source
    ((source.get? "user_permission").getD []) ⊆ report'.warnings
  orphanChildren : ∀ related ∈ relatedTables, orphanWarnings (orphanChild related.1)
    "access_list_id" "access_list" source ((source.get? related.1).getD []) ⊆ report'.warnings

/-- What joining permissions to users leaves. -/
lemma permissions_spec {state : NpmSource × PreflightReport}
    (h : ((source.get? "user_permission").getD []).foldl addPermission
      (source.pop "user_permission", report) = state) :
    collectionRows "users" state.1.entries =
        (markedRows "users" "user" source.entries).map (updateMarked (withPermissions source)) ∧
      (∀ c table, c ≠ "users" →
        markedRows c table state.1.entries = markedRows c table source.entries) ∧
      (∀ table, table ≠ "user" → table ≠ "user_permission" →
        state.1.get? table = source.get? table) ∧
      orphanWarnings orphanPermission "user_id" "user" source
        ((source.get? "user_permission").getD []) ⊆ state.2.warnings := by
  have hpermission : ∀ c, tableCollection "user_permission" ≠ some c :=
    tableCollection_related (by decide)
  rw [← joinTable_id "user" (source.pop "user_permission"),
    foldl_addPermission_joinTable fun _ => rfl] at h
  subst h
  refine ⟨?_, fun c table hc => ?_, fun table huser htable => ?_, ?_⟩
  · exact (collectionRows_joinTable (by decide)).trans (by rw [markedRows_pop (hpermission _)]; rfl)
  · have huser : tableCollection "user" ≠ some c := by
      have heq : tableCollection "user" = some "users" := by decide
      rw [heq]
      exact fun h => hc (Option.some.inj h).symm
    exact (markedRows_joinTable huser _).trans (markedRows_pop (hpermission c) _)
  · show (joinTable _ _ _).get? table = _
    rw [get?_joinTable, if_neg huser, Dict.get?_pop, if_neg htable]
  · have hget : (source.pop "user_permission").get? "user" = source.get? "user" := by
      rw [Dict.get?_pop, if_neg (by decide)]
    rw [← orphanWarnings_congr hget]
    exact List.subset_append_right _ _

/-- What joining items and clients to access lists leaves. -/
lemma children_spec {front : NpmSource} {report₁ : PreflightReport}
    (hlists : front.get? "access_list" = source.get? "access_list")
    (hclients : front.get? "access_list_client" = source.get? "access_list_client")
    (h : (do
      let state ← ((source.get? "access_list_auth").getD []).foldlM
        (addChild "access_list_auth" "items") (front, report₁)
      ((state.1.get? "access_list_client").getD []).foldlM
        (addChild "access_list_client" "clients") (state.1.pop "access_list_client", state.2)) =
      .ok (source', report')) :
    source' = joinTable "access_list" (withChildren source) (front.pop "access_list_client") ∧
      report₁.warnings ⊆ report'.warnings ∧
      ∀ related ∈ relatedTables, orphanWarnings (orphanChild related.1) "access_list_id"
        "access_list" source ((source.get? related.1).getD []) ⊆ report'.warnings := by
  obtain ⟨state, hitems, hrest⟩ := bind_eq_ok_iff.mp h
  rw [← joinTable_id "access_list" front] at hitems
  obtain rfl := foldlM_addChild_joinTable (by decide) (fun _ => rfl) hitems
  dsimp only at hrest
  rw [joinTable_pop (by decide), get?_joinTable, if_neg (by decide), hclients] at hrest
  have hids : ∀ row, rowId (addChildren "items" row
      (((source.get? "access_list_auth").getD []).filter fun item =>
        rowText item "access_list_id" = rowId row)) = rowId row :=
    fun row => (joined_addChildren (by decide) row _).rowId_eq
  obtain ⟨hsource, hreport⟩ := Prod.mk.inj (foldlM_addChild_joinTable (by decide) hids hrest)
  have hget : (front.pop "access_list_client").get? "access_list" = source.get? "access_list" := by
    rw [Dict.get?_pop, if_neg (by decide), hlists]
  rw [orphanWarnings_congr hlists, orphanWarnings_congr hget] at hreport
  subst hreport
  refine ⟨hsource, fun w hw => ?_, fun related hrelated w hw => ?_⟩
  · exact List.mem_append_left _ (List.mem_append_left _ hw)
  · simp only [relatedTables, List.mem_cons, List.not_mem_nil, or_false] at hrelated
    rcases hrelated with rfl | rfl
    · exact List.mem_append_left _ (List.mem_append_right _ hw)
    · exact List.mem_append_right _ hw

/-- The related tables are joined row by row. -/
lemma normalized_of_normalize (h : normalizeRelatedTables source report = .ok (source', report')) :
    Normalized source source' report' := by
  have heq : normalizeRelatedTables source report = (do
      let front := addCredentials (((source.get? "user_permission").getD []).foldl addPermission
        (source.pop "user_permission", report))
      let state ← ((front.1.get? "access_list_auth").getD []).foldlM
        (addChild "access_list_auth" "items") (front.1.pop "access_list_auth", front.2)
      ((state.1.get? "access_list_client").getD []).foldlM
        (addChild "access_list_client" "clients") (state.1.pop "access_list_client", state.2)) := rfl
  rw [heq] at h
  generalize hstate : ((source.get? "user_permission").getD []).foldl addPermission
    (source.pop "user_permission", report) = state at h
  obtain ⟨husers, hmarked, hget, hwarnings⟩ := permissions_spec hstate
  obtain ⟨-, -, htables, hrows⟩ := addCredentials_spec state
  have hframe := fun c table hc => @addCredentials_frame c table hc state
  -- passwords and permissions leave the tables of the access lists as they are
  generalize addCredentials state = front at h htables hrows hframe
  have hsame : ∀ table, table ≠ "_credentials" → table ≠ "auth" → table ≠ "user" →
      table ≠ "user_permission" → front.1.get? table = source.get? table :=
    fun table h1 h2 h3 h4 => (htables table h1 h2).trans (hget table h3 h4)
  have hauth : ∀ table, table ≠ "access_list_auth" →
      (front.1.pop "access_list_auth").get? table = front.1.get? table := by
    intro table htable
    rw [Dict.get?_pop, if_neg htable]
  dsimp only at h
  rw [hsame "access_list_auth" (by decide) (by decide) (by decide) (by decide)] at h
  obtain ⟨rfl, hfront, hchildren⟩ := children_spec
    ((hauth _ (by decide)).trans (hsame _ (by decide) (by decide) (by decide) (by decide)))
    ((hauth _ (by decide)).trans (hsame _ (by decide) (by decide) (by decide) (by decide))) h
  have hpops : ∀ c table, c ≠ "_credentials" → c ≠ "users" →
      markedRows c table ((front.1.pop "access_list_auth").pop "access_list_client").entries =
        markedRows c table source.entries := by
    intro c table hcredentials husers
    rw [markedRows_pop (tableCollection_related (by decide) c),
      markedRows_pop (tableCollection_related (by decide) c), (hframe c table hcredentials).1,
      hmarked c table husers]
  constructor
  · rw [collectionRows_joinTable_of_ne (by decide),
      collectionRows_pop (tableCollection_related (by decide) _),
      collectionRows_pop (tableCollection_related (by decide) _), hrows _ (by decide), husers]
  · rw [collectionRows_joinTable (by decide), hpops _ _ (by decide) (by decide)]
  · exact fun w hw => hfront ((hframe "users" "user" (by decide)).2 (hwarnings hw))
  · exact hchildren

end Normalized

/-! ## Marked rows -/

section Marked

variable {c table : String} {source : NpmSource} {e : Document × Bool}

/-- A marked row is the one that is found in the table. -/
lemma rowOf_of_mem_markedRows (he : e ∈ markedRows c table source.entries) (hmark : e.2 = true) :
    rowOf (rowId e.1) ((source.get? table).getD []) = some e.1 := by
  obtain ⟨⟨table', rows⟩, hentry, hmem⟩ := List.mem_flatMap.mp he
  dsimp only at hmem
  split at hmem
  · split at hmem
    · rename_i htable
      rw [← htable, Dict.mem_entries_iff.mp hentry]
      exact rowOf_of_marked hmem hmark
    · obtain ⟨row, -, rfl⟩ := List.mem_map.mp hmem
      cases hmark
  · exact absurd hmem List.not_mem_nil

lemma filter_snd_false (rows : List Document) :
    (rows.map fun row => (row, false)).filter Prod.snd = [] := by
  rw [List.filter_eq_nil_iff]
  intro e he
  obtain ⟨row, -, rfl⟩ := List.mem_map.mp he
  exact nofun

/-- No two rows of a collection are marked under one id. -/
lemma nodup_markedRows (c table : String) (source : NpmSource) :
    (((markedRows c table source.entries).filter Prod.snd).map fun e => rowId e.1).Nodup := by
  obtain ⟨entries, hnodup⟩ := source
  dsimp only
  induction entries with
  | nil => exact List.nodup_nil
  | cons entry rest ih =>
    obtain ⟨hnot, hrest⟩ := List.nodup_cons.mp hnodup
    rw [markedRows, List.flatMap_cons, List.filter_append, List.map_append]
    -- only one entry of the dictionary has the table, and only its rows are marked
    by_cases htable : entry.1 = table
    · have hbehind : (markedRows c table rest).filter Prod.snd = [] := by
        rw [markedRows, List.filter_flatMap, List.flatMap_eq_nil_iff]
        intro e he
        have hne : e.1 ≠ table := fun h => hnot (List.mem_map.mpr ⟨e, he, h.trans htable.symm⟩)
        rw [if_neg hne]
        split
        · exact filter_snd_false e.2
        · rfl
      rw [markedRows] at hbehind
      rw [hbehind, List.map_nil, List.append_nil, if_pos htable]
      split
      · exact nodup_marked entry.2
      · exact List.nodup_nil
    · have hfirst : (if tableCollection entry.1 = some c then
          if entry.1 = table then markLast rowId entry.2 else entry.2.map fun row => (row, false)
          else []).filter Prod.snd = [] := by
        rw [if_neg htable]
        split
        · exact filter_snd_false entry.2
        · rfl
      rw [hfirst, List.map_nil, List.nil_append]
      exact ih hrest

/-- The rows of a collection that are accepted, and those that are put into quarantine. -/
def settledRows (c table : String) (source : NpmSource) :
    List (Document × Bool) × List (Document × Bool) :=
  settle (fun e => rowId e.1) (fun e => Live e.1) (markedRows c table source.entries)

lemma mem_markedRows_iff : e ∈ markedRows c table source.entries ↔
    e ∈ (settledRows c table source).1 ∨ e ∈ (settledRows c table source).2 := by
  rw [← List.mem_append]
  exact (perm_settle _).mem_iff.symm

/-- Of an accepted row and one in quarantine with one id, one is not marked. -/
lemma not_marked_both {e' : Document × Bool} (he : e ∈ (settledRows c table source).1)
    (he' : e' ∈ (settledRows c table source).2) (hid : rowId e'.1 = rowId e.1)
    (hmark : e.2 = true) : e'.2 = false := by
  have hperm : (((settledRows c table source).1 ++ (settledRows c table source).2).filter
      Prod.snd).Perm ((markedRows c table source.entries).filter Prod.snd) :=
    (perm_settle _).filter _
  have hnodup := (hperm.map fun e => rowId e.1).nodup_iff.mpr (nodup_markedRows c table source)
  rw [List.filter_append, List.map_append] at hnodup
  by_contra hmark'
  refine (List.nodup_append.mp hnodup).2.2 _
    (List.mem_map_of_mem (List.mem_filter.mpr ⟨he, hmark⟩)) _
    (List.mem_map_of_mem (List.mem_filter.mpr ⟨he', by simpa using hmark'⟩)) hid.symm

end Marked

/-! ## Reports -/

section Reports

variable {c table : String} {f : Document → Document} {source source' : NpmSource}
  {report : PreflightReport}

/-- Checking references leaves the other collections, and the warnings. -/
lemma foldl_quarantineCollection_frame (existing : Dict String (List String))
    (collections : List String) (report : PreflightReport) (hc : c ∉ collections) :
    (collections.foldl (quarantineCollection existing) report).accepted c = report.accepted c ∧
      (collections.foldl (quarantineCollection existing) report).quarantined c =
        report.quarantined c ∧
      (collections.foldl (quarantineCollection existing) report).warnings = report.warnings := by
  induction collections generalizing report with
  | nil => exact ⟨rfl, rfl, rfl⟩
  | cons collection rest ih =>
    obtain ⟨hne, hrest⟩ := List.ne_and_not_mem_of_not_mem_cons hc
    obtain ⟨haccepted, hquarantined, hwarnings⟩ := ih (quarantineCollection existing report collection)
      hrest
    rw [List.foldl_cons]
    refine ⟨haccepted.trans ?_, hquarantined.trans ?_, hwarnings⟩
    · rw [quarantineCollection, PreflightReport.accepted, Dict.get?_set_of_ne _ _ hne]
      rfl
    · simp only [quarantineCollection, PreflightReport.quarantined, List.filter_append,
        List.map_append]
      simp [List.filter_map, Function.comp_def, Ne.symm hne]

lemma foldl_addTable_warnings (tables : List (String × List Document)) (report : PreflightReport) :
    report.warnings ⊆ (tables.foldl addTable report).warnings := by
  induction tables generalizing report with
  | nil => exact List.Subset.refl _
  | cons entry rest ih =>
    refine List.Subset.trans ?_ (ih (addTable report entry))
    have hrows : ∀ (collection : String) (rows : List Document) (report : PreflightReport),
        (rows.foldl (addRow collection) report).warnings = report.warnings := by
      intro collection rows
      induction rows with
      | nil => exact fun _ => rfl
      | cons raw rest ih =>
        intro report
        rw [List.foldl_cons, ih]
        simp only [addRow]
        split <;> rfl
    simp only [addTable]
    split
    · exact List.subset_append_left _ _
    · rw [hrows]
      exact List.Subset.refl _

/-- The records of a collection, and its rows in quarantine, are the rows that are settled, with
what is joined to the marked ones. -/
lemma preflight_marked (h : preflightNpm source = .ok report) : ∃ source' report',
    Normalized source source' report' ∧ report'.warnings ⊆ report.warnings ∧
    ∀ c table f, c ∉ referringCollections → (∀ row, Joined row (f row)) →
      collectionRows c source'.entries =
        (markedRows c table source.entries).map (updateMarked f) →
      report.accepted c = (settledRows c table source).1.map
        (fun e => decodeRow (updateMarked f e)) ∧
      report.quarantined c = (settledRows c table source).2.map
        fun e => decodeRow (updateMarked f e) := by
  obtain ⟨⟨source', report'⟩, hnormalize, hreport⟩ := bind_eq_ok_iff.mp h
  obtain rfl := pure_eq_ok_iff.mp hreport
  obtain ⟨hrecords, hquarantine, -⟩ := (normalizeRelatedTables_spec source {}).2 _ _ hnormalize
  refine ⟨source', report', normalized_of_normalize hnormalize, ?_, ?_⟩
  · rw [quarantineBrokenReferences,
      (foldl_quarantineCollection_frame (c := "") _ _ _ (by decide)).2.2]
    exact foldl_addTable_warnings _ _
  · intro c table f hc hf hrows
    have hempty : report'.accepted c = ([] : List Document).map decodeRow ∧
        report'.quarantined c = ([] : List Document).map decodeRow := by
      rw [PreflightReport.accepted, PreflightReport.quarantined, hrecords, hquarantine]
      exact ⟨rfl, rfl⟩
    obtain ⟨haccepted, hquarantined⟩ :=
      foldl_addTable_settle source'.entries report' c (s := ([], [])) hempty.1 hempty.2
    obtain ⟨haccepted', hquarantined', -⟩ := foldl_quarantineCollection_frame
      ((source'.entries.foldl addTable report').records.mapValues fun resources =>
        resources.map fun resource => rowText resource "id") referringCollections
      (source'.entries.foldl addTable report') hc
    have hid : ∀ e : Document × Bool, rowId (updateMarked f e) = rowId e.1 := by
      intro e
      rw [updateMarked]
      split
      · exact (hf e.1).rowId_eq
      · rfl
    have hlive : ∀ e : Document × Bool, Live (updateMarked f e) ↔ Live e.1 := by
      intro e
      rw [updateMarked]
      split
      · exact (hf e.1).live_iff
      · rfl
    -- what is joined changes neither ids nor deletion, so that the same rows are accepted
    have hsettle : (collectionRows c source'.entries).foldl (settleRow rowId Live) ([], []) =
        ((settledRows c table source).1.map (updateMarked f),
          (settledRows c table source).2.map (updateMarked f)) := by
      rw [hrows]
      exact settle_map hid hlive
    rw [hsettle] at haccepted hquarantined
    rw [List.map_map] at haccepted hquarantined
    exact ⟨haccepted'.trans haccepted, hquarantined'.trans hquarantined⟩

end Reports

/-! ## Reaching the parents -/

/-- A source without the tables that are related to users and access lists. -/
def withoutRelated (source : NpmSource) : NpmSource :=
  ((source.pop "user_permission").pop "access_list_auth").pop "access_list_client"

/-- How the rows that are related to those of a table reach the records of a collection, compared to
the report that is made without them: a record takes them up, or, when the table has no row with its
id, they are reported, and no row in quarantine takes them up in its place. -/
structure Reaches (c table : String) (takes : Document → Document → Prop)
    (reported : String → Prop) (source : NpmSource) (bare report : PreflightReport) : Prop where
  accepted : List.Forall₂ (fun record record' =>
    if rowOf (rowId record) ((source.get? table).getD []) = none then
      record' = record ∧ reported (rowId record)
    else takes record record') (bare.accepted c) (report.accepted c)
  quarantined : List.Forall₂ (fun record record' =>
    rowId record ∈ (bare.accepted c).map rowId → record' = record)
    (bare.quarantined c) (report.quarantined c)

/-- A user shows all permissions that name it. -/
def ShowsPermissions (source : NpmSource) (user user' : Document) : Prop :=
  (∀ permission ∈ relatedRows source "user_permission" "user_id" (rowId user),
    user' = showPermission user permission) ∧
  (relatedRows source "user_permission" "user_id" (rowId user) = [] → user' = user)

/-- Permissions that name an id are warned about. -/
def PermissionsReported (source : NpmSource) (report : PreflightReport) (id : String) : Prop :=
  ∀ permission ∈ relatedRows source "user_permission" "user_id" id,
    orphanPermission permission ∈ report.warnings

/-- Items and clients that name an id are warned about. -/
def ChildrenReported (source : NpmSource) (report : PreflightReport) (id : String) : Prop :=
  ∀ related ∈ relatedTables, ∀ item ∈ relatedRows source related.1 "access_list_id" id,
    orphanChild related.1 item ∈ report.warnings

/-- The preflight of a source succeeds, and the related rows reach the records that they name. -/
def RelatedReach (source : NpmSource) : Prop :=
  ∃ bare report, preflightNpm (withoutRelated source) = .ok bare ∧
    preflightNpm source = .ok report ∧
    Reaches "users" "user" (ShowsPermissions source) (PermissionsReported source report) source
      bare report ∧
    Reaches "access_lists" "access_list" (fun row row' => row' = withChildren source row)
      (ChildrenReported source report) source bare report

/-- The permissions of a row of `user_permission`. -/
def permissionOf (permission : Document) : Json × List Json :=
  ((permission.get? "visibility").getD (.text "user"),
    permissionFields.map fun field => (permission.get? field).getD (.text "hidden"))

/-- A row of a collection is accepted: it is the first with its id that is not deleted. -/
def IsAccepted (c table : String) (source : NpmSource) (e : Document × Bool) : Prop :=
  IsFirstLive (fun e => rowId e.1) (fun e => Live e.1) (markedRows c table source.entries) e

/-- The condition under which related rows reach the records that they name: all of them can be
joined; an accepted access list with related rows is the last row with its id in its table, unless
the table has no row with this id; so is an accepted user with permissions, or both rows show the
permissions already; and the permissions of a user agree. -/
structure ParentsLast (source : NpmSource) : Prop where
  joinable : JoinableTables source
  lists : ∀ e, IsAccepted "access_lists" "access_list" source e →
    rowOf (rowId e.1) ((source.get? "access_list").getD []) ≠ none →
    e.2 = true ∨ ∀ related ∈ relatedTables,
      relatedRows source related.1 "access_list_id" (rowId e.1) = []
  users : ∀ e, IsAccepted "users" "user" source e →
    ∀ last, rowOf (rowId e.1) ((source.get? "user").getD []) = some last →
    ∀ permission ∈ relatedRows source "user_permission" "user_id" (rowId e.1),
      (∀ permission' ∈ relatedRows source "user_permission" "user_id" (rowId e.1),
        permissionOf permission' = permissionOf permission) ∧
      (e.2 = true ∨ showPermission (decodeRow e.1) permission = decodeRow e.1 ∧
        showPermission (decodeRow last) permission = decodeRow last)

section Reach

variable {c table : String} {f : Document → Document} {source : NpmSource}
  {bare report : PreflightReport} {takes : Document → Document → Prop} {reported : String → Prop}

lemma mem_settledRows_iff {e : Document × Bool} :
    e ∈ (settledRows c table source).1 ↔ IsAccepted c table source e := mem_settle_iff

/-- The accepted records, row by row. -/
lemma forall₂_accepted_iff
    (hbare : bare.accepted c = (settledRows c table source).1.map fun e => decodeRow e.1)
    (hreport : report.accepted c = (settledRows c table source).1.map
      fun e => decodeRow (updateMarked f e)) :
    List.Forall₂ (fun record record' =>
        if rowOf (rowId record) ((source.get? table).getD []) = none then
          record' = record ∧ reported (rowId record)
        else takes record record') (bare.accepted c) (report.accepted c) ↔
      ∀ e ∈ (settledRows c table source).1,
        if rowOf (rowId e.1) ((source.get? table).getD []) = none then
          decodeRow (updateMarked f e) = decodeRow e.1 ∧ reported (rowId e.1)
        else takes (decodeRow e.1) (decodeRow (updateMarked f e)) := by
  rw [hbare, hreport, List.forall₂_map_left_iff, List.forall₂_map_right_iff, List.forall₂_same]
  simp only [rowId_decodeRow]

/-- The rows in quarantine that have the id of an accepted record. -/
lemma forall₂_quarantined_iff
    (hbare : bare.accepted c = (settledRows c table source).1.map (fun e => decodeRow e.1) ∧
      bare.quarantined c = (settledRows c table source).2.map fun e => decodeRow e.1)
    (hreport : report.quarantined c = (settledRows c table source).2.map
      fun e => decodeRow (updateMarked f e)) :
    List.Forall₂ (fun record record' =>
        rowId record ∈ (bare.accepted c).map rowId → record' = record)
        (bare.quarantined c) (report.quarantined c) ↔
      ∀ e' ∈ (settledRows c table source).2, ∀ e ∈ (settledRows c table source).1,
        rowId e.1 = rowId e'.1 → decodeRow (updateMarked f e') = decodeRow e'.1 := by
  have hids : ∀ e' : Document × Bool, rowId (decodeRow e'.1) ∈ (bare.accepted c).map rowId ↔
      ∃ e ∈ (settledRows c table source).1, rowId e.1 = rowId e'.1 := by
    intro e'
    rw [hbare.1, List.map_map, List.mem_map]
    simp only [Function.comp_apply, rowId_decodeRow]
  rw [hbare.2, hreport, List.forall₂_map_left_iff, List.forall₂_map_right_iff, List.forall₂_same]
  simp only [hids, forall_exists_index, and_imp]

/-- What remains to be said of the rows that are joined to the last row with an id. -/
lemma reaches_iff
    (hbare : bare.accepted c = (settledRows c table source).1.map (fun e => decodeRow e.1) ∧
      bare.quarantined c = (settledRows c table source).2.map fun e => decodeRow e.1)
    (hreport : report.accepted c = (settledRows c table source).1.map
        (fun e => decodeRow (updateMarked f e)) ∧
      report.quarantined c = (settledRows c table source).2.map
        fun e => decodeRow (updateMarked f e))
    (hreported : ∀ id, rowOf id ((source.get? table).getD []) = none → reported id) :
    Reaches c table takes reported source bare report ↔
      ∀ e, IsAccepted c table source e →
        ∀ last, rowOf (rowId e.1) ((source.get? table).getD []) = some last →
          if e.2 = true then takes (decodeRow e.1) (decodeRow (f e.1))
          else takes (decodeRow e.1) (decodeRow e.1) ∧
            ((last, true) ∈ (settledRows c table source).2 → decodeRow (f last) = decodeRow last) := by
  have haccepted := @forall₂_accepted_iff c table f source bare report takes reported hbare.1
    hreport.1
  have hquarantined := forall₂_quarantined_iff hbare hreport.2
  constructor
  · rintro ⟨hall, hothers⟩ e he last hlast
    have hmem := mem_settledRows_iff.mpr he
    have htakes := haccepted.mp hall e hmem
    rw [if_neg (by rw [hlast]; rintro ⟨⟩), updateMarked] at htakes
    split
    · rename_i hmark
      rwa [if_pos hmark] at htakes
    · rename_i hmark
      rw [if_neg hmark] at htakes
      refine ⟨htakes, fun hquarantine => ?_⟩
      have hid : rowId e.1 = rowId last := (rowId_of_rowOf hlast).symm
      exact hquarantined.mp hothers (last, true) hquarantine e hmem hid
  · intro hall
    refine ⟨haccepted.mpr fun e hmem => ?_, hquarantined.mpr fun e' he' e hmem hid => ?_⟩
    · cases hlast : rowOf (rowId e.1) ((source.get? table).getD []) with
      | none =>
        have hmark : ¬ e.2 = true := by
          intro hmark
          rw [rowOf_of_mem_markedRows (mem_markedRows_iff.mpr (.inl hmem)) hmark] at hlast
          cases hlast
        rw [if_pos rfl, updateMarked, if_neg hmark]
        exact ⟨rfl, hreported _ hlast⟩
      | some last =>
        have hlater := hall e (mem_settledRows_iff.mp hmem) last hlast
        rw [if_neg (by rintro ⟨⟩), updateMarked]
        split
        · rename_i hmark
          rwa [if_pos hmark] at hlater
        · rename_i hmark
          rw [if_neg hmark] at hlater
          exact hlater.1
    · by_cases hmark' : e'.2 = true
      · -- the marked row is the one that is found under the id
        have hlast := rowOf_of_mem_markedRows (mem_markedRows_iff.mpr (.inr he')) hmark'
        have hmark : ¬ e.2 = true := by
          intro hmark
          rw [not_marked_both hmem he' hid.symm hmark] at hmark'
          cases hmark'
        have hlater := hall e (mem_settledRows_iff.mp hmem) e'.1 (hid ▸ hlast)
        rw [if_neg hmark] at hlater
        rw [updateMarked, if_pos hmark']
        exact hlater.2 (by rw [← hmark']; exact he')
      · rw [updateMarked, if_neg hmark']

end Reach

/-! ## Permissions that are shown -/

section Permissions

variable {source : NpmSource} {permission permission' : Document}

lemma decodeRow_showPermission (row permission : Document) :
    decodeRow (showPermission row permission) = showPermission (decodeRow row) permission := by
  rw [decodeRow, showPermission, Dict.mapEntries_set, Dict.mapEntries_set, showPermission]
  refine congrArg (Dict.set · "permissions" _) (congrArg (Dict.set _ "visibility") ?_)
  split
  · rename_i s hs
    rw [hs, if_neg fun h => absurd h.1 (by decide)]
  · rfl

lemma decodeRow_foldl_showPermission (permissions : List Document) (row : Document) :
    decodeRow (permissions.foldl showPermission row) =
      permissions.foldl showPermission (decodeRow row) := by
  induction permissions generalizing row with
  | nil => rfl
  | cons permission rest ih => rw [List.foldl_cons, ih, decodeRow_showPermission, List.foldl_cons]

lemma showPermission_congr (h : permissionOf permission' = permissionOf permission) (row : Document) :
    showPermission row permission' = showPermission row permission := by
  obtain ⟨hvisibility, hfields⟩ := Prod.mk.inj h
  have hpairs : permissionFields.map (fun field =>
      (field, (permission'.get? field).getD (.text "hidden"))) = permissionFields.map fun field =>
        (field, (permission.get? field).getD (.text "hidden")) :=
    List.map_congr_left fun field hfield =>
      congrArg (Prod.mk field) (List.map_inj_left.mp hfields field hfield)
  rw [showPermission, showPermission, hvisibility, hpairs]

lemma get?_showPermission_visibility (row permission : Document) :
    (showPermission row permission).get? "visibility" =
      some ((permission.get? "visibility").getD (.text "user")) := by
  rw [showPermission, Dict.get?_set_of_ne _ _ (by decide), Dict.get?_set_self]

/-- What is shown tells the permissions. -/
lemma permissionOf_eq_of_showPermission {row : Document}
    (h : showPermission row permission' = showPermission row permission) :
    permissionOf permission' = permissionOf permission := by
  have hvisibility := congrArg (Dict.get? · "visibility") h
  have hfields := congrArg (Dict.get? · "permissions") h
  simp only [showPermission, Dict.get?_set_self] at hfields
  simp only [get?_showPermission_visibility] at hvisibility
  have hpairs := Json.object.inj (Option.some.inj hfields)
  have hvalues : permissionFields.map (fun field =>
      (permission'.get? field).getD (.text "hidden")) = permissionFields.map fun field =>
        (permission.get? field).getD (.text "hidden") :=
    List.map_congr_left fun field hfield =>
      (Prod.mk.inj (List.map_inj_left.mp hpairs field hfield)).2
  exact Prod.ext (Option.some.inj hvisibility) hvalues

lemma showPermission_showPermission (row permission permission' : Document) :
    showPermission (showPermission row permission) permission' = showPermission row permission' := by
  refine Dict.ext_get? ?_ fun key => ?_
  · have hmem : "visibility" ∈ showPermission row permission ∧
        "permissions" ∈ showPermission row permission := by
      rw [showPermission, Dict.mem_set, Dict.mem_set, Dict.mem_set]
      exact ⟨.inr (.inl rfl), .inl rfl⟩
    rw [showPermission, Dict.keys_set, Dict.keys_set, if_pos (Dict.mem_set.mpr (.inr hmem.2)),
      if_pos hmem.1, showPermission, showPermission, Dict.keys_set, Dict.keys_set, Dict.keys_set,
      Dict.keys_set]
    simp only [Dict.mem_set]
  · simp only [showPermission, Dict.get?_set]
    split
    · rfl
    · split <;> rfl

/-- Permissions that agree show the same. -/
lemma foldl_showPermission {permissions : List Document}
    (hagree : ∀ permission' ∈ permissions, permissionOf permission' = permissionOf permission)
    (hne : permissions ≠ []) (row : Document) :
    permissions.foldl showPermission row = showPermission row permission := by
  induction permissions generalizing row with
  | nil => exact absurd rfl hne
  | cons first rest ih =>
    rw [List.foldl_cons, showPermission_congr (hagree first List.mem_cons_self)]
    rcases List.eq_nil_or_concat rest with rfl | ⟨_, _, hrest⟩
    · rfl
    · rw [ih (fun p hp => hagree p (List.mem_cons_of_mem _ hp)) (by rw [hrest]; simp),
        showPermission_showPermission]

end Permissions

/-! ## Items and clients that are shown -/

section Children

variable {source : NpmSource} {field field' : String} {row : Document} {items : List Document}

lemma listOf_addChildren (field : String) (row : Document) (items : List Document) :
    listOf (addChildren field row items) field = listOf row field ++ items.map relatedChild := by
  rw [addChildren]
  split
  · rename_i h
    rw [h, List.map_nil, List.append_nil]
  · rw [listOf, Dict.get?_set_self]

lemma get?_addChildren_of_ne (hne : field' ≠ field) :
    (addChildren field row items).get? field' = row.get? field' := by
  rw [addChildren]
  split
  · rfl
  · exact Dict.get?_set_of_ne _ _ hne

lemma listOf_addChildren_of_ne (hne : field' ≠ field) :
    listOf (addChildren field row items) field' = listOf row field' := by
  rw [listOf, get?_addChildren_of_ne hne]
  rfl

/-- Related rows are never joined unseen. -/
lemma withChildren_eq_self_iff : withChildren source row = row ↔
    ∀ related ∈ relatedTables, relatedRows source related.1 "access_list_id" (rowId row) = [] := by
  rw [relatedTables, List.forall_mem_cons, List.forall_mem_singleton]
  constructor
  · intro h
    have hnil : ∀ {l : List Json} {rows : List Document}, l = l ++ rows.map relatedChild →
        rows = [] := by
      intro l rows hl
      simpa using hl
    constructor
    · have hlist := congrArg (listOf · "items") h
      dsimp only [withChildren] at hlist
      rw [listOf_addChildren_of_ne (by decide), listOf_addChildren] at hlist
      exact hnil hlist.symm
    · have hlist := congrArg (listOf · "clients") h
      dsimp only [withChildren] at hlist
      rw [listOf_addChildren, listOf_addChildren_of_ne (by decide)] at hlist
      exact hnil hlist.symm
  · rintro ⟨hitems, hclients⟩
    rw [withChildren, hitems, hclients, addChildren, addChildren, if_pos rfl, if_pos rfl]

/-- Decoding does not change lists of children. -/
lemma decodeRow_addChildren
    (h : items ≠ [] → ∃ l, (row.get? field).getD (.list []) = .list l) :
    decodeRow (addChildren field row items) = addChildren field (decodeRow row) items := by
  rw [addChildren, addChildren]
  split
  · rfl
  · rename_i hne
    obtain ⟨l, hl⟩ := h hne
    have hlist : listOf (decodeRow row) field = listOf row field := by
      rw [listOf, listOf, decodeRow, Dict.get?_mapEntries]
      cases hget : row.get? field with
      | none => rfl
      | some v =>
        rw [hget, Option.getD_some] at hl
        rw [hl]
        rfl
    rw [hlist, decodeRow, Dict.mapEntries_set]
    rfl

end Children

/-! ## When related rows reach the records that they name -/

section Main

variable {c table : String} {source : NpmSource} {bare report : PreflightReport}

/-- The row that is found under the id of an accepted row that is not marked is in quarantine. -/
lemma found_mem_quarantine (hc : tableCollection table = some c) {e : Document × Bool}
    (he : e ∈ (settledRows c table source).1) (hmark : ¬ e.2 = true) {last : Document}
    (hlast : rowOf (rowId e.1) ((source.get? table).getD []) = some last) :
    (last, true) ∈ (settledRows c table source).2 := by
  obtain ⟨rows, hrows⟩ := exists_table hlast
  have hid := rowId_of_rowOf hlast
  rw [hrows, Option.getD_some] at hlast
  have hmem : last ∈ rows := by
    have hfound := List.mem_of_find?_eq_some hlast
    exact List.mem_reverse.mp hfound
  obtain ⟨⟨last', mark⟩, hlast', rfl, hid'⟩ : ∃ e' ∈ markLast rowId rows,
      e'.2 = true ∧ rowId e'.1 = rowId e.1 := exists_marked ⟨last, hmem, hid⟩
  obtain rfl : last' = last := by
    have hfound := rowOf_of_marked hlast' rfl
    rw [hid', hlast] at hfound
    exact (Option.some.inj hfound).symm
  have hmarked : (last', true) ∈ markedRows c table source.entries := by
    refine List.mem_flatMap.mpr ⟨(table, rows), Dict.mem_entries_iff.mpr hrows, ?_⟩
    rw [if_pos hc, if_pos rfl]
    exact hlast'
  rcases mem_markedRows_iff.mp hmarked with haccepted | hquarantined
  · -- then it is the accepted row itself
    have hnodup : ((settledRows c table source).1.map fun e => rowId e.1).Nodup := nodup_settle _
    have heq := List.inj_on_of_nodup_map hnodup haccepted he hid'
    exact absurd (congrArg Prod.snd heq).symm hmark
  · exact hquarantined

lemma withPermissions_withoutRelated (user : Document) :
    withPermissions (withoutRelated source) user = user := by
  have hget : (withoutRelated source).get? "user_permission" = none := by
    simp [withoutRelated, Dict.get?_pop]
  rw [withPermissions, relatedRows, hget]
  rfl

lemma get?_withoutRelated {related : String × String} (h : related ∈ relatedTables) :
    (withoutRelated source).get? related.1 = none := by
  simp only [relatedTables, List.mem_cons, List.not_mem_nil, or_false] at h
  rcases h with rfl | rfl <;> simp [withoutRelated, Dict.get?_pop]

lemma withChildren_withoutRelated (row : Document) :
    withChildren (withoutRelated source) row = row := by
  refine withChildren_eq_self_iff.mpr fun related hrelated => ?_
  rw [relatedRows, get?_withoutRelated hrelated]
  rfl

lemma joined_withPermissions (user : Document) : Joined user (withPermissions source user) :=
  joined_foldl joined_showPermission _ _

lemma joined_withChildren (row : Document) : Joined row (withChildren source row) :=
  (joined_addChildren (by decide) row _).trans (joined_addChildren (by decide) _ _)

lemma settledRows_withoutRelated (c table : String) (source : NpmSource) :
    settledRows c table (withoutRelated source) = settledRows c table source := by
  rw [settledRows, settledRows, withoutRelated,
    markedRows_pop (tableCollection_related (by decide) c),
    markedRows_pop (tableCollection_related (by decide) c),
    markedRows_pop (tableCollection_related (by decide) c)]

/-- A report is made when the related rows can be joined. -/
lemma exists_report (h : JoinableTables source) : ∃ report, preflightNpm source = .ok report := by
  obtain ⟨state, hstate⟩ := (normalizeRelatedTables_spec source {}).1.mpr h
  rw [preflightNpm, hstate]
  exact ⟨_, rfl⟩

/-- The report of a source without its related tables. -/
lemma exists_bare (source : NpmSource) : ∃ bare, preflightNpm (withoutRelated source) = .ok bare ∧
    ∀ e ∈ [("users", "user"), ("access_lists", "access_list")],
      bare.accepted e.1 = (settledRows e.1 e.2 source).1.map (fun e => decodeRow e.1) ∧
      bare.quarantined e.1 = (settledRows e.1 e.2 source).2.map fun e => decodeRow e.1 := by
  have hjoinable : JoinableTables (withoutRelated source) := by
    intro related hrelated item hitem
    rw [get?_withoutRelated hrelated] at hitem
    exact absurd hitem List.not_mem_nil
  obtain ⟨bare, hbare⟩ := exists_report hjoinable
  refine ⟨bare, hbare, ?_⟩
  obtain ⟨source', report', hnormalized, -, hmarked⟩ := preflight_marked hbare
  have hplain : ∀ {f : Document → Document}, (∀ row, f row = row) →
      ∀ e : Document × Bool, updateMarked f e = e.1 := by
    intro f hf e
    rw [updateMarked, hf, ite_self]
  have husers := hmarked _ _ _ (by decide) joined_withPermissions hnormalized.users
  have hlists := hmarked _ _ _ (by decide) joined_withChildren hnormalized.lists
  simp only [hplain withPermissions_withoutRelated, settledRows_withoutRelated] at husers
  simp only [hplain withChildren_withoutRelated, settledRows_withoutRelated] at hlists
  exact List.forall_mem_cons.mpr ⟨husers, List.forall_mem_singleton.mpr hlists⟩

/-- Decoding and joining children to the row that is found commute. -/
lemma decodeRow_withChildren (hjoinable : JoinableTables source) {row : Document}
    (hfound : rowOf (rowId row) ((source.get? "access_list").getD []) = some row) :
    decodeRow (withChildren source row) = withChildren source (decodeRow row) := by
  have hlist : ∀ related ∈ relatedTables,
      relatedRows source related.1 "access_list_id" (rowId row) ≠ [] →
      ∃ l, (row.get? related.2).getD (.list []) = .list l := by
    intro related hrelated hne
    obtain ⟨item, hitem⟩ := List.exists_mem_of_ne_nil _ hne
    obtain ⟨hmem, hname⟩ := List.mem_filter.mp hitem
    exact hjoinable related hrelated item hmem row (by rw [of_decide_eq_true hname]; exact hfound)
  -- the items are joined first, and leave the field of the clients alone
  rw [withChildren, withChildren, rowId_decodeRow,
    ← decodeRow_addChildren (hlist ("access_list_auth", "items") (by decide))]
  refine decodeRow_addChildren fun hne => ?_
  rw [get?_addChildren_of_ne (by decide)]
  exact hlist ("access_list_client", "clients") (by decide) hne

/-- What the preflight reports of users and access lists. -/
lemma reaches_of_preflight (hreport : preflightNpm source = .ok report)
    (hbare : ∀ e ∈ [("users", "user"), ("access_lists", "access_list")],
      bare.accepted e.1 = (settledRows e.1 e.2 source).1.map (fun e => decodeRow e.1) ∧
      bare.quarantined e.1 = (settledRows e.1 e.2 source).2.map fun e => decodeRow e.1) :
    (Reaches "users" "user" (ShowsPermissions source) (PermissionsReported source report) source
        bare report ↔
      ∀ e, IsAccepted "users" "user" source e →
        ∀ last, rowOf (rowId e.1) ((source.get? "user").getD []) = some last →
          if e.2 = true then
            ShowsPermissions source (decodeRow e.1) (decodeRow (withPermissions source e.1))
          else ShowsPermissions source (decodeRow e.1) (decodeRow e.1) ∧
            ((last, true) ∈ (settledRows "users" "user" source).2 →
              decodeRow (withPermissions source last) = decodeRow last)) ∧
    (Reaches "access_lists" "access_list" (fun row row' => row' = withChildren source row)
        (ChildrenReported source report) source bare report ↔
      ∀ e, IsAccepted "access_lists" "access_list" source e →
        ∀ last, rowOf (rowId e.1) ((source.get? "access_list").getD []) = some last →
          if e.2 = true then
            decodeRow (withChildren source e.1) = withChildren source (decodeRow e.1)
          else decodeRow e.1 = withChildren source (decodeRow e.1) ∧
            ((last, true) ∈ (settledRows "access_lists" "access_list" source).2 →
              decodeRow (withChildren source last) = decodeRow last)) := by
  obtain ⟨source', report', hnormalized, hwarnings, hmarked⟩ := preflight_marked hreport
  refine ⟨reaches_iff (hbare ("users", "user") (by decide))
      (hmarked _ _ _ (by decide) joined_withPermissions hnormalized.users) fun id hnone => ?_,
    reaches_iff (hbare ("access_lists", "access_list") (by decide))
      (hmarked _ _ _ (by decide) joined_withChildren hnormalized.lists) fun id hnone => ?_⟩
  · intro permission hpermission
    obtain ⟨hmem, hname⟩ := List.mem_filter.mp hpermission
    refine hwarnings (hnormalized.orphanPermissions (List.mem_map_of_mem
      (List.mem_filter.mpr ⟨hmem, decide_eq_true ?_⟩)))
    rw [of_decide_eq_true hname]
    exact hnone
  · intro related hrelated item hitem
    obtain ⟨hmem, hname⟩ := List.mem_filter.mp hitem
    refine hwarnings (hnormalized.orphanChildren related hrelated (List.mem_map_of_mem
      (List.mem_filter.mpr ⟨hmem, decide_eq_true ?_⟩)))
    rw [of_decide_eq_true hname]
    exact hnone

/-- The lists of accepted access lists. -/
lemma lists_iff (hjoinable : JoinableTables source) {e : Document × Bool}
    (he : IsAccepted "access_lists" "access_list" source e) {last : Document}
    (hlast : rowOf (rowId e.1) ((source.get? "access_list").getD []) = some last) :
    (if e.2 = true then decodeRow (withChildren source e.1) = withChildren source (decodeRow e.1)
      else decodeRow e.1 = withChildren source (decodeRow e.1) ∧
        ((last, true) ∈ (settledRows "access_lists" "access_list" source).2 →
          decodeRow (withChildren source last) = decodeRow last)) ↔
      (e.2 = true ∨ ∀ related ∈ relatedTables,
        relatedRows source related.1 "access_list_id" (rowId e.1) = []) := by
  split
  · rename_i hmark
    have hmem := mem_markedRows_iff.mpr (.inl (mem_settledRows_iff.mpr he))
    exact iff_of_true (decodeRow_withChildren hjoinable (rowOf_of_mem_markedRows hmem hmark))
      (.inl hmark)
  · rename_i hmark
    rw [or_iff_right hmark, eq_comm, withChildren_eq_self_iff, rowId_decodeRow]
    refine ⟨And.left, fun hnone => ⟨hnone, fun _ => ?_⟩⟩
    rw [withChildren_eq_self_iff.mpr]
    rw [rowId_of_rowOf hlast]
    exact hnone

/-- The permissions of accepted users. -/
lemma users_iff {e : Document × Bool} (he : IsAccepted "users" "user" source e) {last : Document}
    (hlast : rowOf (rowId e.1) ((source.get? "user").getD []) = some last) :
    (if e.2 = true then
        ShowsPermissions source (decodeRow e.1) (decodeRow (withPermissions source e.1))
      else ShowsPermissions source (decodeRow e.1) (decodeRow e.1) ∧
        ((last, true) ∈ (settledRows "users" "user" source).2 →
          decodeRow (withPermissions source last) = decodeRow last)) ↔
      ∀ permission ∈ relatedRows source "user_permission" "user_id" (rowId e.1),
        (∀ permission' ∈ relatedRows source "user_permission" "user_id" (rowId e.1),
          permissionOf permission' = permissionOf permission) ∧
        (e.2 = true ∨ showPermission (decodeRow e.1) permission = decodeRow e.1 ∧
          showPermission (decodeRow last) permission = decodeRow last) := by
  have hid := rowId_of_rowOf hlast
  rw [ShowsPermissions, ShowsPermissions, rowId_decodeRow, withPermissions, withPermissions, hid,
    decodeRow_foldl_showPermission, decodeRow_foldl_showPermission]
  generalize hpermissions : relatedRows source "user_permission" "user_id" (rowId e.1) = permissions
  have hfold : ∀ permission ∈ permissions, (∀ permission' ∈ permissions,
      permissionOf permission' = permissionOf permission) → ∀ row,
        permissions.foldl showPermission row = showPermission row permission :=
    fun permission hmem hagree row =>
      foldl_showPermission hagree (List.ne_nil_of_mem hmem) row
  split
  · -- the accepted user is the row that the permissions are joined to
    rename_i hmark
    constructor
    · rintro ⟨hshows, -⟩ permission hpermission
      refine ⟨fun permission' hpermission' => ?_, .inl hmark⟩
      exact permissionOf_eq_of_showPermission
        ((hshows permission' hpermission').symm.trans (hshows permission hpermission))
    · intro hall
      refine ⟨fun permission hpermission => ?_, fun hnil => by rw [hnil]; rfl⟩
      exact hfold permission hpermission (hall permission hpermission).1 _
  · -- the permissions are joined to a row in quarantine
    rename_i hmark
    have hquarantine := found_mem_quarantine (c := "users") (by decide)
      (mem_settledRows_iff.mpr he) hmark hlast
    constructor
    · rintro ⟨⟨hshows, -⟩, hothers⟩ permission hpermission
      have hagree : ∀ permission' ∈ permissions,
          permissionOf permission' = permissionOf permission := fun permission' hpermission' =>
        permissionOf_eq_of_showPermission
          ((hshows permission' hpermission').symm.trans (hshows permission hpermission))
      refine ⟨hagree, .inr ⟨(hshows permission hpermission).symm, ?_⟩⟩
      rw [← hfold permission hpermission hagree]
      exact hothers hquarantine
    · intro hall
      have hboth : ∀ permission ∈ permissions,
          showPermission (decodeRow e.1) permission = decodeRow e.1 ∧
            showPermission (decodeRow last) permission = decodeRow last :=
        fun permission hpermission => (hall permission hpermission).2.resolve_left hmark
      refine ⟨⟨fun permission hpermission => (hboth permission hpermission).1.symm, fun _ => rfl⟩,
        fun _ => ?_⟩
      cases hcases : permissions with
      | nil => rfl
      | cons permission rest =>
        have hmem : permission ∈ permissions := hcases ▸ List.mem_cons_self
        rw [← hcases, hfold permission hmem (hall permission hmem).1]
        exact (hboth permission hmem).2

/-- Related rows reach the records that they name exactly when the rows that they are joined to,
which are the last ones with their ids, are those that are accepted, or nothing depends on it. -/
theorem relatedReach_iff (source : NpmSource) : RelatedReach source ↔ ParentsLast source := by
  obtain ⟨bare, hpreflight, hbare⟩ := exists_bare source
  constructor
  · rintro ⟨bare', report, hpreflight', hreport, husers, hlists⟩
    obtain rfl : bare = bare' := Except.ok.inj (hpreflight.symm.trans hpreflight')
    obtain ⟨husersIff, hlistsIff⟩ := reaches_of_preflight hreport hbare
    obtain ⟨state, hnormalize, -⟩ := bind_eq_ok_iff.mp hreport
    have hjoinable := (normalizeRelatedTables_spec source {}).1.mp ⟨state, hnormalize⟩
    refine ⟨hjoinable, fun e he hfound => ?_, fun e he last hlast => ?_⟩
    · obtain ⟨last, hlast⟩ := Option.ne_none_iff_exists'.mp hfound
      exact (lists_iff hjoinable he hlast).mp (hlistsIff.mp hlists e he last hlast)
    · exact (users_iff he hlast).mp (husersIff.mp husers e he last hlast)
  · rintro ⟨hjoinable, hlists, husers⟩
    obtain ⟨report, hreport⟩ := exists_report hjoinable
    obtain ⟨husersIff, hlistsIff⟩ := reaches_of_preflight hreport hbare
    refine ⟨bare, report, hpreflight, hreport, husersIff.mpr fun e he last hlast => ?_,
      hlistsIff.mpr fun e he last hlast => ?_⟩
    · exact (users_iff he hlast).mpr (husers e he last hlast)
    · refine (lists_iff hjoinable he hlast).mpr (hlists e he ?_)
      rw [hlast]
      exact nofun

/-- Two access lists with the id 1, and a row of `access_list_auth` that names it. -/
def repeatedListSource : NpmSource := Dict.ofList
  [ ("access_list",
      [Dict.ofList [("id", .number 1), ("name", .text "staff")],
        Dict.ofList [("id", .number 1), ("name", .text "guests")]]),
    ("access_list_auth",
      [Dict.ofList [("access_list_id", .number 1), ("username", .text "amy")]]) ]

/-- The first access list is accepted, and the row is joined to the second one. -/
theorem repeatedList_not_reach : ¬ ∀ source : NpmSource, RelatedReach source := by
  intro hall
  obtain ⟨bare, report, hpreflight, hreport, -, hlists⟩ := hall repeatedListSource
  obtain ⟨bare', hpreflight', hbare⟩ := exists_bare repeatedListSource
  obtain rfl : bare' = bare := Except.ok.inj (hpreflight'.symm.trans hpreflight)
  obtain ⟨state, hnormalize, -⟩ := bind_eq_ok_iff.mp hreport
  have hjoinable := (normalizeRelatedTables_spec repeatedListSource {}).1.mp ⟨state, hnormalize⟩
  obtain ⟨first, last, hmarked, hlast, hlive, hrelated⟩ : ∃ first last : Document,
      markedRows "access_lists" "access_list" repeatedListSource.entries =
          [(first, false), (last, true)] ∧
        rowOf (rowId first) ((repeatedListSource.get? "access_list").getD []) = some last ∧
        Live first ∧ relatedRows repeatedListSource "access_list_auth" "access_list_id"
          (rowId first) ≠ [] :=
    ⟨_, _, rfl, rfl, by decide, by decide⟩
  have he : IsAccepted "access_lists" "access_list" repeatedListSource (first, false) :=
    ⟨[], [(last, true)], hmarked, hlive, nofun⟩
  have hfirst := (reaches_of_preflight hreport hbare).2.mp hlists _ he last hlast
  rcases (lists_iff hjoinable he hlast).mp hfirst with hmark | hnone
  · exact nomatch hmark
  · exact hrelated (hnone _ List.mem_cons_self)

end Main

end Portwyrm.Tables

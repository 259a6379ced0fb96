import Portwyrm.Runtime.RenderOrder
import Portwyrm.Tables.Portability
import Portwyrm.Tables.ShownDocuments

/-!
# Exported bundles

`TablePortability.export`: the resources of the portable collections as they are listed, under a
checksum.  An import reads the bundle as one record for each of them.
-/

namespace Portwyrm.Tables

open Base Portwyrm.Runtime Portwyrm.Identity

/-! ## Listing -/

/-- The ids in the table of a collection. -/
def collectionKeys (t : AllTables) : Collection → List ℕ
  | .hosts kind => t.hosts.keys.filter fun id => (getHost kind id t.hosts).isSome
  | .streams => t.streams.keys
  | .certificates => t.certificates.keys
  | .accessLists => t.access.lists.rows.keys
  | .settings => t.settings.keys
  | .users => t.users.principals.rows.keys

/-- The ids of a collection, as its rows are listed. -/
def resourceIds (t : AllTables) (c : Collection) : List ℕ :=
  sortedBy natLe (fun id => id) (collectionKeys t c)

/-- The document of a resource in a list. -/
def listedDocument (t : AllTables) (c : Collection) (id : ℕ) : Document :=
  stampDocument ((t.stamps.get? (c, id)).getD ⟨"", ""⟩) ((plainDocument t c id).getD Dict.empty)

/-- `list_resources`. -/
def listDocuments (t : AllTables) (c : Collection) : List Document :=
  (resourceIds t c).map (listedDocument t c)

section Listing

variable {t : AllTables} {c : Collection} {id : ℕ}

lemma nodup_collectionKeys (t : AllTables) (c : Collection) : (collectionKeys t c).Nodup := by
  cases c with
  | hosts kind => exact t.hosts.keys_nodup.filter _
  | streams => exact t.streams.keys_nodup
  | certificates => exact t.certificates.keys_nodup
  | accessLists => exact t.access.lists.rows.keys_nodup
  | settings => exact t.settings.keys_nodup
  | users => exact t.users.principals.rows.keys_nodup

lemma nodup_resourceIds (t : AllTables) (c : Collection) : (resourceIds t c).Nodup :=
  (perm_sortedBy natLe _ _).nodup_iff.mpr (nodup_collectionKeys t c)

/-- The ids of a collection ascend. -/
lemma ascending_resourceIds (t : AllTables) (c : Collection) :
    (resourceIds t c).Pairwise (· < ·) := by
  refine ((pairwise_sortedBy ranks_natLe _ _).and (nodup_resourceIds t c)).imp ?_
  rintro id id' ⟨hle, hne⟩
  have hle' : id ≤ id' := by simpa [natLe] using hle
  exact lt_of_le_of_ne hle' hne

lemma isSome_get?_iff {ρ : Type} {rows : Dict ℕ ρ} : (rows.get? id).isSome ↔ id ∈ rows.keys := by
  rw [Option.isSome_iff_exists, Dict.mem_keys_iff]

/-- A resource is listed when it is shown. -/
lemma mem_resourceIds_iff : id ∈ resourceIds t c ↔ (plainDocument t c id).isSome := by
  rw [resourceIds, mem_sortedBy]
  cases c with
  | hosts kind =>
    rw [collectionKeys, List.mem_filter, plainDocument, Option.isSome_map]
    refine and_iff_right_of_imp fun h => ?_
    obtain ⟨row, hrow⟩ := Option.isSome_iff_exists.mp h
    exact Dict.mem_keys_iff.mpr ⟨row, getHost_eq_some hrow⟩
  | streams => rw [plainDocument, Option.isSome_map, isSome_get?_iff, collectionKeys]
  | certificates => rw [plainDocument, Option.isSome_map, isSome_get?_iff, collectionKeys]
  | accessLists => exact isSome_get?_iff.symm.trans (by rw [plainDocument, Option.isSome_map]; rfl)
  | settings => rw [plainDocument, Option.isSome_map, isSome_get?_iff, collectionKeys]
  | users =>
    refine isSome_get?_iff.symm.trans ?_
    simp only [plainDocument, getUser, Option.isSome_map]
    rfl

/-- A listed document names its id. -/
lemma get?_id_listedDocument (hc : c ≠ .users) (hid : id ∈ resourceIds t c) :
    (listedDocument t c id).get? "id" = some (idJson id) := by
  obtain ⟨d, hd⟩ := Option.isSome_iff_exists.mp (mem_resourceIds_iff.mp hid)
  rw [listedDocument, get?_stampDocument (by decide), hd, Option.getD_some, get?_id hc hd]

end Listing

/-! ## Bundles -/

/-- The resources of a bundle: collections with ids, in the order of the records. -/
def bundleTargets (t : AllTables) : List (Collection × ℕ) :=
  portableCollections.flatMap fun c => (resourceIds t c).map (Prod.mk c)

/-- An entry of the records of a bundle. -/
def exportedRecord (c : Collection) (d : Document) : Json :=
  .object [("collection", .text c.section_), ("resource", .object d.entries)]

/-- The content of a bundle, without its checksum. -/
def bundleContent (createdAt backend : String) (records : List Json) : List (String × Json) :=
  [ ("schema_version", .text bundleVersion), ("created_at", .text createdAt),
    ("source_backend", .text backend), ("records", .list records) ]

/-- `TablePortability.export`. -/
def exportBundle (checksum : Document → String) (createdAt backend : String) (t : AllTables) :
    Document :=
  let records := portableCollections.flatMap fun c => (listDocuments t c).map (exportedRecord c)
  let content := Dict.ofList (bundleContent createdAt backend records)
  content.set "checksum" (.text (checksum content))

/-- The record that an import reads for a resource, at a moment. -/
def targetRecord (t : AllTables) (now : String) (target : Collection × ℕ) : BundleRecord where
  collection := target.1.section_
  resource := some (listedDocument t target.1 target.2)
  now := now

section Bundle

variable {t : AllTables} {checksum : Document → String} {clock : ℕ → String}
  {createdAt backend : String}

lemma records_eq (t : AllTables) :
    (portableCollections.flatMap fun c => (listDocuments t c).map (exportedRecord c)) =
      (bundleTargets t).map fun target =>
        exportedRecord target.1 (listedDocument t target.1 target.2) := by
  rw [bundleTargets, List.map_flatMap]
  refine congrArg (fun f => portableCollections.flatMap f) (funext fun c => ?_)
  rw [listDocuments, List.map_map, List.map_map]
  rfl

lemma bundleRecord_exportedRecord (now : String) (c : Collection) (d : Document) :
    bundleRecord now (exportedRecord c d) = .ok
      { collection := c.section_
        resource := some d
        now := now } := by
  have hresource : Dict.ofList d.entries = d := Dict.ofList_entries d
  change Except.ok (BundleRecord.mk _ (some (Dict.ofList d.entries)) now) = _
  rw [hresource]
  rfl

lemma nodup_bundleContent (createdAt backend : String) (records : List Json) :
    ((bundleContent createdAt backend records).map Prod.fst).Nodup := by
  change ["schema_version", "created_at", "source_backend", "records"].Nodup
  decide

lemma get?_bundleContent {records : List Json} {key : String} {v w : Json} (hne : key ≠ "checksum")
    (hv : (bundleContent createdAt backend records).lookup key = some v) :
    ((Dict.ofList (bundleContent createdAt backend records)).set "checksum" w).get? key =
      some v := by
  rw [Dict.get?_set_of_ne _ _ hne, Dict.get?_ofList_of_nodup (nodup_bundleContent _ _ _), hv]

lemma pop_bundleContent {records : List Json} {w : Json} :
    ((Dict.ofList (bundleContent createdAt backend records)).set "checksum" w).pop "checksum" =
      Dict.ofList (bundleContent createdAt backend records) := by
  rw [Dict.pop_set, Dict.ofList_of_nodup (nodup_bundleContent _ _ _)]
  rfl

/-- An exported bundle is read as its records. -/
theorem validateBundle_exportBundle (checksum : Document → String) (clock : ℕ → String)
    (createdAt backend : String) (t : AllTables) :
    validateBundle checksum clock (exportBundle checksum createdAt backend t) =
      .ok ((bundleTargets t).zipIdx.map fun e => targetRecord t (clock e.2) e.1) := by
  have hsame : ∀ s : String, sameJson (.text s) (.text s) = true := fun s => decide_eq_true rfl
  rw [exportBundle, records_eq]
  generalize hrecords : ((bundleTargets t).map fun target =>
    exportedRecord target.1 (listedDocument t target.1 target.2)) = records
  simp only [validateBundle, pop_bundleContent, Dict.get?_set_self,
    get?_bundleContent (show "schema_version" ≠ "checksum" by decide) rfl,
    get?_bundleContent (show "records" ≠ "checksum" by decide) rfl, Option.all_some, hsame,
    bind_eq_ok_iff, raiseIf_eq_ok_iff]
  refine ⟨(), by decide, (), by decide, ?_⟩
  rw [← hrecords, List.zipIdx_map, List.mapM_map, mapM_eq_ok_iff, List.forall₂_map_right_iff,
    List.forall₂_same]
  exact fun e _ => bundleRecord_exportedRecord (clock e.2) e.1.1 _

end Bundle

/-! ## Turns of records -/

/-- The ids of a collection among resources, in their order. -/
def idsOf (c : Collection) (targets : List (Collection × ℕ)) : List ℕ :=
  (targets.filter fun target => target.1 = c).map Prod.snd

/-- A resource is the next one after others of a bundle. -/
def AtTurn (t : AllTables) (done : List (Collection × ℕ)) (c : Collection) (id : ℕ) : Prop :=
  done ++ [(c, id)] <+: bundleTargets t

section Turns

variable {t : AllTables} {c c' : Collection} {id id' : ℕ} {done : List (Collection × ℕ)}

lemma mem_bundleTargets_iff :
    (c, id) ∈ bundleTargets t ↔ c ∈ portableCollections ∧ id ∈ resourceIds t c := by
  simp only [bundleTargets, List.mem_flatMap, List.mem_map, Prod.mk.injEq]
  constructor
  · rintro ⟨c', hc', id', hid', rfl, rfl⟩
    exact ⟨hc', hid'⟩
  · rintro ⟨hc, hid⟩
    exact ⟨c, hc, id, hid, rfl, rfl⟩

lemma mem_idsOf_iff : id ∈ idsOf c done ↔ (c, id) ∈ done := by
  simp [idsOf]

lemma idsOf_append (done done' : List (Collection × ℕ)) :
    idsOf c (done ++ done') = idsOf c done ++ idsOf c done' := by
  simp [idsOf]

lemma idsOf_map (ids : List ℕ) : idsOf c (ids.map (Prod.mk c')) = if c' = c then ids else [] := by
  split <;> rename_i h <;> simp [idsOf, List.filter_map, Function.comp_def, h]

lemma idsOf_bundleTargets (hc : c ∈ portableCollections) :
    idsOf c (bundleTargets t) = resourceIds t c := by
  simp only [portableCollections, List.mem_cons, List.not_mem_nil, or_false] at hc
  simp only [bundleTargets, portableCollections, List.flatMap_cons, List.flatMap_nil, idsOf_append,
    idsOf_map]
  rcases hc with rfl | rfl | rfl | rfl | rfl | rfl | rfl <;> simp [idsOf]

lemma nodup_bundleTargets (t : AllTables) : (bundleTargets t).Nodup := by
  refine List.nodup_flatMap.mpr ⟨fun c _ => ?_, ?_⟩
  · exact (nodup_resourceIds t c).map fun _ _ h => (Prod.mk.inj h).2
  · refine (by decide : portableCollections.Nodup).imp fun {c c'} hne target htarget htarget' => ?_
    obtain ⟨_, -, rfl⟩ := List.mem_map.mp htarget
    obtain ⟨_, -, heq⟩ := List.mem_map.mp htarget'
    exact hne (Prod.mk.inj heq).1.symm

lemma AtTurn.portable (h : AtTurn t done c id) : c ∈ portableCollections :=
  (mem_bundleTargets_iff.mp (h.subset (show (c, id) ∈ done ++ [(c, id)] by simp))).1

lemma AtTurn.mem (h : AtTurn t done c id) : id ∈ resourceIds t c :=
  (mem_bundleTargets_iff.mp (h.subset (by simp))).2

lemma AtTurn.ne_users (h : AtTurn t done c id) : c ≠ .users := by
  rintro rfl
  exact absurd h.portable (by decide)

/-- A resource comes once. -/
lemma AtTurn.new (h : AtTurn t done c id) : (c, id) ∉ done := by
  have hnodup := (nodup_bundleTargets t).sublist h.sublist
  rw [List.nodup_append] at hnodup
  exact fun hmem => hnodup.2.2 _ hmem _ (List.mem_singleton_self _) rfl

/-- The ids of a collection come in their order. -/
lemma AtTurn.initial (h : AtTurn t done c id) : idsOf c done ++ [id] <+: resourceIds t c := by
  obtain ⟨rest, hrest⟩ := h
  have hids := idsOf_bundleTargets (t := t) (AtTurn.portable ⟨rest, hrest⟩)
  rw [← hrest, idsOf_append, idsOf_append] at hids
  have hsingle : idsOf c [(c, id)] = [id] := by simp [idsOf]
  rw [hsingle] at hids
  exact ⟨_, hids⟩

/-- Of positive ids in ascending order, the next one is greater than the number of those before. -/
lemma length_lt_of_ascending {ids : List ℕ} {k : ℕ} (h : (ids ++ [id]).Pairwise (· < ·))
    (hlow : ∀ i ∈ ids ++ [id], k < i) : ids.length + k < id := by
  induction ids generalizing k with
  | nil =>
    have := hlow id (by simp)
    simpa using this
  | cons a ids ih =>
    rw [List.cons_append, List.pairwise_cons] at h
    have hrest := ih h.2 h.1
    have ha := hlow a (by simp)
    rw [List.length_cons]
    omega

lemma AtTurn.length_lt (h : AtTurn t done c id) (hpositive : ∀ i ∈ resourceIds t c, 0 < i) :
    (idsOf c done).length < id := by
  have hlt := length_lt_of_ascending (k := 0)
    ((ascending_resourceIds t c).sublist h.initial.sublist)
    fun i hi => hpositive i (h.initial.subset hi)
  simpa using hlt

/-- The collections that hosts and streams refer to. -/
def referredCollections : List Collection := [.settings, .accessLists, .certificates]

/-- What a host or a stream refers to comes before it. -/
lemma AtTurn.referred (h : AtTurn t done c id) (hc : c ∉ referredCollections)
    (hc' : c' ∈ referredCollections) (hid' : id' ∈ resourceIds t c') : (c', id') ∈ done := by
  have hsplit : bundleTargets t =
      (referredCollections.flatMap fun c => (resourceIds t c).map (Prod.mk c)) ++
        [.hosts .proxy, .hosts .redirect, .hosts .dead, .streams].flatMap fun c =>
          (resourceIds t c).map (Prod.mk c) := by
    rw [← List.flatMap_append]
    rfl
  have hmem : (c', id') ∈ referredCollections.flatMap fun c => (resourceIds t c).map (Prod.mk c) :=
    List.mem_flatMap.mpr ⟨c', hc', List.mem_map_of_mem hid'⟩
  have hfirst : (referredCollections.flatMap fun c => (resourceIds t c).map (Prod.mk c)) <+:
      bundleTargets t := ⟨_, hsplit.symm⟩
  rcases List.prefix_or_prefix_of_prefix hfirst h with hle | hle
  · rcases List.mem_append.mp (hle.subset hmem) with hdone | hlast
    · exact hdone
    · obtain ⟨rfl, -⟩ := Prod.mk.inj (List.mem_singleton.mp hlast)
      exact absurd hc' hc
  · have hlast : (c, id) ∈ referredCollections.flatMap fun c => (resourceIds t c).map (Prod.mk c) :=
      hle.subset (by simp)
    obtain ⟨c₀, hc₀, hlast⟩ := List.mem_flatMap.mp hlast
    obtain ⟨_, -, heq⟩ := List.mem_map.mp hlast
    obtain ⟨rfl, -⟩ := Prod.mk.inj heq
    exact absurd hc₀ hc

end Turns

end Portwyrm.Tables

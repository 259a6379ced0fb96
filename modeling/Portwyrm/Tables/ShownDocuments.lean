import Portwyrm.Tables.Collections
import Portwyrm.Tables.HostFrames
import Portwyrm.Tables.RowFrames

/-!
# Documents that are read back

The document that a row is shown as can be sent as a payload again.  This module says which payload
it is read as: the columns come back as the projection of the row has them, and the members without
a column as its extensions, as long as none of these is named like a column.
-/

namespace Portwyrm.Tables

open Base Portwyrm.Runtime Portwyrm.Identity

/-! ## Members without a column -/

/-- No member of these extensions is named like a column. -/
def Clean (known : List String) (extensions : Document) : Prop := ∀ k ∈ known, k ∉ extensions

section Other

variable {known : List String} {d extensions : Document}

lemma entries_otherMembers (known : List String) (d : Document) :
    (otherMembers known d).entries = d.entries.filter fun e => e.1 ∉ known := by
  unfold otherMembers
  induction known generalizing d with
  | nil => simp
  | cons k rest ih =>
    rw [List.foldl_cons, ih]
    change ((d.entries.filter fun e => e.1 ≠ k).filter fun e => e.1 ∉ rest) = _
    rw [List.filter_filter]
    refine List.filter_congr fun e _ => ?_
    by_cases h : e.1 = k <;> simp [h]

/-- Documents with the same entries outside of the columns keep the same members. -/
lemma otherMembers_ext {d' : Document}
    (h : (d.entries.filter fun e => e.1 ∉ known) = d'.entries.filter fun e => e.1 ∉ known) :
    otherMembers known d = otherMembers known d' := by
  have hentries : (otherMembers known d).entries = (otherMembers known d').entries := by
    rw [entries_otherMembers, entries_otherMembers, h]
  generalize otherMembers known d = c at hentries ⊢
  generalize otherMembers known d' = c' at hentries ⊢
  cases c
  cases c'
  simpa using hentries

lemma filter_store {k : String} (hk : k ∈ known) (v : Json) (l : List (String × Json)) :
    ((Dict.store k v l).filter fun e => e.1 ∉ known) = l.filter fun e => e.1 ∉ known := by
  induction l with
  | nil => simp [Dict.store, hk]
  | cons e rest ih =>
    by_cases h : e.1 = k
    · have he : e.1 ∈ known := h ▸ hk
      rw [Dict.store, if_pos h, List.filter_cons_of_neg (by simpa using he),
        List.filter_cons_of_neg (by simpa using he)]
    · rw [Dict.store, if_neg h, List.filter_cons, List.filter_cons, ih]

/-- A column that is written is none of the other members. -/
lemma otherMembers_set {k : String} (hk : k ∈ known) (v : Json) :
    otherMembers known (d.set k v) = otherMembers known d :=
  otherMembers_ext (filter_store hk v d.entries)

lemma otherMembers_update {l : List (String × Json)} (hl : ∀ e ∈ l, e.1 ∈ known) :
    otherMembers known (d.update (Dict.ofList l)) = otherMembers known d := by
  have hkeys : ∀ e ∈ (Dict.ofList l).entries, e.1 ∈ known := by
    intro e he
    have hmem : e.1 ∈ Dict.ofList l := List.mem_map_of_mem he
    obtain ⟨e', he', heq⟩ := List.mem_map.mp (Dict.mem_ofList_iff.mp hmem)
    exact heq ▸ hl e' he'
  unfold Dict.update
  generalize (Dict.ofList l).entries = entries at hkeys
  induction entries generalizing d with
  | nil => rfl
  | cons e rest ih =>
    rw [List.forall_mem_cons] at hkeys
    rw [List.foldl_cons, ih hkeys.2, otherMembers_set hkeys.1]

lemma otherMembers_of_clean (h : Clean known extensions) :
    otherMembers known extensions = extensions := by
  have hentries : (otherMembers known extensions).entries = extensions.entries := by
    rw [entries_otherMembers]
    refine List.filter_eq_self.mpr fun e he => ?_
    have : e.1 ∉ known := fun hk => h e.1 hk (List.mem_map_of_mem he)
    simpa using this
  generalize otherMembers known extensions = c at hentries ⊢
  cases c
  cases extensions
  simpa using hentries

lemma clean_otherMembers (known : List String) (d : Document) :
    Clean known (otherMembers known d) := by
  intro k hk
  rw [← Dict.get?_eq_none_iff, otherMembers, Dict.get?_foldl_pop, if_pos hk]

lemma otherMembers_stampDocument (h : "created_on" ∈ known) (h' : "modified_on" ∈ known)
    (stamp : Stamp) : otherMembers known (stampDocument stamp d) = otherMembers known d := by
  rw [stampDocument, otherMembers_set h']
  split
  · rfl
  · exact otherMembers_set h _

end Other

/-! ## Members with a column -/

/-- The members that timestamps are shown under. -/
def stampKeys : List String := ["created_on", "modified_on"]

lemma get?_stampDocument {key : String} (h : key ∉ stampKeys) (stamp : Stamp) (d : Document) :
    (stampDocument stamp d).get? key = d.get? key := by
  have hcreated : key ≠ "created_on" := fun heq => h (heq ▸ by decide)
  have hmodified : key ≠ "modified_on" := fun heq => h (heq ▸ by decide)
  rw [stampDocument, Dict.get?_set_of_ne _ _ hmodified]
  split
  · rfl
  · exact Dict.get?_set_of_ne _ _ hcreated

section Read

variable {α : Type} {read : Json → Option (Option α)} {stamp : Stamp} {extensions : Document}
  {l : List (String × Json)} {key : String} {v : Json} {value : Option α}

lemma readMember_of_get? {d : Document} (hget : d.get? key = some v) (hread : read v = some value)
    (hnull : v = .null → value = none) : readMember read d key = .ok (some value) := by
  unfold readMember
  rw [hget]
  cases v with
  | null =>
    rw [hnull rfl]
    rfl
  | _ =>
    dsimp only
    rw [hread]
    rfl

/-- A member that is shown over the extensions of a row is read as its value. -/
lemma readMember_shown (hl : (l.map Prod.fst).Nodup) (hv : l.lookup key = some v)
    (hkey : key ∉ stampKeys) (hread : read v = some value) (hnull : v = .null → value = none) :
    readMember read (stampDocument stamp (extensions.update (Dict.ofList l))) key =
      .ok (some value) :=
  readMember_of_get? ((get?_stampDocument hkey _ _).trans (get?_shown hl hv)) hread hnull

/-- A member that is not shown is absent. -/
lemma readMember_hidden (hnew : key ∉ extensions) (hl : key ∉ l.map Prod.fst)
    (hkey : key ∉ stampKeys) :
    readMember read (stampDocument stamp (extensions.update (Dict.ofList l))) key = .ok none := by
  have hget : (stampDocument stamp (extensions.update (Dict.ofList l))).get? key = none := by
    rw [get?_stampDocument hkey, Dict.get?_update, Dict.get?_eq_none_iff.mpr hnew, Option.or_none,
      Dict.get?_eq_none_iff, Dict.mem_ofList_iff]
    exact hl
  rw [readMember, hget]
  rfl

/-- A list of values that are read one by one. -/
lemma readList_map {β : Type} (item : Json → Option β) (show_ : α → Json) (f : α → β)
    (values : List α) (h : ∀ a ∈ values, item (show_ a) = some (f a)) :
    readList item (.list (values.map show_)) = some (some (values.map f)) := by
  have hmap : (values.map show_).mapM item = some (values.map f) := by
    induction values with
    | nil => rfl
    | cons a rest ih =>
      rw [List.forall_mem_cons] at h
      simp [List.mapM_cons, h.1, ih h.2]
  rw [readList, hmap]
  rfl

end Read

/-! ## Hosts -/

/-- A text that is not empty. -/
def givenIfAny (s : String) : Option String := if s = "" then none else some s

lemma textOr_givenIfAny (s default : String) :
    textOr (givenIfAny s) default = textOr (some s) default := by
  unfold givenIfAny
  split
  · rename_i h
    rw [h]
    rfl
  · rfl

/-- The payload that a shown location is read as. -/
def shownLocation (row : LocationRow) : LocationPayload where
  path := givenIfAny row.path
  forwardScheme := givenIfAny row.protocol.value
  targetKind := givenIfAny row.targetKind.value
  forwardHost := givenIfAny row.target
  forwardPort := some row.port
  forwardPath := givenIfAny row.forwardPath
  advancedConfig := givenIfAny row.advancedConfig

/-- The payload that a shown host is read as. -/
def shownHost (row : HostRow) : HostPayload :=
  { projectHost row with locations := .of (row.locations.map shownLocation) }

/-- The members of a shown location. -/
def locationMembers (l : LocationRow) : List (String × Json) :=
  [ ("path", .text l.path), ("forward_scheme", .text l.protocol.value),
    ("target_kind", .text l.targetKind.value), ("forward_host", .text l.target),
    ("forward_port", .number l.port), ("forward_path", .text l.forwardPath),
    ("advanced_config", .text l.advancedConfig) ]

lemma givenText_text {members : List (String × Json)} {key s : String}
    (h : Json.get? members key = some (.text s)) : givenText members key = givenIfAny s := by
  rw [givenText, h, givenIfAny]
  by_cases hs : s = "" <;> simp [Option.filter, truthy, hs, strJson]

lemma locationItem_locationJson (row : LocationRow) :
    locationItem (locationJson row) = some (shownLocation row) := by
  have hpath : givenText (locationMembers row) "path" = givenIfAny row.path := givenText_text rfl
  have hscheme : givenText (locationMembers row) "forward_scheme" = givenIfAny row.protocol.value :=
    givenText_text rfl
  have hkind : givenText (locationMembers row) "target_kind" = givenIfAny row.targetKind.value :=
    givenText_text rfl
  have hhost : givenText (locationMembers row) "forward_host" = givenIfAny row.target :=
    givenText_text rfl
  have hforward : givenText (locationMembers row) "forward_path" = givenIfAny row.forwardPath :=
    givenText_text rfl
  have hconfig :
      givenText (locationMembers row) "advanced_config" = givenIfAny row.advancedConfig :=
    givenText_text rfl
  have hport : Json.get? (locationMembers row) "forward_port" = some (.number row.port) := rfl
  change locationItem (.object (locationMembers row)) = _
  simp only [locationItem, hpath, hscheme, hkind, hhost, hforward, hconfig, hport]
  rfl

lemma idJson_ne_null (id : ℕ) : idJson id ≠ .null := by
  rintro ⟨⟩

/-- The owner of a row, as it is read. -/
lemma readNat_owner (owner : Option ℕ) : readNat (owner.elim .null idJson) = some owner := by
  cases owner with
  | none => rfl
  | some n => simp [readNat, readInt, idJson]

lemma eq_none_of_owner {owner : Option ℕ} (h : owner.elim .null idJson = .null) : owner = none := by
  cases owner with
  | none => rfl
  | some n => exact absurd h (idJson_ne_null n)

lemma readText_elim {α : Type} {f : α → String} (o : Option α) :
    readText (o.elim .null fun a => .text (f a)) = some (o.map f) := by
  cases o <;> rfl

lemma map_eq_none_of_elim {α β : Type} {show_ : α → Json} {f : α → β} {o : Option α}
    (hshow : ∀ a, show_ a ≠ .null) (h : o.elim .null show_ = .null) : o.map f = none := by
  cases o with
  | none => rfl
  | some a => exact absurd h (hshow a)

lemma readInt_elim {α : Type} {f : α → ℤ} (o : Option α) :
    readInt (o.elim .null fun a => .number (f a)) = some (o.map f) := by
  cases o <;> rfl

lemma readList_texts (l : List String) : readList domainItem (textsJson l) = some (some l) := by
  have h := readList_map domainItem Json.text (fun s => s) l fun _ _ => rfl
  rwa [List.map_id'] at h

/-- A host that is shown is read as its projection. -/
theorem hostPayload_hostDocument {row : HostRow} (h : Clean hostKnown row.extensions)
    (stamp : Stamp) (id : ℕ) :
    hostPayload (stampDocument stamp (hostDocument id row)) = .ok (shownHost row) := by
  have hothers : otherMembers hostKnown (stampDocument stamp (hostDocument id row)) =
      row.extensions := by
    rw [otherMembers_stampDocument (by decide) (by decide), hostDocument]
    rw [otherMembers_update, otherMembers_of_clean h]
    exact List.forall_mem_map.mp (by exact (show ∀ k ∈ hostKeys, k ∈ hostKnown by decide))
  have hids : readList intItem (.list (row.accessListIds.map idJson)) =
      some (some (row.accessListIds.map fun i : ℕ => (i : ℤ))) :=
    readList_map _ _ _ _ fun _ _ => rfl
  have hlocations : readList locationItem (.list (row.locations.map locationJson)) =
      some (some (row.locations.map shownLocation)) :=
    readList_map _ _ _ _ fun l _ => locationItem_locationJson l
  simp only [hostPayload, bind_eq_ok_iff, pure_eq_ok_iff, hothers]
  refine ⟨_, readMember_shown (by exact nodup_hostKeys) rfl (by decide) (readNat_owner _)
    eq_none_of_owner, ?_⟩
  refine ⟨_, readMember_shown (by exact nodup_hostKeys) rfl (by decide) rfl (by simp), ?_⟩
  refine ⟨_, readMember_shown (by exact nodup_hostKeys) rfl (by decide) rfl (by simp [idJson]), ?_⟩
  refine ⟨_, readMember_shown (by exact nodup_hostKeys) rfl (by decide) rfl (by simp), ?_⟩
  refine ⟨_, readMember_hidden (h _ (by decide)) (by exact (show "force_ssl" ∉ hostKeys by decide))
    (by decide), ?_⟩
  refine ⟨_, readMember_shown (by exact nodup_hostKeys) rfl (by decide) rfl (by simp), ?_⟩
  refine ⟨_, readMember_shown (by exact nodup_hostKeys) rfl (by decide) rfl (by simp), ?_⟩
  refine ⟨_, readMember_shown (by exact nodup_hostKeys) rfl (by decide) rfl (by simp), ?_⟩
  refine ⟨_, readMember_shown (by exact nodup_hostKeys) rfl (by decide) rfl (by simp), ?_⟩
  refine ⟨_, readMember_shown (by exact nodup_hostKeys) rfl (by decide) rfl (by simp), ?_⟩
  refine ⟨_, readMember_shown (by exact nodup_hostKeys) rfl (by decide) rfl (by simp), ?_⟩
  refine ⟨_, readMember_shown (by exact nodup_hostKeys) rfl (by decide) rfl (by simp), ?_⟩
  refine ⟨_, readMember_shown (by exact nodup_hostKeys) rfl (by decide) rfl (by simp), ?_⟩
  refine ⟨_, readMember_shown (by exact nodup_hostKeys) rfl (by decide) (readList_texts _)
    (by simp [textsJson]), ?_⟩
  refine ⟨_, readMember_shown (by exact nodup_hostKeys) rfl (by decide) rfl (by simp), ?_⟩
  refine ⟨_, readMember_shown (by exact nodup_hostKeys) rfl (by decide) (readText_elim _)
    (map_eq_none_of_elim (by simp)), ?_⟩
  refine ⟨_, readMember_shown (by exact nodup_hostKeys) rfl (by decide) (readInt_elim _)
    (map_eq_none_of_elim (by simp)), ?_⟩
  refine ⟨_, readMember_shown (by exact nodup_hostKeys) rfl (by decide) (readText_elim _)
    (map_eq_none_of_elim (by simp)), ?_⟩
  refine ⟨_, readMember_shown (by exact nodup_hostKeys) rfl (by decide) (readText_elim _)
    (map_eq_none_of_elim (by simp)), ?_⟩
  refine ⟨_, readMember_shown (by exact nodup_hostKeys) rfl (by decide) (readInt_elim _)
    (map_eq_none_of_elim idJson_ne_null), ?_⟩
  refine ⟨_, readMember_shown (by exact nodup_hostKeys) rfl (by decide) rfl (by simp), ?_⟩
  refine ⟨_, readMember_shown (by exact nodup_hostKeys) rfl (by decide) hids (by simp), ?_⟩
  refine ⟨_, readMember_shown (by exact nodup_hostKeys) rfl (by decide) rfl (by simp [idJson]), ?_⟩
  refine ⟨_, readMember_shown (by exact nodup_hostKeys) rfl (by decide) hlocations (by simp), ?_⟩
  refine ⟨_, readMember_hidden (h _ (by decide))
    (by exact (show "custom_locations" ∉ hostKeys by decide)) (by decide), ?_⟩
  have henabled : truthy (.number (if row.enabled then 1 else 0)) = row.enabled := by
    cases row.enabled <;> rfl
  rw [henabled, shownHost, Option.map_id']
  have hshown : projectHost row = { projectHost row with
      forwardHttpCode := some (row.redirectCode.map fun code : ℕ => (code : ℤ))
      accessListIds := .of (row.accessListIds.map fun i : ℕ => (i : ℤ)) } := by
    rw [← projectHost_forwardHttpCode, ← projectHost_accessListIds]
  rw [hshown]
  rfl

/-! ## Streams -/

lemma lookup_memberEntry {α : Type} (show_ : α → Json) (key key' : String) (m : Member α) :
    (memberEntry show_ key m).lookup key' =
      if key' = key then m.map fun value => value.elim .null show_ else none := by
  cases m with
  | none => simp [memberEntry]
  | some value => simp [memberEntry, Dict.lookup_cons_eq_ite]

/-- A member that is shown when the payload has it. -/
lemma readMember_entry {α : Type} {read : Json → Option (Option α)} {show_ : α → Json}
    {d : Document}
    {key : String} {m : Member α} (hget : d.get? key = m.map fun value => value.elim .null show_)
    (hread : ∀ a, read (show_ a) = some (some a)) (hshow : ∀ a, show_ a ≠ .null) :
    readMember read d key = .ok m := by
  cases m with
  | none =>
    rw [readMember, hget]
    rfl
  | some value =>
    cases value with
    | none =>
      rw [readMember, hget]
      rfl
    | some a => exact readMember_of_get? hget (hread a) fun h => absurd h (hshow a)

/-- The members of a stream that have a column, as they are shown. -/
def streamEntries (item : StreamPayload) : List (String × Json) :=
  memberEntry idJson "owner_principal_id" item.ownerPrincipalId ++
  memberEntry Json.bool "tcp_forwarding" item.tcpForwarding ++
  memberEntry Json.bool "udp_forwarding" item.udpForwarding ++
  memberEntry Json.number "incoming_port" item.incomingPort ++
  memberEntry Json.text "target_kind" item.targetKind ++
  memberEntry Json.text "forwarding_host" item.forwardingHost ++
  memberEntry Json.number "forwarding_port" item.forwardingPort ++
  memberEntry Json.number "certificate_id" item.certificateId ++
  memberEntry Json.bool "enabled" item.enabled

lemma keys_memberEntry {α : Type} (show_ : α → Json) (key : String) (m : Member α) :
    ((memberEntry show_ key m).map Prod.fst).Sublist [key] := by
  cases m with
  | none => exact List.nil_sublist _
  | some value => exact List.Sublist.refl _

lemma keys_streamEntries (item : StreamPayload) :
    ((streamEntries item).map Prod.fst).Sublist streamKnown := by
  simp only [streamEntries, List.map_append]
  exact ((((((((keys_memberEntry _ _ _).append (keys_memberEntry _ _ _)).append
    (keys_memberEntry _ _ _)).append (keys_memberEntry _ _ _)).append
    (keys_memberEntry _ _ _)).append (keys_memberEntry _ _ _)).append
    (keys_memberEntry _ _ _)).append (keys_memberEntry _ _ _)).append (keys_memberEntry _ _ _)

section Streams

variable {row : StreamRow}

/-- A column of a stream is shown as the row has it, or not at all. -/
lemma get?_streamDocument (h : Clean (streamKnown ++ droppedKeys) row.compat.extensions)
    (stamp : Stamp) (id : ℕ) {key : String} (hkey : key ∈ streamKnown) :
    (stampDocument stamp (streamDocument id row)).get? key =
      (streamEntries (projectStream row)).lookup key := by
  have hne : key ≠ "id" := by
    rintro rfl
    exact absurd hkey (by decide)
  have hstamp : key ∉ stampKeys := fun hmem =>
    (show ∀ k ∈ stampKeys, k ∉ streamKnown by decide) key hmem hkey
  have hnodup : ((streamEntries (projectStream row)).map Prod.fst).Nodup :=
    (keys_streamEntries _).nodup (by decide)
  have hnew : (projectStream row).extensions.get? key = none :=
    Dict.get?_eq_none_iff.mpr (h key (List.mem_append_left _ hkey))
  rw [get?_stampDocument hstamp]
  change (((projectStream row).extensions.set "id" (idJson id)).update
    (Dict.ofList (streamEntries (projectStream row)))).get? key = _
  rw [Dict.get?_update, Dict.get?_ofList_of_nodup hnodup, Dict.get?_set_of_ne _ _ hne, hnew,
    Option.or_none]

/-- A stream that is shown is read as its projection. -/
theorem streamPayload_streamDocument (h : Clean (streamKnown ++ droppedKeys) row.compat.extensions)
    (stamp : Stamp) (id : ℕ) :
    streamPayload (stampDocument stamp (streamDocument id row)) = .ok (projectStream row) := by
  have hothers : otherMembers (streamKnown ++ droppedKeys)
      (stampDocument stamp (streamDocument id row)) = (projectStream row).extensions := by
    rw [otherMembers_stampDocument (by decide) (by decide)]
    change otherMembers _ (((projectStream row).extensions.set "id" (idJson id)).update
      (Dict.ofList (streamEntries (projectStream row)))) = _
    rw [otherMembers_update, otherMembers_set (by decide)]
    · exact otherMembers_of_clean h
    · intro e he
      exact List.mem_append_left _ ((keys_streamEntries _).subset (List.mem_map_of_mem he))
  have shown : ∀ {key : String}, key ∈ streamKnown →
      (stampDocument stamp (streamDocument id row)).get? key =
        (streamEntries (projectStream row)).lookup key := get?_streamDocument h stamp id
  simp only [streamPayload, bind_eq_ok_iff, pure_eq_ok_iff, hothers]
  have entry : ∀ {α : Type} {read : Json → Option (Option α)} {key : String} {m : Member α}
      (show_ : α → Json), key ∈ streamKnown → (streamEntries (projectStream row)).lookup key =
        m.map (fun value => value.elim .null show_) → (∀ a, read (show_ a) = some (some a)) →
      (∀ a, show_ a ≠ .null) →
      readMember read (stampDocument stamp (streamDocument id row)) key = .ok m :=
    fun _ hkey hlookup => readMember_entry ((shown hkey).trans hlookup)
  refine ⟨(projectStream row).ownerPrincipalId,
      entry idJson (by decide) ?_ (fun n => readNat_owner (some n)) idJson_ne_null,
    (projectStream row).tcpForwarding,
      entry Json.bool (by decide) ?_ (fun _ => rfl) (by simp),
    (projectStream row).udpForwarding,
      entry Json.bool (by decide) ?_ (fun _ => rfl) (by simp),
    (projectStream row).incomingPort,
      entry Json.number (by decide) ?_ (fun _ => rfl) (by simp),
    (projectStream row).targetKind,
      entry Json.text (by decide) ?_ (fun _ => rfl) (by simp),
    (projectStream row).forwardingHost,
      entry Json.text (by decide) ?_ (fun _ => rfl) (by simp),
    (projectStream row).forwardingPort,
      entry Json.number (by decide) ?_ (fun _ => rfl) (by simp),
    (projectStream row).certificateId,
      entry Json.number (by decide) ?_ (fun _ => rfl) (by simp),
    (projectStream row).enabled,
      entry Json.bool (by decide) ?_ (fun _ => rfl) (by simp), rfl⟩
  all_goals simp [streamEntries, Dict.lookup_append, lookup_memberEntry]

end Streams

/-! ## Certificates -/

/-- The members of the document of a certificate. -/
def certificateKeys : List String :=
  [ "id", "owner_principal_id", "owner_user_id", "nice_name", "provider", "challenge_type",
    "key_type", "material_ref", "expires_at", "status", "domain_names" ]

lemma nodup_certificateKeys : certificateKeys.Nodup := by decide

lemma readList_strings (l : List String) :
    readList (fun v => some (strJson v)) (textsJson l) = some (some l) := by
  have h := readList_map (fun v => some (strJson v)) Json.text (fun s => s) l fun _ _ => rfl
  rwa [List.map_id'] at h

/-- A certificate that is shown is read as its projection. -/
theorem certificatePayload_certificateDocument {row : CertificateRow}
    (h : Clean certificateKnown row.extensions) (stamp : Stamp) (id : ℕ) :
    certificatePayload (stampDocument stamp (certificateDocument id row)) =
      .ok (projectCertificate row) := by
  have hothers : otherMembers certificateKnown (stampDocument stamp (certificateDocument id row)) =
      row.extensions := by
    rw [otherMembers_stampDocument (by decide) (by decide), certificateDocument]
    rw [otherMembers_update, otherMembers_of_clean h]
    exact List.forall_mem_map.mp
      (by exact (show ∀ k ∈ certificateKeys, k ∈ certificateKnown by decide))
  simp only [certificatePayload, bind_eq_ok_iff, pure_eq_ok_iff, hothers]
  refine ⟨_, readMember_shown (by exact nodup_certificateKeys) rfl (by decide) (readNat_owner _)
    eq_none_of_owner, ?_⟩
  refine ⟨_, readMember_shown (by exact nodup_certificateKeys) rfl (by decide) (readNat_owner _)
    eq_none_of_owner, ?_⟩
  refine ⟨_, readMember_shown (by exact nodup_certificateKeys) rfl (by decide) rfl (by simp), ?_⟩
  refine ⟨_, readMember_shown (by exact nodup_certificateKeys) rfl (by decide) rfl (by simp), ?_⟩
  refine ⟨_, readMember_shown (by exact nodup_certificateKeys) rfl (by decide) (readText_elim _)
    (map_eq_none_of_elim (by simp)), ?_⟩
  refine ⟨_, readMember_shown (by exact nodup_certificateKeys) rfl (by decide) rfl (by simp), ?_⟩
  refine ⟨_, readMember_shown (by exact nodup_certificateKeys) rfl (by decide) (readText_elim _)
    (map_eq_none_of_elim (by simp)), ?_⟩
  refine ⟨_, readMember_shown (by exact nodup_certificateKeys) rfl (by decide) (readInt_elim _)
    (map_eq_none_of_elim (by simp)), ?_⟩
  refine ⟨_, readMember_shown (by exact nodup_certificateKeys) rfl (by decide) rfl (by simp), ?_⟩
  refine ⟨_, readMember_shown (by exact nodup_certificateKeys) rfl (by decide) (readList_strings _)
    (by simp [textsJson]), ?_⟩
  simp only [Option.map_id']
  rfl

/-! ## Access lists -/

/-- The members of the document of an access list. -/
def accessListKeys : List String :=
  ["id", "name", "satisfy_any", "pass_auth", "items", "clients", "identity_ids"]

lemma nodup_accessListKeys : accessListKeys.Nodup := by decide

/-- The payload that a shown access list is read as: the credentials have neither a password nor a
hash. -/
def shownAccessList (item : AccessListItem) : AccessListPayload where
  name := .of item.name
  satisfyAny := .of item.satisfyAny
  passAuth := .of item.passAuth
  items := .of (item.usernames.map fun username => { username := givenIfAny username })
  clients := .of item.clients
  extensions := item.extensions

lemma clientItem_clientJson (client : String × AccessDirective) :
    clientItem (clientJson client) = some client := by
  obtain ⟨address, directive⟩ := client
  cases directive <;> rfl

lemma natItem_idJson (n : ℕ) : natItem (idJson n) = some n := by
  have h := readNat_owner (some n)
  rw [Option.elim_some] at h
  rw [natItem, h]
  rfl

lemma credentialItem_username (username : String) :
    credentialItem (.object [("username", .text username)]) =
      some { username := givenIfAny username } := by
  have h : givenText [("username", .text username)] "username" = givenIfAny username :=
    givenText_text rfl
  rw [credentialItem, h]
  rfl

/-- An access list that is shown is read without the passwords of its credentials. -/
theorem accessListDocumentPayload_accessListDocument {item : AccessListItem}
    (h : Clean accessKnown item.extensions) (stamp : Stamp) (id : ℕ) :
    accessListDocumentPayload (stampDocument stamp (accessListDocument id item)) =
      .ok (shownAccessList item, .of item.identityIds) := by
  have hothers : otherMembers accessKnown (stampDocument stamp (accessListDocument id item)) =
      item.extensions := by
    rw [otherMembers_stampDocument (by decide) (by decide), accessListDocument]
    rw [otherMembers_update, otherMembers_of_clean h]
    exact List.forall_mem_map.mp
      (by exact (show ∀ k ∈ accessListKeys, k ∈ accessKnown by decide))
  have hitems := readList_map credentialItem _ _ item.usernames
    fun username _ => credentialItem_username username
  have hclients := readList_map clientItem clientJson (fun client => client) item.clients
    fun client _ => clientItem_clientJson client
  have hids := readList_map natItem idJson (fun n => n) item.identityIds fun n _ => natItem_idJson n
  simp only [accessListDocumentPayload, bind_eq_ok_iff, pure_eq_ok_iff, hothers, raiseIf_eq_ok_iff]
  refine ⟨_, readMember_shown (by exact nodup_accessListKeys) rfl (by decide) rfl (by simp), ?_⟩
  refine ⟨_, readMember_shown (by exact nodup_accessListKeys) rfl (by decide) rfl (by simp), ?_⟩
  refine ⟨_, readMember_shown (by exact nodup_accessListKeys) rfl (by decide) rfl (by simp), ?_⟩
  refine ⟨_, readMember_shown (by exact nodup_accessListKeys) rfl (by decide) hitems (by simp), ?_⟩
  refine ⟨_, readMember_hidden (h _ (by decide))
    (by exact (show "credentials" ∉ accessListKeys by decide)) (by decide), ?_⟩
  refine ⟨_, readMember_shown (by exact nodup_accessListKeys) rfl (by decide) hclients (by simp),
    ?_⟩
  refine ⟨_, readMember_shown (by exact nodup_accessListKeys) rfl (by decide) hids (by simp), ?_⟩
  refine ⟨(), by simp, ?_⟩
  simp only [List.map_id']
  rfl

/-! ## Settings -/

/-- The key under which a shown setting is stored: its row has another one, when the resource has
no key of its own. -/
def shownKey (id : ℕ) (row : SettingRow) : String :=
  strJson ((row.compat.get? "key").getD (idJson id))

/-- A setting that is shown is read with its own members. -/
theorem settingRow_settingDocument {row : SettingRow} (h : Clean droppedKeys row.compat)
    (stamp : Stamp) (id : ℕ) :
    settingRow (stampDocument stamp (settingDocument id row)) = ⟨shownKey id row, row.compat⟩ := by
  have hkey :
      (stampDocument stamp (settingDocument id row)).get? "key" = row.compat.get? "key" := by
    rw [get?_stampDocument (by decide), settingDocument, Dict.get?_set_of_ne _ _ (by decide)]
  have hid : (stampDocument stamp (settingDocument id row)).get? "id" = some (idJson id) := by
    rw [get?_stampDocument (by decide), settingDocument, Dict.get?_set_self]
  have hcompat : compatMembers (stampDocument stamp (settingDocument id row)) = row.compat := by
    change otherMembers droppedKeys _ = _
    rw [otherMembers_stampDocument (by decide) (by decide), settingDocument,
      otherMembers_set (by decide), otherMembers_of_clean h]
  rw [settingRow, hkey, hid, hcompat, shownKey]
  cases row.compat.get? "key" <;> rfl

/-! ## Ids -/

/-- A resource names its id. -/
lemma get?_id {t : AllTables} {c : Collection} {id : ℕ} {d : Document} (hc : c ≠ .users)
    (h : plainDocument t c id = some d) : d.get? "id" = some (idJson id) := by
  cases c with
  | hosts kind =>
    obtain ⟨row, -, rfl⟩ := Option.map_eq_some_iff.mp h
    exact get?_shown (by exact nodup_hostKeys) rfl
  | streams =>
    obtain ⟨row, -, rfl⟩ := Option.map_eq_some_iff.mp h
    have hnot : "id" ∉ (streamEntries (projectStream row)).map Prod.fst := fun hmem =>
      absurd ((keys_streamEntries _).subset hmem) (by decide)
    have hnone : (Dict.ofList (streamEntries (projectStream row))).get? "id" = none := by
      rwa [Dict.get?_eq_none_iff, Dict.mem_ofList_iff]
    change (((projectStream row).extensions.set "id" (idJson id)).update
      (Dict.ofList (streamEntries (projectStream row)))).get? "id" = _
    rw [Dict.get?_update, hnone, Option.none_or, Dict.get?_set_self]
  | certificates =>
    obtain ⟨row, -, rfl⟩ := Option.map_eq_some_iff.mp h
    exact get?_shown (by exact nodup_certificateKeys) rfl
  | accessLists =>
    obtain ⟨row, -, rfl⟩ := Option.map_eq_some_iff.mp h
    exact get?_shown (by exact nodup_accessListKeys) rfl
  | settings =>
    obtain ⟨row, -, rfl⟩ := Option.map_eq_some_iff.mp h
    exact Dict.get?_set_self _ _ _
  | users => exact absurd rfl hc

end Portwyrm.Tables

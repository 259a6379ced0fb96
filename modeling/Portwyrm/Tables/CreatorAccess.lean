import Portwyrm.Tables.Noninterference
import Portwyrm.Tables.Ownership
import Portwyrm.Tables.Refusals

/-!
# What creators reach

Whether a principal without an overview reaches a resource that it has created: hosts and
certificates carry their owner where the API looks for it, streams and access lists do not.
-/

namespace Portwyrm.Tables

open Base Portwyrm.Runtime Portwyrm.Identity

/-! ## Reaching a resource -/

/-- The id of a resource. -/
def Resource.id : Resource → ℕ
  | .host id _ _ | .stream id _ | .certificate id _ | .accessList id _ => id

/-- The members of a resource that no table has a column for. -/
def Resource.extensions : Resource → Dict String Json
  | .host _ _ item => item.extensions
  | .stream _ item => item.extensions
  | .certificate _ item => item.extensions
  | .accessList _ item => item.extensions

/-- The answer is that something was not found. -/
def isNotFound : Exc → Bool
  | .http 404 _ | .fileNotFoundError _ => true
  | _ => false

/-- A call does not answer that something was not found. -/
abbrev Found {α : Type} (x : Result α) : Prop := Raises (fun e => isNotFound e = false) x

/-- A principal reaches a resource through every route of its collection. -/
structure Usable (p : SecurityPrincipal) (c : Collection) (id : ℕ) (t : CollectionTables) :
    Prop where
  listed : ∃ items, call p t.resources (.list c) = .ok (.resources items) ∧
    ∃ item ∈ items, item.id = id
  get : Found (call p t.resources (.get c id))
  update : ∀ bcryptHash payload, payload.collection = c →
    Found (updateHandler bcryptHash p id payload t)
  toggle : c.toggles = true → ∀ enabled, Found (toggleHandler p c id enabled t)
  delete : Found (deleteHandler p c id t)
  remove : c = .certificates → Found (removeCertificate p id t)

/-- A payload that names no owner. -/
def Payload.NamesNoOwner (payload : Payload) : Prop :=
  payload.extensions.get? "owner_user_id" = none ∧ payload.extensions.get? "owner_id" = none ∧
    match payload with
    | .host _ payload => payload.ownerPrincipalId = none
    | .stream payload => payload.ownerPrincipalId = none
    | .certificate payload => payload.ownerPrincipalId = none ∧ payload.ownerUserId = none
    | .accessList _ _ => True

/-- What may happen to a resource that nobody else changes: others change other things, and the
creator updates, enables and disables it without naming another owner. -/
inductive Later (p : SecurityPrincipal) (c : Collection) (id : ℕ) :
    CollectionTables → CollectionTables → Prop
  | created (t : CollectionTables) : Later p c id t t
  | others {t t' t'' : CollectionTables} (h : Later p c id t t')
      (hsame : getResource t''.resources c id = getResource t'.resources c id) : Later p c id t t''
  | updated {t t' t'' : CollectionTables} (h : Later p c id t t')
      (bcryptHash : ℕ → String → String) (payload : Payload) (hc : payload.collection = c)
      (hno : payload.NamesNoOwner) (hupdate : updateHandler bcryptHash p id payload t' = .ok t'') :
      Later p c id t t''
  | toggled {t t' t'' : CollectionTables} (h : Later p c id t t') (enabled : Bool)
      (htoggle : toggleHandler p c id enabled t' = .ok t'') : Later p c id t t''

/-! ## The condition -/

/-- The resources of a collection carry their owner where `_is_visible` looks for it. -/
def Collection.showsOwner : Collection → Bool
  | .hosts _ | .certificates => true
  | _ => false

/-- The ownership metadata of a resource can be read, where enabling and disabling asks for it. -/
def ReadableOwnership (c : Collection) (id : ℕ) (t : CollectionTables) : Prop :=
  c.toggles = true → ∀ item ∈ getResource t.resources c id,
    ∃ o, ownershipFromRow item.extensions = .ok o

/-- A resource stands under an id, with its creator for an owner where its collection shows
owners, and without one elsewhere. -/
def Standing (p : SecurityPrincipal) (c : Collection) (id : ℕ) (t : CollectionTables) : Prop :=
  ∃ item, getResource t.resources c id = some item ∧
    item.owner = if c.showsOwner then some (toString p.userId) else none

/-! ## Listed resources -/

lemma mem_map_sorted_iff {ρ : Type} {d : Dict ℕ ρ} {f : ℕ → ρ → Resource}
    (hid : ∀ id row, (f id row).id = id) {item : Resource} :
    item ∈ d.sorted.map (fun e => f e.1 e.2) ↔ (d.get? item.id).map (f item.id) = some item := by
  constructor
  · intro h
    obtain ⟨e, he, rfl⟩ := List.mem_map.mp h
    rw [hid, Dict.mem_sorted.mp he, Option.map_some]
  · intro h
    obtain ⟨row, hrow, hitem⟩ := Option.map_eq_some_iff.mp h
    exact List.mem_map.mpr ⟨(item.id, row), Dict.mem_sorted.mpr hrow, hitem⟩

/-- A list contains what can be got under its id. -/
lemma mem_listResources_iff {s : ResourceState} {c : Collection} {item : Resource} :
    item ∈ listResources s c ↔ getResource s c item.id = some item := by
  cases c with
  | hosts kind =>
    have hfilter : (s.hosts.sorted.filter fun e => e.2.kind = kind) =
        (s.hosts.restrict fun _ row => row.kind = kind).sorted :=
      (Dict.sorted_restrict s.hosts fun _ row => decide (row.kind = kind)).symm
    have hget : ∀ id, (s.hosts.restrict fun _ row => row.kind = kind).get? id =
        getHost kind id s.hosts := by
      intro id
      ext row
      rw [Dict.get?_restrict, getHost, Option.filter_eq_some_iff]
    rw [listResources, hfilter, getResource, ← hget]
    exact mem_map_sorted_iff (f := fun id row => .host id kind (projectHost row)) fun _ _ => rfl
  | streams =>
    exact mem_map_sorted_iff (f := fun id row => .stream id (projectStream row)) fun _ _ => rfl
  | certificates =>
    exact mem_map_sorted_iff (f := fun id row => .certificate id (projectCertificate row))
      fun _ _ => rfl
  | accessLists => exact mem_map_sorted_iff (f := Resource.accessList) fun _ _ => rfl
  | users => simp [listResources, getResource]
  | settings => simp [listResources, getResource]

section Reached

variable {p : SecurityPrincipal} {c : Collection} {id : ℕ} {t t' : CollectionTables}

/-! ## Creating -/

lemma id_of_getResource {s : ResourceState} {item : Resource}
    (h : getResource s c id = some item) : item.id = id := by
  cases c with
  | hosts kind =>
    obtain ⟨row, -, rfl⟩ := Option.map_eq_some_iff.mp h
    rfl
  | streams =>
    obtain ⟨row, -, rfl⟩ := Option.map_eq_some_iff.mp h
    rfl
  | certificates =>
    obtain ⟨row, -, rfl⟩ := Option.map_eq_some_iff.mp h
    rfl
  | accessLists =>
    obtain ⟨row, -, rfl⟩ := Option.map_eq_some_iff.mp h
    rfl
  | users => exact absurd h (by simp [getResource])
  | settings => exact absurd h (by simp [getResource])

/-- A host with a given owner stands under an id. -/
lemma standing_host {kind : HostKind} {row : HostRow} (hrow : t.hosts.get? id = some row)
    (hkind : row.kind = kind) (howner : row.ownerPrincipalId = some p.userId) :
    Standing p (.hosts kind) id t := by
  refine ⟨.host id kind (projectHost row), ?_, ?_⟩
  · have hget : getHost kind id t.hosts = some row := by
      rw [getHost, hrow, Option.filter_some, if_pos (by simpa using hkind)]
    show (getHost kind id t.hosts).map _ = _
    rw [hget, Option.map_some]
  · show row.ownerPrincipalId.map toString = _
    rw [howner]
    rfl

lemma standing_certificate {row : CertificateRow} (hrow : t.certificates.get? id = some row)
    (howner : row.ownerPrincipalId = some p.userId) : Standing p .certificates id t := by
  refine ⟨.certificate id (projectCertificate row), ?_, ?_⟩
  · show (t.certificates.get? id).map _ = _
    rw [hrow, Option.map_some]
  · show row.ownerPrincipalId.map toString = _
    rw [howner]
    rfl

lemma extensionOwner_eq_none {extensions : Dict String Json}
    (huser : extensions.get? "owner_user_id" = none) (hid : extensions.get? "owner_id" = none) :
    extensionOwner extensions = none := by
  rw [extensionOwner, huser, hid]
  rfl

lemma standing_of_createHost {kind : HostKind} {certificates accessLists : List ℕ}
    {payload : HostPayload} {rows : Dict ℕ HostRow} (hno : payload.ownerPrincipalId = none)
    (h : createHost certificates accessLists (some p) kind id payload t.hosts = .ok rows) :
    Standing p (.hosts kind) id { t with hosts := rows } := by
  obtain ⟨row, rfl, -, hrow⟩ := createHost_spec h
  refine standing_host (Dict.get?_set_self _ _ _) (kind_writeHost hrow) ?_
  rw [(hostStored_of_writeHost hrow).2.2, hno]
  rfl

/-- The metadata of a stream that is created names no owner. -/
lemma standing_of_createStream {certificates : List ℕ} {payload : StreamPayload}
    {rows : Dict ℕ StreamRow} (hno : extensionOwner payload.extensions = none)
    (h : createStream certificates (some p) id payload t.streams = .ok rows) :
    Standing p .streams id { t with streams := rows } := by
  obtain ⟨row, rfl, -, -, hrow⟩ := createStream_spec h
  have hcompat : row.compat = payload := by
    obtain ⟨-, -, -, -, -, -, -, rfl⟩ := checkStream_eq_ok hrow
    rfl
  refine ⟨.stream id (projectStream row), ?_, ?_⟩
  · show ((t.streams.set id row).get? id).map _ = _
    rw [Dict.get?_set_self, Option.map_some]
  · show extensionOwner row.compat.extensions = none
    rw [hcompat, hno]

lemma owner_of_createCertificate {payload : CertificatePayload}
    {rows rows' : Dict ℕ CertificateRow} {caller : ℕ}
    (hcaller : createOwner (some p) payload.owner = some caller)
    (h : createCertificate (some p) id payload rows = .ok rows') :
    (rows'.get? id).map CertificateRow.ownerPrincipalId = some (some caller) := by
  obtain ⟨row, rfl, -, hrow⟩ := createCertificate_spec h
  rw [Dict.get?_set_self, Option.map_some, ownerPrincipalId_certificateRow hrow, hcaller]

/-- A requested certificate is created for the caller; activating it keeps its owner. -/
lemma owner_of_requestCertificate {ctx : CreateContext} {payload : CertificatePayload}
    {rows rows' : Dict ℕ CertificateRow}
    (h : requestCertificate (some p) ctx payload rows = .ok rows') :
    (rows'.get? ctx.generated).map CertificateRow.ownerPrincipalId = some (some p.userId) := by
  simp only [requestCertificate, bind_eq_ok_iff] at h
  obtain ⟨issued, -, pending, hpending, -, -, hactive⟩ := h
  rw [owner_updateCertificate rfl hactive]
  exact owner_of_createCertificate rfl hpending

/-- What a principal creates without naming an owner stands. -/
theorem standing_of_createHandler {bcryptHash : ℕ → String → String} {ctx : CreateContext}
    {payload : Payload} (hno : payload.NamesNoOwner)
    (h : createHandler bcryptHash p ctx payload t = .ok (id, t')) :
    Standing p payload.collection id t' := by
  simp only [createHandler, bind_eq_ok_iff] at h
  obtain ⟨-, -, -, -, ⟨id₁, t₁⟩, hcreate, -, -, h⟩ := h
  obtain ⟨rfl, rfl⟩ := Prod.mk.inj (pure_eq_ok_iff.mp h)
  obtain ⟨huser, hid, hno⟩ := hno
  cases payload with
  | host kind payload =>
    simp only [createResource, bind_eq_ok_iff, pure_eq_ok_iff] at hcreate
    obtain ⟨rows, hrows, heq⟩ := hcreate
    obtain ⟨rfl, rfl⟩ := Prod.mk.inj heq
    exact standing_of_createHost hno hrows
  | stream payload =>
    simp only [createResource, bind_eq_ok_iff, pure_eq_ok_iff] at hcreate
    obtain ⟨rows, hrows, heq⟩ := hcreate
    obtain ⟨rfl, rfl⟩ := Prod.mk.inj heq
    exact standing_of_createStream (extensionOwner_eq_none huser hid) hrows
  | certificate payload =>
    simp only [createResource, bind_eq_ok_iff, pure_eq_ok_iff] at hcreate
    obtain ⟨rows, hrows, heq⟩ := hcreate
    obtain ⟨rfl, rfl⟩ := Prod.mk.inj heq
    have howner : (rows.get? ctx.generated).map CertificateRow.ownerPrincipalId =
        some (some p.userId) := by
      unfold createOrRequest at hrows
      split at hrows
      · exact owner_of_requestCertificate (mapError_eq_ok_iff.mp hrows)
      · refine owner_of_createCertificate ?_ hrows
        rw [CertificatePayload.owner, hno.1, hno.2]
        rfl
    obtain ⟨row, hrow, hown⟩ := Option.map_eq_some_iff.mp howner
    exact standing_certificate hrow hown
  | accessList payload identityIds =>
    simp only [createResource, bind_eq_ok_iff, pure_eq_ok_iff] at hcreate
    obtain ⟨access, haccess, members, -, heq⟩ := hcreate
    obtain ⟨rfl, rfl⟩ := Prod.mk.inj heq
    have hrow : access.lists.rows.get? t.access.lists.next = some (accessListRow payload) :=
      (wrote_of_createAccessList haccess).row
    refine ⟨.accessList t.access.lists.next
      (accessListItem { t with access := access, members := members } t.access.lists.next
        (accessListRow payload)), ?_, extensionOwner_eq_none huser hid⟩
    show (Dict.get? (Dict.mapEntries _ access.lists.rows) _).map _ = _
    rw [Dict.get?_mapEntries, hrow]
    rfl

/-! ## What keeps a resource standing -/

@[simp] lemma orNotFound_eq_ok_iff {α : Type} {o : Option α} {a : α} :
    orNotFound o = .ok a ↔ o = some a := by
  cases o <;> simp [orNotFound]

lemma visibleResource_eq_ok_iff {item : Resource} :
    visibleResource p c id t = .ok item ↔
      getResource t.resources c id = some item ∧ isVisible p item = true := by
  rw [visibleResource, orNotFound_eq_ok_iff, Option.filter_eq_some_iff]

lemma noneIfRefused_eq_ok_some_iff {α : Type} {x : Result α} {a : α} :
    noneIfRefused x = .ok (some a) ↔ x = .ok a := by
  unfold noneIfRefused
  split
  · simp
  · split <;> simp

/-- An update writes one row of the same kind, with the owner of the merged payload. -/
lemma stored_of_updateHost {certificates accessLists : List ℕ} {kind : HostKind}
    {payload : HostPayload} {rows rows' : Dict ℕ HostRow} {stored : HostRow}
    (hget : getHost kind id rows = some stored)
    (h : updateHost certificates accessLists (some p) kind id payload rows = .ok rows') :
    ∃ row, rows'.get? id = some row ∧ row.kind = kind ∧
      row.ownerPrincipalId = (payload.over (projectHost stored)).ownerPrincipalId.get := by
  rw [updateHost, hget] at h
  obtain ⟨row, rfl, hrow⟩ := storeHost_spec h
  exact ⟨row, Dict.get?_set_self _ _ _, kind_writeHost hrow,
    (hostStored_of_writeHost hrow).2.2⟩

section Kept

variable (hadmin : p.isAdmin = false) (hvisibility : p.visibility = .user)

include hadmin hvisibility

/-- Only collections that show owners show a principal what it has created. -/
lemma showsOwner_of_isVisible (hstanding : Standing p c id t) {item : Resource}
    (hget : getResource t.resources c id = some item) (hvisible : isVisible p item = true) :
    c.showsOwner = true := by
  obtain ⟨item', hget', howner⟩ := hstanding
  obtain rfl := Option.some.inj (hget'.symm.trans hget)
  rw [(isVisible_iff hadmin hvisibility).mp hvisible] at howner
  by_contra hhidden
  rw [if_neg hhidden] at howner
  exact absurd howner (by simp)

lemma standing_of_updateHandler {bcryptHash : ℕ → String → String} {payload : Payload}
    (hno : payload.NamesNoOwner) (hstanding : Standing p payload.collection id t)
    (h : updateHandler bcryptHash p id payload t = .ok t') :
    Standing p payload.collection id t' := by
  simp only [updateHandler, bind_eq_ok_iff, orNotFound_eq_ok_iff] at h
  obtain ⟨-, -, -, -, existing, hexisting, updated, hupdated, rfl⟩ := h
  obtain ⟨hget, hvisible⟩ := visibleResource_eq_ok_iff.mp hexisting
  have hshows := showsOwner_of_isVisible hadmin hvisibility hstanding hget hvisible
  have howner := (isVisible_iff hadmin hvisibility).mp hvisible
  cases payload with
  | host kind payload =>
    obtain ⟨stored, hstored, rfl⟩ := Option.map_eq_some_iff.mp hget
    obtain ⟨caller, hcaller, htext⟩ := Option.map_eq_some_iff.mp howner
    obtain rfl := Numeral.toString_injective htext
    simp only [Payload.overResource, updateResource, Payload.collection] at hupdated hget
    rw [hget] at hupdated
    simp only [bind_eq_ok_iff, pure_eq_ok_iff, Option.some.injEq] at hupdated
    obtain ⟨rows, hrows, rfl⟩ := hupdated
    obtain ⟨row, hrow, hkind, hown⟩ := stored_of_updateHost hstored hrows
    refine standing_host hrow hkind ?_
    rw [hown, HostPayload.over, HostPayload.over, hno.2.2]
    exact hcaller
  | certificate payload =>
    obtain ⟨stored, hstored, rfl⟩ := Option.map_eq_some_iff.mp hget
    obtain ⟨caller, hcaller, htext⟩ := Option.map_eq_some_iff.mp howner
    obtain rfl := Numeral.toString_injective htext
    simp only [Payload.overResource, updateResource, Payload.collection] at hupdated hget
    rw [hget] at hupdated
    simp only [bind_eq_ok_iff, pure_eq_ok_iff, Option.some.injEq] at hupdated
    obtain ⟨rows, hrows, rfl⟩ := hupdated
    have hrow : t.certificates.get? id = some stored := hstored
    unfold updateCertificate at hrows
    rw [hrow] at hrows
    obtain ⟨row, hrow', hown⟩ := Option.map_eq_some_iff.mp (owner_storeCertificate hrows)
    refine standing_certificate hrow' (hown.trans ?_)
    rw [CertificatePayload.owner, CertificatePayload.over, CertificatePayload.over, hno.2.2.1]
    exact hcaller
  | stream payload => exact absurd hshows Bool.false_ne_true
  | accessList payload ids => exact absurd hshows Bool.false_ne_true

lemma standing_of_toggleHandler {enabled : Bool} (hstanding : Standing p c id t)
    (h : toggleHandler p c id enabled t = .ok t') : Standing p c id t' := by
  simp only [toggleHandler, setEnabled, bind_eq_ok_iff, orNotFound_eq_ok_iff, pure_eq_ok_iff] at h
  obtain ⟨-, -, item, hitem, toggled, ⟨stored, hstored, rfl⟩, htoggled⟩ := h
  obtain ⟨hget, hvisible⟩ := visibleResource_eq_ok_iff.mp hitem
  have hshows := showsOwner_of_isVisible hadmin hvisibility hstanding hget hvisible
  have howner := (isVisible_iff hadmin hvisibility).mp hvisible
  obtain ⟨rfl, -⟩ := Option.filter_eq_some_iff.mp htoggled
  have hstore := noneIfRefused_eq_ok_some_iff.mp hstored
  cases c with
  | hosts kind =>
    obtain ⟨row, hrow, rfl⟩ := Option.map_eq_some_iff.mp hget
    obtain ⟨caller, hcaller, htext⟩ := Option.map_eq_some_iff.mp howner
    obtain rfl := Numeral.toString_injective htext
    have hkind : row.kind = kind := by simpa using (Option.filter_eq_some_iff.mp hrow).2
    have hlookup : t.hosts.get? id = some row := getHost_eq_some hrow
    simp only [storeEnabled, setHostEnabled, hlookup, bind_eq_ok_iff, pure_eq_ok_iff] at hstore
    obtain ⟨rows, ⟨-, -, -, -, rfl⟩, rfl⟩ := hstore
    exact standing_host (Dict.get?_set_self _ _ _) hkind hcaller
  | certificates => exact absurd hstore throw_ne_ok
  | streams => exact absurd hshows Bool.false_ne_true
  | accessLists => exact absurd hshows Bool.false_ne_true
  | users => exact absurd hshows Bool.false_ne_true
  | settings => exact absurd hshows Bool.false_ne_true

/-- A resource that nobody else changes stays standing. -/
theorem standing_of_later (hstanding : Standing p c id t) (h : Later p c id t t') :
    Standing p c id t' := by
  induction h with
  | created => exact hstanding
  | others h hsame ih =>
    obtain ⟨item, hget, howner⟩ := ih
    exact ⟨item, hsame.trans hget, howner⟩
  | updated h bcryptHash payload hc hno hupdate ih =>
    subst hc
    exact standing_of_updateHandler hadmin hvisibility hno ih hupdate
  | toggled h enabled htoggle ih =>
    exact standing_of_toggleHandler hadmin hvisibility ih htoggle

end Kept

/-! ## What stands is reached -/

lemma raises_authorize (action : PermissionAction) : Found (authorize p c action) := by
  unfold authorize
  split
  · exact .raiseIf rfl
  · exact .raiseIf rfl

lemma found_of_refuses {α : Type} {x : Result α} (h : Refuses x) : Found x := by
  refine h.imp fun e he => ?_
  cases e <;> first | rfl | exact absurd he Bool.false_ne_true

lemma raises_checkPayload (extensions : Dict String Json) : Found (checkPayload extensions) := by
  refine .bind (.raiseIf rfl) fun _ _ => ?_
  split
  · exact .pure _
  · exact .pure _
  · exact .pure _
  · exact .throw rfl

/-- A visible resource is found. -/
lemma found_visibleResource {item : Resource} (hget : getResource t.resources c id = some item)
    (hvisible : isVisible p item = true) : visibleResource p c id t = .ok item :=
  visibleResource_eq_ok_iff.mpr ⟨hget, hvisible⟩

lemma collection_overResource (payload : Payload) (item : Resource) :
    (payload.overResource item).collection = payload.collection := by
  cases payload <;> cases item <;> rfl

/-- An update of a host or a certificate that is there is not answered with not-found. -/
lemma found_updateResource {bcryptHash : ℕ → String → String} {actor : Actor} {payload : Payload}
    {item : Resource} (hshows : payload.collection.showsOwner = true)
    (hget : getResource t.resources payload.collection id = some item) :
    Found (updateResource bcryptHash actor id payload t >>= fun updated => orNotFound updated) := by
  unfold updateResource
  rw [hget]
  cases payload with
  | host kind payload =>
    refine .bind (.bind (found_of_refuses (refuses_updateHost _ _ _ _ _ _ _)) fun _ _ => .pure _)
      fun updated hupdated => ?_
    simp only [bind_eq_ok_iff, pure_eq_ok_iff] at hupdated
    obtain ⟨rows, -, rfl⟩ := hupdated
    exact .pure _
  | certificate payload =>
    refine .bind (.bind (found_of_refuses (refuses_updateCertificate _ _ _ _)) fun _ _ => .pure _)
      fun updated hupdated => ?_
    simp only [bind_eq_ok_iff, pure_eq_ok_iff] at hupdated
    obtain ⟨rows, -, rfl⟩ := hupdated
    exact .pure _
  | stream payload => exact absurd hshows Bool.false_ne_true
  | accessList payload ids => exact absurd hshows Bool.false_ne_true

lemma found_deleteResource {item : Resource} (actor : Actor) (hshows : c.showsOwner = true)
    (hget : getResource t.resources c id = some item) :
    Found (deleteResource actor c id t >>= fun deleted => orNotFound deleted) := by
  cases c with
  | hosts kind =>
    obtain ⟨row, hrow, -⟩ := Option.map_eq_some_iff.mp hget
    have hlookup : getHost kind id t.hosts = some row := hrow
    simp only [deleteResource, hlookup]
    refine .bind (.bind (found_of_refuses (refuses_deleteHost _ _ _ _)) fun _ _ => .pure _)
      fun deleted hdeleted => ?_
    simp only [bind_eq_ok_iff, pure_eq_ok_iff] at hdeleted
    obtain ⟨rows, -, rfl⟩ := hdeleted
    exact .pure _
  | certificates =>
    obtain ⟨row, hrow, -⟩ := Option.map_eq_some_iff.mp hget
    have hlookup : t.certificates.get? id = some row := hrow
    simp only [deleteResource, hlookup, map_eq_pure_bind]
    refine .bind (.bind (found_of_refuses (refuses_deleteCertificate _ _ _ _)) fun _ _ => .pure _)
      fun deleted hdeleted => ?_
    simp only [bind_eq_ok_iff, pure_eq_ok_iff] at hdeleted
    obtain ⟨rows, -, rfl⟩ := hdeleted
    exact .pure _
  | streams => exact absurd hshows Bool.false_ne_true
  | accessLists => exact absurd hshows Bool.false_ne_true
  | users => exact absurd hshows Bool.false_ne_true
  | settings => exact absurd hshows Bool.false_ne_true

/-- The policies let a principal change its own host, up to the metadata of the host. -/
lemma setHostEnabled_own {kind : HostKind} {rows : Dict ℕ HostRow} {row : HostRow}
    (enabled : Bool) (hadmin : p.isAdmin = false) (hmay : p.may (hostSection kind) .update = true)
    (hrow : rows.get? id = some row) (hkind : row.kind = kind)
    (howner : row.ownerPrincipalId = some p.userId) :
    setHostEnabled (some p) id enabled rows = (do
      let ownership ← ownershipFromRow row.extensions
      raiseIf (∃ o ∈ ownership, ∃ name ∈ p.owner, o.owner ≠ name)
        (.ownershipError "foreign npmctl resources require explicit adoption")
      pure (rows.set id { row with enabled := enabled })) := by
  have hsection : Text.replaceChar '-' '_' (hostSection kind) = hostSection kind := by
    cases kind <;> decide
  have hallowed : permissionAllows (p.permissions.get? (hostSection kind)) .update = true := by
    simpa [SecurityPrincipal.may, hadmin, hsection] using hmay
  have hauthorized : enforceAuthorization (some p) (hostSection row.kind) .update = .ok () := by
    rw [hkind]
    exact raiseIf_eq_ok_iff.mpr fun h => by simp [hallowed] at h
  have hown : enforceOwnership (some p) row.ownerPrincipalId row.extensions = (do
      let ownership ← ownershipFromRow row.extensions
      raiseIf (∃ o ∈ ownership, ∃ name ∈ p.owner, o.owner ≠ name)
        (.ownershipError "foreign npmctl resources require explicit adoption")) := by
    have hnot : isAdmin (some p) = false := hadmin
    have hsame : raiseIf (∃ owner ∈ row.ownerPrincipalId, ∃ q ∈ some p, owner ≠ q.userId)
        (.ownershipError "foreign-owned resources cannot be mutated") = .ok () :=
      raiseIf_eq_ok_iff.mpr (by simp [howner])
    simp only [enforceOwnership, hnot, Bool.false_eq_true, if_false, hsame, ok_bind]
    simp
  rw [setHostEnabled, hrow]
  simp only [hauthorized, hown, ok_bind, bind_assoc]

/-- Enabling and disabling an own host answers not-found exactly when its ownership metadata cannot
be read. -/
lemma found_toggleHandler_iff {kind : HostKind} {row : HostRow} (hadmin : p.isAdmin = false)
    (hmay : p.may (hostSection kind) .update = true) (hrow : getHost kind id t.hosts = some row)
    (howner : row.ownerPrincipalId = some p.userId)
    (hvisible : isVisible p (.host id kind (projectHost row)) = true) (enabled : Bool) :
    Found (toggleHandler p (.hosts kind) id enabled t) ↔
      ∃ o, ownershipFromRow row.extensions = .ok o := by
  have hlookup : t.hosts.get? id = some row := getHost_eq_some hrow
  have hkind : row.kind = kind := by simpa using (Option.filter_eq_some_iff.mp hrow).2
  have hget : getResource t.resources (.hosts kind) id =
      some (.host id kind (projectHost row)) := by
    show (getHost kind id t.hosts).map _ = _
    rw [hrow, Option.map_some]
  have hauthorized : authorize p (.hosts kind) .update = .ok () :=
    raiseIf_eq_ok_iff.mpr fun h => by simp [Collection.section_, hmay] at h
  have hstore := setHostEnabled_own enabled hadmin hmay hlookup hkind howner
  simp only [toggleHandler, setEnabled, storeEnabled, hauthorized,
    found_visibleResource hget hvisible, hstore, ok_bind]
  constructor
  · intro hfound
    cases hownership : ownershipFromRow row.extensions with
    | ok o => exact ⟨o, rfl⟩
    | error e =>
      obtain ⟨s, rfl⟩ := raises_ownershipFromRow _ e hownership
      rw [hownership] at hfound
      exact absurd (hfound (.http 404 "resource not found") rfl) (by simp [isNotFound])
  · rintro ⟨o, ho⟩
    simp only [ho, ok_bind]
    by_cases hforeign : ∃ own ∈ o, ∃ name ∈ p.owner, own.owner ≠ name
    · rw [raiseIf, if_pos hforeign]
      rintro e he
      obtain rfl := Except.error.inj he
      rfl
    · rw [raiseIf, if_neg hforeign]
      have hafter : getHost kind id (t.hosts.set id { row with enabled := enabled }) =
          some { row with enabled := enabled } := by
        rw [getHost, Dict.get?_set_self, Option.filter_some, if_pos (by simpa using hkind)]
      have hsome : (getResource { t with
          hosts := t.hosts.set id { row with enabled := enabled } }.resources
          (.hosts kind) id).isSome = true := by
        show ((getHost kind id (t.hosts.set id { row with enabled := enabled })).map _).isSome = _
        rw [hafter]
        rfl
      intro e he
      simp only [noneIfRefused, pure, Except.pure, ok_bind, Option.filter_some, hsome,
        if_true, orNotFound] at he
      exact absurd he (by simp)

/-- A certificate that is there is not answered with not-found by the route that removes it. -/
lemma found_removeCertificate {item : Resource}
    (hget : getResource t.resources .certificates id = some item) :
    Found (removeCertificate p id t) := by
  have hdelete := found_deleteResource none rfl hget
  refine .bind (raises_authorize _) fun _ _ => .bind (.raiseIf rfl) fun _ _ => ?_
  intro e he
  cases hdeleted : deleteResource none .certificates id t with
  | error e' =>
    rw [hdeleted] at hdelete he
    obtain rfl := Except.error.inj he
    exact hdelete _ rfl
  | ok deleted =>
    rw [hdeleted] at hdelete he
    cases deleted with
    | none => exact absurd (hdelete _ rfl) (by simp [isNotFound])
    | some removed => exact absurd he (by simp [pure, Except.pure])

/-- A principal reaches what it has created exactly when the collection shows owners and the
ownership metadata can be read. -/
lemma usable_iff_of_standing (hadmin : p.isAdmin = false) (hvisibility : p.visibility = .user)
    (hread : p.may c.section_ .read = true) (hupdate : p.may c.section_ .update = true)
    (hstanding : Standing p c id t) :
    Usable p c id t ↔ c.showsOwner = true ∧ ReadableOwnership c id t := by
  have ⟨item, hget, howner⟩ := hstanding
  constructor
  · intro husable
    have hshows : c.showsOwner = true := by
      obtain ⟨items, hitems, listed, hlisted, rfl⟩ := husable.listed
      simp only [call, bind_eq_ok_iff, pure_eq_ok_iff] at hitems
      obtain ⟨-, -, hvisible⟩ := hitems
      obtain rfl := Reply.resources.inj hvisible
      obtain ⟨hmem, hvisible⟩ := List.mem_filter.mp hlisted
      exact showsOwner_of_isVisible hadmin hvisibility hstanding (mem_listResources_iff.mp hmem)
        hvisible
    refine ⟨hshows, fun htoggles item' hitem' => ?_⟩
    obtain rfl := Option.some.inj (hget.symm.trans hitem')
    cases c with
    | hosts kind =>
      rw [if_pos hshows] at howner
      have hvisible := (isVisible_iff hadmin hvisibility).mpr howner
      obtain ⟨row, hrow, rfl⟩ := Option.map_eq_some_iff.mp hget
      obtain ⟨caller, hcaller, htext⟩ := Option.map_eq_some_iff.mp howner
      obtain rfl := Numeral.toString_injective htext
      exact (found_toggleHandler_iff hadmin hupdate hrow hcaller hvisible true).mp
        (husable.toggle htoggles true)
    | certificates => exact absurd htoggles Bool.false_ne_true
    | streams => exact absurd hshows Bool.false_ne_true
    | accessLists => exact absurd hshows Bool.false_ne_true
    | users => exact absurd hshows Bool.false_ne_true
    | settings => exact absurd hshows Bool.false_ne_true
  · rintro ⟨hshows, hreadable⟩
    rw [if_pos hshows] at howner
    have hvisible := (isVisible_iff hadmin hvisibility).mpr howner
    have hpublic : c.adminOnly = false := by
      cases c <;> first | rfl | exact absurd hshows Bool.false_ne_true
    have hauthorized : authorizeRead p c = .ok () := (authorizeRead_eq_ok_iff hpublic).mpr hread
    exact
      { listed := by
          refine ⟨visibleItems p t.resources c, ?_, item, ?_, id_of_getResource hget⟩
          · simp only [call, hauthorized, ok_bind]
            rfl
          · refine List.mem_filter.mpr ⟨mem_listResources_iff.mpr ?_, hvisible⟩
            rw [id_of_getResource hget]
            exact hget
        get := by
          have hfilter : (getResource t.resources c id).filter (isVisible p) = some item := by
            rw [hget, Option.filter_some, if_pos hvisible]
          simp only [call, hauthorized, ok_bind, hfilter]
          exact .pure _
        update := by
          rintro bcryptHash payload rfl
          refine .bind (raises_authorize _) fun _ _ => .bind (raises_checkPayload _) fun _ _ => ?_
          rw [found_visibleResource hget hvisible, ok_bind]
          have hcollection := collection_overResource payload item
          exact found_updateResource (hcollection ▸ hshows) (hcollection.symm ▸ hget)
        toggle := by
          intro htoggles enabled
          cases c with
          | hosts kind =>
            obtain ⟨row, hrow, rfl⟩ := Option.map_eq_some_iff.mp hget
            obtain ⟨caller, hcaller, htext⟩ := Option.map_eq_some_iff.mp howner
            obtain rfl := Numeral.toString_injective htext
            exact (found_toggleHandler_iff hadmin hupdate hrow hcaller hvisible enabled).mpr
              (hreadable htoggles _ hget)
          | certificates => exact absurd htoggles Bool.false_ne_true
          | streams => exact absurd hshows Bool.false_ne_true
          | accessLists => exact absurd hshows Bool.false_ne_true
          | users => exact absurd hshows Bool.false_ne_true
          | settings => exact absurd hshows Bool.false_ne_true
        delete := by
          refine .bind (raises_authorize _) fun _ _ => ?_
          rw [found_visibleResource hget hvisible, ok_bind]
          exact found_deleteResource _ hshows hget
        remove := by
          rintro rfl
          exact found_removeCertificate hget }

end Reached

/-! ### A stream that is out of reach -/

/-- The operator creates a stream. -/
def operatorPayload : Payload :=
  .stream { incomingPort := .of 9000, forwardingHost := .of "backend", forwardingPort := .of 9000 }

/-- The database gives the stream its first id. -/
def firstId : CreateContext where
  generated := 1
  issued := .error (.runtimeError "no issuer")
  putFails := false

/-- The tables with the stream. -/
def tablesWithStream : CollectionTables where
  streams := Dict.ofList [(1, operatorStream)]

lemma createHandler_operatorPayload (bcryptHash : ℕ → String → String) :
    createHandler bcryptHash operator firstId operatorPayload {} = .ok (1, tablesWithStream) :=
  rfl

lemma operatorPayload_namesNoOwner : operatorPayload.NamesNoOwner := ⟨rfl, rfl, rfl⟩

lemma operator_may (action : PermissionAction) :
    operator.may operatorPayload.collection.section_ action = true := by
  cases action <;> decide

end Portwyrm.Tables

import Portwyrm.Tables.Visibility

/-!
# What a principal reads of others

A state in which an operation does not reach a resource of somebody else looks like every other
such state with the same open resources; a state in which it does looks different.
-/

namespace Portwyrm.Tables

open Base Portwyrm.Runtime Portwyrm.Identity

/-! ## Open resources -/

/-- A row is open to a principal: the principal owns it, or nobody does. -/
def isOpen (p : SecurityPrincipal) (owner : Option ℕ) : Bool := owner.all fun id => id = p.userId

/-- Two states agree on the resources that are open to a principal; access lists have no owner. -/
structure Agree (p : SecurityPrincipal) (s s' : ResourceState) : Prop where
  hosts : ∀ id row, isOpen p row.ownerPrincipalId = true →
    (s.hosts.get? id = some row ↔ s'.hosts.get? id = some row)
  streams : ∀ id row, isOpen p row.ownerPrincipalId = true →
    (s.streams.get? id = some row ↔ s'.streams.get? id = some row)
  certificates : ∀ id row, isOpen p row.ownerPrincipalId = true →
    (s.certificates.get? id = some row ↔ s'.certificates.get? id = some row)
  accessLists : ∀ id, s.accessLists.get? id = s'.accessLists.get? id
  materials : ∀ id row, s.certificates.get? id = some row →
    isOpen p row.ownerPrincipalId = true → s.materials.get? id = s'.materials.get? id

/-- A stream of somebody else whose metadata names the principal. -/
def NamesPrincipal (p : SecurityPrincipal) (row : StreamRow) : Prop :=
  isOpen p row.ownerPrincipalId = false ∧
    extensionOwner row.compat.extensions = some (toString p.userId)

/-- An operation reaches a resource of somebody else: a stream whose metadata names the
principal, or the material of a certificate. -/
def Leaks (p : SecurityPrincipal) (s : ResourceState) : ReadOp → Prop
  | .list .streams | .hostReport => p.may "streams" .read = true ∧
      ∃ id row, s.streams.get? id = some row ∧ NamesPrincipal p row
  | .get .streams id => p.may "streams" .read = true ∧
      ∃ row, s.streams.get? id = some row ∧ NamesPrincipal p row
  | .downloadCertificate id => p.may "certificates" .read = true ∧
      ∃ row, s.certificates.get? id = some row ∧ isOpen p row.ownerPrincipalId = false
  | _ => False

/-- A principal may call an operation. -/
def Permitted (p : SecurityPrincipal) : ReadOp → Prop
  | .list c | .get c _ => authorizeRead p c = .ok ()
  | .hostReport => True
  | .downloadCertificate _ => authorizeRead p .certificates = .ok ()

/-- A state without the resources of others. -/
def purge (p : SecurityPrincipal) (s : ResourceState) : ResourceState where
  hosts := s.hosts.restrict fun _ row => isOpen p row.ownerPrincipalId
  streams := s.streams.restrict fun _ row => isOpen p row.ownerPrincipalId
  certificates := s.certificates.restrict fun _ row => isOpen p row.ownerPrincipalId
  accessLists := s.accessLists
  materials := s.materials

/-! ## Visible items are open -/

section Visible

variable {p : SecurityPrincipal}

/-- A principal without an overview sees the items that carry the text of its id. -/
lemma isVisible_iff (hadmin : p.isAdmin = false) (hvisibility : p.visibility = .user)
    {item : Resource} : isVisible p item = true ↔ item.owner = some (toString p.userId) := by
  simp [isVisible, hadmin, hvisibility]

lemma isOpen_of_text {owner : Option ℕ} (h : owner.map toString = some (toString p.userId)) :
    isOpen p owner = true := by
  obtain ⟨id, rfl, hid⟩ := Option.map_eq_some_iff.mp h
  simpa [isOpen] using Numeral.toString_injective hid

lemma authorizeRead_eq_ok_iff {c : Collection} {u : Unit} (hc : c.adminOnly = false) :
    authorizeRead p c = .ok u ↔ p.may c.section_ .read = true := by
  rw [authorizeRead, hc, if_neg Bool.false_ne_true, raiseIf_eq_ok_iff, Bool.not_eq_false]

lemma filter_map_sorted {α : Type} {d d' : Dict ℕ α} {f : ℕ × α → Resource}
    {q : Resource → Bool} (h : ∀ id row, q (f (id, row)) = true →
      (d.get? id = some row ↔ d'.get? id = some row)) :
    (d.sorted.map f).filter q = (d'.sorted.map f).filter q := by
  rw [List.filter_map, List.filter_map]
  exact congrArg (List.map f) (Dict.filter_sorted_ext h)

lemma filter_map_get? {α : Type} {d d' : Dict ℕ α} {id : ℕ} {f : α → Resource}
    {q : Resource → Bool} (h : ∀ row, q (f row) = true →
      (d.get? id = some row ↔ d'.get? id = some row)) :
    ((d.get? id).map f).filter q = ((d'.get? id).map f).filter q := by
  ext item
  simp only [Option.filter_eq_some_iff, Option.map_eq_some_iff]
  refine and_congr_left fun hq => exists_congr fun row => and_congr_left fun hrow => ?_
  exact h row (hrow ▸ hq)

variable (hadmin : p.isAdmin = false) (hvisibility : p.visibility = .user) {s s' : ResourceState}

include hadmin hvisibility

/-- States that agree show the same items of a collection, unless one of them shows a stream of
somebody else. -/
lemma visibleItems_eq (hagree : Agree p s s') {c : Collection}
    (hstreams : c = .streams → ∀ id row, NamesPrincipal p row →
      s.streams.get? id ≠ some row ∧ s'.streams.get? id ≠ some row) :
    visibleItems p s c = visibleItems p s' c := by
  cases c with
  | hosts kind =>
    have hfilter : ∀ d : Dict ℕ HostRow,
        ((d.sorted.filter fun e => e.2.kind = kind).map fun e =>
          Resource.host e.1 kind (projectHost e.2)).filter (isVisible p) =
        (d.sorted.filter fun e => isVisible p (.host e.1 kind (projectHost e.2)) &&
          decide (e.2.kind = kind)).map fun e => .host e.1 kind (projectHost e.2) := by
      intro d
      rw [List.filter_map, List.filter_filter]
      rfl
    simp only [visibleItems, listResources, hfilter]
    refine congrArg _ (Dict.filter_sorted_ext fun id row hrow => ?_)
    have hvisible := (isVisible_iff hadmin hvisibility).mp (Bool.and_eq_true_iff.mp hrow).1
    exact hagree.hosts id row (isOpen_of_text hvisible)
  | streams =>
    refine filter_map_sorted fun id row hrow => ?_
    have hvisible := (isVisible_iff hadmin hvisibility).mp hrow
    by_cases hopen : isOpen p row.ownerPrincipalId = true
    · exact hagree.streams id row hopen
    · obtain ⟨hnot, hnot'⟩ := hstreams rfl id row ⟨Bool.eq_false_iff.mpr hopen, hvisible⟩
      exact iff_of_false hnot hnot'
  | certificates =>
    refine filter_map_sorted fun id row hrow => ?_
    have hvisible := (isVisible_iff hadmin hvisibility).mp hrow
    exact hagree.certificates id row (isOpen_of_text hvisible)
  | accessLists =>
    refine filter_map_sorted fun id row _ => ?_
    rw [hagree.accessLists id]
  | users => rfl
  | settings => rfl

/-- States that agree show the same item under an id, unless it is a stream of somebody else in one
of them. -/
lemma visibleItem_eq (hagree : Agree p s s') {c : Collection} {id : ℕ}
    (hstreams : c = .streams → ∀ row, NamesPrincipal p row →
      s.streams.get? id ≠ some row ∧ s'.streams.get? id ≠ some row) :
    (getResource s c id).filter (isVisible p) = (getResource s' c id).filter (isVisible p) := by
  cases c with
  | hosts kind =>
    ext item
    simp only [getResource, getHost, Option.filter_eq_some_iff, Option.map_eq_some_iff]
    refine and_congr_left fun hitem => exists_congr fun row => and_congr_left fun hrow => ?_
    refine and_congr_left fun _ => hagree.hosts id row (isOpen_of_text ?_)
    exact (isVisible_iff hadmin hvisibility).mp (hrow ▸ hitem)
  | streams =>
    refine filter_map_get? fun row hrow => ?_
    have hvisible := (isVisible_iff hadmin hvisibility).mp hrow
    by_cases hopen : isOpen p row.ownerPrincipalId = true
    · exact hagree.streams id row hopen
    · obtain ⟨hnot, hnot'⟩ := hstreams rfl row ⟨Bool.eq_false_iff.mpr hopen, hvisible⟩
      exact iff_of_false hnot hnot'
  | certificates =>
    refine filter_map_get? fun row hrow => ?_
    have hvisible := (isVisible_iff hadmin hvisibility).mp hrow
    exact hagree.certificates id row (isOpen_of_text hvisible)
  | accessLists =>
    refine filter_map_get? fun row _ => ?_
    rw [hagree.accessLists id]
  | users => rfl
  | settings => rfl

omit hadmin hvisibility in
/-- A certificate that is open in both states has the same material in both. -/
lemma downloadCertificate_eq (hagree : Agree p s s') {id : ℕ}
    (hs : ∀ row, s.certificates.get? id = some row → isOpen p row.ownerPrincipalId = true)
    (hs' : ∀ row, s'.certificates.get? id = some row → isOpen p row.ownerPrincipalId = true) :
    downloadCertificate s id = downloadCertificate s' id := by
  cases hrow : s.certificates.get? id with
  | some row =>
    have hrow' := (hagree.certificates id row (hs row hrow)).mp hrow
    rw [downloadCertificate, hrow, downloadCertificate, hrow',
      hagree.materials id row hrow (hs row hrow)]
  | none =>
    have hrow' : s'.certificates.get? id = none := by
      rw [Option.eq_none_iff_forall_ne_some]
      intro row hrow'
      rw [(hagree.certificates id row (hs' row hrow')).mpr hrow'] at hrow
      exact absurd hrow (by simp)
    rw [downloadCertificate, hrow, downloadCertificate, hrow']

/-- States that agree and do not leak give the same answer. -/
theorem call_eq (hagree : Agree p s s') {op : ReadOp} (hs : ¬ Leaks p s op)
    (hs' : ¬ Leaks p s' op) : call p s op = call p s' op := by
  have hnone : ∀ {t : ResourceState}, (p.may "streams" .read = true) →
      ¬ (p.may "streams" .read = true ∧
        ∃ id row, t.streams.get? id = some row ∧ NamesPrincipal p row) →
      ∀ id row, NamesPrincipal p row → t.streams.get? id ≠ some row :=
    fun hmay hleaks id row hnames hrow => hleaks ⟨hmay, id, row, hrow, hnames⟩
  cases op with
  | list c =>
    simp only [call]
    cases hauthorize : authorizeRead p c with
    | error e => rfl
    | ok u =>
      rw [visibleItems_eq hadmin hvisibility hagree]
      rintro rfl id row hnames
      have hmay := (authorizeRead_eq_ok_iff rfl).mp hauthorize
      exact ⟨hnone hmay hs id row hnames, hnone hmay hs' id row hnames⟩
  | get c id =>
    simp only [call]
    cases hauthorize : authorizeRead p c with
    | error e => rfl
    | ok u =>
      rw [visibleItem_eq hadmin hvisibility hagree]
      rintro rfl row hnames
      have hmay := (authorizeRead_eq_ok_iff rfl).mp hauthorize
      exact ⟨fun hrow => hs ⟨hmay, row, hrow, hnames⟩, fun hrow => hs' ⟨hmay, row, hrow, hnames⟩⟩
  | hostReport =>
    have hlines : hostReport p s = hostReport p s' := by
      refine List.map_congr_left fun c hc => ?_
      have hmay := (List.mem_filter.mp hc).2
      rw [reportLine, reportLine, visibleItems_eq hadmin hvisibility hagree]
      rintro rfl id row hnames
      exact ⟨hnone hmay hs id row hnames, hnone hmay hs' id row hnames⟩
    rw [call, call, hlines]
  | downloadCertificate id =>
    simp only [call]
    cases hauthorize : authorizeRead p .certificates with
    | error e => rfl
    | ok u =>
      have hmay := (authorizeRead_eq_ok_iff rfl).mp hauthorize
      rw [ok_bind, ok_bind, downloadCertificate_eq hagree]
      · intro row hrow
        by_contra hopen
        exact hs ⟨hmay, row, hrow, Bool.eq_false_iff.mpr hopen⟩
      · intro row hrow
        by_contra hopen
        exact hs' ⟨hmay, row, hrow, Bool.eq_false_iff.mpr hopen⟩

end Visible

/-! ## The state without the resources of others -/

section Purge

variable (p : SecurityPrincipal) (s : ResourceState)

/-- A state agrees with itself after the resources of others are removed. -/
lemma agree_purge : Agree p s (purge p s) where
  hosts _ _ hopen := by rw [purge, Dict.get?_restrict, and_iff_left hopen]
  streams _ _ hopen := by rw [purge, Dict.get?_restrict, and_iff_left hopen]
  certificates _ _ hopen := by rw [purge, Dict.get?_restrict, and_iff_left hopen]
  accessLists _ := rfl
  materials _ _ _ _ := rfl

variable {p s}

lemma get?_streams_purge {id : ℕ} {row : StreamRow}
    (h : (purge p s).streams.get? id = some row) :
    s.streams.get? id = some row ∧ isOpen p row.ownerPrincipalId = true := by
  rwa [purge, Dict.get?_restrict] at h

lemma get?_certificates_purge {id : ℕ} {row : CertificateRow}
    (h : (purge p s).certificates.get? id = some row) :
    s.certificates.get? id = some row ∧ isOpen p row.ownerPrincipalId = true := by
  rwa [purge, Dict.get?_restrict] at h

/-- Nothing of others is left to be reached. -/
lemma not_leaks_purge (op : ReadOp) : ¬ Leaks p (purge p s) op := by
  have hstream : ∀ id row, NamesPrincipal p row → (purge p s).streams.get? id ≠ some row :=
    fun id row hnames hrow => Bool.eq_false_iff.mp hnames.1 (get?_streams_purge hrow).2
  intro h
  cases op with
  | list c =>
    cases c with
    | streams =>
      obtain ⟨-, id, row, hrow, hnames⟩ := h
      exact hstream id row hnames hrow
    | _ => exact h
  | get c id =>
    cases c with
    | streams =>
      obtain ⟨-, row, hrow, hnames⟩ := h
      exact hstream id row hnames hrow
    | _ => exact h
  | hostReport =>
    obtain ⟨-, id, row, hrow, hnames⟩ := h
    exact hstream id row hnames hrow
  | downloadCertificate id =>
    obtain ⟨-, row, hrow, hclosed⟩ := h
    exact Bool.eq_false_iff.mp hclosed (get?_certificates_purge hrow).2

variable (hadmin : p.isAdmin = false) (hvisibility : p.visibility = .user)

include hadmin hvisibility

lemma isVisible_of_namesPrincipal {id : ℕ} {row : StreamRow} (hnames : NamesPrincipal p row) :
    isVisible p (.stream id (projectStream row)) = true :=
  (isVisible_iff hadmin hvisibility).mpr hnames.2

/-- A stream of somebody else that names the principal is listed, and not without it. -/
lemma visibleItems_ne_purge {id : ℕ} {row : StreamRow} (hrow : s.streams.get? id = some row)
    (hnames : NamesPrincipal p row) :
    visibleItems p s .streams ≠ visibleItems p (purge p s) .streams := by
  intro heq
  have hmem : Resource.stream id (projectStream row) ∈ visibleItems p s .streams := by
    refine List.mem_filter.mpr ⟨List.mem_map.mpr ⟨(id, row), Dict.mem_sorted.mpr hrow, rfl⟩, ?_⟩
    exact isVisible_of_namesPrincipal hadmin hvisibility hnames
  rw [heq] at hmem
  obtain ⟨⟨id', row'⟩, hentry, hitem⟩ := List.mem_map.mp (List.mem_filter.mp hmem).1
  obtain ⟨rfl, -⟩ := Resource.stream.inj hitem
  obtain ⟨hrow', hopen⟩ := get?_streams_purge (Dict.mem_sorted.mp hentry)
  obtain rfl : row = row' := Option.some.inj (hrow.symm.trans hrow')
  exact Bool.eq_false_iff.mp hnames.1 hopen

/-- It counts in the report. -/
lemma reportLine_ne_purge {id : ℕ} {row : StreamRow} (hrow : s.streams.get? id = some row)
    (hnames : NamesPrincipal p row) :
    reportLine p s .streams ≠ reportLine p (purge p s) .streams := by
  -- removing the rows of others filters the visible entries, and this entry is filtered out
  let shown : ℕ × StreamRow → Bool := fun e => isVisible p (.stream e.1 (projectStream e.2))
  have hlength : ∀ t : ResourceState,
      (visibleItems p t .streams).length = (t.streams.sorted.filter shown).length := by
    intro t
    rw [visibleItems, listResources, List.filter_map, List.length_map]
    rfl
  have hlt : ((purge p s).streams.sorted.filter shown).length <
      (s.streams.sorted.filter shown).length := by
    have hsplit : (purge p s).streams.sorted.filter shown =
        (s.streams.sorted.filter shown).filter fun e => isOpen p e.2.ownerPrincipalId := by
      rw [purge, Dict.sorted_restrict, List.filter_filter, List.filter_filter]
      exact List.filter_congr fun e _ => Bool.and_comm _ _
    rw [hsplit, List.length_filter_lt_length_iff_exists]
    refine ⟨(id, row), List.mem_filter.mpr ⟨Dict.mem_sorted.mpr hrow, ?_⟩, ?_⟩
    · exact isVisible_of_namesPrincipal hadmin hvisibility hnames
    · exact Bool.eq_false_iff.mp hnames.1
  intro heq
  have htotal : (visibleItems p s .streams).length =
      (visibleItems p (purge p s) .streams).length := congrArg ReportLine.total heq
  rw [hlength, hlength] at htotal
  exact hlt.ne' htotal

omit hadmin hvisibility in
/-- The download shows the certificate of somebody else: its material, or that it has none. -/
lemma downloadCertificate_ne_purge {id : ℕ} {row : CertificateRow}
    (hrow : s.certificates.get? id = some row) (hclosed : isOpen p row.ownerPrincipalId = false) :
    downloadCertificate s id ≠ downloadCertificate (purge p s) id := by
  have hnone : (purge p s).certificates.get? id = none := by
    rw [Option.eq_none_iff_forall_ne_some]
    intro row' hrow'
    obtain ⟨hsame, hopen⟩ := get?_certificates_purge hrow'
    obtain rfl : row = row' := Option.some.inj (hrow.symm.trans hsame)
    exact Bool.eq_false_iff.mp hclosed hopen
  rw [downloadCertificate, hrow, downloadCertificate, hnone]
  cases s.materials.get? id with
  | some material => exact fun h => absurd h.symm throw_ne_ok
  | none =>
    intro h
    have htext : s!"certificate material {id} was not found" =
        s!"certificate {id} was not found" := (Exc.http.inj (Except.error.inj h)).2
    have hlength := congrArg String.length htext
    simp only [toString, String.length_append, Nat.add_left_inj] at hlength
    exact absurd hlength (by decide)

/-- An operation that reaches a resource of somebody else answers otherwise without it. -/
theorem call_ne_purge {op : ReadOp} (hleaks : Leaks p s op) : call p s op ≠ call p (purge p s) op := by
  cases op with
  | list c =>
    cases c with
    | streams =>
      obtain ⟨hmay, id, row, hrow, hnames⟩ := hleaks
      have hauthorize := (authorizeRead_eq_ok_iff (u := ()) (c := .streams) rfl).mpr hmay
      intro h
      simp only [call, hauthorize, ok_bind] at h
      exact visibleItems_ne_purge hadmin hvisibility hrow hnames
        (Reply.resources.inj (Except.ok.inj h))
    | _ => exact hleaks.elim
  | get c id =>
    cases c with
    | streams =>
      obtain ⟨hmay, row, hrow, hnames⟩ := hleaks
      have hauthorize := (authorizeRead_eq_ok_iff (u := ()) (c := .streams) rfl).mpr hmay
      have hnone : (purge p s).streams.get? id = none := by
        rw [Option.eq_none_iff_forall_ne_some]
        intro row' hrow'
        obtain ⟨hsame, hopen⟩ := get?_streams_purge hrow'
        obtain rfl : row = row' := Option.some.inj (hrow.symm.trans hsame)
        exact Bool.eq_false_iff.mp hnames.1 hopen
      intro h
      simp [call, hauthorize, getResource, hrow, hnone, Option.filter,
        isVisible_of_namesPrincipal hadmin hvisibility hnames] at h
    | _ => exact hleaks.elim
  | hostReport =>
    obtain ⟨hmay, id, row, hrow, hnames⟩ := hleaks
    intro h
    have hlines : hostReport p s = hostReport p (purge p s) :=
      Reply.report.inj (Except.ok.inj h)
    have hstreams : Collection.streams ∈
        reportCollections.filter fun c => p.may c.section_ .read :=
      List.mem_filter.mpr ⟨by decide, hmay⟩
    have hline := List.map_inj_left.mp hlines .streams hstreams
    exact reportLine_ne_purge hadmin hvisibility hrow hnames (Prod.mk.inj hline).2
  | downloadCertificate id =>
    obtain ⟨hmay, row, hrow, hclosed⟩ := hleaks
    have hauthorize := (authorizeRead_eq_ok_iff (u := ()) (c := .certificates) rfl).mpr hmay
    simp only [call, hauthorize, ok_bind]
    exact downloadCertificate_ne_purge hrow hclosed

end Purge

/-! ## Noninterference -/

/-- What a principal without an overview is told in a state does not depend on the resources of
others, exactly when the operation does not reach one of them in it. -/
theorem call_eq_iff_not_leaks {p : SecurityPrincipal} (hadmin : p.isAdmin = false)
    (hvisibility : p.visibility = .user) {s : ResourceState} {op : ReadOp} :
    (∀ s', Agree p s s' → ¬ Leaks p s' op → call p s op = call p s' op) ↔ ¬ Leaks p s op := by
  constructor
  · intro h hleaks
    exact call_ne_purge hadmin hvisibility hleaks (h _ (agree_purge p s) (not_leaks_purge op))
  · intro hs s' hagree hs'
    exact call_eq hadmin hvisibility hagree hs hs'

/-! ### A certificate of somebody else -/

/-- A principal that may read certificates. -/
def viewer : SecurityPrincipal where
  userId := 1
  identity := "viewer"
  permissions := Dict.ofList [("certificates", .level .view)]

/-- A certificate that is owned by another principal. -/
def othersCertificate : CertificateRow where
  ownerPrincipalId := some 2
  niceName := "private"
  provider := "other"
  challengeType := none
  keyType := "ecdsa"
  materialRef := none
  expiresAt := none
  status := "active"
  extensions := Dict.empty
  domains := ["private.example.com"]

/-- The state with this certificate and its private key. -/
def othersState : ResourceState where
  certificates := Dict.ofList [(1, othersCertificate)]
  materials := Dict.ofList [(1, ⟨none, none, some [99], some [107]⟩)]

/-- The condition for the list of the certificates in this state. -/
theorem viewer_list_eq : call viewer othersState (.list .certificates) =
    call viewer (purge viewer othersState) (.list .certificates) :=
  (call_eq_iff_not_leaks rfl rfl).mpr id (purge viewer othersState)
    (agree_purge viewer othersState) (not_leaks_purge (.list .certificates))

/-- The download gives the private key of somebody else. -/
theorem viewer_download_differs : ¬ ∀ (p : SecurityPrincipal) (s s' : ResourceState) (op : ReadOp),
    p.isAdmin = false → p.visibility = .user → Permitted p op → Agree p s s' →
      call p s op = call p s' op := by
  intro h
  have hmay : authorizeRead viewer .certificates = .ok () := by decide
  have hleaks : Leaks viewer othersState (.downloadCertificate 1) :=
    ⟨(authorizeRead_eq_ok_iff rfl).mp hmay, othersCertificate, rfl,
      by decide⟩
  exact call_ne_purge rfl rfl hleaks (h viewer othersState (purge viewer othersState)
    (.downloadCertificate 1) rfl rfl hmay (agree_purge viewer othersState))

end Portwyrm.Tables

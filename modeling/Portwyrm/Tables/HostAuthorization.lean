import Portwyrm.Tables.VisibilityPolicies

/-!
# Which section guards a host

The table of hosts holds three kinds, each under a section of its own.  `enforce_authorization`
takes the section from the kind that the payload carries and looks at the row only when it carries
none; a list without a kind is read under the section of proxy hosts and shows every kind.
-/

namespace Portwyrm.Tables

open Base Portwyrm.Runtime Portwyrm.Identity

/-! ## The hook -/

/-- An operation of the table of hosts on one host. -/
inductive HostOperation
  | update
  | replace
  | delete
  | enable
  | disable
  | probe
deriving DecidableEq

/-- `_ACTION_BY_ALIAS`. -/
def HostOperation.action : HostOperation → PermissionAction
  | .delete => .delete
  | .update | .replace | .enable | .disable | .probe => .update

/-- `payload.get("kind")`, as a text. -/
def payloadKind (payload : Document) : Option String :=
  match payload.get? "kind" with
  | none | some .null => none
  | some v => some (strJson v)

/-- `db.get(model, int(id))`. -/
def hostWithId (rows : Dict ℕ HostRow) (id : ℤ) : Option HostRow :=
  if 0 ≤ id then rows.get? id.toNat else none

/-- The kind that `enforce_authorization` goes by. -/
def requestedKind (rows : Dict ℕ HostRow) (payload : Document) : Result (Option String) :=
  match payloadKind payload with
  | some kind => pure (some kind)
  | none =>
    match payload.get? "id" with
    | none | some .null => pure none
    | some v => do
      let id ← intJson v
      pure ((hostWithId rows id).map fun row => kindText row.kind)

/-- The section of a kind; a kind that is not known counts as proxy. -/
def kindSection (kind : Option String) : String :=
  if kind = some "redirect" then "redirection_hosts"
  else if kind = some "dead" then "dead_hosts"
  else "proxy_hosts"

/-- `enforce_authorization`, on the table of hosts. -/
def authorizeHosts (p : SecurityPrincipal) (action : PermissionAction) (rows : Dict ℕ HostRow)
    (payload : Document) : Result Unit :=
  if p.isAdmin then pure ()
  else do
    let kind ← requestedKind rows payload
    enforceAuthorization (some p) (kindSection kind) action

/-- `_visible_to`, of a host. -/
def visibleHost (p : SecurityPrincipal) (row : HostRow) : Bool :=
  p.isAdmin || p.visibility = .all || row.ownerPrincipalId.all (· = p.userId)

/-- `list`, behind the hooks: `selected` are the rows that the handler reads. -/
def listHosts (p : SecurityPrincipal) (rows : Dict ℕ HostRow) (selected : List (ℕ × HostRow))
    (payload : Document) : Result (List (ℕ × HostRow)) := do
  authorizeHosts p .read rows payload
  -- `project_aggregate`
  let shown := selected.filter fun e => (payloadKind payload).all (· = kindText e.2.kind)
  -- `enforce_visibility`
  pure (shown.filter fun e => visibleHost p e.2)

/-- The principal, as the policies of visibility read it. -/
def reader (p : SecurityPrincipal) : Reader where
  userId := .number p.userId
  isAdmin := p.isAdmin
  visibility := p.visibility

/-- The shown host passes the hook exactly when its row does. -/
theorem visibleTo_hostDocument (p : SecurityPrincipal) (id : ℕ) (row : HostRow) :
    visibleTo (reader p) (hostDocument id row) = .ok (visibleHost p row) := by
  have howner : (hostDocument id row).get? "owner_principal_id" =
      some (row.ownerPrincipalId.elim .null idJson) := get?_shown (by exact nodup_hostKeys) rfl
  rw [visibleTo]
  by_cases hall : (reader p).SeesAll
  · rw [if_pos hall]
    have hvisible : visibleHost p row = true := by
      rcases hall with h | h
      · simp [visibleHost, show p.isAdmin = true from h]
      · simp [visibleHost, show p.visibility = .all from h]
    rw [hvisible]
    rfl
  · rw [if_neg hall, hookOwner, ownerUnder, howner]
    obtain ⟨hadmin, hsome⟩ := not_or.mp hall
    have hadmin' : p.isAdmin = false := (Bool.not_eq_true _).mp hadmin
    have hsome' : p.visibility ≠ .all := hsome
    cases howner' : row.ownerPrincipalId with
    | none => simp [visibleHost, howner', reader, UserId.json, intJson, ownedBy, Pure.pure, Except.pure,
        Bind.bind, Except.bind]
    | some owner =>
      have hcast : ((owner : ℤ) = (p.userId : ℤ)) ↔ owner = p.userId := Int.ofNat_inj
      simp [visibleHost, howner', reader, UserId.json, intJson, ownedBy, idJson, Pure.pure,
        Except.pure, Bind.bind, Except.bind, hadmin', hsome', hcast]

/-! ## Sections -/

@[simp] lemma kindSection_kindText (kind : HostKind) :
    kindSection (some (kindText kind)) = hostSection kind := by
  cases kind <;> decide

section Hook

variable {p : SecurityPrincipal} {rows : Dict ℕ HostRow} {payload : Document} {id : ℕ}
  {row : HostRow}

lemma authorizeHosts_iff (hp : p.isAdmin = false) {action : PermissionAction} :
    authorizeHosts p action rows payload = .ok () ↔ ∃ kind, requestedKind rows payload = .ok kind ∧
      Allows p.permissions (kindSection kind) action := by
  simp only [authorizeHosts, hp, Bool.false_eq_true, if_false, bind_eq_ok_iff, enforceAuthorization,
    raiseIf_eq_ok_iff, true_and, Bool.not_eq_false, Allows]

/-- The id of a payload names a host. -/
def Names (payload : Document) (id : ℕ) : Prop :=
  ∃ v, payload.get? "id" = some v ∧ intJson v = .ok (id : ℤ)

lemma requestedKind_of_given {kind : String} (h : payloadKind payload = some kind) :
    requestedKind rows payload = .ok (some kind) := by
  rw [requestedKind, h]
  rfl

lemma requestedKind_of_stored (h : payloadKind payload = none) (hrow : rows.get? id = some row)
    (hid : Names payload id) : requestedKind rows payload = .ok (some (kindText row.kind)) := by
  obtain ⟨v, hv, hint⟩ := hid
  have hhost : hostWithId rows (id : ℤ) = some row := by
    rw [hostWithId, if_pos (Int.natCast_nonneg id), Int.toNat_natCast, hrow]
  rw [requestedKind, h, hv]
  dsimp only
  split
  · rename_i hnone
    exact nomatch hnone
  · rename_i hnull
    obtain rfl := Option.some.inj hnull
    exact nomatch hint
  · rename_i v' _ hsome
    obtain rfl := Option.some.inj hsome
    rw [hint, ok_bind, hhost]
    rfl

/-- The hook decides on one host as its stored kind asks for. -/
def DecidesOnStored (p : SecurityPrincipal) (rows : Dict ℕ HostRow) (row : HostRow)
    (op : HostOperation) (payload : Document) : Prop :=
  authorizeHosts p op.action rows payload = .ok () ↔
    Allows p.permissions (hostSection row.kind) op.action

/-- A list shows hosts of kinds that the principal may read only. -/
def ListsReadable (p : SecurityPrincipal) (rows : Dict ℕ HostRow) (selected : List (ℕ × HostRow))
    (payload : Document) : Prop :=
  ∀ items, listHosts p rows selected payload = .ok items →
    ∀ e ∈ items, Allows p.permissions (hostSection e.2.kind) .read

/-- The kind of a payload, if any, is one that the principal has the same grant for. -/
def SameGrant (p : SecurityPrincipal) (row : HostRow) (op : HostOperation) (payload : Document) :
    Prop :=
  ∀ kind, payloadKind payload = some kind → (Allows p.permissions (kindSection (some kind)) op.action ↔
    Allows p.permissions (hostSection row.kind) op.action)

/-- A list names a kind, or is not permitted, or the principal may read the kinds of all hosts that
it can see. -/
def ReadableRows (p : SecurityPrincipal) (rows : Dict ℕ HostRow) (selected : List (ℕ × HostRow))
    (payload : Document) : Prop :=
  payloadKind payload = none → ∀ kind, requestedKind rows payload = .ok kind →
    Allows p.permissions (kindSection kind) .read →
      ∀ e ∈ selected, visibleHost p e.2 = true → Allows p.permissions (hostSection e.2.kind) .read

lemma decidesOnStored_iff (hp : p.isAdmin = false) (hrow : rows.get? id = some row)
    (hid : Names payload id) (op : HostOperation) :
    DecidesOnStored p rows row op payload ↔ SameGrant p row op payload := by
  rw [DecidesOnStored, authorizeHosts_iff hp, SameGrant]
  cases hkind : payloadKind payload with
  | none => simp [requestedKind_of_stored hkind hrow hid]
  | some kind => simp [requestedKind_of_given hkind]

lemma listHosts_eq_ok {selected items : List (ℕ × HostRow)} :
    listHosts p rows selected payload = .ok items ↔
      authorizeHosts p .read rows payload = .ok () ∧ items = (selected.filter fun e =>
        (payloadKind payload).all (· = kindText e.2.kind)).filter fun e => visibleHost p e.2 := by
  simp only [listHosts, bind_eq_ok_iff, pure_eq_ok_iff]
  constructor
  · rintro ⟨⟨⟩, hauthorized, rfl⟩
    exact ⟨hauthorized, rfl⟩
  · rintro ⟨hauthorized, rfl⟩
    exact ⟨(), hauthorized, rfl⟩

lemma listsReadable_iff (hp : p.isAdmin = false) (selected : List (ℕ × HostRow)) :
    ListsReadable p rows selected payload ↔ ReadableRows p rows selected payload := by
  simp only [ListsReadable, listHosts_eq_ok, authorizeHosts_iff hp]
  constructor
  · intro h hkind kind hrequested hallows e he hvisible
    refine h _ ⟨⟨kind, hrequested, hallows⟩, rfl⟩ e ?_
    simp [hkind, he, hvisible]
  · rintro h items ⟨⟨kind, hrequested, hallows⟩, rfl⟩ e he
    obtain ⟨hshown, hvisible⟩ := List.mem_filter.mp he
    obtain ⟨hselected, hall⟩ := List.mem_filter.mp hshown
    cases hkind : payloadKind payload with
    | none => exact h hkind kind hrequested hallows e hselected hvisible
    | some given =>
      -- the hosts are of the kind that the permission was asked for
      rw [requestedKind_of_given hkind] at hrequested
      obtain rfl := Except.ok.inj hrequested
      have hsame : given = kindText e.2.kind := by simpa [hkind] using hall
      rwa [hsame, kindSection_kindText] at hallows

end Hook

/-- **Where hosts are guarded by their stored kind**: an operation on a host is decided as its stored
kind asks for exactly when the payload names no kind or one with the same grant, and a list shows
only readable kinds exactly when it names a kind or every host in sight is readable. -/
theorem hostAuthorization_iff {p : SecurityPrincipal} (hp : p.isAdmin = false)
    (rows : Dict ℕ HostRow) (payload : Document) :
    (∀ id row op, rows.get? id = some row → Names payload id →
      (DecidesOnStored p rows row op payload ↔ SameGrant p row op payload)) ∧
    ∀ selected, ListsReadable p rows selected payload ↔ ReadableRows p rows selected payload :=
  ⟨fun _ _ op hrow hid => decidesOnStored_iff hp hrow hid op, listsReadable_iff hp⟩

/-! ## A principal with proxy hosts only -/

/-- A principal that manages proxy hosts and nothing else. -/
def proxyManager : SecurityPrincipal where
  userId := 2
  identity := "manager@example.test"
  permissions := Dict.ofList [("proxy_hosts", .level .manage)]

/-- The payload names the stored dead host and another kind. -/
def relabelled : Document := Dict.ofList [("id", .number 1), ("kind", .text "proxy")]

/-- The table with a dead host. -/
def deadRows : Dict ℕ HostRow := Dict.empty.set 1 unownedHost

theorem hostAuthorization_iff_proxyManager :
    (∀ id row op, deadRows.get? id = some row → Names relabelled id →
      (DecidesOnStored proxyManager deadRows row op relabelled ↔
        SameGrant proxyManager row op relabelled)) ∧
    ∀ selected, ListsReadable proxyManager deadRows selected relabelled ↔
      ReadableRows proxyManager deadRows selected relabelled :=
  hostAuthorization_iff (by rfl) deadRows relabelled

/-- A principal without any permission for dead hosts may delete one that it calls a proxy host. -/
theorem relabelled_permitted : ¬ ∀ (p : SecurityPrincipal) (rows : Dict ℕ HostRow) (id : ℕ)
    (row : HostRow) (op : HostOperation) (payload : Document), p.isAdmin = false →
      rows.get? id = some row → Names payload id → DecidesOnStored p rows row op payload := by
  intro h
  have hdecides := h proxyManager deadRows 1 unownedHost .delete relabelled rfl rfl
    ⟨.number 1, rfl, rfl⟩
  exact absurd (hdecides.mp rfl) (by decide)

/-- A list without a kind shows it the dead host. -/
example : (listHosts proxyManager deadRows deadRows.entries Dict.empty).map (List.map Prod.fst) =
    .ok [1] := rfl

end Portwyrm.Tables

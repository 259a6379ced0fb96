import Portwyrm.Tables.Documents

/-!
# Two policies of visibility

The compatibility router filters the resources it returns with `_is_visible`; the lifecycle hook
`enforce_visibility` filters the results of every carrier with `_visible_to`.  Both read the owner
of an item under two names, one of which they share, and they part where there is no owner.
-/

namespace Portwyrm.Tables

open Base Portwyrm.Runtime Portwyrm.Identity

/-! ## Readers -/

/-- `SecurityPrincipal.user_id`. -/
inductive UserId
  | number (n : ℤ)
  | text (s : String)

/-- The id as a value. -/
def UserId.json : UserId → Json
  | .number n => .number n
  | .text s => .text s

/-- What the policies read of a principal. -/
structure Reader where
  userId : UserId
  isAdmin : Bool := false
  visibility : Visibility := .user

/-- Administrators and principals with an overview see everything. -/
def Reader.SeesAll (p : Reader) : Prop := p.isAdmin = true ∨ p.visibility = .all

instance (p : Reader) : Decidable p.SeesAll := inferInstanceAs (Decidable (_ ∨ _))

/-! ## The policies -/

/-- `item.get(name, item.get(other))`; what is missing counts as null. -/
def ownerUnder (name other : String) (item : Document) : Json :=
  (item.get? name).getD ((item.get? other).getD .null)

/-- The owner that the router reads. -/
def routerOwner : Document → Json := ownerUnder "owner_user_id" "owner_id"

/-- The owner that the hook reads. -/
def hookOwner : Document → Json := ownerUnder "owner_principal_id" "owner_user_id"

/-- `owner is not None and str(owner) == str(user_id)`. -/
def UserId.Spelled (id : UserId) : Json → Prop
  | .null => False
  | owner => strJson owner = strJson id.json

instance (id : UserId) (owner : Json) : Decidable (id.Spelled owner) := by
  unfold UserId.Spelled
  split
  · exact instDecidableFalse
  · exact instDecidableEqString _ _

/-- `_is_visible`. -/
def isVisibleItem (p : Reader) (item : Document) : Bool :=
  decide p.SeesAll || decide (p.userId.Spelled (routerOwner item))

/-- `int(value)`. -/
def intJson : Json → Result ℤ
  | .number n => pure n
  | .bool b => pure (if b then 1 else 0)
  | .text s =>
    match intText s with
    | some n => pure n
    | none => throw (.valueError s!"invalid literal for int() with base 10: {Text.repr s}")
  | _ => throw (.runtimeError "int() argument must be a string, a bytes-like object or a real number")

/-- `owner is None or int(owner) == principal_id`. -/
def ownedBy (principalId : ℤ) : Json → Result Bool
  | .null => pure true
  | owner => do pure (decide ((← intJson owner) = principalId))

/-- `_visible_to`, for a principal with an id. -/
def visibleTo (p : Reader) (item : Document) : Result Bool :=
  if p.SeesAll then pure true
  else do
    let principalId ← intJson p.userId.json
    ownedBy principalId (hookOwner item)

/-- Both policies accept the item, or neither does. -/
def PoliciesAgree (p : Reader) (item : Document) : Prop :=
  isVisibleItem p item = true ↔ visibleTo p item = .ok true

/-! ## Where they agree -/

/-- The owner under the names of the hook is the principal exactly when the owner under the names
of the router is spelled as its id; an item without an owner for the hook has to be spelled so. -/
def NamedAlike (id : UserId) (hook router : Json) : Prop :=
  match intJson id.json, hook with
  | .error _, _ => ¬ id.Spelled router
  | .ok _, .null => id.Spelled router
  | .ok n, owner => intJson owner = .ok n ↔ id.Spelled router

lemma ownedBy_eq_true {n : ℤ} {owner : Json} (hgiven : owner ≠ .null) :
    ownedBy n owner = .ok true ↔ intJson owner = .ok n := by
  have howned : ownedBy n owner = (do pure (decide ((← intJson owner) = n))) := by
    cases owner with
    | null => exact absurd rfl hgiven
    | _ => rfl
  rw [howned]
  simp only [bind_eq_ok_iff, pure_eq_ok_iff, decide_eq_true_eq, exists_eq_right]

lemma agree_iff_namedAlike (p : Reader) (item : Document) : PoliciesAgree p item ↔
    p.SeesAll ∨ NamedAlike p.userId (hookOwner item) (routerOwner item) := by
  by_cases hall : p.SeesAll
  · simp [PoliciesAgree, isVisibleItem, visibleTo, hall, pure_eq_ok_iff]
  have hrouter : isVisibleItem p item = true ↔ p.userId.Spelled (routerOwner item) := by
    simp [isVisibleItem, hall]
  rw [PoliciesAgree, hrouter, visibleTo, if_neg hall]
  simp only [hall, false_or, bind_eq_ok_iff]
  unfold NamedAlike
  generalize intJson p.userId.json = id
  split
  · -- the id of the principal is no number: the hook fails
    simp
  · rename_i n hmissing
    simp only [Except.ok.injEq, exists_eq_left', hmissing, ownedBy, pure_eq_ok_iff, iff_true]
  · rename_i n owner hgiven
    simp only [Except.ok.injEq, exists_eq_left']
    rw [ownedBy_eq_true hgiven]
    exact Iff.comm

/-- **The two policies agree** on an item exactly when the principal sees everything or the item
names its owner alike for both: an item without an owner is for everybody at the hook and for
nobody at the router. -/
theorem policiesAgree_iff (p : Reader) (item : Document) : PoliciesAgree p item ↔
    p.SeesAll ∨ NamedAlike p.userId (hookOwner item) (routerOwner item) :=
  agree_iff_namedAlike p item

/-! ## Rows -/

/-- A number is spelled as an id exactly when it is the id. -/
lemma spelled_idJson {n owner : ℕ} :
    (UserId.number n).Spelled (idJson owner) ↔ intJson (idJson owner) = .ok (n : ℤ) := by
  constructor
  · intro h
    obtain rfl : owner = n := Numeral.toString_injective h
    rfl
  · intro h
    obtain rfl : owner = n := by
      have hint : (owner : ℤ) = n := pure_eq_ok_iff.mp h
      exact Int.ofNat_inj.mp hint
    rfl

/-- Where both policies read the owner of a row, they agree exactly when there is one. -/
lemma agree_iff_owned {p : Reader} {n : ℕ} (hp : p.userId = .number n) {item : Document}
    {owner : Option ℕ} (hhook : hookOwner item = owner.elim .null idJson)
    (hrouter : routerOwner item = owner.elim .null idJson) :
    PoliciesAgree p item ↔ p.SeesAll ∨ owner ≠ none := by
  rw [agree_iff_namedAlike, hhook, hrouter, hp]
  cases owner with
  | none => simp [NamedAlike, intJson, UserId.json, UserId.Spelled, Pure.pure, Except.pure]
  | some owner =>
    have hspelled : NamedAlike (.number n) (idJson owner) (idJson owner) := spelled_idJson.symm
    exact ⟨fun _ => .inr (by simp), fun _ => .inr hspelled⟩

/-- The policies agree on a stored host exactly when the principal sees everything or the host has
an owner. -/
theorem policiesAgree_hostDocument_iff {p : Reader} {n : ℕ} (hp : p.userId = .number n) (id : ℕ)
    (row : HostRow) : PoliciesAgree p (hostDocument id row) ↔
      p.SeesAll ∨ row.ownerPrincipalId ≠ none := by
  have hprincipal : (hostDocument id row).get? "owner_principal_id" =
      some (row.ownerPrincipalId.elim .null idJson) := get?_shown (by exact nodup_hostKeys) rfl
  have huser : (hostDocument id row).get? "owner_user_id" =
      some (row.ownerPrincipalId.elim .null idJson) := get?_shown (by exact nodup_hostKeys) rfl
  exact agree_iff_owned hp (by simp [hookOwner, ownerUnder, hprincipal])
    (by simp [routerOwner, ownerUnder, huser])

/-- So they do on a stored certificate. -/
theorem policiesAgree_certificateDocument_iff {p : Reader} {n : ℕ} (hp : p.userId = .number n)
    (id : ℕ) (row : CertificateRow) : PoliciesAgree p (certificateDocument id row) ↔
      p.SeesAll ∨ row.ownerPrincipalId ≠ none := by
  have hprincipal : (certificateDocument id row).get? "owner_principal_id" =
      some (row.ownerPrincipalId.elim .null idJson) := get?_shown (by simp) rfl
  have huser : (certificateDocument id row).get? "owner_user_id" =
      some (row.ownerPrincipalId.elim .null idJson) := get?_shown (by simp) rfl
  exact agree_iff_owned hp (by simp [hookOwner, ownerUnder, hprincipal])
    (by simp [routerOwner, ownerUnder, huser])

/-- A dead host that was stored without an owner. -/
def unownedHost : HostRow where
  kind := .dead
  ownerPrincipalId := none
  enabled := true
  certificateId := none
  forceSsl := false
  hstsEnabled := false
  hstsSubdomains := false
  http2Enabled := false
  trustForwardedProto := false
  websocketEnabled := false
  cacheEnabled := false
  blockExploits := false
  redirectTarget := none
  redirectScheme := none
  redirectCode := none
  preservePath := false
  advancedConfig := ""
  extensions := Dict.empty
  sources := ["app.example"]

/-- The hook shows the host to a principal for whom the router hides it. -/
theorem unownedHost_split :
    ¬ PoliciesAgree { userId := .number (2 : ℕ) } (hostDocument 1 unownedHost) := by
  intro h
  rcases (policiesAgree_hostDocument_iff (by rfl) 1 unownedHost).mp h with h | h
  · exact absurd h (by decide)
  · exact h rfl

end Portwyrm.Tables

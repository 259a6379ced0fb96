import Portwyrm.Base.Dict

/-!
# Permission evaluation

`portwyrm.identity.permissions`: the levels and action maps that grant access to a section,
and the decision procedure `permission_allows`.
-/

namespace Portwyrm.Identity

open Base

/-- `PermissionLevel`. -/
inductive PermissionLevel
  | hidden
  | view
  | manage
deriving DecidableEq, Repr

/-- The text of a level. -/
def PermissionLevel.name : PermissionLevel → String
  | hidden => "hidden"
  | view => "view"
  | manage => "manage"

/-- `PermissionAction`. -/
inductive PermissionAction
  | create
  | read
  | update
  | delete
deriving DecidableEq, Repr

/-- The text of an action. -/
def PermissionAction.name : PermissionAction → String
  | create => "create"
  | read => "read"
  | update => "update"
  | delete => "delete"

/-- `PERMISSION_ACTIONS`. -/
def permissionActions : List PermissionAction := [.create, .read, .update, .delete]

lemma mem_permissionActions (a : PermissionAction) : a ∈ permissionActions := by
  cases a <;> simp [permissionActions]

lemma PermissionAction.name_injective : Function.Injective PermissionAction.name := by
  intro a b h
  cases a <;> cases b <;> first | rfl | exact absurd h (by decide)

/-- The action with a given text. -/
def PermissionAction.ofName? (s : String) : Option PermissionAction :=
  permissionActions.find? fun a => a.name = s

lemma PermissionAction.ofName?_eq_some_iff {s : String} {a : PermissionAction} :
    ofName? s = some a ↔ a.name = s := by
  constructor
  · intro h
    simpa using List.find?_some h
  · rintro rfl
    cases a <;> decide

/-- `PermissionGrant`: a level, or a map from actions to booleans. -/
inductive PermissionGrant
  | level (l : PermissionLevel)
  | actions (m : Dict String Bool)
deriving DecidableEq

/-- The permissions of a principal, by section. -/
abbrev Permissions := Dict String PermissionGrant

/-- `permission_allows`. -/
def permissionAllows (grant : Option PermissionGrant) (action : PermissionAction) : Bool :=
  match grant with
  | some (.level .manage) => true
  | some (.level .view) => action = .read
  | some (.level .hidden) => false
  | none => false
  | some (.actions m) => m.get? action.name = some true

/-- The decision of `permission_allows` on a section of a permission map. -/
def Allows (p : Permissions) (section_ : String) (a : PermissionAction) : Prop :=
  permissionAllows (p.get? section_) a = true

instance (p : Permissions) (s : String) (a : PermissionAction) : Decidable (Allows p s a) :=
  inferInstanceAs (Decidable (_ = true))

lemma allows_mapValues_iff (d : Dict String (Dict String Bool)) (s : String)
    (a : PermissionAction) :
    Allows (d.mapValues .actions) s a ↔ d.getIn s a.name = some true := by
  rw [Allows, Dict.get?_mapValues, Dict.getIn]
  cases d.get? s <;> simp [permissionAllows]

end Portwyrm.Identity

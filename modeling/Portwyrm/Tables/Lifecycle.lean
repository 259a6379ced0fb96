import Portwyrm.Base.Json
import Portwyrm.Identity.Tables

/-!
# Policy of the resource tables

The hooks of `portwyrm.tables.lifecycle` that run before a write: permissions of the caller, the
owner of a new row, and who may change a row.  A call without a principal passes them.
-/

namespace Portwyrm.Tables

open Base Portwyrm.Identity

/-- Who calls an operation. -/
abbrev Actor := Option SecurityPrincipal

/-- `_principal_value(ctx, "is_admin")`. -/
def isAdmin (actor : Actor) : Bool := actor.any SecurityPrincipal.isAdmin

/-- `enforce_authorization`, for a table with a given section. -/
def enforceAuthorization (actor : Actor) (section_ : String) (action : PermissionAction) :
    Result Unit :=
  match actor with
  | none => pure ()
  | some p =>
    raiseIf (p.isAdmin = false ∧ permissionAllows (p.permissions.get? section_) action = false)
      (.authorizationError "permission denied")

/-! ## Ownership metadata -/

/-- `Ownership`. -/
structure Ownership where
  managedBy : String
  owner : String
  resourceId : String

/-- A field that `Ownership.__post_init__` accepts. -/
def ownershipField (name : String) (value : Json) : Result String :=
  match value with
  | .text s =>
    if Text.strip s = "" then
      throw (.domainValidationError s!"ownership {name} must be a non-empty string")
    else pure s
  | _ => throw (.domainValidationError s!"ownership {name} must be a non-empty string")

/-- `Ownership.from_meta`. -/
def Ownership.fromMeta (members : List (String × Json)) : Result (Option Ownership) :=
  match Json.get? members "managed_by", Json.get? members "owner",
    Json.get? members "resource_id" with
  | none, none, none => pure none
  | some managedBy, some owner, some resourceId => do
    let managedBy ← ownershipField "managed_by" managedBy
    let owner ← ownershipField "owner" owner
    let resourceId ← ownershipField "resource_id" resourceId
    pure (some ⟨managedBy, owner, resourceId⟩)
  | _, _, _ =>
    throw (.domainValidationError "ownership metadata must contain all three canonical keys")

/-- `_ownership_from_row`, for a row with these extensions. -/
def ownershipFromRow (extensions : Dict String Json) : Result (Option Ownership) :=
  match extensions.get? "meta" with
  | some (.object members) => Ownership.fromMeta members
  | _ => pure none

/-! ## Owners -/

/-- `enforce_ownership` of a new row: a row without an owner gets the caller. -/
def createOwner (actor : Actor) (owner : Option ℕ) : Option ℕ :=
  owner.or (actor.map SecurityPrincipal.userId)

/-- `enforce_ownership` of a stored row. -/
def enforceOwnership (actor : Actor) (owner : Option ℕ) (extensions : Dict String Json) :
    Result Unit :=
  if isAdmin actor then pure ()
  else do
    raiseIf (∃ id ∈ owner, ∃ p ∈ actor, id ≠ p.userId)
      (.ownershipError "foreign-owned resources cannot be mutated")
    let ownership ← ownershipFromRow extensions
    raiseIf (∃ o ∈ ownership, ∃ p ∈ actor, ∃ name ∈ p.owner, o.owner ≠ name)
      (.ownershipError "foreign npmctl resources require explicit adoption")

end Portwyrm.Tables

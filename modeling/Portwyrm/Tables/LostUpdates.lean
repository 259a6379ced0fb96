import Portwyrm.Tables.AccessFrames
import Portwyrm.Tables.HostFrames
import Portwyrm.Tables.RowFrames
import Portwyrm.Tables.UserFrames

/-!
# Lost updates

`update_resource` reads a resource in one step and writes the whole document, with the members of its
payload laid over what it has read, in another.  Calls on one resource whose payloads name different
members keep the members of each other as long as each write has read the members of the calls that
have finished before it; two users of one API can lose what they have written.
-/

namespace Portwyrm.Tables

open Base Portwyrm.Runtime Portwyrm.Identity

/-- No call on a host, a stream, a certificate, an access list or a user loses a member of another
one. -/
def NoLostUpdate : Prop :=
  (∀ certificates accessLists kind id,
    (hostStore certificates accessLists kind id).KeepsUpdates) ∧
  (∀ certificates id, (streamStore certificates id).KeepsUpdates) ∧
  (∀ id, (certificateStore id).KeepsUpdates) ∧
  (∀ principals id, (accessStore principals id).KeepsUpdates) ∧
  ∀ id, (userStore id).KeepsUpdates

/-- In every run whose writes are over fresh members, no call loses a member of another one. -/
theorem noLostUpdate_of_fresh (certificates accessLists principals : List ℕ) (kind : HostKind)
    (id : ℕ) :
    (hostStore certificates accessLists kind id).KeepsFreshUpdates ∧
    (streamStore certificates id).KeepsFreshUpdates ∧
    (certificateStore id).KeepsFreshUpdates ∧
    (accessStore principals id).KeepsFreshUpdates ∧
    (userStore id).KeepsFreshUpdates :=
  ⟨hostStore_lawful.keepsFreshUpdates, streamStore_lawful.keepsFreshUpdates,
    certificateStore_lawful.keepsFreshUpdates, accessStore_lawful.keepsFreshUpdates,
    userStore_lawful.keepsFreshUpdates⟩

/-! ## A lost update -/

section Lost

/-- The member that a call names: one call gives the user a nickname, the other one a name. -/
def renameKey : Bool → String
  | false => "nickname"
  | true => "name"

/-- The payload of a call. -/
def renamePayload (call : Bool) : Document := Dict.ofList [(renameKey call, .text "ops")]

/-- The calls. -/
def renameCalls (call : Bool) : Request Document Actor := .update none (renamePayload call)

/-- The operator as both calls read it. -/
def readOperator : Document := (getUser storedOperator 1).getD Dict.empty

/-- What the write of a call leaves of some tables. -/
def renamedBy (call : Bool) (t : UserTables) : UserTables :=
  (writeUser 1 (readOperator.update (renamePayload call)) t).toOption.getD UserTables.empty

lemma names_renamePayload {call : Bool} {k : String}
    (h : documentMembers.Names (renamePayload call) k) : k = renameKey call := by
  by_contra hne
  refine h ((Dict.get?_ofList _ k).trans ?_)
  rw [List.reverse_singleton, Dict.lookup_cons_eq_ite, if_neg hne]
  rfl

/-- Both calls read the operator, and then both write: the nickname is lost. -/
theorem nickname_lost : ¬ NoLostUpdate := by
  intro h
  have hread : (userStore 1).read storedOperator = some readOperator := by
    obtain ⟨d, hd⟩ := Option.isSome_iff_exists.mp
      (show (getUser storedOperator 1).isSome = true by decide)
    change getUser storedOperator 1 = some readOperator
    rw [readOperator, hd, Option.getD_some]
  have hnickname : (userStore 1).write none ((userStore 1).members.overlay (renamePayload false)
      readOperator) storedOperator = .ok (renamedBy false storedOperator) :=
    eq_getD_of_isSome (by decide)
  have hname : (userStore 1).write none ((userStore 1).members.overlay (renamePayload true)
      readOperator) (renamedBy false storedOperator) =
        .ok (renamedBy true (renamedBy false storedOperator)) :=
    eq_getD_of_isSome (by decide)
  have hvalid : (userStore 1).Valid storedOperator :=
    ⟨reachable_storedOperator, Option.isSome_iff_exists.mp (by decide)⟩
  have hcalls : ∀ call, renameCalls call = .update none (renamePayload call) := fun _ => rfl
  have hdisjoint : ∀ i j, i ≠ j → documentMembers.Disjoint (renamePayload i) (renamePayload j) := by
    intro i j hne k hi hj
    have hkeys := (names_renamePayload hi).symm.trans (names_renamePayload hj)
    revert hne hkeys
    cases i <;> cases j <;> decide
  obtain ⟨x, hrun, hstore, hphase⟩ := MergingStore.exists_overlap (userStore 1)
    (show true ≠ false by decide) (hcalls false) (hcalls true) hread hnickname hname
  have hshows := h.2.2.2.2 1 Bool renameCalls hdisjoint storedOperator hvalid x hrun false _ hphase
    "nickname" (fun h => nomatch h)
  rw [hstore] at hshows
  exact absurd (congrArg (Option.map strJson) hshows) (by decide)

end Lost

end Portwyrm.Tables

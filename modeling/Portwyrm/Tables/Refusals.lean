import Portwyrm.Tables.Handlers

/-!
# Refusals

What the operations on hosts and certificates raise: checks, policies and constraints refuse, and
no refusal is an answer that a resource was not found.
-/

namespace Portwyrm.Tables

open Base Portwyrm.Runtime Portwyrm.Quic Portwyrm.Identity

/-- The exceptions of checks, policies and constraints. -/
def isRefusal : Exc → Bool
  | .valueError _ | .domainValidationError _ | .collisionError _ | .authorizationError _
  | .ownershipError _ | .integrityError => true
  | _ => false

/-- A call raises refusals only. -/
abbrev Refuses {α : Type} (x : Result α) : Prop := Raises (fun e => isRefusal e = true) x

/-! ## Checks -/

lemma refuses_port (value : ℤ) (name : String) : Refuses (port value name) :=
  .bind (.raiseIf rfl) fun _ _ => .pure _

lemma refuses_parseTargetKind (s : String) : Refuses (parseTargetKind s) := by
  unfold parseTargetKind
  split
  · exact .pure _
  · exact .throw rfl

lemma refuses_target (value : String) (kind : TargetKind) (name : String) :
    Refuses (target value kind name) := by
  unfold target
  dsimp only
  split
  · exact .throw rfl
  · cases kind with
    | ip =>
      dsimp only
      split
      · exact .pure _
      · exact .throw rfl
    | dns =>
      dsimp only
      split
      · exact .pure _
      · exact .throw rfl
    | docker =>
      dsimp only
      split
      · exact .pure _
      · exact .throw rfl

lemma refuses_canonicalDomains (values : List String) : Refuses (canonicalDomains values) := by
  have hcollect : ∀ domains : List String, Refuses (collectDomains domains values) := by
    induction values with
    | nil => exact fun domains => .pure _
    | cons raw rest ih =>
      intro domains
      refine .bind ?_ fun domain _ => .bind (.raiseIf rfl) fun _ _ => ih _
      unfold canonicalDomain
      dsimp only
      split
      · exact .pure _
      · exact .throw rfl
  exact .bind (hcollect []) fun _ _ => .bind (.raiseIf rfl) fun _ _ => .pure _

lemma refuses_parseForwardScheme (s : String) : Refuses (parseForwardScheme s) := by
  unfold parseForwardScheme
  split
  · exact .pure _
  · exact .throw rfl

lemma refuses_parseRedirectScheme (s : String) : Refuses (parseRedirectScheme s) := by
  unfold parseRedirectScheme
  split
  · exact .pure _
  · exact .throw rfl

lemma refuses_certificateKey (certificates : List ℕ) (certificateId : Option ℤ) :
    Refuses (certificateKey certificates certificateId) := by
  unfold certificateKey
  split
  · exact .pure _
  · exact .bind (.raiseIf rfl) fun _ _ => .pure _

lemma refuses_storedLocation (location : LocationPayload) : Refuses (storedLocation location) := by
  unfold storedLocation validateLocation
  refine .bind (refuses_parseForwardScheme _) fun _ _ => ?_
  refine .bind (refuses_parseTargetKind _) fun _ _ => ?_
  refine .bind (.raiseIf rfl) fun _ _ => .bind (.raiseIf rfl) fun _ _ => ?_
  refine .bind (refuses_target _ _ _) fun _ _ => .bind (refuses_port _ _) fun _ _ => ?_
  exact .bind (.raiseIf rfl) fun _ _ => .pure _

lemma refuses_validateKind (kind : HostKind) (payload : HostPayload) :
    Refuses (validateKind kind payload) := by
  cases kind with
  | proxy =>
    refine .bind (refuses_parseForwardScheme _) fun _ _ => ?_
    refine .bind (refuses_parseTargetKind _) fun _ _ => ?_
    exact .bind (refuses_target _ _ _) fun _ _ => .bind (refuses_port _ _) fun _ _ => .pure _
  | redirect =>
    refine .bind (refuses_parseRedirectScheme _) fun _ _ => ?_
    exact .bind (.raiseIf rfl) fun _ _ => .bind (.raiseIf rfl) fun _ _ => .pure _
  | dead => exact .pure _

lemma refuses_validatePayload (kind : HostKind) (payload : HostPayload) :
    Refuses (validatePayload kind payload) := by
  refine .bind (refuses_canonicalDomains _) fun _ _ => ?_
  refine .bind (refuses_validateKind _ _) fun _ _ => ?_
  refine .bind (.raiseIf rfl) fun _ _ => .bind (.raiseIf rfl) fun _ _ => ?_
  refine .bind (.raiseIf rfl) fun _ _ => .bind (.raiseIf rfl) fun _ _ => ?_
  exact .bind (.raiseIf rfl) fun _ _ => .bind (.raiseIf rfl) fun _ _ => .pure _

lemma refuses_assertSourceCollisions (rows : Dict ℕ HostRow) (domains : List String)
    (excludeId : Option ℕ) : Refuses (assertSourceCollisions rows domains excludeId) := by
  refine .bind (refuses_canonicalDomains _) fun normalized _ => ?_
  split
  · exact .throw rfl
  · exact .pure _

lemma refuses_hostColumns (certificates : List ℕ) (kind : HostKind) (payload : HostPayload) :
    Refuses (hostColumns certificates kind payload) := by
  refine .bind (refuses_certificateKey _ _) fun _ _ => ?_
  refine .bind ?_ fun _ _ => .bind ?_ fun _ _ => .pure _
  · unfold redirectSchemeColumn
    split
    · exact .pure _
    · split
      · exact .pure _
      · exact .throw rfl
  · unfold redirectCodeColumn
    split
    · exact .pure _
    · split
      · exact .pure _
      · exact .throw rfl

lemma refuses_replaceHostChildren (accessLists : List ℕ) (taken : List String)
    (payload : HostPayload) (row : HostRow) :
    Refuses (replaceHostChildren accessLists taken payload row) := by
  refine .bind ?_ fun _ _ => .bind (.raiseIf rfl) fun _ _ => .bind ?_ fun _ _ => ?_
  · unfold storedSources
    dsimp only
    split
    · exact .pure _
    · exact refuses_canonicalDomains _
  · unfold storedUpstream
    dsimp only
    split
    · exact .pure _
    · refine .bind (refuses_parseForwardScheme _) fun _ _ => ?_
      refine .bind (refuses_parseTargetKind _) fun _ _ => ?_
      exact .bind (refuses_port _ _) fun _ _ => .pure _
  · refine .bind (.mapM fun location _ => refuses_storedLocation location) fun _ _ => ?_
    refine .bind (.raiseIf rfl) fun _ _ => .bind (.raiseIf rfl) fun _ _ => ?_
    exact .bind (.raiseIf rfl) fun _ _ => .pure _

/-! ## Policies -/

lemma refuses_enforceAuthorization (actor : Actor) (section_ : String)
    (action : PermissionAction) : Refuses (enforceAuthorization actor section_ action) := by
  unfold enforceAuthorization
  split
  · exact .pure _
  · exact .raiseIf rfl

/-- Reading ownership metadata raises a validation error only. -/
lemma raises_ownershipFromRow (extensions : Dict String Json) :
    Raises (fun e => ∃ s, e = .domainValidationError s) (ownershipFromRow extensions) := by
  have hfield : ∀ name value,
      Raises (fun e => ∃ s, e = .domainValidationError s) (ownershipField name value) := by
    intro name value
    unfold ownershipField
    split
    · split
      · exact .throw ⟨_, rfl⟩
      · exact .pure _
    · exact .throw ⟨_, rfl⟩
  unfold ownershipFromRow
  split
  · unfold Ownership.fromMeta
    split
    · exact .pure _
    · refine .bind (hfield _ _) fun _ _ => .bind (hfield _ _) fun _ _ => ?_
      exact .bind (hfield _ _) fun _ _ => .pure _
    · exact .throw ⟨_, rfl⟩
  · exact .pure _

lemma refuses_enforceOwnership (actor : Actor) (owner : Option ℕ)
    (extensions : Dict String Json) : Refuses (enforceOwnership actor owner extensions) := by
  unfold enforceOwnership
  split
  · exact .pure _
  · refine .bind (.raiseIf rfl) fun _ _ => .bind ?_ fun _ _ => .raiseIf rfl
    refine (raises_ownershipFromRow extensions).imp ?_
    rintro e ⟨s, rfl⟩
    rfl

/-! ## Operations -/

lemma refuses_updateHost (certificates accessLists : List ℕ) (actor : Actor) (kind : HostKind)
    (id : ℕ) (payload : HostPayload) (rows : Dict ℕ HostRow) :
    Refuses (updateHost certificates accessLists actor kind id payload rows) := by
  unfold updateHost
  split
  · exact .pure _
  · refine .bind (refuses_enforceAuthorization _ _ _) fun _ _ => ?_
    refine .bind (refuses_enforceOwnership _ _ _) fun _ _ => .bind ?_ fun _ _ => .pure _
    refine .bind (refuses_validatePayload _ _) fun _ _ => ?_
    refine .bind (refuses_assertSourceCollisions _ _ _) fun _ _ => ?_
    exact .bind (refuses_hostColumns _ _ _) fun _ _ => refuses_replaceHostChildren _ _ _ _

lemma refuses_updateCertificate (actor : Actor) (id : ℕ) (payload : CertificatePayload)
    (rows : Dict ℕ CertificateRow) : Refuses (updateCertificate actor id payload rows) := by
  unfold updateCertificate
  split
  · exact .pure _
  · refine .bind (refuses_enforceAuthorization _ _ _) fun _ _ => ?_
    refine .bind (refuses_enforceOwnership _ _ _) fun _ _ => .bind ?_ fun _ _ => .pure _
    exact .bind (.raiseIf rfl) fun _ _ => .pure _

lemma refuses_deleteHost (actor : Actor) (kind : HostKind) (id : ℕ) (rows : Dict ℕ HostRow) :
    Refuses (deleteHost actor kind id rows) := by
  unfold deleteHost
  split
  · exact .pure _
  · refine .bind (refuses_enforceAuthorization _ _ _) fun _ _ => ?_
    exact .bind (refuses_enforceOwnership _ _ _) fun _ _ => .pure _

lemma refuses_deleteCertificate (actor : Actor) (id : ℕ) (stored : CertificateRow)
    (t : CollectionTables) : Refuses (deleteCertificate actor id stored t) := by
  refine .bind (refuses_enforceAuthorization _ _ _) fun _ _ => ?_
  refine .bind (refuses_enforceOwnership _ _ _) fun _ _ => ?_
  exact .bind (.raiseIf rfl) fun _ _ => .pure _

end Portwyrm.Tables

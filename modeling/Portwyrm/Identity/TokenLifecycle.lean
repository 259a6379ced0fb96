import Mathlib.Logic.Relation
import Portwyrm.Identity.TokenAuthority

/-!
# The lifecycle of personal access tokens

Runs of the operations of `PATStore`: tokens are issued, verified, refreshed, rotated and revoked
in any order, while principals are disabled, deleted and restored.  A token that was revoked or
rotated away is spent, whatever happens later, and a token that verifies was issued, is not spent,
and has neither expired nor lost its principal.

An operation without a principal is one of an administrator: neither the hooks nor the table
refuse it.
-/

namespace Portwyrm.Identity

open Base

/-! ## Operations -/

section PATStore

variable (now : ℤ)

/-- `PATStore.revoke`: when the token was revoked, or `none` if there is no such token. -/
def revokePat (actor : SecurityPrincipal) (targetId : ℕ) (tokenId : String) (t : IdentityTables) :
    Result (Option ℤ × IdentityTables) := do
  enforceTokenAuthorization actor targetId .delete
  match t.pats.get? tokenId with
  | none => pure (none, t)
  | some row => do
    authorizeOwner actor row.principalId .delete
    let revokedAt := row.revokedAt.getD now
    let revoked := { row with revokedAt := some revokedAt }
    pure (some revokedAt, { t with pats := t.pats.set tokenId revoked })

/-- `PATStore.refresh`. -/
def refreshPat (actor : SecurityPrincipal) (targetId : ℕ) (tokenId : String) (expiresAt : ℤ)
    (t : IdentityTables) : Result (ℤ × IdentityTables) := do
  enforceTokenAuthorization actor targetId .update
  match t.pats.get? tokenId with
  | none => throw (.valueError "token not found or revoked")
  | some row => do
    raiseIf (row.revokedAt ≠ none) (.valueError "token not found or revoked")
    authorizeOwner actor row.principalId .update
    raiseIf (expiresAt ≤ now) (.valueError "PAT expiry must be in the future")
    let refreshed := { row with expiresAt := some expiresAt }
    pure (expiresAt, { t with pats := t.pats.set tokenId refreshed })

end PATStore

/-- An operation on tokens, or a change to the principals. -/
inductive PATOp
  | issue (e : Entropy) (actor : SecurityPrincipal) (request : IssueRequest)
  | verify (token : String)
  | refresh (actor : SecurityPrincipal) (targetId : ℕ) (tokenId : String) (expiresAt : ℤ)
  | rotate (e : Entropy) (actor : SecurityPrincipal) (targetId : ℕ) (tokenId : String)
  | revoke (actor : SecurityPrincipal) (targetId : ℕ) (tokenId : String)
  /-- Principals are added, disabled, deleted or restored. -/
  | principals (principals : Dict ℕ PrincipalRow)

/-- What an operation returns. -/
inductive PATAnswer
  | issued (result : IssueResult)
  | verified (verification : Verification)
  | refreshed (expiresAt : ℤ)
  | rotated (result : IssueResult)
  | revoked (revokedAt : Option ℤ)
  | changed

/-- An operation and its time. -/
structure PATCall where
  now : ℤ
  op : PATOp

section Run

variable (H : SecretHashing)

/-- The operation of a call, in its transaction. -/
def PATCall.run (c : PATCall) (t : IdentityTables) : Result (PATAnswer × IdentityTables) :=
  match c.op with
  | .issue e actor request => do
    let (result, t) ← issue H c.now e actor request t
    pure (.issued result, t)
  | .verify token => do
    let (verification, t) ← verifyPat H c.now token t
    pure (.verified verification, t)
  | .refresh actor targetId tokenId expiresAt => do
    let (expiresAt, t) ← refreshPat c.now actor targetId tokenId expiresAt t
    pure (.refreshed expiresAt, t)
  | .rotate e actor targetId tokenId => do
    let (result, t) ← rotate H c.now e actor targetId tokenId t
    pure (.rotated result, t)
  | .revoke actor targetId tokenId => do
    let (revokedAt, t) ← revokePat c.now actor targetId tokenId t
    pure (.revoked revokedAt, t)
  | .principals principals => pure (.changed, { t with principals := principals })

/-- The calls so far and their outcomes, latest first. -/
abbrev PATHistory := List (PATCall × Result PATAnswer)

/-- Sequences of calls on a table that starts without tokens. -/
inductive PATRun : PATHistory → IdentityTables → Prop
  | start (t : IdentityTables) (h : t.pats = Dict.empty) : PATRun [] t
  | call {history : PATHistory} {t : IdentityTables} (h : PATRun history t) (c : PATCall) :
      PATRun ((c, (Action.transaction (c.run H) t).1) :: history)
        (Action.transaction (c.run H) t).2

end Run

/-! ## What a history says of a token -/

/-- The token that a text names. -/
def NamesToken (token tokenId : String) : Prop :=
  ∃ secret, Text.split '_' 2 token = ["pwyrm", tokenId, secret]

/-- The call revoked the token, or rotated it away. -/
def Withdraws (entry : PATCall × Result PATAnswer) (tokenId : String) : Prop :=
  match entry.1.op, entry.2 with
  | .revoke _ _ id, .ok (.revoked (some _)) => id = tokenId
  | .rotate _ _ _ id, .ok (.rotated _) => id = tokenId
  | _, _ => False

/-- The call handed out a token. -/
def Hands (entry : PATCall × Result PATAnswer) (result : IssueResult) : Prop :=
  entry.2 = .ok (.issued result) ∨ entry.2 = .ok (.rotated result)

/-- The call replaced one token by another. -/
def Rotates (entry : PATCall × Result PATAnswer) (tokenId replacement : String) : Prop :=
  match entry.1.op, entry.2 with
  | .rotate _ _ _ id, .ok (.rotated result) => id = tokenId ∧ result.tokenId = replacement
  | _, _ => False

/-- The token was revoked or rotated away. -/
def Withdrawn (history : PATHistory) (tokenId : String) : Prop :=
  ∃ entry ∈ history, Withdraws entry tokenId

/-- The text of a token was handed out. -/
def Issued (history : PATHistory) (token : String) : Prop :=
  ∃ entry ∈ history, ∃ result, Hands entry result ∧ result.token = token

/-- One token was replaced by another. -/
def RotatedTo (history : PATHistory) (tokenId replacement : String) : Prop :=
  ∃ entry ∈ history, Rotates entry tokenId replacement

/-- The expiry that was last set for a token; `none` if it does not expire. -/
def expiryOf (tokenId : String) : PATHistory → Option ℤ
  | [] => none
  | (_, .ok (.issued result)) :: history | (_, .ok (.rotated result)) :: history =>
    if result.tokenId = tokenId then result.expiresAt else expiryOf tokenId history
  | (⟨_, .refresh _ _ id _⟩, .ok (.refreshed expiresAt)) :: history =>
    if id = tokenId then some expiresAt else expiryOf tokenId history
  | _ :: history => expiryOf tokenId history

/-- Hashes do not collide, and hashes of new keys are told from legacy ones. -/
structure CollisionFree (H : SecretHashing) : Prop where
  apiKey : ∀ salt secret secret', H.bcryptVerify (H.bcryptHash salt secret) secret' = true →
    secret = secret'
  legacy : ∀ salt secret, "$argon2".toList.isPrefixOf
    (H.bcryptHash salt ("portwyrm-pat-v1:" ++ secret)).toList = false

variable {H : SecretHashing} {now : ℤ} {t t' : IdentityTables} {tokenId : String} {row : PATRow}

/-! ## What an operation does -/

/-- The row of a new token, and what the caller is told of it. -/
structure NewRow (H : SecretHashing) (e : Entropy) (result : IssueResult) (row : PATRow) : Prop where
  tokenId : result.tokenId = e.tokenId
  digest : row.tokenDigest = H.bcryptHash e.salt ("portwyrm-pat-v1:" ++ result.token)
  expiresAt : row.expiresAt = result.expiresAt
  live : row.revokedAt = none

lemma newRow_of_newToken {e : Entropy} {r : IssueRequest} {result : IssueResult}
    (h : newToken H now e r = .ok (row, result)) : NewRow H e result row := by
  unfold newToken at h
  obtain ⟨_, -, h⟩ := bind_eq_ok_iff.mp h
  obtain ⟨_, -, h⟩ := bind_eq_ok_iff.mp h
  obtain ⟨digest, hdigest, h⟩ := bind_eq_ok_iff.mp h
  obtain ⟨_, -, h⟩ := bind_eq_ok_iff.mp h
  simp only [pure_eq_ok_iff, Prod.mk.injEq] at h
  obtain ⟨rfl, rfl⟩ := h
  simp only [SecretHashing.hashApiKey, SecretHashing.bcryptInput, bind_eq_ok_iff,
    pure_eq_ok_iff] at hdigest
  obtain ⟨input, hinput, rfl⟩ := hdigest
  split at hinput
  · exact absurd hinput throw_ne_ok
  · obtain rfl := pure_eq_ok_iff.mp hinput
    exact ⟨rfl, rfl, rfl, rfl⟩

/-- What an operation that succeeds returns, and what it leaves in the tables. -/
inductive PATEffect (H : SecretHashing) (now : ℤ) (t : IdentityTables) :
    PATOp → PATAnswer → IdentityTables → Prop
  | issued (e : Entropy) (actor : SecurityPrincipal) (request : IssueRequest)
      (result : IssueResult) (row : PATRow) (hnew : NewRow H e result row)
      (hfresh : e.tokenId ∉ t.pats) :
      PATEffect H now t (.issue e actor request) (.issued result)
        { t with pats := t.pats.set e.tokenId row }
  | verified (token tokenId : String) (v : Verification) (row : PATRow)
      (hrow : t.pats.get? tokenId = some row) :
      PATEffect H now t (.verify token) (.verified v)
        { t with pats := t.pats.set tokenId (row.touch now) }
  | refreshed (actor : SecurityPrincipal) (targetId : ℕ) (tokenId : String) (expiresAt : ℤ)
      (row : PATRow) (hrow : t.pats.get? tokenId = some row) (hlive : row.revokedAt = none) :
      PATEffect H now t (.refresh actor targetId tokenId expiresAt) (.refreshed expiresAt)
        { t with pats := t.pats.set tokenId { row with expiresAt := some expiresAt } }
  | rotated (e : Entropy) (actor : SecurityPrincipal) (targetId : ℕ) (tokenId : String)
      (result : IssueResult) (row new : PATRow) (hrow : t.pats.get? tokenId = some row)
      (hlive : row.revokedAt = none) (hnew : NewRow H e result new)
      (hfresh : e.tokenId ∉ t.pats) :
      PATEffect H now t (.rotate e actor targetId tokenId) (.rotated result)
        { t with
          pats := (t.pats.set e.tokenId new).set tokenId
            { row with revokedAt := some now, replacedById := some new.id } }
  | unknown (actor : SecurityPrincipal) (targetId : ℕ) (tokenId : String)
      (hrow : t.pats.get? tokenId = none) :
      PATEffect H now t (.revoke actor targetId tokenId) (.revoked none) t
  | revoked (actor : SecurityPrincipal) (targetId : ℕ) (tokenId : String) (row : PATRow)
      (revokedAt : ℤ) (hrow : t.pats.get? tokenId = some row) :
      PATEffect H now t (.revoke actor targetId tokenId) (.revoked (some revokedAt))
        { t with pats := t.pats.set tokenId { row with revokedAt := some revokedAt } }
  | changed (principals : Dict ℕ PrincipalRow) :
      PATEffect H now t (.principals principals) .changed { t with principals := principals }

lemma verifyPat_eq_ok {token : String} {v : Verification}
    (h : verifyPat H now token t = .ok (v, t')) :
    ∃ tokenId row principal, patRow H now token t = .ok (tokenId, row) ∧
      t.principals.get? row.principalId = some principal ∧ principal.active = true ∧
      v.principalId = row.principalId ∧
      t' = { t with pats := t.pats.set tokenId (row.touch now) } := by
  unfold verifyPat at h
  obtain ⟨⟨tokenId, row⟩, hrow, h⟩ := bind_eq_ok_iff.mp h
  dsimp only at h
  split at h
  · exact absurd h throw_ne_ok
  · rename_i principal hprincipal
    split at h
    · exact absurd h throw_ne_ok
    · rename_i hactive
      simp only [pure_eq_ok_iff, Prod.mk.injEq] at h
      obtain ⟨rfl, rfl⟩ := h
      exact ⟨tokenId, row, principal, hrow, hprincipal, by simpa using hactive, rfl, rfl⟩

lemma patEffect_of_rotate {e : Entropy} {actor : SecurityPrincipal} {targetId : ℕ}
    {result : IssueResult} (h : rotate H now e actor targetId tokenId t = .ok (result, t')) :
    PATEffect H now t (.rotate e actor targetId tokenId) (.rotated result) t' := by
  unfold rotate at h
  obtain ⟨_, -, h⟩ := bind_eq_ok_iff.mp h
  split at h
  · exact absurd h throw_ne_ok
  · rename_i row hrow
    obtain ⟨_, hlive, h⟩ := bind_eq_ok_iff.mp h
    obtain ⟨_, -, h⟩ := bind_eq_ok_iff.mp h
    obtain ⟨⟨new, r⟩, hnew, h⟩ := bind_eq_ok_iff.mp h
    obtain ⟨t₁, hadd, h⟩ := bind_eq_ok_iff.mp h
    simp only [pure_eq_ok_iff, Prod.mk.injEq] at h
    obtain ⟨rfl, rfl⟩ := h
    obtain ⟨hfresh, rfl⟩ := addPat_spec hadd
    rw [raiseIf_eq_ok_iff, not_not] at hlive
    exact .rotated e actor targetId tokenId r row new hrow hlive (newRow_of_newToken hnew) hfresh

lemma patEffect_of_issue {e : Entropy} {actor : SecurityPrincipal} {request : IssueRequest}
    {result : IssueResult} (h : issue H now e actor request t = .ok (result, t')) :
    PATEffect H now t (.issue e actor request) (.issued result) t' := by
  unfold issue at h
  obtain ⟨_, -, h⟩ := bind_eq_ok_iff.mp h
  obtain ⟨_, -, h⟩ := bind_eq_ok_iff.mp h
  obtain ⟨⟨row, r⟩, hnew, h⟩ := bind_eq_ok_iff.mp h
  obtain ⟨t₁, hadd, h⟩ := bind_eq_ok_iff.mp h
  simp only [pure_eq_ok_iff, Prod.mk.injEq] at h
  obtain ⟨rfl, rfl⟩ := h
  obtain ⟨hfresh, rfl⟩ := addPat_spec hadd
  exact .issued e actor request r row (newRow_of_newToken hnew) hfresh

lemma patEffect_of_refresh {actor : SecurityPrincipal} {targetId : ℕ} {expiresAt x : ℤ}
    (h : refreshPat now actor targetId tokenId expiresAt t = .ok (x, t')) :
    PATEffect H now t (.refresh actor targetId tokenId expiresAt) (.refreshed x) t' := by
  unfold refreshPat at h
  obtain ⟨_, -, h⟩ := bind_eq_ok_iff.mp h
  split at h
  · exact absurd h throw_ne_ok
  · rename_i row hrow
    obtain ⟨_, hlive, h⟩ := bind_eq_ok_iff.mp h
    obtain ⟨_, -, h⟩ := bind_eq_ok_iff.mp h
    obtain ⟨_, -, h⟩ := bind_eq_ok_iff.mp h
    simp only [pure_eq_ok_iff, Prod.mk.injEq] at h
    obtain ⟨rfl, rfl⟩ := h
    rw [raiseIf_eq_ok_iff, not_not] at hlive
    exact .refreshed actor targetId tokenId expiresAt row hrow hlive

lemma patEffect_of_revoke {actor : SecurityPrincipal} {targetId : ℕ} {x : Option ℤ}
    (h : revokePat now actor targetId tokenId t = .ok (x, t')) :
    PATEffect H now t (.revoke actor targetId tokenId) (.revoked x) t' := by
  unfold revokePat at h
  obtain ⟨_, -, h⟩ := bind_eq_ok_iff.mp h
  split at h
  · rename_i hrow
    simp only [pure_eq_ok_iff, Prod.mk.injEq] at h
    obtain ⟨rfl, rfl⟩ := h
    exact .unknown actor targetId tokenId hrow
  · rename_i row hrow
    obtain ⟨_, -, h⟩ := bind_eq_ok_iff.mp h
    simp only [pure_eq_ok_iff, Prod.mk.injEq] at h
    obtain ⟨rfl, rfl⟩ := h
    exact .revoked actor targetId tokenId row _ hrow

/-- An operation that succeeds has one of these effects. -/
theorem patEffect_of_run {c : PATCall} {a : PATAnswer} (h : c.run H t = .ok (a, t')) :
    PATEffect H c.now t c.op a t' := by
  obtain ⟨now, op⟩ := c
  cases op with
  | issue e actor request =>
    simp only [PATCall.run, bind_eq_ok_iff, pure_eq_ok_iff, Prod.mk.injEq, Prod.exists] at h
    obtain ⟨result, t₁, h, rfl, rfl⟩ := h
    exact patEffect_of_issue h
  | verify token =>
    simp only [PATCall.run, bind_eq_ok_iff, pure_eq_ok_iff, Prod.mk.injEq, Prod.exists] at h
    obtain ⟨v, t₁, h, rfl, rfl⟩ := h
    obtain ⟨tokenId, row, -, hrow, -, -, -, rfl⟩ := verifyPat_eq_ok h
    exact .verified token tokenId v row (patRow_spec hrow).1
  | refresh actor targetId tokenId expiresAt =>
    simp only [PATCall.run, bind_eq_ok_iff, pure_eq_ok_iff, Prod.mk.injEq, Prod.exists] at h
    obtain ⟨x, t₁, h, rfl, rfl⟩ := h
    exact patEffect_of_refresh h
  | rotate e actor targetId tokenId =>
    simp only [PATCall.run, bind_eq_ok_iff, pure_eq_ok_iff, Prod.mk.injEq, Prod.exists] at h
    obtain ⟨result, t₁, h, rfl, rfl⟩ := h
    exact patEffect_of_rotate h
  | revoke actor targetId tokenId =>
    simp only [PATCall.run, bind_eq_ok_iff, pure_eq_ok_iff, Prod.mk.injEq, Prod.exists] at h
    obtain ⟨x, t₁, h, rfl, rfl⟩ := h
    exact patEffect_of_revoke h
  | principals principals =>
    simp only [PATCall.run, pure_eq_ok_iff, Prod.mk.injEq] at h
    obtain ⟨rfl, rfl⟩ := h
    exact .changed principals

/-! ## What an operation keeps -/

@[simp] lemma PATRow.touch_revokedAt (row : PATRow) :
    (PATRow.touch now row).revokedAt = row.revokedAt := by
  simp only [PATRow.touch]
  split <;> split <;> rfl

@[simp] lemma PATRow.touch_tokenDigest (row : PATRow) :
    (PATRow.touch now row).tokenDigest = row.tokenDigest := by
  simp only [PATRow.touch]
  split <;> split <;> rfl

@[simp] lemma PATRow.touch_expiresAt (row : PATRow) :
    (PATRow.touch now row).expiresAt = row.expiresAt := by
  simp only [PATRow.touch]
  split <;> split <;> rfl

section Effect

variable {op : PATOp} {a : PATAnswer} {row' : PATRow} {history : PATHistory}

lemma ne_of_fresh {e : Entropy} (hfresh : e.tokenId ∉ t.pats)
    (hrow : t.pats.get? tokenId = some row) : tokenId ≠ e.tokenId := by
  rintro rfl
  exact hfresh (Dict.mem_iff.mpr ⟨row, hrow⟩)

/-- A token stays in the table, and stays revoked. -/
lemma PATEffect.kept (h : PATEffect H now t op a t') (hrow : t.pats.get? tokenId = some row) :
    ∃ row', t'.pats.get? tokenId = some row' ∧ (row.revokedAt ≠ none → row'.revokedAt ≠ none) := by
  -- a row that replaces another under the same id
  have hset : ∀ {pats : Dict String PATRow} {id : String} {old new : PATRow},
      pats.get? id = some old → (old.revokedAt ≠ none → new.revokedAt ≠ none) →
      pats.get? tokenId = some row →
      ∃ row', (pats.set id new).get? tokenId = some row' ∧
        (row.revokedAt ≠ none → row'.revokedAt ≠ none) := by
    intro pats id old new hold hkeep hrow
    rw [Dict.get?_set]
    split
    · rename_i heq
      obtain rfl : old = row := Option.some.inj (hold.symm.trans (heq ▸ hrow))
      exact ⟨new, rfl, hkeep⟩
    · exact ⟨row, hrow, fun h => h⟩
  cases h with
  | issued e actor request result new hnew hfresh =>
    exact ⟨row, by rw [Dict.get?_set_of_ne _ _ (ne_of_fresh hfresh hrow), hrow], id⟩
  | verified token id v old hold => exact hset hold (by simp) hrow
  | refreshed actor targetId id expiresAt old hold hlive => exact hset hold (fun h => h) hrow
  | rotated e actor targetId id result old new hold hlive hnew hfresh =>
    have hold' : (t.pats.set e.tokenId new).get? id = some old := by
      rw [Dict.get?_set_of_ne _ _ (ne_of_fresh hfresh hold), hold]
    have hrow' : (t.pats.set e.tokenId new).get? tokenId = some row := by
      rw [Dict.get?_set_of_ne _ _ (ne_of_fresh hfresh hrow), hrow]
    exact hset hold' (fun _ => by simp) hrow'
  | unknown => exact ⟨row, hrow, id⟩
  | revoked actor targetId id old revokedAt hold => exact hset hold (fun _ => by simp) hrow
  | changed => exact ⟨row, hrow, id⟩

/-- The digest of a row is that of a row before, or of the text that was handed out. -/
lemma PATEffect.digest (h : PATEffect H now t op a t') (hrow : t'.pats.get? tokenId = some row') :
    (∃ row, t.pats.get? tokenId = some row ∧ row'.tokenDigest = row.tokenDigest) ∨
      ∃ e result, NewRow H e result row' ∧ Hands (⟨now, op⟩, .ok a) result := by
  have hset : ∀ {id : String} {old new : PATRow}, t.pats.get? id = some old →
      new.tokenDigest = old.tokenDigest → (t.pats.set id new).get? tokenId = some row' →
      ∃ row, t.pats.get? tokenId = some row ∧ row'.tokenDigest = row.tokenDigest := by
    intro id old new hold hdigest hrow
    rw [Dict.get?_set] at hrow
    split at hrow
    · rename_i heq
      exact ⟨old, heq ▸ hold, by rw [← Option.some.inj hrow, hdigest]⟩
    · exact ⟨row', hrow, rfl⟩
  cases h with
  | issued e actor request result new hnew hfresh =>
    rw [Dict.get?_set] at hrow
    split at hrow
    · exact .inr ⟨e, result, Option.some.inj hrow ▸ hnew, .inl rfl⟩
    · exact .inl ⟨row', hrow, rfl⟩
  | verified token id v old hold => exact .inl (hset hold (by simp) hrow)
  | refreshed actor targetId id expiresAt old hold hlive => exact .inl (hset hold (by rfl) hrow)
  | rotated e actor targetId id result old new hold hlive hnew hfresh =>
    rw [Dict.get?_set] at hrow
    split at hrow
    · rename_i heq
      exact .inl ⟨old, heq ▸ hold, by rw [← Option.some.inj hrow]⟩
    · rw [Dict.get?_set] at hrow
      split at hrow
      · exact .inr ⟨e, result, Option.some.inj hrow ▸ hnew, .inr rfl⟩
      · exact .inl ⟨row', hrow, rfl⟩
  | unknown => exact .inl ⟨row', hrow, rfl⟩
  | revoked actor targetId id old revokedAt hold => exact .inl (hset hold (by rfl) hrow)
  | changed => exact .inl ⟨row', hrow, rfl⟩

/-- The rows of a table carry the expiries that the history says. -/
def ExpiriesAgree (history : PATHistory) (t : IdentityTables) : Prop :=
  ∀ tokenId row, t.pats.get? tokenId = some row → row.expiresAt = expiryOf tokenId history

lemma PATEffect.expiriesAgree (h : PATEffect H now t op a t') (hexpiry : ExpiriesAgree history t) :
    ExpiriesAgree ((⟨now, op⟩, .ok a) :: history) t' := by
  intro tokenId row' hrow
  cases h with
  | issued e actor request result new hnew hfresh =>
    rw [Dict.get?_set] at hrow
    rw [expiryOf, hnew.tokenId]
    split at hrow
    · rename_i heq
      rw [if_pos heq.symm, ← Option.some.inj hrow, hnew.expiresAt]
    · rename_i hne
      rw [if_neg (Ne.symm hne)]
      exact hexpiry tokenId row' hrow
  | verified token id v old hold =>
    rw [Dict.get?_set] at hrow
    split at hrow
    · rename_i heq
      rw [← Option.some.inj hrow, PATRow.touch_expiresAt]
      exact hexpiry tokenId old (heq ▸ hold)
    · exact hexpiry tokenId row' hrow
  | refreshed actor targetId id expiresAt old hold hlive =>
    rw [Dict.get?_set] at hrow
    rw [expiryOf]
    split at hrow
    · rename_i heq
      rw [if_pos heq.symm, ← Option.some.inj hrow]
    · rename_i hne
      rw [if_neg (Ne.symm hne)]
      exact hexpiry tokenId row' hrow
  | rotated e actor targetId id result old new hold hlive hnew hfresh =>
    have hne : id ≠ e.tokenId := ne_of_fresh hfresh hold
    rw [Dict.get?_set, Dict.get?_set] at hrow
    rw [expiryOf, hnew.tokenId]
    split at hrow
    · rename_i heq
      rw [if_neg (heq ▸ hne.symm), ← Option.some.inj hrow]
      exact hexpiry tokenId old (heq ▸ hold)
    · split at hrow
      · rename_i heq
        rw [if_pos heq.symm, ← Option.some.inj hrow, hnew.expiresAt]
      · rename_i hne'
        rw [if_neg (Ne.symm hne')]
        exact hexpiry tokenId row' hrow
  | unknown => exact hexpiry tokenId row' hrow
  | revoked actor targetId id old revokedAt hold =>
    rw [Dict.get?_set] at hrow
    split at hrow
    · rename_i heq
      rw [← Option.some.inj hrow]
      exact hexpiry tokenId old (heq ▸ hold)
    · exact hexpiry tokenId row' hrow
  | changed => exact hexpiry tokenId row' hrow

/-- A token that an operation withdraws is revoked behind it. -/
lemma PATEffect.withdrawn (h : PATEffect H now t op a t')
    (hwithdraws : Withdraws (⟨now, op⟩, .ok a) tokenId) :
    ∃ row', t'.pats.get? tokenId = some row' ∧ row'.revokedAt ≠ none := by
  cases h with
  | rotated e actor targetId id result old new hold hlive hnew hfresh =>
    obtain rfl : id = tokenId := hwithdraws
    exact ⟨_, Dict.get?_set_self _ _ _, by simp⟩
  | revoked actor targetId id old revokedAt hold =>
    obtain rfl : id = tokenId := hwithdraws
    exact ⟨_, Dict.get?_set_self _ _ _, by simp⟩
  | issued => exact hwithdraws.elim
  | verified => exact hwithdraws.elim
  | refreshed => exact hwithdraws.elim
  | unknown => exact hwithdraws.elim
  | changed => exact hwithdraws.elim

/-- A token that an operation replaces was not revoked before it. -/
lemma PATEffect.live_of_rotates {replacement : String} (h : PATEffect H now t op a t')
    (hrotates : Rotates (⟨now, op⟩, .ok a) tokenId replacement) :
    ∃ row, t.pats.get? tokenId = some row ∧ row.revokedAt = none := by
  cases h with
  | rotated e actor targetId id result old new hold hlive hnew hfresh =>
    obtain ⟨rfl, -⟩ : id = tokenId ∧ result.tokenId = replacement := hrotates
    exact ⟨old, hold, hlive⟩
  | issued => exact hrotates.elim
  | verified => exact hrotates.elim
  | refreshed => exact hrotates.elim
  | unknown => exact hrotates.elim
  | revoked => exact hrotates.elim
  | changed => exact hrotates.elim

end Effect

/-! ## Runs -/

/-- What holds of the table of tokens behind the calls of a history. -/
structure PATInvariant (H : SecretHashing) (history : PATHistory) (t : IdentityTables) : Prop where
  origin : ∀ tokenId row, t.pats.get? tokenId = some row →
    ∃ token salt, Issued history token ∧
      row.tokenDigest = H.bcryptHash salt ("portwyrm-pat-v1:" ++ token)
  withdrawn : ∀ tokenId, Withdrawn history tokenId →
    ∃ row, t.pats.get? tokenId = some row ∧ row.revokedAt ≠ none
  once : ∀ tokenId a b, RotatedTo history tokenId a → RotatedTo history tokenId b → a = b
  expiries : ExpiriesAgree history t

lemma withdraws_of_rotates {entry : PATCall × Result PATAnswer} {replacement : String}
    (h : Rotates entry tokenId replacement) : Withdraws entry tokenId := by
  obtain ⟨⟨now, op⟩, outcome⟩ := entry
  cases op with
  | rotate e actor targetId id =>
    cases outcome with
    | error e => exact h.elim
    | ok a =>
      cases a with
      | rotated result => exact h.1
      | _ => exact h.elim
  | _ => exact h.elim

/-- A token is replaced by one token only: the operation that replaces it spends it. -/
lemma Rotates.functional {entry : PATCall × Result PATAnswer} {a b : String}
    (ha : Rotates entry tokenId a) (hb : Rotates entry tokenId b) : a = b := by
  obtain ⟨⟨now, op⟩, outcome⟩ := entry
  cases op with
  | rotate e actor targetId id =>
    cases outcome with
    | error e => exact ha.elim
    | ok answer =>
      cases answer with
      | rotated result => exact ha.2.symm.trans hb.2
      | _ => exact ha.elim
  | _ => exact ha.elim

lemma Withdrawn.of_rotatedTo {history : PATHistory} {replacement : String}
    (h : RotatedTo history tokenId replacement) : Withdrawn history tokenId := by
  obtain ⟨entry, hentry, hrotates⟩ := h
  exact ⟨entry, hentry, withdraws_of_rotates hrotates⟩

/-- A call that raises withdraws nothing. -/
lemma not_withdraws_error {c : PATCall} {e : Exc} : ¬ Withdraws (c, .error e) tokenId := by
  obtain ⟨now, op⟩ := c
  cases op <;> exact fun h => h

lemma expiryOf_error {c : PATCall} {e : Exc} {history : PATHistory} :
    expiryOf tokenId ((c, .error e) :: history) = expiryOf tokenId history := by
  obtain ⟨now, op⟩ := c
  cases op <;> rfl

/-- A call that raises keeps the invariant. -/
lemma PATInvariant.error {history : PATHistory} {c : PATCall} {e : Exc}
    (h : PATInvariant H history t) : PATInvariant H ((c, .error e) :: history) t where
  origin := by
    intro tokenId row hrow
    obtain ⟨token, salt, ⟨entry, hentry, hissued⟩, hdigest⟩ := h.origin tokenId row hrow
    exact ⟨token, salt, ⟨entry, List.mem_cons_of_mem _ hentry, hissued⟩, hdigest⟩
  withdrawn := by
    rintro tokenId ⟨entry, hentry, hwithdraws⟩
    rcases List.mem_cons.mp hentry with rfl | hentry
    · exact absurd hwithdraws not_withdraws_error
    · exact h.withdrawn tokenId ⟨entry, hentry, hwithdraws⟩
  once := by
    rintro tokenId a b ⟨entry, hentry, ha⟩ ⟨entry', hentry', hb⟩
    rcases List.mem_cons.mp hentry with rfl | hentry
    · exact absurd (withdraws_of_rotates ha) not_withdraws_error
    rcases List.mem_cons.mp hentry' with rfl | hentry'
    · exact absurd (withdraws_of_rotates hb) not_withdraws_error
    exact h.once tokenId a b ⟨entry, hentry, ha⟩ ⟨entry', hentry', hb⟩
  expiries := by
    intro tokenId row hrow
    rw [expiryOf_error]
    exact h.expiries tokenId row hrow

/-- An operation that succeeds keeps the invariant. -/
lemma PATInvariant.effect {history : PATHistory} {op : PATOp} {answer : PATAnswer}
    (h : PATInvariant H history t) (heffect : PATEffect H now t op answer t') :
    PATInvariant H ((⟨now, op⟩, .ok answer) :: history) t' where
  origin := by
    intro tokenId row' hrow'
    rcases heffect.digest hrow' with ⟨row, hrow, hdigest⟩ | ⟨e, result, hnew, hhands⟩
    · obtain ⟨token, salt, ⟨entry, hentry, hissued⟩, hhash⟩ := h.origin tokenId row hrow
      exact ⟨token, salt, ⟨entry, List.mem_cons_of_mem _ hentry, hissued⟩, hdigest.trans hhash⟩
    · exact ⟨result.token, e.salt, ⟨_, List.mem_cons_self, result, hhands, rfl⟩, hnew.digest⟩
  withdrawn := by
    rintro tokenId ⟨entry, hentry, hwithdraws⟩
    rcases List.mem_cons.mp hentry with rfl | hentry
    · exact heffect.withdrawn hwithdraws
    · obtain ⟨row, hrow, hrevoked⟩ := h.withdrawn tokenId ⟨entry, hentry, hwithdraws⟩
      obtain ⟨row', hrow', hkept⟩ := heffect.kept hrow
      exact ⟨row', hrow', hkept hrevoked⟩
  once := by
    -- a token that was replaced before is revoked, so that this call does not replace it
    have hfirst : ∀ {tokenId a b : String}, Rotates (⟨now, op⟩, .ok answer) tokenId a →
        ¬ RotatedTo history tokenId b := by
      intro tokenId a b ha hb
      obtain ⟨row, hrow, hlive⟩ := heffect.live_of_rotates ha
      obtain ⟨row', hrow', hrevoked⟩ := h.withdrawn tokenId (.of_rotatedTo hb)
      obtain rfl := Option.some.inj (hrow.symm.trans hrow')
      exact hrevoked hlive
    rintro tokenId a b ⟨entry, hentry, ha⟩ ⟨entry', hentry', hb⟩
    rcases List.mem_cons.mp hentry with rfl | hentry
    · rcases List.mem_cons.mp hentry' with rfl | hentry'
      · exact ha.functional hb
      · exact absurd ⟨entry', hentry', hb⟩ (hfirst ha)
    · rcases List.mem_cons.mp hentry' with rfl | hentry'
      · exact absurd ⟨entry, hentry, ha⟩ (hfirst hb)
      · exact h.once tokenId a b ⟨entry, hentry, ha⟩ ⟨entry', hentry', hb⟩
  expiries := heffect.expiriesAgree h.expiries

/-- The invariant holds behind every run. -/
theorem patInvariant_of_run {history : PATHistory} (h : PATRun H history t) :
    PATInvariant H history t := by
  induction h with
  | start t hempty =>
    have hnone : ∀ tokenId row, t.pats.get? tokenId ≠ some row := by simp [hempty]
    refine ⟨fun tokenId row hrow => absurd hrow (hnone tokenId row), ?_, ?_,
      fun tokenId row hrow => absurd hrow (hnone tokenId row)⟩
    · rintro tokenId ⟨entry, hentry, -⟩
      exact absurd hentry List.not_mem_nil
    · rintro tokenId a b ⟨entry, hentry, -⟩
      exact absurd hentry List.not_mem_nil
  | @call history t h c ih =>
    cases hrun : c.run H t with
    | error e =>
      have hstep : Action.transaction (c.run H) t = (.error e, t) := by
        rw [Action.transaction, hrun]
      rw [hstep]
      exact ih.error
    | ok r =>
      obtain ⟨a, t'⟩ := r
      have hstep : Action.transaction (c.run H) t = (.ok a, t') :=
        Action.transaction_eq_ok_iff.mpr hrun
      rw [hstep]
      exact ih.effect (patEffect_of_run hrun)

/-! ## Verification -/

/-- A token that is accepted has a row that is neither revoked nor expired. -/
lemma patRow_live {token : String} (h : patRow H now token t = .ok (tokenId, row)) :
    NamesToken token tokenId ∧ t.pats.get? tokenId = some row ∧ row.revokedAt = none ∧
      (∀ x ∈ row.expiresAt, now < x) ∧ H.verifyApiKey row.tokenDigest token = .ok true := by
  obtain ⟨hrow, secret, hsplit⟩ := patRow_spec h
  simp only [patRow, hsplit, hrow, Option.map_some, Option.getD_some, bind_eq_ok_iff] at h
  obtain ⟨isMatch, hmatch, h⟩ := h
  split at h
  · exact absurd h throw_ne_ok
  · rename_i hvalid
    simp only [not_or, not_exists, not_and, not_not, not_le, Bool.not_eq_false] at hvalid
    obtain ⟨rfl, hlive, hexpiry⟩ := hvalid
    exact ⟨⟨secret, hsplit⟩, hrow, hlive, hexpiry, hmatch⟩

/-- A digest accepts the text that it was made of, and no other. -/
lemma CollisionFree.eq_of_verifyApiKey (hH : CollisionFree H) {salt secret token : String}
    (h : H.verifyApiKey (H.bcryptHash salt ("portwyrm-pat-v1:" ++ secret)) token = .ok true) :
    secret = token := by
  rw [SecretHashing.verifyApiKey, hH.legacy] at h
  simp only [Bool.false_eq_true, if_false, SecretHashing.bcryptInput, bind_eq_ok_iff,
    pure_eq_ok_iff] at h
  obtain ⟨input, hinput, hverify⟩ := h
  split at hinput
  · exact absurd hinput throw_ne_ok
  · obtain rfl := pure_eq_ok_iff.mp hinput
    have hinput : "portwyrm-pat-v1:" ++ secret = "portwyrm-pat-v1:" ++ token := by
      split at hverify
      · -- no digest at all: the dummy digest accepts another text
        have hdummy := hH.apiKey _ _ _ hverify
        have hchars := congrArg (fun s : String => s.toList[9]?) hdummy
        simp [String.toList_append] at hchars
      · exact hH.apiKey _ _ _ hverify
    exact String.append_right_inj _ |>.mp hinput

/-- A text of the given token is accepted. -/
def TokenVerifies (H : SecretHashing) (now : ℤ) (t : IdentityTables) (tokenId : String) : Prop :=
  ∃ token r, NamesToken token tokenId ∧ verifyPat H now token t = .ok r

lemma NamesToken.unique {token a b : String} (ha : NamesToken token a) (hb : NamesToken token b) :
    a = b := by
  obtain ⟨secret, ha⟩ := ha
  obtain ⟨secret', hb⟩ := hb
  have h := ha.symm.trans hb
  simp only [List.cons.injEq, true_and] at h
  exact h.1

/-- A spent token does not verify. -/
lemma not_tokenVerifies (hrow : t.pats.get? tokenId = some row)
    (hrevoked : row.revokedAt ≠ none) : ¬ TokenVerifies H now t tokenId := by
  rintro ⟨token, ⟨v, t'⟩, hnames, hverify⟩
  obtain ⟨id, row', -, hpat, -⟩ := verifyPat_eq_ok hverify
  obtain ⟨hnames', hrow', hlive, -⟩ := patRow_live hpat
  obtain rfl := hnames.unique hnames'
  obtain rfl := Option.some.inj (hrow.symm.trans hrow')
  exact hrevoked hlive

/-- The lifecycle of personal access tokens.  Behind every run of operations:

* a token that was revoked or rotated away does not verify, and can neither be refreshed nor
  rotated;
* of all tokens that descend from one token by rotation, at most one verifies;
* a text that verifies was handed out for a token that was neither revoked nor rotated away, that
  has not reached the expiry last set for it, and whose principal is neither disabled nor
  deleted. -/
theorem pat_lifecycle (hH : CollisionFree H) {history : PATHistory} (h : PATRun H history t)
    (now : ℤ) :
    (∀ tokenId, Withdrawn history tokenId → ¬ TokenVerifies H now t tokenId ∧
      (∀ actor targetId expiresAt r, refreshPat now actor targetId tokenId expiresAt t ≠ .ok r) ∧
      ∀ e actor targetId r, rotate H now e actor targetId tokenId t ≠ .ok r) ∧
    (∀ root a b, Relation.ReflTransGen (RotatedTo history) root a →
      Relation.ReflTransGen (RotatedTo history) root b →
      TokenVerifies H now t a → TokenVerifies H now t b → a = b) ∧
    ∀ token v t', verifyPat H now token t = .ok (v, t') → Issued history token ∧
      (∃ tokenId, NamesToken token tokenId ∧ ¬ Withdrawn history tokenId ∧
        ∀ x, expiryOf tokenId history = some x → now < x) ∧
      ∃ principal, t.principals.get? v.principalId = some principal ∧
        principal.isDisabled = false ∧ principal.isDeleted = false := by
  have hinv := patInvariant_of_run h
  have hspent : ∀ tokenId, Withdrawn history tokenId → ¬ TokenVerifies H now t tokenId := by
    intro tokenId hwithdrawn
    obtain ⟨row, hrow, hrevoked⟩ := hinv.withdrawn tokenId hwithdrawn
    exact not_tokenVerifies hrow hrevoked
  refine ⟨fun tokenId hwithdrawn => ⟨hspent tokenId hwithdrawn, ?_, ?_⟩, ?_, ?_⟩
  · rintro actor targetId expiresAt ⟨x, t'⟩ hrefresh
    obtain ⟨row, hrow, hrevoked⟩ := hinv.withdrawn tokenId hwithdrawn
    cases patEffect_of_refresh (H := H) hrefresh with
    | refreshed _ _ _ _ row' hrow' hlive =>
      obtain rfl := Option.some.inj (hrow.symm.trans hrow')
      exact hrevoked hlive
  · rintro e actor targetId ⟨result, t'⟩ hrotate
    obtain ⟨row, hrow, hrevoked⟩ := hinv.withdrawn tokenId hwithdrawn
    cases patEffect_of_rotate hrotate with
    | rotated _ _ _ _ _ row' _ hrow' hlive =>
      obtain rfl := Option.some.inj (hrow.symm.trans hrow')
      exact hrevoked hlive
  · intro root a b ha hb hverifies hverifies'
    -- a token that verifies was not replaced, so that a chain ends with it
    have hend : ∀ {a b : String}, Relation.ReflTransGen (RotatedTo history) a b →
        TokenVerifies H now t a → a = b := by
      intro a b hchain hverifies
      rcases hchain.cases_head with rfl | ⟨c, hrotated, -⟩
      · rfl
      · exact absurd hverifies (hspent a (.of_rotatedTo hrotated))
    have hunique : Relator.RightUnique (RotatedTo history) := fun tokenId a b => hinv.once tokenId a b
    rcases Relation.ReflTransGen.total_of_right_unique hunique ha hb with hchain | hchain
    · exact hend hchain hverifies
    · exact (hend hchain hverifies').symm
  · intro token v t' hverify
    obtain ⟨tokenId, row, principal, hpat, hprincipal, hactive, hid, rfl⟩ := verifyPat_eq_ok hverify
    obtain ⟨hnames, hrow, hlive, hexpiry, hmatch⟩ := patRow_live hpat
    obtain ⟨text, salt, hissued, hhash⟩ := hinv.origin tokenId row hrow
    obtain rfl := hH.eq_of_verifyApiKey (hhash ▸ hmatch)
    refine ⟨hissued, ⟨tokenId, hnames, fun hwithdrawn => ?_, fun x hx => ?_⟩, principal,
      hid ▸ hprincipal, ?_⟩
    · exact hspent tokenId hwithdrawn ⟨text, _, hnames, hverify⟩
    · exact hexpiry x ((hinv.expiries tokenId row hrow).trans hx)
    · simpa [PrincipalRow.active] using hactive

/-! ### A token that is rotated away -/

lemma collisionFree_plainHashing : CollisionFree plainHashing where
  apiKey salt secret secret' h := by simpa [plainHashing] using h
  legacy salt secret := by
    have hhead : ("portwyrm-pat-v1:" ++ secret).toList =
        'p' :: "ortwyrm-pat-v1:".toList ++ secret.toList := by
      rw [String.toList_append]
      rfl
    rw [plainHashing, hhead]
    rfl

/-- The random values of the token that replaces another. -/
def replacingEntropy : Entropy where
  rowId := 3
  tokenId := "cc"
  secret := "u"
  salt := ""
  tokenId_hex := cc_hex

/-- The principal of the tables. -/
def operator : SecurityPrincipal where
  userId := 7
  identity := "operator@example.test"

/-- A token is issued. -/
def issueCall : PATCall := ⟨100, .issue mintedEntropy operator ⟨7, "ci", ["user"], some 900⟩⟩

/-- The token is rotated. -/
def rotateCall : PATCall := ⟨200, .rotate replacingEntropy operator 7 "bb"⟩

/-- The tables before the first token. -/
def untouchedTables : IdentityTables := { restrictedTables with pats := Dict.empty }

/-- Behind the rotation the first token is spent. -/
theorem pat_lifecycle_rotated :
    ∃ history t, PATRun plainHashing history t ∧ Withdrawn history "bb" ∧
      ¬ TokenVerifies plainHashing 300 t "bb" := by
  have hrun := PATRun.call (.call (.start (H := plainHashing) untouchedTables rfl) issueCall)
    rotateCall
  refine ⟨_, _, hrun, ⟨_, List.mem_cons_self, ?_⟩,
    ((pat_lifecycle collisionFree_plainHashing hrun 300).1 "bb" ⟨_, List.mem_cons_self, ?_⟩).1⟩
  · exact rfl
  · exact rfl

end Portwyrm.Identity

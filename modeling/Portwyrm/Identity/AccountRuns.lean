import Portwyrm.Identity.DerivedCredentials
import Portwyrm.Identity.Passwords

/-!
# Passwords and sessions over runs

The committed operations on principals, passwords and browser sessions, in any order, from empty
tables.  What the operations have left behind is read off their history: the password of a
principal, whether he has to change it, and the sessions that are open.

Nothing links a session to a password, so the two histories do not meet.
-/

namespace Portwyrm.Identity

open Base

/-! ## Runs -/

/-- An operation on the tables; `salt` is that of the digest. -/
inductive AccountOp
  | register (salt : String) (id : ℕ) (r : RegisterRequest)
  | changePassword (salt : String) (id : ℕ) (oldPassword newPassword : String)
  | setPassword (salt : String) (id : ℕ) (newPassword : String)
  /-- `update_identity`: the columns but `must_change_password`. -/
  | updateIdentity (id : ℕ) (row : PrincipalRow)
  /-- The builtin `replace`, which may set that column too. -/
  | replacePrincipal (id : ℕ) (row : PrincipalRow)
  /-- The builtin `delete`; the credential goes with its principal. -/
  | deletePrincipal (id : ℕ)
  | issueSession (e : Entropy) (snapshot : Snapshot) (expiresAt : ℤ)
  | revokeSession (token : String)
  /-- Operations on the other tables. -/
  | other (rbac : RbacTables) (enrollments : Dict ℕ EnrollmentRow)
      (recoveryCodes : List RecoveryCodeRow) (pats : Dict String PATRow)

/-- An operation, and its second. -/
structure AccountCall where
  now : ℤ
  op : AccountOp

/-- A row of a principal that is there is stored, unless another one has its email. -/
def storePrincipal (id : ℕ) (f : PrincipalRow → PrincipalRow) (t : IdentityTables) :
    Result IdentityTables :=
  match t.principals.get? id with
  | none => throw (.valueError s!"principal does not exist: {id}")
  | some stored => do
    raiseIf (∃ e ∈ t.principals.entries, e.1 ≠ id ∧ e.2.email = (f stored).email) .integrityError
    pure { t with principals := t.principals.set id (f stored) }

/-- An operation in its transaction. -/
def AccountCall.run (H : SecretHashing) (c : AccountCall) (t : IdentityTables) :
    Result IdentityTables :=
  match c.op with
  | .register salt id r => Prod.snd <$> registerPrincipal H salt id r t
  | .changePassword salt id old new => Prod.snd <$> Identity.changePassword H salt id old new t
  | .setPassword salt id new => Prod.snd <$> Identity.setPassword H salt id new t
  | .updateIdentity id row => storePrincipal id
      (fun stored => { row with
        email := Text.casefold (Text.strip row.email)
        mustChangePassword := stored.mustChangePassword }) t
  | .replacePrincipal id row => storePrincipal id (fun _ => row) t
  | .deletePrincipal id =>
    pure { t with principals := t.principals.pop id, credentials := t.credentials.pop id }
  | .issueSession e snapshot expiresAt => Prod.snd <$> issueSessionRow H c.now e snapshot expiresAt t
  | .revokeSession token => Prod.snd <$> Identity.revokeSession H token t
  | .other rbac enrollments recoveryCodes pats =>
    pure { t with rbac, enrollments, recoveryCodes, pats }

/-- Tables without rows. -/
def IdentityTables.empty : IdentityTables where
  principals := Dict.empty
  rbac := RbacTables.empty
  pats := Dict.empty
  sessions := Dict.empty

/-- The operations that have been committed, latest first, and the tables behind them. -/
inductive AccountRun (H : SecretHashing) : List AccountCall → IdentityTables → Prop
  | start : AccountRun H [] .empty
  | call {history : List AccountCall} {t t' : IdentityTables} (h : AccountRun H history t)
      (c : AccountCall) (hrun : c.run H t = .ok t') : AccountRun H (c :: history) t'

/-- The operations of a history, one after the other. -/
def AccountCall.runAll (H : SecretHashing) : List AccountCall → Result IdentityTables
  | [] => .ok .empty
  | c :: history => runAll H history >>= c.run H

lemma accountRun_of_runAll {H : SecretHashing} {history : List AccountCall} {t : IdentityTables}
    (h : AccountCall.runAll H history = .ok t) : AccountRun H history t := by
  induction history generalizing t with
  | nil =>
    obtain rfl := Except.ok.inj h
    exact .start
  | cons c history ih =>
    obtain ⟨before, hbefore, hrun⟩ := bind_eq_ok_iff.mp h
    exact (ih hbefore).call c hrun

/-! ## What the history says -/

/-- What an operation makes of the password of a principal. -/
def AccountOp.password (id : ℕ) (before : Option String) : AccountOp → Option String
  | .register _ id' r => if id' = id then some r.password else before
  | .changePassword _ id' _ password | .setPassword _ id' password =>
    if id' = id then some password else before
  | .deletePrincipal id' => if id' = id then none else before
  | _ => before

/-- The password of a principal. -/
def passwordOf (id : ℕ) : List AccountCall → Option String
  | [] => none
  | c :: history => c.op.password id (passwordOf id history)

/-- What an operation makes of the number of passwords that a principal has had. -/
def AccountOp.version (id : ℕ) (before : ℕ) : AccountOp → ℕ
  | .register _ id' _ => if id' = id then 1 else before
  | .changePassword _ id' _ _ | .setPassword _ id' _ => if id' = id then before + 1 else before
  | _ => before

/-- How many passwords a principal has had. -/
def versionOf (id : ℕ) : List AccountCall → ℕ
  | [] => 0
  | c :: history => c.op.version id (versionOf id history)

/-- What an operation makes of the duty of a principal to change his password. -/
def AccountOp.duty (id : ℕ) (before : Bool) : AccountOp → Bool
  | .register _ id' r => if id' = id then r.mustChangePassword else before
  | .changePassword _ id' _ _ => if id' = id then false else before
  | .setPassword _ id' _ => if id' = id then true else before
  | .replacePrincipal id' row => if id' = id then row.mustChangePassword else before
  | _ => before

/-- Whether a principal has to change his password. -/
def dutyOf (id : ℕ) : List AccountCall → Bool
  | [] => false
  | c :: history => c.op.duty id (dutyOf id history)

/-- A session that has been opened. -/
structure OpenedSession where
  token : String
  snapshot : Snapshot
  expiresAt : ℤ

/-- What an operation makes of the session under an id. -/
def AccountCall.session (tokenId : String) (before : Option OpenedSession) (c : AccountCall) :
    Option OpenedSession :=
  match c.op with
  | .issueSession e snapshot expiresAt =>
    if e.tokenId = tokenId then
      some ⟨e.session, snapshot, if expiresAt = 0 then c.now + 86400 else expiresAt⟩
    else before
  | .revokeSession token => before.filter fun opened => opened.token ≠ token
  | _ => before

/-- The session that is open under an id. -/
def sessionOf (tokenId : String) : List AccountCall → Option OpenedSession
  | [] => none
  | c :: history => c.session tokenId (sessionOf tokenId history)

/-- Digests verify what they are the digests of. -/
def DigestsExact (H : SecretHashing) : Prop :=
  ∀ salt secret secret', H.argon2Verify (H.argon2Hash salt secret) secret' = true ↔ secret = secret'

variable {H : SecretHashing} {c : AccountCall} {history : List AccountCall} {t t' : IdentityTables}
  {id : ℕ} {now : ℤ}

lemma storePrincipal_eq_ok {f : PrincipalRow → PrincipalRow} (h : storePrincipal id f t = .ok t') :
    ∃ stored, t.principals.get? id = some stored ∧
      (∀ e ∈ t.principals.entries, e.1 ≠ id → e.2.email ≠ (f stored).email) ∧
      { t with principals := t.principals.set id (f stored) } = t' := by
  unfold storePrincipal at h
  rcases hstored : t.principals.get? id with _ | stored
  · rw [hstored] at h
    exact absurd h throw_ne_ok
  · rw [hstored] at h
    simp only [bind_eq_ok_iff, raiseIf_eq_ok_iff, pure_eq_ok_iff] at h
    obtain ⟨-, hemail, rfl⟩ := h
    exact ⟨stored, rfl, fun e he hne heq => hemail ⟨e, he, hne, heq⟩, rfl⟩

lemma issueSessionRow_eq_ok {e : Entropy} {snapshot : Snapshot} {expiresAt : ℤ}
    {answer : String × ℤ} (h : issueSessionRow H now e snapshot expiresAt t = .ok (answer, t')) :
    e.session ≠ "" ∧ e.tokenId ∉ t.sessions ∧
      answer = (e.session, if expiresAt = 0 then now + 86400 else expiresAt) ∧
      { t with
        sessions := t.sessions.set e.tokenId ⟨H.argon2Hash e.salt e.session, snapshot,
          if expiresAt = 0 then now + 86400 else expiresAt⟩ } = t' := by
  simp only [issueSessionRow, bind_eq_ok_iff, raiseIf_eq_ok_iff, hashSecret_eq_ok_iff,
    pure_eq_ok_iff, Prod.mk.injEq] at h
  obtain ⟨_, ⟨hne, rfl⟩, -, hnew, rfl, rfl⟩ := h
  exact ⟨hne, hnew, rfl, rfl⟩

/-- A session is taken back, or nothing changes. -/
lemma revokeSession_cases {token : String} {revoked : Bool}
    (h : revokeSession H token t = .ok (revoked, t')) :
    (∃ tokenId row, sessionTokenId token = some tokenId ∧ t.sessions.get? tokenId = some row ∧
      H.argon2Verify row.tokenDigest token = true ∧
      { t with sessions := t.sessions.pop tokenId } = t') ∨
    t = t' ∧ ∀ tokenId row, sessionTokenId token = some tokenId →
      t.sessions.get? tokenId = some row → H.argon2Verify row.tokenDigest token = false := by
  unfold revokeSession at h
  rcases hid : sessionTokenId token with _ | tokenId
  · rw [hid] at h
    obtain ⟨-, rfl⟩ := Prod.mk.inj (pure_eq_ok_iff.mp h)
    exact .inr ⟨rfl, by rintro _ _ ⟨⟩⟩
  · rw [hid] at h
    dsimp only at h
    rcases hrow : t.sessions.get? tokenId with _ | row
    · rw [hrow] at h
      obtain ⟨-, rfl⟩ := Prod.mk.inj (pure_eq_ok_iff.mp h)
      refine .inr ⟨rfl, ?_⟩
      rintro _ row ⟨⟩ hrow'
      exact absurd (hrow.symm.trans hrow') (by simp)
    · rw [hrow] at h
      dsimp only at h
      split at h
      · rename_i hverify
        obtain ⟨-, rfl⟩ := Prod.mk.inj (pure_eq_ok_iff.mp h)
        refine .inr ⟨rfl, ?_⟩
        rintro _ row' ⟨⟩ hrow'
        obtain rfl := Option.some.inj (hrow.symm.trans hrow')
        exact hverify
      · rename_i hverify
        obtain ⟨-, rfl⟩ := Prod.mk.inj (pure_eq_ok_iff.mp h)
        exact .inl ⟨tokenId, row, rfl, hrow, Bool.not_eq_false _ ▸ hverify, rfl⟩

/-- Taking a session back does not raise. -/
lemma exists_revokeSession (token : String) (t : IdentityTables) :
    ∃ revoked t', revokeSession H token t = .ok (revoked, t') := by
  unfold revokeSession
  split
  · exact ⟨_, _, rfl⟩
  · split
    · exact ⟨_, _, rfl⟩
    · split
      · exact ⟨_, _, rfl⟩
      · exact ⟨_, _, rfl⟩

/-- Taking a session back leaves the other tables alone. -/
lemma revokeSession_frame {token : String} {revoked : Bool}
    (h : revokeSession H token t = .ok (revoked, t')) :
    t'.principals = t.principals ∧ t'.credentials = t.credentials := by
  rcases revokeSession_cases h with ⟨tokenId, row, -, -, -, rfl⟩ | ⟨rfl, -⟩
  · exact ⟨rfl, rfl⟩
  · exact ⟨rfl, rfl⟩

/-! ## Passwords -/

/-- The credentials are those of the passwords that the history tells. -/
structure PasswordsKept (H : SecretHashing) (history : List AccountCall) (t : IdentityTables) :
    Prop where
  stored : ∀ id credential, t.credentials.get? id = some credential →
    ∃ password salt, passwordOf id history = some password ∧
      credential = ⟨H.argon2Hash salt password, versionOf id history⟩
  absent : ∀ id, t.credentials.get? id = none → passwordOf id history = none

/-- A password is stored, and the history tells it. -/
lemma PasswordsKept.set (h : PasswordsKept H history t) {salt password : String} {version : ℕ}
    (hpassword : ∀ id', c.op.password id' (passwordOf id' history) =
      if id = id' then some password else passwordOf id' history)
    (hversion : ∀ id', c.op.version id' (versionOf id' history) =
      if id = id' then version else versionOf id' history)
    (ht : t'.credentials = t.credentials.set id ⟨H.argon2Hash salt password, version⟩) :
    PasswordsKept H (c :: history) t' := by
  refine ⟨fun id' credential hcredential => ?_, fun id' hnone => ?_⟩
  · rw [passwordOf, versionOf, hpassword, hversion]
    rw [ht, Dict.get?_set] at hcredential
    by_cases hid : id = id'
    · rw [if_pos hid.symm] at hcredential
      rw [if_pos hid, if_pos hid]
      exact ⟨password, salt, rfl, (Option.some.inj hcredential).symm⟩
    · rw [if_neg (Ne.symm hid)] at hcredential
      rw [if_neg hid, if_neg hid]
      exact h.stored id' credential hcredential
  · rw [passwordOf, hpassword]
    rw [ht, Dict.get?_set] at hnone
    by_cases hid : id = id'
    · rw [if_pos hid.symm] at hnone
      cases hnone
    · rw [if_neg (Ne.symm hid)] at hnone
      rw [if_neg hid]
      exact h.absent id' hnone

/-- An operation that leaves the credentials alone. -/
lemma PasswordsKept.frame (h : PasswordsKept H history t)
    (hpassword : ∀ id', c.op.password id' (passwordOf id' history) = passwordOf id' history)
    (hversion : ∀ id', c.op.version id' (versionOf id' history) = versionOf id' history)
    (ht : t'.credentials = t.credentials) : PasswordsKept H (c :: history) t' := by
  refine ⟨fun id' credential hcredential => ?_, fun id' hnone => ?_⟩
  · rw [passwordOf, versionOf, hpassword, hversion]
    exact h.stored id' credential (ht ▸ hcredential)
  · rw [passwordOf, hpassword]
    exact h.absent id' (ht ▸ hnone)

/-- One operation. -/
lemma passwordsKept_step (h : PasswordsKept H history t) (hrun : c.run H t = .ok t') :
    PasswordsKept H (c :: history) t' := by
  obtain ⟨now, op⟩ := c
  cases op with
  | register salt id r =>
    obtain ⟨⟨⟨⟩, t₁⟩, hregister, rfl⟩ := map_eq_ok_iff.mp hrun
    obtain ⟨-, -, rfl⟩ := registerPrincipal_eq_ok hregister
    exact h.set (fun _ => rfl) (fun _ => rfl) rfl
  | changePassword salt id old password =>
    obtain ⟨⟨⟨⟩, t₁⟩, hchange, rfl⟩ := map_eq_ok_iff.mp hrun
    obtain ⟨credential, hcredential, -, -, -, rfl⟩ := changePassword_eq_ok_iff.mp hchange
    obtain ⟨before, salt', -, rfl⟩ := h.stored id credential hcredential
    refine h.set (fun _ => rfl) (fun id' => ?_) (credentials_requireChange _ _ _)
    by_cases hid : id = id' <;> simp [AccountOp.version, hid]
  | setPassword salt id password =>
    obtain ⟨⟨⟨⟩, t₁⟩, hset, rfl⟩ := map_eq_ok_iff.mp hrun
    obtain ⟨credential, hcredential, -, rfl⟩ := setPassword_eq_ok_iff.mp hset
    obtain ⟨before, salt', -, rfl⟩ := h.stored id credential hcredential
    refine h.set (fun _ => rfl) (fun id' => ?_) (credentials_requireChange _ _ _)
    by_cases hid : id = id' <;> simp [AccountOp.version, hid]
  | deletePrincipal id =>
    obtain rfl := pure_eq_ok_iff.mp hrun
    refine ⟨fun id' credential hcredential => ?_, fun id' hnone => ?_⟩
    · rw [Dict.get?_pop] at hcredential
      split at hcredential
      · cases hcredential
      · rename_i hid
        rw [passwordOf, versionOf, AccountOp.password, if_neg (Ne.symm hid)]
        exact h.stored id' credential hcredential
    · rw [passwordOf, AccountOp.password]
      rw [Dict.get?_pop] at hnone
      split
      · rfl
      · rename_i hid
        rw [if_neg (Ne.symm hid)] at hnone
        exact h.absent id' hnone
  | updateIdentity id row =>
    obtain ⟨stored, -, -, rfl⟩ := storePrincipal_eq_ok hrun
    exact h.frame (fun _ => rfl) (fun _ => rfl) rfl
  | replacePrincipal id row =>
    obtain ⟨stored, -, -, rfl⟩ := storePrincipal_eq_ok hrun
    exact h.frame (fun _ => rfl) (fun _ => rfl) rfl
  | issueSession e snapshot expiresAt =>
    obtain ⟨⟨answer, t₁⟩, hissue, rfl⟩ := map_eq_ok_iff.mp hrun
    obtain ⟨-, -, -, rfl⟩ := issueSessionRow_eq_ok hissue
    exact h.frame (fun _ => rfl) (fun _ => rfl) rfl
  | revokeSession token =>
    obtain ⟨⟨answer, t₁⟩, hrevoke, rfl⟩ := map_eq_ok_iff.mp hrun
    exact h.frame (fun _ => rfl) (fun _ => rfl) (revokeSession_frame hrevoke).2
  | other =>
    obtain rfl := pure_eq_ok_iff.mp hrun
    exact h.frame (fun _ => rfl) (fun _ => rfl) rfl

lemma passwordsKept_run (h : AccountRun H history t) : PasswordsKept H history t := by
  induction h with
  | start =>
    refine ⟨?_, fun _ _ => rfl⟩
    rintro _ _ ⟨⟩
  | call _ c hrun ih => exact passwordsKept_step ih hrun

/-! ## Principals -/

/-- The rows of the principals: their emails are unique, each has a credential, and the flag is what
the history tells. -/
structure PrincipalsKept (history : List AccountCall) (t : IdentityTables) : Prop where
  unique : ∀ id id' row row', t.principals.get? id = some row →
    t.principals.get? id' = some row' → row.email = row'.email → id = id'
  paired : ∀ id, id ∈ t.principals ↔ id ∈ t.credentials
  duty : ∀ id row, t.principals.get? id = some row → row.mustChangePassword = dutyOf id history

/-- An operation that leaves the principals and the credentials alone. -/
lemma PrincipalsKept.frame (h : PrincipalsKept history t)
    (hduty : ∀ id', c.op.duty id' (dutyOf id' history) = dutyOf id' history)
    (hprincipals : t'.principals = t.principals) (hcredentials : t'.credentials = t.credentials) :
    PrincipalsKept (c :: history) t' := by
  refine ⟨hprincipals ▸ h.unique, ?_, ?_⟩
  · rw [hprincipals, hcredentials]
    exact h.paired
  · rw [hprincipals]
    intro id row hrow
    rw [dutyOf, hduty]
    exact h.duty id row hrow

/-- The flag of a principal is set, behind an operation on his credential. -/
lemma PrincipalsKept.require (h : PrincipalsKept history t) {required : Bool}
    (hduty : ∀ id', c.op.duty id' (dutyOf id' history) =
      if id = id' then required else dutyOf id' history) (hid : id ∈ t.credentials)
    (credential : CredentialRow) :
    PrincipalsKept (c :: history)
      (IdentityTables.requireChange
        { t with credentials := t.credentials.set id credential } id required) := by
  refine ⟨fun i j row row' hrow hrow' hemail => ?_, fun i => ?_, fun i row hrow => ?_⟩
  · rw [get?_principals_requireChange] at hrow hrow'
    obtain ⟨old, hold, rfl⟩ := Option.map_eq_some_iff.mp hrow
    obtain ⟨old', hold', rfl⟩ := Option.map_eq_some_iff.mp hrow'
    refine h.unique i j old old' hold hold' ?_
    split at hemail <;> split at hemail <;> exact hemail
  · rw [credentials_requireChange, Dict.mem_set, Dict.mem_iff]
    have hmap : (∃ row, (IdentityTables.requireChange
        { t with credentials := t.credentials.set id credential } id required).principals.get? i =
          some row) ↔ i ∈ t.principals := by
      rw [get?_principals_requireChange, Dict.mem_iff]
      cases t.principals.get? i <;> simp
    rw [hmap, h.paired]
    constructor
    · exact .inr
    · rintro (rfl | hi)
      · exact hid
      · exact hi
  · rw [get?_principals_requireChange] at hrow
    obtain ⟨old, hold, rfl⟩ := Option.map_eq_some_iff.mp hrow
    rw [dutyOf, hduty]
    by_cases hi : i = id
    · rw [if_pos hi, if_pos hi.symm]
    · rw [if_neg hi, if_neg (Ne.symm hi)]
      exact h.duty i old hold

/-- A row is stored for a principal that is there. -/
lemma PrincipalsKept.store (h : PrincipalsKept history t) {f : PrincipalRow → PrincipalRow}
    (hrun : storePrincipal id f t = .ok t')
    (hother : ∀ id', id' ≠ id → c.op.duty id' (dutyOf id' history) = dutyOf id' history)
    (hself : ∀ stored, stored.mustChangePassword = dutyOf id history →
      (f stored).mustChangePassword = c.op.duty id (dutyOf id history)) :
    PrincipalsKept (c :: history) t' := by
  obtain ⟨stored, hstored, hemail, rfl⟩ := storePrincipal_eq_ok hrun
  have hfree : ∀ i row, t.principals.get? i = some row → i ≠ id → row.email ≠ (f stored).email :=
    fun i row hrow hi => hemail (i, row) (Dict.mem_entries_iff.mpr hrow) hi
  refine ⟨fun i j row row' hrow hrow' heq => ?_, fun i => ?_, fun i row hrow => ?_⟩
  · rw [Dict.get?_set] at hrow hrow'
    split at hrow <;> split at hrow'
    · rename_i hi hj
      exact hi.trans hj.symm
    · rename_i hi hj
      obtain rfl := Option.some.inj hrow
      exact absurd heq.symm (hfree j row' hrow' hj)
    · rename_i hi hj
      obtain rfl := Option.some.inj hrow'
      exact absurd heq (hfree i row hrow hi)
    · exact h.unique i j row row' hrow hrow' heq
  · rw [Dict.mem_set, ← h.paired]
    constructor
    · rintro (rfl | hi)
      · exact Dict.mem_iff.mpr ⟨stored, hstored⟩
      · exact hi
    · exact .inr
  · rw [dutyOf]
    rw [Dict.get?_set] at hrow
    split at hrow
    · rename_i hi
      obtain rfl := Option.some.inj hrow
      rw [hi]
      exact hself stored (h.duty id stored hstored)
    · rename_i hi
      rw [hother i hi]
      exact h.duty i row hrow

/-- One operation. -/
lemma principalsKept_step (h : PrincipalsKept history t) (hrun : c.run H t = .ok t') :
    PrincipalsKept (c :: history) t' := by
  obtain ⟨now, op⟩ := c
  cases op with
  | register salt id r =>
    obtain ⟨⟨⟨⟩, t₁⟩, hregister, rfl⟩ := map_eq_ok_iff.mp hrun
    obtain ⟨hnew, hemail, rfl⟩ := registerPrincipal_eq_ok hregister
    have hfree : ∀ i row, t.principals.get? i = some row → row.email ≠ r.row.email :=
      fun i row hrow => hemail row (Dict.mem_values_iff.mpr ⟨i, hrow⟩)
    refine ⟨fun i j row row' hrow hrow' heq => ?_, fun i => ?_, fun i row hrow => ?_⟩
    · rw [Dict.get?_set] at hrow hrow'
      split at hrow <;> split at hrow'
      · rename_i hi hj
        exact hi.trans hj.symm
      · obtain rfl := Option.some.inj hrow
        exact absurd heq.symm (hfree j row' hrow')
      · obtain rfl := Option.some.inj hrow'
        exact absurd heq (hfree i row hrow)
      · exact h.unique i j row row' hrow hrow' heq
    · rw [Dict.mem_set, Dict.mem_set, h.paired]
    · rw [dutyOf, AccountOp.duty]
      rw [Dict.get?_set] at hrow
      split at hrow
      · rename_i hi
        obtain rfl := Option.some.inj hrow
        rw [if_pos hi.symm]
        rfl
      · rename_i hi
        rw [if_neg (Ne.symm hi)]
        exact h.duty i row hrow
  | changePassword salt id old password =>
    obtain ⟨⟨⟨⟩, t₁⟩, hchange, rfl⟩ := map_eq_ok_iff.mp hrun
    obtain ⟨credential, hcredential, -, -, -, rfl⟩ := changePassword_eq_ok_iff.mp hchange
    exact h.require (fun _ => rfl) (Dict.mem_iff.mpr ⟨credential, hcredential⟩) _
  | setPassword salt id password =>
    obtain ⟨⟨⟨⟩, t₁⟩, hset, rfl⟩ := map_eq_ok_iff.mp hrun
    obtain ⟨credential, hcredential, -, rfl⟩ := setPassword_eq_ok_iff.mp hset
    exact h.require (fun _ => rfl) (Dict.mem_iff.mpr ⟨credential, hcredential⟩) _
  | updateIdentity id row => exact h.store hrun (fun _ _ => rfl) fun _ hstored => hstored
  | replacePrincipal id row =>
    refine h.store hrun (fun id' hid => ?_) fun _ _ => ?_
    · exact if_neg (Ne.symm hid)
    · exact (if_pos rfl).symm
  | deletePrincipal id =>
    obtain rfl := pure_eq_ok_iff.mp hrun
    refine ⟨fun i j row row' hrow hrow' heq => ?_, fun i => ?_, fun i row hrow => ?_⟩
    · rw [Dict.get?_pop] at hrow hrow'
      split at hrow <;> split at hrow'
      · cases hrow
      · cases hrow
      · cases hrow'
      · exact h.unique i j row row' hrow hrow' heq
    · rw [Dict.mem_pop, Dict.mem_pop, h.paired]
    · rw [Dict.get?_pop] at hrow
      split at hrow
      · cases hrow
      · exact h.duty i row hrow
  | issueSession e snapshot expiresAt =>
    obtain ⟨⟨answer, t₁⟩, hissue, rfl⟩ := map_eq_ok_iff.mp hrun
    obtain ⟨-, -, -, rfl⟩ := issueSessionRow_eq_ok hissue
    exact h.frame (fun _ => rfl) rfl rfl
  | revokeSession token =>
    obtain ⟨⟨answer, t₁⟩, hrevoke, rfl⟩ := map_eq_ok_iff.mp hrun
    obtain ⟨hprincipals, hcredentials⟩ := revokeSession_frame hrevoke
    exact h.frame (fun _ => rfl) hprincipals hcredentials
  | other =>
    obtain rfl := pure_eq_ok_iff.mp hrun
    exact h.frame (fun _ => rfl) rfl rfl

lemma principalsKept_run (h : AccountRun H history t) : PrincipalsKept history t := by
  induction h with
  | start =>
    refine ⟨?_, fun _ => Iff.rfl, ?_⟩
    · rintro _ _ _ _ ⟨⟩
    · rintro _ _ ⟨⟩
  | call _ c hrun ih => exact principalsKept_step ih hrun

/-! ## Sessions -/

/-- The token of a session names the id that it is stored under. -/
structure OpenedSession.StandsUnder (opened : OpenedSession) (tokenId : String) : Prop where
  session : isSessionToken opened.token = true
  tokenId : sessionTokenId opened.token = some tokenId

/-- The sessions are those that the history tells. -/
structure SessionsKept (H : SecretHashing) (history : List AccountCall) (t : IdentityTables) :
    Prop where
  stored : ∀ tokenId row, t.sessions.get? tokenId = some row →
    ∃ opened salt, sessionOf tokenId history = some opened ∧ opened.StandsUnder tokenId ∧
      row = ⟨H.argon2Hash salt opened.token, opened.snapshot, opened.expiresAt⟩
  absent : ∀ tokenId, t.sessions.get? tokenId = none → sessionOf tokenId history = none

/-- An operation that leaves the sessions alone. -/
lemma SessionsKept.frame (h : SessionsKept H history t)
    (hsession : ∀ tokenId,
      c.session tokenId (sessionOf tokenId history) = sessionOf tokenId history)
    (ht : t'.sessions = t.sessions) : SessionsKept H (c :: history) t' := by
  refine ⟨fun tokenId row hrow => ?_, fun tokenId hnone => ?_⟩
  · rw [sessionOf, hsession]
    exact h.stored tokenId row (ht ▸ hrow)
  · rw [sessionOf, hsession]
    exact h.absent tokenId (ht ▸ hnone)

lemma sessionOf_issue (tokenId : String) (e : Entropy) (snapshot : Snapshot) (expiresAt : ℤ) :
    sessionOf tokenId (⟨now, .issueSession e snapshot expiresAt⟩ :: history) =
      if e.tokenId = tokenId then
        some ⟨e.session, snapshot, if expiresAt = 0 then now + 86400 else expiresAt⟩
      else sessionOf tokenId history := rfl

lemma sessionOf_revoke (tokenId token : String) :
    sessionOf tokenId (⟨now, .revokeSession token⟩ :: history) =
      (sessionOf tokenId history).filter fun opened => opened.token ≠ token := rfl

lemma SessionsKept.issue (h : SessionsKept H history t) {e : Entropy} {snapshot : Snapshot}
    {expiresAt : ℤ} {answer : String × ℤ}
    (hissue : issueSessionRow H now e snapshot expiresAt t = .ok (answer, t')) :
    SessionsKept H (⟨now, .issueSession e snapshot expiresAt⟩ :: history) t' := by
  obtain ⟨-, -, -, rfl⟩ := issueSessionRow_eq_ok hissue
  refine ⟨fun tokenId row hrow => ?_, fun tokenId hnone => ?_⟩
  · rw [sessionOf_issue]
    rw [Dict.get?_set] at hrow
    split at hrow
    · rename_i hid
      obtain rfl := Option.some.inj hrow
      subst hid
      rw [if_pos rfl]
      exact ⟨_, e.salt, rfl, ⟨isSessionToken_session _ _, sessionTokenId_session _ e.tokenId_hex⟩, rfl⟩
    · rename_i hid
      rw [if_neg (Ne.symm hid)]
      exact h.stored tokenId row hrow
  · rw [sessionOf_issue]
    rw [Dict.get?_set] at hnone
    split at hnone
    · cases hnone
    · rename_i hid
      rw [if_neg (Ne.symm hid)]
      exact h.absent tokenId hnone

/-- A token takes back the session that it is the token of. -/
lemma SessionsKept.revoke (hH : DigestsExact H) (h : SessionsKept H history t) {token : String}
    {revoked : Bool} (hrevoke : revokeSession H token t = .ok (revoked, t')) :
    SessionsKept H (⟨now, .revokeSession token⟩ :: history) t' := by
  -- a session that stays has another token
  have hother : ∀ tokenId opened, sessionOf tokenId history = some opened →
      opened.token ≠ token → sessionOf tokenId (⟨now, .revokeSession token⟩ :: history) =
        some opened := by
    intro tokenId opened hopened hne
    rw [sessionOf_revoke, hopened]
    exact Option.filter_eq_some_iff.mpr ⟨rfl, decide_eq_true hne⟩
  have hnone : ∀ tokenId, sessionOf tokenId history = none →
      sessionOf tokenId (⟨now, .revokeSession token⟩ :: history) = none := by
    intro tokenId hnone
    rw [sessionOf_revoke, hnone]
    rfl
  rcases revokeSession_cases hrevoke with ⟨tokenId, row, hid, hrow, hverify, rfl⟩ | ⟨rfl, hverify⟩
  · refine ⟨fun tokenId' row' hrow' => ?_, fun tokenId' hnone' => ?_⟩
    · rw [Dict.get?_pop] at hrow'
      split at hrow'
      · cases hrow'
      · rename_i hne
        obtain ⟨opened, salt, hopened, hid', rfl⟩ := h.stored tokenId' row' hrow'
        refine ⟨opened, salt, hother tokenId' opened hopened ?_, hid', rfl⟩
        rintro rfl
        exact hne (Option.some.inj (hid'.tokenId.symm.trans hid))
    · rw [Dict.get?_pop] at hnone'
      split at hnone'
      · rename_i heq
        subst heq
        obtain ⟨opened, salt, hopened, -, rfl⟩ := h.stored tokenId' row hrow
        rw [sessionOf_revoke, hopened, Option.filter_some,
          if_neg (by simpa using (hH _ _ _).mp hverify)]
      · exact hnone tokenId' (h.absent tokenId' hnone')
  · refine ⟨fun tokenId row hrow => ?_, fun tokenId hrow => hnone tokenId (h.absent tokenId hrow)⟩
    obtain ⟨opened, salt, hopened, hid, rfl⟩ := h.stored tokenId row hrow
    refine ⟨opened, salt, hother tokenId opened hopened ?_, hid, rfl⟩
    rintro rfl
    have hfalse := hverify tokenId _ hid.tokenId hrow
    rw [(hH salt opened.token opened.token).mpr rfl] at hfalse
    cases hfalse

/-- One operation. -/
lemma sessionsKept_step (hH : DigestsExact H) (h : SessionsKept H history t)
    (hrun : c.run H t = .ok t') : SessionsKept H (c :: history) t' := by
  obtain ⟨now, op⟩ := c
  cases op with
  | register salt id r =>
    obtain ⟨⟨⟨⟩, t₁⟩, hregister, rfl⟩ := map_eq_ok_iff.mp hrun
    obtain ⟨-, -, rfl⟩ := registerPrincipal_eq_ok hregister
    exact h.frame (fun _ => rfl) rfl
  | changePassword salt id old password =>
    obtain ⟨⟨⟨⟩, t₁⟩, hchange, rfl⟩ := map_eq_ok_iff.mp hrun
    obtain ⟨credential, -, -, -, -, rfl⟩ := changePassword_eq_ok_iff.mp hchange
    exact h.frame (fun _ => rfl) (sessions_requireChange _ _ _)
  | setPassword salt id password =>
    obtain ⟨⟨⟨⟩, t₁⟩, hset, rfl⟩ := map_eq_ok_iff.mp hrun
    obtain ⟨credential, -, -, rfl⟩ := setPassword_eq_ok_iff.mp hset
    exact h.frame (fun _ => rfl) (sessions_requireChange _ _ _)
  | updateIdentity id row =>
    obtain ⟨stored, -, -, rfl⟩ := storePrincipal_eq_ok hrun
    exact h.frame (fun _ => rfl) rfl
  | replacePrincipal id row =>
    obtain ⟨stored, -, -, rfl⟩ := storePrincipal_eq_ok hrun
    exact h.frame (fun _ => rfl) rfl
  | deletePrincipal id =>
    obtain rfl := pure_eq_ok_iff.mp hrun
    exact h.frame (fun _ => rfl) rfl
  | issueSession e snapshot expiresAt =>
    obtain ⟨⟨answer, t₁⟩, hissue, rfl⟩ := map_eq_ok_iff.mp hrun
    exact h.issue hissue
  | revokeSession token =>
    obtain ⟨⟨answer, t₁⟩, hrevoke, rfl⟩ := map_eq_ok_iff.mp hrun
    exact h.revoke hH hrevoke
  | other =>
    obtain rfl := pure_eq_ok_iff.mp hrun
    exact h.frame (fun _ => rfl) rfl

lemma sessionsKept_run (hH : DigestsExact H) (h : AccountRun H history t) :
    SessionsKept H history t := by
  induction h with
  | start =>
    refine ⟨?_, fun _ _ => rfl⟩
    rintro _ _ ⟨⟩
  | call _ c hrun ih => exact sessionsKept_step hH ih hrun

/-! ## What is accepted -/

/-- The principal with an email and a password. -/
lemma exists_authenticate_iff {identity secret : String} (hunique : ∀ id id' row row',
      t.principals.get? id = some row → t.principals.get? id' = some row' →
        row.email = row'.email → id = id') :
    (∃ p, authenticate H identity secret t = some p ∧ p.userId = id) ↔
      ∃ row credential, t.principals.get? id = some row ∧
        row.email = Text.casefold (Text.strip identity) ∧ row.active = true ∧
        t.credentials.get? id = some credential ∧
        H.argon2Verify credential.passwordHash secret = true := by
  unfold authenticate
  constructor
  · rintro ⟨p, hp, rfl⟩
    obtain ⟨⟨id', row⟩, hfind, hp⟩ := Option.bind_eq_some_iff.mp hp
    obtain ⟨credential, hcredential, hp⟩ := Option.bind_eq_some_iff.mp hp
    have hrow := Dict.mem_entries_iff.mp (List.mem_of_find?_eq_some hfind)
    have hemail := List.find?_some hfind
    split at hp
    · cases hp
    · rename_i haccepted
      obtain rfl := Option.some.inj hp
      rw [not_or, Bool.not_eq_false, Bool.not_eq_false] at haccepted
      exact ⟨row, credential, hrow, of_decide_eq_true hemail, haccepted.2, hcredential, haccepted.1⟩
  · rintro ⟨row, credential, hrow, hemail, hactive, hcredential, hverify⟩
    have hfind : t.principals.entries.find?
        (fun e => e.2.email = Text.casefold (Text.strip identity)) = some (id, row) := by
      rcases hfind : t.principals.entries.find?
        (fun e => e.2.email = Text.casefold (Text.strip identity)) with _ | ⟨id', row'⟩
      · have hnone := List.find?_eq_none.mp hfind (id, row) (Dict.mem_entries_iff.mpr hrow)
        exact absurd (decide_eq_true hemail) hnone
      · have hrow' := Dict.mem_entries_iff.mp (List.mem_of_find?_eq_some hfind)
        have hemail' := List.find?_some hfind
        obtain rfl := hunique id id' row row' hrow hrow'
          (hemail.trans (of_decide_eq_true hemail').symm)
        rw [hfind, Option.some.inj (hrow'.symm.trans hrow)]
    have haccepted : ¬ (H.verifySecret credential.passwordHash secret = false ∨
        row.active = false) := by
      rw [SecretHashing.verifySecret, hverify, hactive]
      simp
    refine ⟨
      { userId := id
        identity := row.email
        isAdmin := row.isAdmin
        mustChangePassword := row.mustChangePassword
        permissions := (t.rbac.authorization id).permissions
        visibility := if row.isAdmin then .all else .user }, ?_, rfl⟩
    exact Option.bind_eq_some_iff.mpr ⟨(id, row), hfind, Option.bind_eq_some_iff.mpr
      ⟨credential, hcredential, if_neg haccepted⟩⟩

lemma verifySession_eq_ok {token : String} {v : Verification}
    (h : verifySession H now token t = .ok v) : ∃ tokenId row,
      sessionTokenId token = some tokenId ∧ t.sessions.get? tokenId = some row ∧
      now < row.expiresAt ∧ H.argon2Verify row.tokenDigest token = true ∧
      v = ⟨row.principalSnapshot.principalId, row.principalSnapshot.scopes,
        row.principalSnapshot.owner⟩ := by
  unfold verifySession at h
  rcases hid : sessionTokenId token with _ | tokenId
  · rw [hid] at h
    exact absurd h throw_ne_ok
  rw [hid] at h
  dsimp only at h
  rcases hrow : t.sessions.get? tokenId with _ | row
  · rw [hrow] at h
    exact absurd h throw_ne_ok
  rw [hrow] at h
  dsimp only at h
  split at h
  · exact absurd h throw_ne_ok
  · rename_i hlive
    rw [not_or, not_le, Bool.not_eq_false] at hlive
    exact ⟨tokenId, row, rfl, hrow, hlive.1, hlive.2, (pure_eq_ok_iff.mp h).symm⟩

/-- A session that is open verifies. -/
lemma SessionsKept.verify (hH : DigestsExact H) (h : SessionsKept H history t) {tokenId : String}
    {opened : OpenedSession} (hopened : sessionOf tokenId history = some opened)
    (hexpires : now < opened.expiresAt) : verifySession H now opened.token t =
      .ok ⟨opened.snapshot.principalId, opened.snapshot.scopes, opened.snapshot.owner⟩ := by
  rcases hrow : t.sessions.get? tokenId with _ | row
  · exact absurd ((h.absent tokenId hrow).symm.trans hopened) (by simp)
  obtain ⟨opened', salt, hopened', hid, rfl⟩ := h.stored tokenId row hrow
  obtain rfl := Option.some.inj (hopened.symm.trans hopened')
  have hlive : ¬ (opened.expiresAt ≤ now ∨
      H.verifySecret (H.argon2Hash salt opened.token) opened.token = false) := by
    rw [SecretHashing.verifySecret, (hH salt opened.token opened.token).mpr rfl]
    simpa using hexpires
  unfold verifySession
  rw [hid.tokenId]
  dsimp only
  rw [hrow]
  exact if_neg hlive

lemma SessionsKept.isSessionToken (h : SessionsKept H history t) {tokenId : String}
    {opened : OpenedSession} (hopened : sessionOf tokenId history = some opened) :
    isSessionToken opened.token = true := by
  rcases hrow : t.sessions.get? tokenId with _ | row
  · exact absurd ((h.absent tokenId hrow).symm.trans hopened) (by simp)
  obtain ⟨opened', salt, hopened', hid, rfl⟩ := h.stored tokenId row hrow
  rw [Option.some.inj (hopened.symm.trans hopened')]
  exact hid.session

/-- What a principal has as his password, and what verifies. -/
lemma PasswordsKept.verify_iff (hH : DigestsExact H) (h : PasswordsKept H history t)
    {secret : String} : (∃ credential, t.credentials.get? id = some credential ∧
      H.argon2Verify credential.passwordHash secret = true) ↔ passwordOf id history = some secret := by
  constructor
  · rintro ⟨credential, hcredential, hverify⟩
    obtain ⟨password, salt, hpassword, rfl⟩ := h.stored id credential hcredential
    rw [hpassword, (hH salt password secret).mp hverify]
  · intro hsecret
    rcases hcredential : t.credentials.get? id with _ | credential
    · exact absurd ((h.absent id hcredential).symm.trans hsecret) (by simp)
    · obtain ⟨password, salt, hpassword, rfl⟩ := h.stored id credential hcredential
      obtain rfl := Option.some.inj (hpassword.symm.trans hsecret)
      exact ⟨_, rfl, (hH salt password password).mpr rfl⟩

lemma exists_changePassword_iff (hH : DigestsExact H) (h : PasswordsKept H history t)
    {salt old password : String} : (∃ t', changePassword H salt id old password t = .ok ((), t')) ↔
      passwordOf id history = some old ∧ password ≠ old ∧ passwordLength ≤ password.length := by
  simp only [changePassword_eq_ok_iff]
  rw [← h.verify_iff hH]
  constructor
  · rintro ⟨_, credential, hcredential, hverify, hne, hlength, -⟩
    exact ⟨⟨credential, hcredential, hverify⟩, hne, hlength⟩
  · rintro ⟨⟨credential, hcredential, hverify⟩, hne, hlength⟩
    exact ⟨_, credential, hcredential, hverify, hne, hlength, rfl⟩

/-- The password of a principal, in every run of operations on the tables: a principal is
authenticated by his email and the password that was last set for him, as long as he is active, and
by nothing else; he may change that password, giving it, to another one that is long enough; and his
credential counts the passwords that he has had. -/
theorem password_exact (hH : DigestsExact H) (h : AccountRun H history t) (id : ℕ) :
    (∀ identity secret, (∃ p, authenticate H identity secret t = some p ∧ p.userId = id) ↔
      ∃ row, t.principals.get? id = some row ∧
        row.email = Text.casefold (Text.strip identity) ∧ row.active = true ∧
        passwordOf id history = some secret) ∧
    (∀ salt old password, (∃ t', changePassword H salt id old password t = .ok ((), t')) ↔
      passwordOf id history = some old ∧ password ≠ old ∧ passwordLength ≤ password.length) ∧
    ∀ credential, t.credentials.get? id = some credential →
      credential.passwordVersion = versionOf id history := by
  have hpasswords := passwordsKept_run h
  refine ⟨fun identity secret => ?_, fun _ _ _ => exists_changePassword_iff hH hpasswords,
    fun credential hcredential => ?_⟩
  · rw [exists_authenticate_iff (principalsKept_run h).unique, ← hpasswords.verify_iff hH]
    constructor
    · rintro ⟨row, credential, hrow, hemail, hactive, hcredential, hverify⟩
      exact ⟨row, hrow, hemail, hactive, credential, hcredential, hverify⟩
    · rintro ⟨row, hrow, hemail, hactive, credential, hcredential, hverify⟩
      exact ⟨row, credential, hrow, hemail, hactive, hcredential, hverify⟩
  · obtain ⟨password, salt, -, rfl⟩ := hpasswords.stored id credential hcredential
    rfl

/-- A verified credential resolves to a principal as his row has him. -/
lemma verify_row {token : String} {p : SecurityPrincipal} (h : verify H now token t = (.ok p, t')) :
    ∃ row, t'.principals.get? p.userId = some row ∧ row.active = true ∧
      p.mustChangePassword = row.mustChangePassword := by
  obtain ⟨v, -, hresolve⟩ := verify_eq_ok_iff.mp h
  unfold resolveCredential at hresolve
  obtain ⟨q, hq, hresolve⟩ := bind_eq_ok_iff.mp hresolve
  obtain ⟨A, -, hresolve⟩ := bind_eq_ok_iff.mp hresolve
  obtain rfl := pure_eq_ok_iff.mp hresolve
  unfold resolve at hq
  rcases hrow : t'.principals.get? v.principalId with _ | row
  · rw [hrow] at hq
    exact absurd hq throw_ne_ok
  · rw [hrow] at hq
    dsimp only at hq
    split at hq
    · exact absurd hq throw_ne_ok
    · rename_i hactive
      obtain rfl := pure_eq_ok_iff.mp hq
      exact ⟨row, hrow, by simpa using hactive, rfl⟩

/-- Verifying a credential writes to the tokens, if at all. -/
lemma verify_frame {token : String} {p : SecurityPrincipal}
    (h : verify H now token t = (.ok p, t')) : ∃ pats, t' = { t with pats := pats } := by
  obtain ⟨v, hcredential, -⟩ := verify_eq_ok_iff.mp h
  unfold verifyCredential at hcredential
  split at hcredential
  · rcases hsession : verifySession H now token t with e | v'
    · rw [hsession] at hcredential
      cases hcredential
    · rw [hsession] at hcredential
      obtain ⟨-, rfl⟩ := Prod.mk.inj (Except.ok.inj hcredential)
      exact ⟨t.pats, rfl⟩
  · obtain ⟨tokenId, row, -, -, -, -, -, rfl⟩ := verifyPat_eq_ok hcredential
    exact ⟨_, rfl⟩

/-- What the dependency of a request lets pass. -/
lemma securityDependency_eq_ok_iff {allow : Bool} {token : Option String} {p : SecurityPrincipal} :
    securityDependency H now false allow token t = (.ok p, t') ↔
      ∃ text, token = some text ∧ text ≠ "" ∧ verify H now text t = (.ok p, t') ∧
        "user" ∈ p.scopes ∧ (p.mustChangePassword = true → allow = true) := by
  unfold securityDependency
  split
  · exact iff_of_false Action.raise_ne_ok (by rintro ⟨_, ⟨⟩, -⟩)
  · refine iff_of_false Action.raise_ne_ok ?_
    rintro ⟨_, ⟨⟩, hne, -⟩
    exact hne rfl
  · rename_i text hne
    rw [Action.bind_eq_ok_iff]
    constructor
    · rintro ⟨q, t₁, hq, h⟩
      rw [Action.mapError_eq_ok_iff] at hq
      rw [if_neg (by simp)] at h
      split at h
      · exact absurd h Action.raise_ne_ok
      rename_i huser
      split at h
      · exact absurd h Action.raise_ne_ok
      rename_i hmust
      obtain ⟨rfl, rfl⟩ := Action.pure_eq_ok_iff.mp h
      refine ⟨text, rfl, ?_, hq, by simpa using huser, by simpa using hmust⟩
      rintro rfl
      exact hne rfl
    · rintro ⟨_, ⟨⟩, -, hverify, huser, hmust⟩
      refine ⟨p, t', Action.mapError_eq_ok_iff.mpr hverify, ?_⟩
      rw [if_neg (by simp), if_neg (by simpa using huser), if_neg (by simpa using hmust)]
      exact Action.pure_eq_ok_iff.mpr ⟨rfl, rfl⟩

/-- Behind a verified credential the run goes on. -/
lemma accountRun_verify {token : String} {p : SecurityPrincipal} (h : AccountRun H history t)
    (hverify : verify H now token t = (.ok p, t')) :
    ∃ c, AccountRun H (c :: history) t' ∧ dutyOf p.userId (c :: history) = dutyOf p.userId history ∧
      passwordOf p.userId (c :: history) = passwordOf p.userId history := by
  obtain ⟨pats, rfl⟩ := verify_frame hverify
  exact ⟨⟨now, .other t.rbac t.enrollments t.recoveryCodes pats⟩, h.call _ rfl, rfl, rfl⟩

/-- How the endpoint ends that changes a password. -/
lemma exists_changeBootstrapPassword_iff {salt : String} {current password session : Option String}
    {p : SecurityPrincipal} (hmust : p.mustChangePassword = true) :
    (∃ t', changeBootstrapPassword H salt current password session p t = (.ok (), t')) ↔
      ∃ old new, current = some old ∧ password = some new ∧
        ∃ t', changePassword H salt p.userId old new t = .ok ((), t') := by
  unfold changeBootstrapPassword
  rw [if_neg (by rw [hmust]; decide)]
  rcases current with _ | old
  · refine iff_of_false ?_ (by rintro ⟨_, _, ⟨⟩, -⟩)
    rintro ⟨t', h⟩
    exact Action.raise_ne_ok h
  rcases password with _ | new
  · refine iff_of_false ?_ (by rintro ⟨_, _, -, ⟨⟩, -⟩)
    rintro ⟨t', h⟩
    exact Action.raise_ne_ok h
  dsimp only
  constructor
  · rintro ⟨t', h⟩
    obtain ⟨⟨⟩, t₁, hchange, -⟩ := Action.bind_eq_ok_iff.mp h
    exact ⟨old, new, rfl, rfl, t₁, Action.transaction_eq_ok_iff.mp hchange⟩
  · rintro ⟨_, _, ⟨⟩, ⟨⟩, t₁, hchange⟩
    simp only [Action.bind_eq_ok_iff]
    have hfirst := Action.transaction_eq_ok_iff.mpr hchange
    -- taking the session back does not raise
    rcases session.filter (· ≠ "") with _ | text
    · exact ⟨t₁, (), t₁, hfirst, rfl⟩
    · obtain ⟨revoked, t₂, hrevoke⟩ := exists_revokeSession (H := H) text t₁
      refine ⟨t₂, (), t₁, hfirst, ?_⟩
      exact Action.bind_eq_ok_iff.mpr
        ⟨revoked, t₂, Action.transaction_eq_ok_iff.mpr hrevoke, rfl⟩

/-- Who has to change his password, in every run.  As long as the history says that a principal has
to, no request passes the dependency of the endpoints in his name, be it with a session or a token,
and whenever that was opened; the endpoint that changes the password lets him pass, and changes it
if and only if he gives his password, and another one that is long enough. -/
theorem forced_change (hH : DigestsExact H) (h : AccountRun H history t)
    (hduty : dutyOf id history = true) :
    (∀ now token p t', principalFromBearer H now token t = (.ok p, t') → p.userId ≠ id) ∧
    ∀ now token p t', principalForPasswordChange H now token t = (.ok p, t') → p.userId = id →
      ∀ salt current password session,
        (∃ t'', changeBootstrapPassword H salt current password session p t' = (.ok (), t'')) ↔
          ∃ old new, current = some old ∧ password = some new ∧
            passwordOf id history = some old ∧ new ≠ old ∧ passwordLength ≤ new.length := by
  have hmust : ∀ now token p t', verify H now token t = (.ok p, t') → p.userId = id →
      p.mustChangePassword = true := by
    rintro now token p t' hverify rfl
    obtain ⟨c, hrun, hsame, -⟩ := accountRun_verify h hverify
    obtain ⟨row, hrow, -, hflag⟩ := verify_row hverify
    rw [hflag, (principalsKept_run hrun).duty _ row hrow, hsame, hduty]
  refine ⟨fun now token p t' hpass hid => ?_, fun now token p t' hpass hid => ?_⟩
  · obtain ⟨text, -, -, hverify, -, hallow⟩ := securityDependency_eq_ok_iff.mp hpass
    exact absurd (hallow (hmust now text p t' hverify hid)) Bool.false_ne_true
  · intro salt current password session
    obtain ⟨text, -, -, hverify, -, -⟩ := securityDependency_eq_ok_iff.mp hpass
    obtain ⟨c, hrun, -, hpassword⟩ := accountRun_verify h hverify
    rw [exists_changeBootstrapPassword_iff (hmust now text p t' hverify hid)]
    simp only [exists_changePassword_iff hH (passwordsKept_run hrun)]
    rw [hpassword, hid]

/-- The sessions, in every run of operations on the tables: a text is accepted as that of a session
if and only if a session with that text has been opened, has not been taken back since, and has not
expired; and it stands for the principal that it was opened for.  A session with the scope of an
account passes the dependency of the endpoints exactly while its principal is active and need not
change his password.  No change of a password ends a session. -/
theorem session_exact (hH : DigestsExact H) (h : AccountRun H history t) (now : ℤ)
    (token : String) :
    (∀ v, verifySession H now token t = .ok v ↔ ∃ tokenId opened,
      sessionOf tokenId history = some opened ∧ opened.token = token ∧ now < opened.expiresAt ∧
        v = ⟨opened.snapshot.principalId, opened.snapshot.scopes, opened.snapshot.owner⟩) ∧
    ∀ tokenId opened, sessionOf tokenId history = some opened → opened.token = token →
      now < opened.expiresAt → opened.snapshot.scopes = [fullAccountScope] →
      ((∃ p t', principalFromBearer H now (some token) t = (.ok p, t')) ↔
        Active t opened.snapshot.principalId ∧
          dutyOf opened.snapshot.principalId history = false) := by
  have hsessions := sessionsKept_run hH h
  refine ⟨fun v => ⟨fun hv => ?_, ?_⟩, fun tokenId opened hopened htoken hexpires hscopes => ?_⟩
  · obtain ⟨tokenId, row, hid, hrow, hlive, hverify, rfl⟩ := verifySession_eq_ok hv
    obtain ⟨opened, salt, hopened, -, rfl⟩ := hsessions.stored tokenId row hrow
    exact ⟨tokenId, opened, hopened, (hH _ _ _).mp hverify, hlive, rfl⟩
  · rintro ⟨tokenId, opened, hopened, rfl, hexpires, rfl⟩
    exact hsessions.verify hH hopened hexpires
  · subst htoken
    have hcredential : verifyCredential H now opened.token t =
        .ok (⟨opened.snapshot.principalId, opened.snapshot.scopes, opened.snapshot.owner⟩, t) := by
      rw [verifyCredential, if_pos (hsessions.isSessionToken hopened),
        hsessions.verify hH hopened hexpires]
      rfl
    constructor
    · rintro ⟨p, t', hpass⟩
      obtain ⟨text, ⟨⟩, -, hverify, -, hmust⟩ := securityDependency_eq_ok_iff.mp hpass
      obtain ⟨v, hv, hresolve⟩ := verify_eq_ok_iff.mp hverify
      obtain ⟨rfl, rfl⟩ := Prod.mk.inj (Except.ok.inj (hcredential.symm.trans hv))
      obtain ⟨row, hrow, hactive, hflag⟩ := verify_row hverify
      have hid := (resolveCredential_spec hresolve).1
      dsimp only at hid
      rw [hid] at hrow
      refine ⟨⟨row, hrow, hactive⟩, ?_⟩
      rw [← (principalsKept_run h).duty _ row hrow, ← hflag]
      exact Bool.eq_false_iff.mpr fun hflag => Bool.false_ne_true (hmust hflag)
    · rintro ⟨hactive, hduty⟩
      obtain ⟨p, hresolve, hid, huser⟩ := resolveCredential_user
        (v := ⟨opened.snapshot.principalId, opened.snapshot.scopes, opened.snapshot.owner⟩)
        hscopes hactive
      have hverify : verify H now opened.token t = (.ok p, t) :=
        verify_eq_ok_iff.mpr ⟨_, hcredential, hresolve⟩
      refine ⟨p, t, securityDependency_eq_ok_iff.mpr ⟨_, rfl, ?_, hverify, ?_, fun hmust => ?_⟩⟩
      · intro hempty
        have hsession := hsessions.isSessionToken hopened
        rw [hempty] at hsession
        exact absurd hsession (by decide)
      · rw [huser]
        exact FrozenSet.mem_single.mpr rfl
      · obtain ⟨row, hrow, -, hflag⟩ := verify_row hverify
        rw [hid] at hrow
        rw [hflag, (principalsKept_run h).duty _ row hrow, hduty] at hmust
        cases hmust

/-! ### A password that is reset -/

lemma digestsExact_plainHashing : DigestsExact plainHashing := by
  intro salt secret secret'
  simp [plainHashing, eq_comm]

/-- Somebody registers, logs in, and has his password reset. -/
def resetHistory : List AccountCall :=
  [ ⟨20, .setPassword "" 1 "second password"⟩,
    ⟨10, .issueSession mintedEntropy
      { principalId := 1
        email := "a@b"
        displayName := ""
        isAdmin := false
        mustChangePassword := false
        permissions := Dict.empty
        scopes := ["user"]
        visibility := .user
        owner := none } 900⟩,
    ⟨0, .register "" 1 { email := "a@b", password := "first password" }⟩ ]

/-- The tables behind that. -/
def resetTables : IdentityTables :=
  ((AccountCall.runAll plainHashing resetHistory).toOption).getD .empty

lemma accountRun_resetTables : AccountRun plainHashing resetHistory resetTables :=
  accountRun_of_runAll (eq_getD_of_isSome (by decide))

/-- He is authenticated by the second password. -/
theorem password_exact_reset :
    ∃ p, authenticate plainHashing "A@b" "second password" resetTables = some p ∧ p.userId = 1 := by
  refine ((password_exact digestsExact_plainHashing accountRun_resetTables 1).1 _ _).mpr
    ⟨_, rfl, ?_, ?_, rfl⟩
  · decide
  · decide

/-- He has to change it before anything else. -/
theorem forced_change_reset : principalFromBearer plainHashing 100 (some "pws_bb_t") resetTables ≠
    (.ok { userId := 1, identity := "a@b" }, resetTables) := fun h =>
  (forced_change digestsExact_plainHashing accountRun_resetTables rfl).1 100 _ _ _ h rfl

/-- His session is still open. -/
theorem session_exact_reset :
    ∃ v, verifySession plainHashing 100 "pws_bb_t" resetTables = .ok v ∧ v.principalId = 1 := by
  refine ⟨_, ((session_exact digestsExact_plainHashing accountRun_resetTables 100 "pws_bb_t").1
    _).mpr ⟨"bb", _, rfl, by decide, by decide, rfl⟩, rfl⟩

end Portwyrm.Identity

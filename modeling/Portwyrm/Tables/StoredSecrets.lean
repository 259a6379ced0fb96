import Portwyrm.Tables.AccessLists
import Portwyrm.Tables.UserAuthority

/-!
# Passwords in stored rows

Two runs of a write of a user or an access list that differ only in the passwords supplied, with
hashes that are the same in both.  An access list keeps nothing of its passwords, and neither does
a new user; an update and a replacement of a user keep the password of the payload next to the
columns of its row.
-/

namespace Portwyrm.Tables

open Base Portwyrm.Runtime Portwyrm.Identity

/-! ## Writes -/

/-- The tables of users and access lists. -/
structure SecretTables where
  users : UserTables
  access : AccessTables

/-- The hash functions of a run, with the salts they draw. -/
structure Digests where
  /-- `hash_secret`. -/
  user : String → String
  /-- `_bcrypt_hash`, for the credential at a position. -/
  access : ℕ → String → String

/-- A write of `TableResources`. -/
inductive WriteKind
  | create
  | update (id : ℕ)
  | replace (id : ℕ)

/-- A write of a user or an access list. -/
inductive SecretWrite
  | user (kind : WriteKind) (payload : Document)
  | accessList (kind : WriteKind) (payload : AccessListPayload)

section Run

variable (unnamed : Bool → Bool) (actor : Actor) (digests : Digests)

/-- A write of a user. -/
def runUser (kind : WriteKind) (payload : Document) (t : UserTables) :
    Result (Option UserTables) :=
  match kind with
  | .create => (fun created => some created.2) <$> createUser digests.user payload t
  | .update id => updateUser id payload t
  | .replace id => replaceUser unnamed actor id payload t

/-- A write of an access list. -/
def runAccessList (kind : WriteKind) (payload : AccessListPayload) (t : AccessTables) :
    Result AccessTables :=
  match kind with
  | .create => createAccessList digests.access actor payload t
  | .update id => updateAccessList digests.access actor id payload t
  | .replace id => replaceAccessList digests.access actor id payload t

/-- The tables after a write; nothing, when the user is not there. -/
def SecretWrite.run (w : SecretWrite) (t : SecretTables) : Result (Option SecretTables) :=
  match w with
  | .user kind payload =>
    (Option.map fun users => { t with users := users }) <$>
      runUser unnamed actor digests kind payload t.users
  | .accessList kind payload =>
    (fun access => some { t with access := access }) <$>
      runAccessList actor digests kind payload t.access

end Run

/-! ## Writes that differ in passwords -/

section Alike

variable (digests digests' : Digests)

/-- Two texts are the same password to two runs: none, the same hash, or two plain passwords with
one hash. -/
def TextAlike (s s' : String) : Prop :=
  s = "" ∧ s' = "" ∨ isBcrypt s = true ∧ s' = s ∨
    (s ≠ "" ∧ isBcrypt s = false) ∧ (s' ≠ "" ∧ isBcrypt s' = false) ∧
      ∀ position, digests.access position s = digests'.access position s'

/-- Two credentials differ only in the passwords they supply. -/
structure CredentialAlike (c c' : CredentialPayload) : Prop where
  username : c'.username = c.username
  supplied : TextAlike digests digests' c.supplied c'.supplied

/-- Two payloads for an access list differ only in passwords. -/
structure AccessListAlike (payload payload' : AccessListPayload) : Prop where
  items : Option.Rel (Option.Rel (List.Forall₂ (CredentialAlike digests digests')))
    payload.items payload'.items
  credentials : Option.Rel (Option.Rel (List.Forall₂ (CredentialAlike digests digests')))
    payload.credentials payload'.credentials
  rest : { payload' with items := none, credentials := none } =
    { payload with items := none, credentials := none }

/-- A payload for a user supplies a plain password. -/
def SuppliesPassword (payload : Document) (password : String) : Prop :=
  payload.get? "password" = some (.text password) ∧ isBcrypt password = false

/-- Two payloads for a user differ only in the password. -/
inductive UserAlike : Document → Document → Prop
  | none {payload : Document} (h : ∀ password, payload.get? "password" ≠ some (.text password)) :
      UserAlike payload payload
  | password {payload : Document} {p p' : String} (h : SuppliesPassword payload p)
      (h' : isBcrypt p' = false) (hdigest : digests.user p = digests'.user p') :
      UserAlike payload (payload.set "password" (.text p'))

/-- Two writes differ only in passwords. -/
inductive SecretWrite.Alike : SecretWrite → SecretWrite → Prop
  | user (kind : WriteKind) {payload payload' : Document}
      (h : UserAlike digests digests' payload payload') : Alike (.user kind payload) (.user kind payload')
  | accessList (kind : WriteKind) {payload payload' : AccessListPayload}
      (h : AccessListAlike digests digests' payload payload') :
      Alike (.accessList kind payload) (.accessList kind payload')

end Alike

/-- Two tables have the same rows, and the API returns the same of them. -/
structure SameRecords (t t' : SecretTables) : Prop where
  rows : t = t'
  users : ∀ id, getUser t.users id = getUser t'.users id
  accessLists : ∀ id, (t.access.lists.get? id).map (projectAccessList t.access id) =
    (t'.access.lists.get? id).map (projectAccessList t'.access id)

lemma sameRecords_of_eq {t t' : SecretTables} (h : t = t') : SameRecords t t' := by
  subst h
  exact ⟨rfl, fun _ => rfl, fun _ => rfl⟩

/-! ## Access lists keep no password -/

section AccessLists

variable {digests digests' : Digests}

/-- A credential of an aggregate, and one that is alike. -/
def PairAlike (digests digests' : Digests) (c c' : String × String) : Prop :=
  c'.1 = c.1 ∧ TextAlike digests digests' c.2 c'.2

/-- Passwords that are alike get the same hash. -/
lemma credentialHash_alike (existing : Dict String String) {c c' : String × String} (position : ℕ)
    (h : PairAlike digests digests' c c') :
    credentialHash digests'.access existing (c', position) =
      credentialHash digests.access existing (c, position) := by
  obtain ⟨username, s⟩ := c
  obtain ⟨username', s'⟩ := c'
  obtain ⟨rfl, ⟨rfl, rfl⟩ | ⟨hhash, rfl⟩ | ⟨⟨hne, hplain⟩, ⟨hne', hplain'⟩, hdigest⟩⟩ := h
  · simp [credentialHash]
  · simp [credentialHash, hhash]
  · simp only [credentialHash, hne, hplain, hne', hplain', ne_eq, not_false_eq_true, and_self,
      if_true, hdigest]

/-- Credentials that are alike are added as the same rows. -/
lemma foldlM_addCredential_alike (id : ℕ) (existing : Dict String String)
    {l l' : List (String × String)} (h : List.Forall₂ (PairAlike digests digests') l l') :
    ∀ (position : ℕ) (rows : Table AccessCredentialRow),
      (l'.zipIdx position).foldlM (addCredential digests'.access id existing) rows =
        (l.zipIdx position).foldlM (addCredential digests.access id existing) rows := by
  induction h with
  | nil => exact fun _ _ => rfl
  | @cons c c' l l' hc _ ih =>
    intro position rows
    have hadd : addCredential digests'.access id existing rows (c', position) =
        addCredential digests.access id existing rows (c, position) := by
      simp only [addCredential, credentialHash_alike existing position hc, hc.1]
    rw [List.zipIdx_cons, List.zipIdx_cons, List.foldlM_cons, List.foldlM_cons, hadd]
    exact congrArg _ (funext fun rows => ih (position + 1) rows)

lemma replaceChildren_alike (id : ℕ) (t : AccessTables) {payload payload' : AccessPayload}
    (hclients : payload'.clients = payload.clients)
    (h : List.Forall₂ (PairAlike digests digests') payload.credentials payload'.credentials) :
    replaceChildren digests'.access id payload' t = replaceChildren digests.access id payload t := by
  simp only [replaceChildren, hclients]
  exact congrArg _ (funext fun rules => by rw [foldlM_addCredential_alike id _ h 0])

lemma rel_or {α : Type} {R : α → α → Prop} {a a' b b' : Option α} (ha : Option.Rel R a a')
    (hb : Option.Rel R b b') : Option.Rel R (a.or b) (a'.or b') := by
  cases ha with
  | none => exact hb
  | some h => exact .some h

lemma forall₂_members {α : Type} {R : α → α → Prop} {a a' : Member (List α)}
    (h : Option.Rel (Option.Rel (List.Forall₂ R)) a a') :
    List.Forall₂ R (a.get.getD []) (a'.get.getD []) := by
  cases h with
  | none => exact .nil
  | some h =>
    cases h with
    | none => exact .nil
    | some h => exact h

section Payload

variable {payload payload' : AccessListPayload} (h : AccessListAlike digests digests' payload payload')
include h

lemma accessListRow_alike : accessListRow payload' = accessListRow payload := by
  have hrow := congrArg accessListRow h.rest
  exact hrow

lemma replaceChildren_aggregate_alike (id : ℕ) (t : AccessTables) :
    replaceChildren digests'.access id payload'.aggregate t =
      replaceChildren digests.access id payload.aggregate t := by
  refine replaceChildren_alike id t ?_ ?_
  · have hclients := congrArg AccessListPayload.clients h.rest
    exact congrArg (fun clients : Member _ => clients.get.getD []) hclients
  · refine List.forall₂_map_left_iff.mpr (List.forall₂_map_right_iff.mpr ?_)
    refine (forall₂_members (rel_or h.items h.credentials)).imp fun c c' hc => ⟨?_, hc.supplied⟩
    rw [hc.username]

/-- Over what the API returns of a row, payloads that are alike stay alike. -/
lemma over_projectAccessList_alike (t : AccessTables) (id : ℕ) (row : AccessListRow) :
    AccessListAlike digests digests' (payload.over (projectAccessList t id row))
      (payload'.over (projectAccessList t id row)) where
  items := by
    refine rel_or h.items (.some (.some (List.forall₂_same.mpr fun c hc => ?_)))
    obtain ⟨r, -, rfl⟩ := List.mem_map.mp hc
    exact ⟨rfl, .inl ⟨rfl, rfl⟩⟩
  credentials := rel_or h.credentials .none
  rest := by
    have hover := congrArg (fun p => AccessListPayload.over p (projectAccessList t id row)) h.rest
    exact congrArg (fun p : AccessListPayload => { p with items := none, credentials := none }) hover

/-- Writes that are alike have the same outcome. -/
theorem runAccessList_alike (actor : Actor) (kind : WriteKind) (t : AccessTables) :
    runAccessList actor digests' kind payload' t = runAccessList actor digests kind payload t := by
  have hstore : ∀ (id : ℕ) (stored : AccessListRow) {p p' : AccessListPayload}
      (hmem : id ∈ t.lists.rows), AccessListAlike digests digests' p p' →
      storeAccessList digests'.access actor id stored p' t hmem =
        storeAccessList digests.access actor id stored p t hmem := by
    intro id stored p p' hmem halike
    simp only [storeAccessList, accessListRow_alike halike,
      replaceChildren_aggregate_alike halike]
  cases kind with
  | create =>
    simp only [runAccessList, createAccessList, accessListRow_alike h,
      replaceChildren_aggregate_alike h]
  | update id =>
    simp only [runAccessList, updateAccessList]
    split
    · rfl
    · rename_i stored _
      exact hstore id stored _ (over_projectAccessList_alike h t id stored)
  | replace id =>
    simp only [runAccessList, replaceAccessList]
    split
    · rfl
    · rename_i stored _
      exact hstore id stored _ h

end Payload

end AccessLists

/-! ## Users -/

/-- Two documents agree but for the password. -/
def AgreeButPassword (d d' : Document) : Prop := ∀ k ≠ "password", d'.get? k = d.get? k

section Users

variable {d d' : Document}

lemma agree_set_password (d : Document) (v : Json) : AgreeButPassword d (d.set "password" v) :=
  fun _ hk => Dict.get?_set_of_ne d v hk

lemma agree_update (current : Document) (h : AgreeButPassword d d') :
    AgreeButPassword (current.update d) (current.update d') := by
  intro k hk
  rw [Dict.get?_update, Dict.get?_update, h k hk]

section Members

variable (h : AgreeButPassword d d')
include h

lemma flagMember_agree (key : String) (hkey : key ≠ "password") :
    flagMember d' key = flagMember d key := by
  rw [flagMember, h key hkey, flagMember]

lemma textMember_agree (key default : String) (hkey : key ≠ "password") :
    textMember d' key default = textMember d key default := by
  rw [textMember, h key hkey, textMember]

lemma nameMember_agree : nameMember d' = nameMember d := by
  rw [nameMember, h "name" (by decide), h "display_name" (by decide), nameMember]

lemma rolesMember_agree : rolesMember d' = rolesMember d := by
  rw [rolesMember, h "roles" (by decide), rolesMember]

lemma permissionsMember_agree : permissionsMember d' = permissionsMember d := by
  rw [permissionsMember, h "permissions" (by decide), permissionsMember]

/-- The columns of a user do not depend on the password; what is kept next to them does. -/
lemma userValues_agree {v : UserValues} (hv : userValues d = .ok v) :
    v.compat = compatMembers d ∧
      userValues d' = .ok { v with compat := compatMembers d' } := by
  unfold userValues at hv ⊢
  rw [h "email" (by decide)]
  split at hv
  · exact absurd hv throw_ne_ok
  · obtain rfl := pure_eq_ok_iff.mp hv
    refine ⟨rfl, ?_⟩
    simp only [nameMember_agree h, textMember_agree h "nickname" "" (by decide),
      textMember_agree h "visibility" "user" (by decide), flagMember_agree h "is_admin" (by decide),
      flagMember_agree h "is_disabled" (by decide), flagMember_agree h "is_deleted" (by decide)]
    rfl

end Members

/-- What a row keeps next to its columns. -/
def keptMembers (t : UserTables) (id : ℕ) : Option Document :=
  (t.principals.get? id).map fun row => row.compat

variable {id : ℕ} {t u : UserTables}

lemma keptMembers_setRow {row : UserRow} {hmem : id ∈ t.principals.rows} {rbac : RbacTables} :
    keptMembers { t with principals := t.principals.setRow id row hmem, rbac := rbac } id =
      some row.compat := by
  rw [keptMembers, Table.get?_setRow, if_pos rfl, Option.map_some]

/-- An update whose candidate has another password is accepted, and the row keeps the members of
the candidate. -/
lemma writeUser_agree (h : AgreeButPassword d d') (hwrite : writeUser id d t = .ok u) :
    keptMembers u id = some (compatMembers d) ∧
      ∃ u', writeUser id d' t = .ok u' ∧ keptMembers u' id = some (compatMembers d') := by
  simp only [writeUser, bind_eq_ok_iff] at hwrite
  obtain ⟨v, hv, roles, hroles, permissions, hpermissions, hupdate⟩ := hwrite
  obtain ⟨hcompat, hv'⟩ := userValues_agree h hv
  unfold updateIdentity at hupdate
  split at hupdate
  · exact absurd hupdate throw_ne_ok
  · rename_i stored hstored
    simp only [bind_eq_ok_iff, pure_eq_ok_iff] at hupdate
    obtain ⟨_, hemail, rfl⟩ := hupdate
    refine ⟨by rw [keptMembers_setRow, hcompat], ?_⟩
    simp only [writeUser, hv', rolesMember_agree h, permissionsMember_agree h, hroles, hpermissions,
      ok_bind]
    unfold updateIdentity
    split
    · rename_i hnone
      rw [hstored] at hnone
      exact absurd hnone (by simp)
    · dsimp only
      rw [hemail]
      exact ⟨_, rfl, keptMembers_setRow⟩

/-- A replacement by a document with another password is accepted, and the row keeps the members
of the document. -/
lemma replaceUser_agree {unnamed : Bool → Bool} {actor : Actor} (h : AgreeButPassword d d')
    (hreplace : replaceUser unnamed actor id d t = .ok (some u)) :
    keptMembers u id = some (compatMembers (d.set "id" (.number id))) ∧
      ∃ u', replaceUser unnamed actor id d' t = .ok (some u') ∧
        keptMembers u' id = some (compatMembers (d'.set "id" (.number id))) := by
  have hid : AgreeButPassword (d.set "id" (.number id)) (d'.set "id" (.number id)) := by
    intro k hk
    rw [Dict.get?_set, Dict.get?_set, h k hk]
  unfold replaceUser at hreplace ⊢
  split at hreplace
  · exact absurd (pure_eq_ok_iff.mp hreplace) (by simp)
  · rename_i stored hstored
    simp only [bind_eq_ok_iff, pure_eq_ok_iff, Option.some.injEq] at hreplace
    obtain ⟨v, hv, _, hactor, _, hemail, rfl⟩ := hreplace
    obtain ⟨hcompat, hv'⟩ := userValues_agree hid hv
    refine ⟨by rw [← hcompat]; exact keptMembers_setRow, ?_⟩
    rw [hv', ok_bind, hactor, ok_bind, hemail]
    exact ⟨_, rfl, keptMembers_setRow⟩

/-- The password is no key that is dropped. -/
lemma get?_compatMembers_password (d : Document) :
    (compatMembers d).get? "password" = d.get? "password" := by
  rw [compatMembers, Dict.get?_foldl_pop, if_neg (by decide)]

/-- A new user of a payload with another password of the same hash. -/
lemma createUser_set_password {digests digests' : Digests} {p p' : String} {a a' : ℕ × UserTables}
    (hp : d.get? "password" = some (.text p)) (hdigest : digests.user p = digests'.user p')
    (h : createUser digests.user d t = .ok a)
    (h' : createUser digests'.user (d.set "password" (.text p')) t = .ok a') : a' = a := by
  have hagree := agree_set_password d (.text p')
  simp only [createUser, register, hp, Dict.get?_set_self, hagree "email" (by decide),
    hagree "nickname" (by decide), nameMember_agree hagree, rolesMember_agree hagree,
    permissionsMember_agree hagree, flagMember_agree hagree "is_admin" (by decide),
    flagMember_agree hagree "must_change_password" (by decide), Dict.pop_set, Option.getD_some,
    schemaText, bind_eq_ok_iff, pure_eq_ok_iff] at h h'
  obtain ⟨-, -, -, -, email, hemail, password, rfl, name, hname, nickname, hnickname, roles, hroles,
    permissions, hpermissions, -, -, -, -, -, -, rfl⟩ := h
  obtain ⟨-, -, -, -, email', hemail', password', rfl, name', hname', nickname', hnickname', roles',
    hroles', permissions', hpermissions', -, -, -, -, -, -, rfl⟩ := h'
  obtain rfl := Except.ok.inj (hemail.symm.trans hemail')
  obtain rfl := Except.ok.inj (hname.symm.trans hname')
  obtain rfl := Except.ok.inj (hnickname.symm.trans hnickname')
  obtain rfl := Except.ok.inj (hroles.symm.trans hroles')
  obtain rfl := Except.ok.inj (hpermissions.symm.trans hpermissions')
  rw [hdigest]

/-- A user is created with a text for its password. -/
lemma password_of_createUser {digest : String → String} {a : ℕ × UserTables}
    (h : createUser digest d t = .ok a) : ∃ p, d.get? "password" = some (.text p) := by
  obtain ⟨password, -, -, -, hgiven, hpassword, -⟩ := createUser_spec h
  cases hget : d.get? "password" with
  | none => exact absurd hget hgiven
  | some v =>
    rw [hget, Option.getD_some] at hpassword
    cases v with
    | text p => exact ⟨p, rfl⟩
    | _ => exact absurd hpassword throw_ne_ok

/-- An update or a replacement that supplies a password is accepted with every other password, and
the row tells them apart. -/
lemma runUser_tells_password {unnamed : Bool → Bool} {actor : Actor} {digests : Digests}
    {kind : WriteKind} {p : String} (hkind : kind ≠ .create)
    (hp : d.get? "password" = some (.text p))
    (h : runUser unnamed actor digests kind d t = .ok (some u)) (digests' : Digests) (p' : String) :
    ∃ u', runUser unnamed actor digests' kind (d.set "password" (.text p')) t = .ok (some u') ∧
      (u' = u → p' = p) := by
  have hagree := agree_set_password d (.text p')
  have htell : ∀ {e e' : Document}, e.get? "password" = some (.text p) →
      e'.get? "password" = some (.text p') → compatMembers e' = compatMembers e → p' = p := by
    intro e e' he he' heq
    have hget := congrArg (fun c : Document => c.get? "password") heq
    rw [get?_compatMembers_password, get?_compatMembers_password, he, he'] at hget
    exact Json.text.inj (Option.some.inj hget)
  cases kind with
  | create => exact absurd rfl hkind
  | update id =>
    simp only [runUser, updateUser] at h ⊢
    split at h
    · exact absurd (pure_eq_ok_iff.mp h) (by simp)
    · rename_i current hcurrent
      obtain ⟨written, hwritten, heq⟩ := map_eq_ok_iff.mp h
      obtain rfl := Option.some.inj heq
      obtain ⟨hkept, u', hwrite', hkept'⟩ := writeUser_agree (agree_update current hagree) hwritten
      refine ⟨u', by rw [hwrite']; rfl, fun hsame => ?_⟩
      rw [hsame, hkept, Option.some.injEq] at hkept'
      refine htell ?_ ?_ hkept'.symm
      · rw [Dict.get?_update, hp, Option.some_or]
      · rw [Dict.get?_update, Dict.get?_set_self, Option.some_or]
  | replace id =>
    simp only [runUser] at h ⊢
    obtain ⟨hkept, u', hreplace', hkept'⟩ := replaceUser_agree hagree h
    refine ⟨u', hreplace', fun hsame => ?_⟩
    rw [hsame, hkept, Option.some.injEq] at hkept'
    refine htell ?_ ?_ hkept'.symm
    · rw [Dict.get?_set_of_ne _ _ (by decide), hp]
    · rw [Dict.get?_set_of_ne _ _ (by decide), Dict.get?_set_self]

end Users

/-! ## Which writes keep passwords out -/

/-- A write that updates or replaces a user supplies no plain password. -/
def SecretWrite.NamesNoPassword : SecretWrite → Prop
  | .user (.update _) payload | .user (.replace _) payload => ∀ p, ¬ SuppliesPassword payload p
  | _ => True

/-- Some other plain password. -/
def otherPassword (p : String) : String := if p = "first" then "second" else "first"

lemma otherPassword_spec (p : String) : isBcrypt (otherPassword p) = false ∧ otherPassword p ≠ p := by
  unfold otherPassword
  split
  · rename_i h
    rw [h]
    decide
  · rename_i h
    exact ⟨by decide, fun heq => h heq.symm⟩

/-- Hashes that are the same for all passwords. -/
def sameDigests : Digests := ⟨fun _ => "$argon2id$", fun _ _ => "$2b$"⟩

section Outcomes

variable {unnamed : Bool → Bool} {actor : Actor} {t : SecretTables}

/-- Two runs of a write that supplies no password along a route that would keep it. -/
lemma eq_of_namesNoPassword {w w' : SecretWrite} {digests digests' : Digests} {r r' : SecretTables}
    (hw : w.NamesNoPassword) (halike : w.Alike digests digests' w')
    (h : w.run unnamed actor digests t = .ok (some r))
    (h' : w'.run unnamed actor digests' t = .ok (some r')) : r = r' := by
  cases halike with
  | accessList kind hpayload =>
    simp only [SecretWrite.run, runAccessList_alike hpayload, map_eq_ok_iff, Option.some.injEq]
      at h h'
    obtain ⟨access, haccess, rfl⟩ := h
    obtain ⟨access', haccess', rfl⟩ := h'
    rw [Except.ok.inj (haccess.symm.trans haccess')]
  | user kind hpayload =>
    simp only [SecretWrite.run, map_eq_ok_iff, Option.map_eq_some_iff] at h h'
    obtain ⟨written, hwritten, users, rfl, rfl⟩ := h
    obtain ⟨written', hwritten', users', rfl, rfl⟩ := h'
    suffices heq : users = users' by rw [heq]
    cases kind with
    | create =>
      simp only [runUser, map_eq_ok_iff, Option.some.injEq] at hwritten hwritten'
      obtain ⟨a, ha, rfl⟩ := hwritten
      obtain ⟨a', ha', rfl⟩ := hwritten'
      cases hpayload with
      | none hnone =>
        obtain ⟨p, hp⟩ := password_of_createUser ha
        exact absurd hp (hnone p)
      | password hp _ hdigest => rw [createUser_set_password hp.1 hdigest ha ha']
    | update id =>
      cases hpayload with
      | none _ => exact Option.some.inj (Except.ok.inj (hwritten.symm.trans hwritten'))
      | password hp _ _ => exact absurd hp (hw _)
    | replace id =>
      cases hpayload with
      | none _ => exact Option.some.inj (Except.ok.inj (hwritten.symm.trans hwritten'))
      | password hp _ _ => exact absurd hp (hw _)

/-- A write that supplies a password along a route that keeps it has two runs that differ. -/
lemma exists_ne_of_suppliesPassword {kind : WriteKind} {payload : Document} {p : String}
    {digests : Digests} {r : SecretTables} (hkind : kind ≠ .create)
    (hp : SuppliesPassword payload p)
    (h : (SecretWrite.user kind payload).run unnamed actor digests t = .ok (some r)) :
    ∃ r₁ w' r₂, (SecretWrite.user kind payload).Alike sameDigests sameDigests w' ∧
      (SecretWrite.user kind payload).run unnamed actor sameDigests t = .ok (some r₁) ∧
      w'.run unnamed actor sameDigests t = .ok (some r₂) ∧ r₁ ≠ r₂ := by
  simp only [SecretWrite.run, map_eq_ok_iff, Option.map_eq_some_iff] at h
  obtain ⟨_, hwritten, users, rfl, rfl⟩ := h
  have hsame : runUser unnamed actor sameDigests kind payload t.users = .ok (some users) := by
    cases kind with
    | create => exact absurd rfl hkind
    | update id => exact hwritten
    | replace id => exact hwritten
  obtain ⟨hplain, hne⟩ := otherPassword_spec p
  obtain ⟨users', hother, htells⟩ :=
    runUser_tells_password hkind hp.1 hsame sameDigests (otherPassword p)
  refine ⟨{ t with users := users }, .user kind (payload.set "password" (.text (otherPassword p))),
    { t with users := users' }, .user kind (.password hp hplain rfl), ?_, ?_, fun heq => ?_⟩
  · rw [SecretWrite.run, hsame]
    rfl
  · rw [SecretWrite.run, hother]
    rfl
  · exact hne (htells (congrArg SecretTables.users heq).symm)

end Outcomes

/-- Two runs of an accepted write that differ only in passwords leave the same records exactly when
the write is no update or replacement of a user that supplies a password. -/
theorem sameRecords_iff {unnamed : Bool → Bool} {actor : Actor} {digests : Digests}
    {w : SecretWrite} {t t' : SecretTables}
    (haccepted : w.run unnamed actor digests t = .ok (some t')) :
    (∀ digests₁ digests₂ w' r r', w.Alike digests₁ digests₂ w' →
      w.run unnamed actor digests₁ t = .ok (some r) →
      w'.run unnamed actor digests₂ t = .ok (some r') → SameRecords r r') ↔
      w.NamesNoPassword := by
  constructor
  · intro hall
    have hnone : ∀ {kind : WriteKind} {payload : Document}, w = .user kind payload →
        kind ≠ .create → ∀ p, ¬ SuppliesPassword payload p := by
      rintro kind payload rfl hkind p hp
      obtain ⟨r, w', r', halike, hr, hr', hne⟩ :=
        exists_ne_of_suppliesPassword hkind hp haccepted
      exact hne (hall _ _ w' r r' halike hr hr').rows
    rcases w with ⟨_ | id | id, payload⟩ | ⟨kind, payload⟩
    · trivial
    · exact hnone rfl (by simp)
    · exact hnone rfl (by simp)
    · trivial
  · intro hw digests₁ digests₂ w' r r' halike hr hr'
    exact sameRecords_of_eq (eq_of_namesNoPassword hw halike hr hr')

/-! ### A password that is kept -/

/-- The tables with the operator and no access list. -/
def operatorRecords : SecretTables where
  users := storedOperator
  access := ⟨Table.empty, Table.empty, Table.empty⟩

/-- An update that is sent with a password. -/
def passwordUpdate (p : String) : SecretWrite :=
  .user (.update 1) (Dict.ofList [("nickname", .text "op"), ("password", .text p)])

theorem sameRecords_passwordUpdate :
    (∀ digests₁ digests₂ w' r r', (passwordUpdate "horse").Alike digests₁ digests₂ w' →
      (passwordUpdate "horse").run id none digests₁ operatorRecords = .ok (some r) →
      w'.run id none digests₂ operatorRecords = .ok (some r') → SameRecords r r') ↔
      (passwordUpdate "horse").NamesNoPassword := by
  have haccepted : (passwordUpdate "horse").run id none sameDigests operatorRecords =
      .ok (some (leftBy operatorRecords
        ((passwordUpdate "horse").run id none sameDigests operatorRecords))) :=
    eq_leftBy (by decide)
  exact sameRecords_iff haccepted

/-- The password of an update is returned with the user. -/
theorem password_kept_in_clear :
    ¬ ∀ (unnamed : Bool → Bool) (actor : Actor) (digests₁ digests₂ : Digests) (w w' : SecretWrite)
        (t r r' : SecretTables), w.Alike digests₁ digests₂ w' →
        w.run unnamed actor digests₁ t = .ok (some r) →
        w'.run unnamed actor digests₂ t = .ok (some r') → SameRecords r r' := by
  intro h
  have halike : (passwordUpdate "horse").Alike sameDigests sameDigests (passwordUpdate "mouse") :=
    .user _ (.password (p := "horse") ⟨rfl, by decide⟩ (by decide) rfl)
  have hsame := h id none sameDigests sameDigests (passwordUpdate "horse") (passwordUpdate "mouse")
    operatorRecords
    (leftBy operatorRecords ((passwordUpdate "horse").run id none sameDigests operatorRecords))
    (leftBy operatorRecords ((passwordUpdate "mouse").run id none sameDigests operatorRecords))
    halike (eq_leftBy (by decide)) (eq_leftBy (by decide))
  have hshown := congrArg (Option.map fun d => textMember d "password" "") (hsame.users 1)
  exact absurd hshown (by decide)

end Portwyrm.Tables

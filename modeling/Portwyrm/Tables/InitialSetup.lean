import Mathlib.Logic.Function.Basic
import Portwyrm.Tables.Users

/-!
# The initial setup

`initial_setup` of `portwyrm.api.native.router`: anyone may create the first administrator.  A
request lists the users in one table operation, and registers the administrator in another one.
-/

namespace Portwyrm.Tables

open Base Portwyrm.Identity

/-! ## One request -/

/-- What `bootstrap_admin` hands to `create_resource`. -/
def bootstrapDocument (email password : String) : Document := Dict.ofList
  [ ("email", .text email), ("password", .text password), ("name", .text "Administrator"),
    ("nickname", .text "admin"), ("is_admin", .bool true), ("must_change_password", .bool false),
    ("roles", .list [.text "admin"]), ("permissions", .object []), ("visibility", .text "all") ]

/-- `bootstrap_admin`. -/
def bootstrapAdmin (digest : String → String) (email password : String) (t : UserTables) :
    Result (ℕ × UserTables) :=
  createUser digest (bootstrapDocument email password) t

/-- `initial_setup`, up to the creation of the administrator: the address and the password that are
handed on. -/
def checkSetup (payload : Document) (t : UserTables) : Result (String × String) :=
  if t.principals.rows.entries ≠ [] then throw (.http 403 "initial setup is already complete")
  else
    match payload.get? "email", payload.get? "password" with
    | some (.text email), some (.text password) => pure (email, password)
    | _, _ => throw (.http 422 "email and password are required")

/-- An administrator can be registered under an address. -/
def Registrable (t : UserTables) (email password : String) : Prop :=
  ¬ (Text.casefold (Text.strip email) = "" ∨ '@' ∉ (Text.casefold (Text.strip email)).toList) ∧
    ¬ password.length < 8 ∧
    ¬ ∃ e ∈ t.principals.rows.entries, e.2.email = Text.casefold (Text.strip email)

instance (t : UserTables) (email password : String) : Decidable (Registrable t email password) :=
  inferInstanceAs (Decidable (_ ∧ _))

variable {digest : String → String} {t t' : UserTables} {email password : String} {id : ℕ}

/-- The members of the document. -/
lemma get?_bootstrapDocument (email password : String) :
    (bootstrapDocument email password).get? "email" = some (.text email) ∧
      (bootstrapDocument email password).get? "password" = some (.text password) ∧
      (bootstrapDocument email password).get? "name" = some (.text "Administrator") ∧
      (bootstrapDocument email password).get? "nickname" = some (.text "admin") ∧
      (bootstrapDocument email password).get? "is_admin" = some (.bool true) ∧
      (bootstrapDocument email password).get? "roles" = some (.list [.text "admin"]) ∧
      (bootstrapDocument email password).get? "permissions" = some (.object []) := by
  refine ⟨?_, ?_, ?_, ?_, ?_, ?_, ?_⟩ <;> rfl

/-- The row of the administrator. -/
def administratorRow (email password : String) : UserRow where
  email := Text.casefold (Text.strip email)
  displayName := "Administrator"
  nickname := "admin"
  isAdmin := true
  isDisabled := false
  isDeleted := false
  visibility := "all"
  compat := (bootstrapDocument email password).pop "password"
  mustChangePassword := false

/-- The administrator is registered, or his address or password is refused. -/
lemma bootstrapAdmin_eq (digest : String → String) (email password : String) (t : UserTables) :
    ∃ tables exc, tables.principals = t.principals.add (administratorRow email password) ∧
      bootstrapAdmin digest email password t =
        if Registrable t email password then .ok (t.principals.next, tables) else .error exc := by
  obtain ⟨hemail, hpassword, hname, hnickname, hadmin, hroles, hpermissions⟩ :=
    get?_bootstrapDocument email password
  have hrolesMember : rolesMember (bootstrapDocument email password) = .ok ["admin"] := by
    rw [rolesMember, hroles]
    rfl
  have hpermissionsMember :
      permissionsMember (bootstrapDocument email password) = .ok Dict.empty := by
    rw [permissionsMember, hpermissions]
    rfl
  have hnameMember : nameMember (bootstrapDocument email password) = .text "Administrator" := by
    rw [nameMember, hname]
    rfl
  have hadminMember : flagMember (bootstrapDocument email password) "is_admin" = true := by
    rw [flagMember, hadmin]
    rfl
  have hchain : bootstrapAdmin digest email password t = (do
      raiseIf (Text.casefold (Text.strip email) = "" ∨
        '@' ∉ (Text.casefold (Text.strip email)).toList) (.valueError "a valid email is required")
      raiseIf (password.length < 8)
        (.valueError "password must contain at least 8 characters")
      raiseIf (∃ e ∈ t.principals.rows.entries, e.2.email = Text.casefold (Text.strip email))
        (.valueError "email is already registered")
      pure (t.principals.next,
        { principals := t.principals.add (administratorRow email password)
          rbac := t.rbac.replaceAuthorization t.principals.next true ["admin"] Dict.empty
          passwordHashes := t.passwordHashes.set t.principals.next (digest password) })) := by
    rw [bootstrapAdmin, createUser, register, hemail, hpassword, hnickname, hnameMember,
      hrolesMember, hpermissionsMember, hadminMember]
    simp only [raiseIf, reduceCtorEq, if_false, schemaText, pure_bind, ok_bind, Option.getD_some]
    rfl
  rw [hchain]
  by_cases h₁ : Text.casefold (Text.strip email) = "" ∨
      '@' ∉ (Text.casefold (Text.strip email)).toList
  · refine ⟨⟨_, t.rbac, t.passwordHashes⟩, .valueError "a valid email is required", rfl, ?_⟩
    rw [if_neg fun h : Registrable t email password => h.1 h₁, raiseIf, if_pos h₁]
    rfl
  by_cases h₂ : password.length < 8
  · refine ⟨⟨_, t.rbac, t.passwordHashes⟩,
      .valueError "password must contain at least 8 characters", rfl, ?_⟩
    rw [if_neg fun h : Registrable t email password => h.2.1 h₂, raiseIf, if_neg h₁, raiseIf,
      if_pos h₂]
    rfl
  by_cases h₃ : ∃ e ∈ t.principals.rows.entries, e.2.email = Text.casefold (Text.strip email)
  · refine ⟨⟨_, t.rbac, t.passwordHashes⟩, .valueError "email is already registered", rfl, ?_⟩
    rw [if_neg fun h : Registrable t email password => h.2.2 h₃, raiseIf, if_neg h₁, raiseIf,
      if_neg h₂, raiseIf, if_pos h₃]
    rfl
  · refine ⟨⟨_, t.rbac.replaceAuthorization t.principals.next true ["admin"] Dict.empty,
      t.passwordHashes.set t.principals.next (digest password)⟩,
      .valueError "email is already registered", rfl, ?_⟩
    have hregistrable : Registrable t email password := ⟨h₁, h₂, h₃⟩
    rw [if_pos hregistrable, raiseIf, if_neg h₁, raiseIf, if_neg h₂, raiseIf, if_neg h₃]
    rfl

/-! ## Requests that run together -/

/-- How far a request has come. -/
inductive SetupPhase
  | received
  /-- There was no user when the users were listed. -/
  | listed (email password : String)
  | created (id : ℕ)
  | refused (e : Exc)
  deriving DecidableEq

/-- The tables, and how far each request has come. -/
structure SetupState (κ : Type) where
  tables : UserTables
  phase : κ → SetupPhase

namespace SetupState

variable {κ : Type} [DecidableEq κ] (digest : String → String) (payload : κ → Document)

/-- No user, and no request has begun. -/
def start : SetupState κ := ⟨.empty, fun _ => .received⟩

/-- The next table operation of a request. -/
def step (x : SetupState κ) (k : κ) : SetupState κ :=
  match x.phase k with
  | .received =>
    match checkSetup (payload k) x.tables with
    | .ok (email, password) =>
      { x with phase := Function.update x.phase k (.listed email password) }
    | .error e => { x with phase := Function.update x.phase k (.refused e) }
  | .listed email password =>
    match bootstrapAdmin digest email password x.tables with
    | .ok (id, tables) => ⟨tables, Function.update x.phase k (.created id)⟩
    | .error e => { x with phase := Function.update x.phase k (.refused e) }
  | .created _ | .refused _ => x

/-- The table operations of the requests, in some order. -/
def run (order : List κ) : SetupState κ := order.foldl (step digest payload) start

/-- One request at most has created an administrator. -/
def OneAdministrator (x : SetupState κ) : Prop :=
  ∀ j k id id', x.phase j = .created id → x.phase k = .created id' → j = k

/-- A request that has found no user is about to register an administrator whose address and
password are in order, next to a user who is there by now. -/
def Late (x : SetupState κ) (k : κ) : Prop :=
  ∃ email password, x.phase k = .listed email password ∧ x.tables.principals.rows.entries ≠ [] ∧
    Registrable x.tables email password

/-- There is a user exactly when a request has created one. -/
def Counted (x : SetupState κ) : Prop :=
  x.tables.principals.rows.entries ≠ [] ↔ ∃ k id, x.phase k = .created id

variable {digest payload} {x : SetupState κ} {k : κ}

/-- A request that comes to a phase in which it has not created anything. -/
lemma created_update {phase : SetupPhase} (hbefore : ∀ id, x.phase k ≠ .created id)
    (hphase : ∀ id, phase ≠ .created id) (j : κ) (id : ℕ) :
    Function.update x.phase k phase j = .created id ↔ x.phase j = .created id := by
  by_cases hj : j = k
  · subst hj
    rw [Function.update_self]
    exact iff_of_false (hphase id) (hbefore id)
  · rw [Function.update_of_ne hj]

/-- What one table operation does. -/
lemma step_cases (digest : String → String) (payload : κ → Document) (x : SetupState κ) (k : κ) :
    (∃ email password id tables, x.phase k = .listed email password ∧
      Registrable x.tables email password ∧ tables.principals.rows.entries ≠ [] ∧
      step digest payload x k = ⟨tables, Function.update x.phase k (.created id)⟩) ∨
    ((∀ email password, x.phase k = .listed email password →
        ¬ Registrable x.tables email password) ∧
      (step digest payload x k).tables = x.tables ∧
      ∀ j id, (step digest payload x k).phase j = .created id ↔ x.phase j = .created id) := by
  cases hphase : x.phase k with
  | received =>
    refine .inr ⟨by rintro _ _ ⟨⟩, ?_⟩
    rw [step, hphase]
    dsimp only
    split
    · exact ⟨rfl, created_update (by simp [hphase]) (by rintro _ ⟨⟩)⟩
    · exact ⟨rfl, created_update (by simp [hphase]) (by rintro _ ⟨⟩)⟩
  | listed email password =>
    obtain ⟨tables, exc, hprincipals, hbootstrap⟩ :=
      bootstrapAdmin_eq digest email password x.tables
    by_cases hregistrable : Registrable x.tables email password
    · rw [if_pos hregistrable] at hbootstrap
      refine .inl ⟨email, password, x.tables.principals.next, tables, rfl, hregistrable, ?_, ?_⟩
      · intro hnil
        have hvalues := Table.values_add x.tables.principals (administratorRow email password)
        rw [← hprincipals, Dict.values, hnil] at hvalues
        exact absurd hvalues.symm (List.append_ne_nil_of_right_ne_nil _ (List.cons_ne_nil _ _))
      · rw [step, hphase]
        dsimp only
        rw [hbootstrap]
    · rw [if_neg hregistrable] at hbootstrap
      refine .inr ⟨?_, ?_⟩
      · rintro email' password' heq
        obtain ⟨rfl, rfl⟩ := SetupPhase.listed.inj heq
        exact hregistrable
      · rw [step, hphase]
        dsimp only
        rw [hbootstrap]
        exact ⟨rfl, created_update (by simp [hphase]) (by rintro _ ⟨⟩)⟩
  | created id =>
    refine .inr ⟨by rintro _ _ ⟨⟩, ?_⟩
    rw [step, hphase]
    exact ⟨rfl, fun _ _ => Iff.rfl⟩
  | refused e =>
    refine .inr ⟨by rintro _ _ ⟨⟩, ?_⟩
    rw [step, hphase]
    exact ⟨rfl, fun _ _ => Iff.rfl⟩

lemma counted_step (h : x.Counted) : (step digest payload x k).Counted := by
  rcases step_cases digest payload x k with
    ⟨email, password, id, tables, hlisted, -, hentries, hstep⟩ | ⟨-, htables, hcreated⟩
  · rw [hstep]
    exact iff_of_true hentries ⟨k, id, Function.update_self k _ x.phase⟩
  · unfold Counted
    rw [htables]
    simp only [hcreated]
    exact h

/-- One table operation keeps the law, unless it comes late. -/
lemma oneAdministrator_step_iff (h : x.OneAdministrator) (hcounted : x.Counted) :
    (step digest payload x k).OneAdministrator ↔ ¬ x.Late k := by
  rcases step_cases digest payload x k with
    ⟨email, password, id, tables, hlisted, hregistrable, -, hstep⟩ | ⟨hnot, -, hcreated⟩
  · rw [hstep]
    have hself : (Function.update x.phase k (.created id)) k = .created id :=
      Function.update_self k _ x.phase
    constructor
    · rintro hone ⟨-, -, -, hentries, -⟩
      -- the user who is there was created by another request
      obtain ⟨j, id', hj⟩ := hcounted.mp hentries
      have hne : j ≠ k := by
        rintro rfl
        exact nomatch hlisted.symm.trans hj
      have hj' : (Function.update x.phase k (.created id)) j = .created id' := by
        rw [Function.update_of_ne hne, hj]
      exact hne (hone j k id' id hj' hself)
    · intro hlate
      have hnone : ∀ j id', x.phase j ≠ .created id' := fun j id' hj =>
        hlate ⟨email, password, hlisted, hcounted.mpr ⟨j, id', hj⟩, hregistrable⟩
      have honly : ∀ j id', (Function.update x.phase k (.created id)) j = .created id' → j = k := by
        intro j id' hj
        by_contra hne
        rw [Function.update_of_ne hne] at hj
        exact hnone j id' hj
      intro j j' id' id'' hj hj'
      exact (honly j id' hj).trans (honly j' id'' hj').symm
  · refine iff_of_true ?_ ?_
    · intro j j' id id' hj hj'
      exact h j j' id id' ((hcreated j id).mp hj) ((hcreated j' id').mp hj')
    · rintro ⟨email, password, hlisted, -, hregistrable⟩
      exact hnot email password hlisted hregistrable

lemma run_append (order : List κ) (k : κ) : run digest payload (order ++ [k]) =
    step digest payload (run digest payload order) k := by
  simp [run]

lemma counted_run (order : List κ) : (run digest payload order).Counted := by
  induction order using List.reverseRecOn with
  | nil => exact iff_of_false (fun h => h rfl) (by simp [run, start])
  | append_singleton order k ih =>
    rw [run_append]
    exact counted_step ih

/-- The initial setup makes one administrator.  Whatever the requests and the order of their table
operations: one request at most has created an administrator at every moment, if and only if no
request registers an administrator, with an address and a password that are in order, when another
one has been registered since it listed the users. -/
theorem oneAdministrator_iff (digest : String → String) (payload : κ → Document) (order : List κ) :
    (∀ before, before <+: order → (run digest payload before).OneAdministrator) ↔
      ∀ before k, before ++ [k] <+: order → ¬ (run digest payload before).Late k := by
  constructor
  · intro hone before k hprefix
    have hbefore := hone before ((List.prefix_append before [k]).trans hprefix)
    have hafter := hone _ hprefix
    rw [run_append] at hafter
    exact (oneAdministrator_step_iff hbefore (counted_run before)).mp hafter
  · intro hlate before hprefix
    induction before using List.reverseRecOn with
    | nil => exact fun j k id id' hj => nomatch hj
    | append_singleton before k ih =>
      rw [run_append]
      have hbefore := ih ((List.prefix_append before [k]).trans hprefix)
      exact (oneAdministrator_step_iff hbefore (counted_run before)).mpr (hlate before k hprefix)

/-! ### Two requests -/

/-- Two requests with different addresses. -/
def twoPayloads (k : Bool) : Document :=
  Dict.ofList [("email", .text (if k then "a@b" else "c@d")), ("password", .text "password")]

/-- Both list the users before either of them registers: there are two administrators. -/
theorem two_administrators :
    ¬ (run (fun s => s) twoPayloads [true, false, true, false]).OneAdministrator := by
  intro hone
  have htrue : (run (fun s => s) twoPayloads [true, false, true, false]).phase true = .created 1 := by
    decide
  have hfalse : (run (fun s => s) twoPayloads [true, false, true, false]).phase false = .created 2 := by
    decide
  exact absurd (hone true false 1 2 htrue hfalse) (by decide)

end SetupState

end Portwyrm.Tables

import Portwyrm.Base.Json

/-!
# Secrets inside JSON values

Which values inside a JSON value are secret is told by the keys they stand under.  Replacing the
secret values of a document keeps their places: how many there are, and what else the document
says, does not depend on them.
-/

namespace Portwyrm.Base

/-- What is secret about a member: nothing but what stands deeper in it, its value, or the values
of the object it holds. -/
inductive Secrecy
  | plain
  | whole
  | members
deriving DecidableEq

namespace Json

/-! ## Places of secrets -/

/-- A member whose secret values are replaced; `deep` is the member with the secrets deeper in it
replaced. -/
def replaceMember (f : Json → Json) (s : Secrecy) (v deep : Json) : Json :=
  match s, v with
  | .whole, v => f v
  | .members, .object values => .object (values.map fun e => (e.1, f e.2))
  | _, _ => deep

/-- The secret values of a member; `deep` are those that stand deeper in it. -/
def memberSecrets (s : Secrecy) (v : Json) (deep : List Json) : List Json :=
  match s, v with
  | .whole, v => [v]
  | .members, .object values => values.map Prod.snd
  | _, _ => deep

section Places

-- the secrecy of a member, by its key
variable (kind : String → Secrecy)

mutual

/-- The value with a function applied to its secrets. -/
def onSecrets (f : Json → Json) : Json → Json
  | .list items => .list (onItemSecrets f items)
  | .object members => .object (onMemberSecrets f members)
  | .null => .null
  | .bool b => .bool b
  | .number n => .number n
  | .text s => .text s

/-- The items with a function applied to their secrets. -/
def onItemSecrets (f : Json → Json) : List Json → List Json
  | [] => []
  | v :: rest => onSecrets f v :: onItemSecrets f rest

/-- The members with a function applied to their secrets. -/
def onMemberSecrets (f : Json → Json) : List (String × Json) → List (String × Json)
  | [] => []
  | (k, v) :: rest => (k, replaceMember f (kind k) v (onSecrets f v)) :: onMemberSecrets f rest

end

mutual

/-- The secrets inside a value. -/
def secrets : Json → List Json
  | .list items => itemSecrets items
  | .object members => secretsOfMembers members
  | _ => []

/-- The secrets inside items. -/
def itemSecrets : List Json → List Json
  | [] => []
  | v :: rest => secrets v ++ itemSecrets rest

/-- The secrets inside members. -/
def secretsOfMembers : List (String × Json) → List Json
  | [] => []
  | (k, v) :: rest => memberSecrets (kind k) v (secrets v) ++ secretsOfMembers rest

end

end Places

/-! ## Replacing secrets -/

section Members

variable {f g : Json → Json} {v : Json}

lemma map_snd_eq_self_iff {values : List (String × Json)} :
    (values.map fun e => (e.1, f e.2)) = values ↔ ∀ x ∈ values.map Prod.snd, f x = x := by
  induction values with
  | nil => simp
  | cons e rest ih =>
    obtain ⟨k, x⟩ := e
    simp only [List.map_cons, List.cons.injEq, Prod.mk.injEq, true_and, List.forall_mem_cons, ih]

/-- A member stays the same when the function keeps its secrets. -/
lemma replaceMember_eq_self_iff {deep : Json} {found : List Json}
    (h : deep = v ↔ ∀ x ∈ found, f x = x) (s : Secrecy) :
    replaceMember f s v deep = v ↔ ∀ x ∈ memberSecrets s v found, f x = x := by
  cases s with
  | plain => exact h
  | whole => simp [replaceMember, memberSecrets]
  | members =>
    cases v with
    | object values =>
      simp only [replaceMember, memberSecrets, object.injEq]
      exact map_snd_eq_self_iff
    | null => exact h
    | bool b => exact h
    | number n => exact h
    | text t => exact h
    | list items => exact h

end Members

section Laws

variable {kind : String → Secrecy} (f g : Json → Json)

mutual

/-- A value stays the same exactly when the function keeps its secrets. -/
theorem onSecrets_eq_self_iff : ∀ v : Json,
    onSecrets kind f v = v ↔ ∀ x ∈ secrets kind v, f x = x
  | .list items => by
    simp only [onSecrets, secrets, list.injEq]
    exact onItemSecrets_eq_self_iff items
  | .object members => by
    simp only [onSecrets, secrets, object.injEq]
    exact onMemberSecrets_eq_self_iff members
  | .null => by simp [onSecrets, secrets]
  | .bool b => by simp [onSecrets, secrets]
  | .number n => by simp [onSecrets, secrets]
  | .text s => by simp [onSecrets, secrets]

theorem onItemSecrets_eq_self_iff : ∀ items : List Json,
    onItemSecrets kind f items = items ↔ ∀ x ∈ itemSecrets kind items, f x = x
  | [] => by simp [onItemSecrets, itemSecrets]
  | v :: rest => by
    simp only [onItemSecrets, itemSecrets, List.cons.injEq, List.forall_mem_append]
    rw [onSecrets_eq_self_iff v, onItemSecrets_eq_self_iff rest]

theorem onMemberSecrets_eq_self_iff : ∀ members : List (String × Json),
    onMemberSecrets kind f members = members ↔ ∀ x ∈ secretsOfMembers kind members, f x = x
  | [] => by simp [onMemberSecrets, secretsOfMembers]
  | (k, v) :: rest => by
    simp only [onMemberSecrets, secretsOfMembers, List.cons.injEq, Prod.mk.injEq, true_and,
      List.forall_mem_append]
    rw [replaceMember_eq_self_iff (onSecrets_eq_self_iff v), onMemberSecrets_eq_self_iff rest]

end

/-- The secrets of a member whose secrets are replaced are the replaced secrets. -/
lemma memberSecrets_replaceMember (s : Secrecy) (v : Json)
    (h : secrets kind (onSecrets kind f v) = (secrets kind v).map f) :
    memberSecrets s (replaceMember f s v (onSecrets kind f v))
      (secrets kind (replaceMember f s v (onSecrets kind f v))) =
        (memberSecrets s v (secrets kind v)).map f := by
  cases s with
  | plain => exact h
  | whole => rfl
  | members =>
    cases v with
    | object values => simp [replaceMember, memberSecrets, Function.comp_def]
    | null => exact h
    | bool b => exact h
    | number n => exact h
    | text t => exact h
    | list items => exact h

mutual

/-- Replacing secrets keeps their places. -/
theorem secrets_onSecrets : ∀ v : Json,
    secrets kind (onSecrets kind f v) = (secrets kind v).map f
  | .list items => by
    simp only [onSecrets, secrets]
    exact itemSecrets_onItemSecrets items
  | .object members => by
    simp only [onSecrets, secrets]
    exact secretsOfMembers_onMemberSecrets members
  | .null => rfl
  | .bool _ => rfl
  | .number _ => rfl
  | .text _ => rfl

theorem itemSecrets_onItemSecrets : ∀ items : List Json,
    itemSecrets kind (onItemSecrets kind f items) = (itemSecrets kind items).map f
  | [] => rfl
  | v :: rest => by
    simp only [onItemSecrets, itemSecrets, List.map_append]
    rw [secrets_onSecrets v, itemSecrets_onItemSecrets rest]

theorem secretsOfMembers_onMemberSecrets : ∀ members : List (String × Json),
    secretsOfMembers kind (onMemberSecrets kind f members) = (secretsOfMembers kind members).map f
  | [] => rfl
  | (k, v) :: rest => by
    simp only [onMemberSecrets, secretsOfMembers, List.map_append]
    rw [memberSecrets_replaceMember f (kind k) v (secrets_onSecrets v),
      secretsOfMembers_onMemberSecrets rest]

end

/-- Replacing the secrets of a member twice. -/
lemma replaceMember_replaceMember (s : Secrecy) (v : Json)
    (h : onSecrets kind f (onSecrets kind g v) = onSecrets kind (f ∘ g) v) :
    replaceMember f s (replaceMember g s v (onSecrets kind g v))
      (onSecrets kind f (replaceMember g s v (onSecrets kind g v))) =
        replaceMember (f ∘ g) s v (onSecrets kind (f ∘ g) v) := by
  cases s with
  | plain => exact h
  | whole => rfl
  | members =>
    cases v with
    | object values => simp [replaceMember, Function.comp_def]
    | null => exact h
    | bool b => exact h
    | number n => exact h
    | text t => exact h
    | list items => exact h

mutual

theorem onSecrets_onSecrets : ∀ v : Json,
    onSecrets kind f (onSecrets kind g v) = onSecrets kind (f ∘ g) v
  | .list items => by
    simp only [onSecrets]
    rw [onItemSecrets_onItemSecrets items]
  | .object members => by
    simp only [onSecrets]
    rw [onMemberSecrets_onMemberSecrets members]
  | .null => rfl
  | .bool _ => rfl
  | .number _ => rfl
  | .text _ => rfl

theorem onItemSecrets_onItemSecrets : ∀ items : List Json,
    onItemSecrets kind f (onItemSecrets kind g items) = onItemSecrets kind (f ∘ g) items
  | [] => rfl
  | v :: rest => by
    simp only [onItemSecrets]
    rw [onSecrets_onSecrets v, onItemSecrets_onItemSecrets rest]

theorem onMemberSecrets_onMemberSecrets : ∀ members : List (String × Json),
    onMemberSecrets kind f (onMemberSecrets kind g members) =
      onMemberSecrets kind (f ∘ g) members
  | [] => rfl
  | (k, v) :: rest => by
    simp only [onMemberSecrets]
    rw [replaceMember_replaceMember f g (kind k) v (onSecrets_onSecrets v),
      onMemberSecrets_onMemberSecrets rest]

end

end Laws

end Json

end Portwyrm.Base

import Mathlib.Logic.Function.Basic
import Mathlib.Logic.Relation
import Mathlib.Tactic.Lemma

/-!
# Read, merge, write

A store in which an update of a resource reads the resource in one step, lays the members of its
payload over what it has read, and writes the whole document in another step.  Updates that run at
the same time lose members of each other, unless each of them writes over members that still stand
as it has read them.
-/

namespace Portwyrm.Base

/-! ## Members of documents -/

/-- The members of a kind of documents, and how one document is laid over another. -/
structure Members (δ : Type) where
  Key : Type
  Value : Key → Type
  get : (k : Key) → δ → Option (Value k)
  overlay : δ → δ → δ
  get_overlay : ∀ k d e, get k (overlay d e) = (get k d).or (get k e)

namespace Members

variable {δ : Type} (M : Members δ)

/-- A document has a member. -/
def Names (d : δ) (k : M.Key) : Prop := M.get k d ≠ none

/-- Two documents have no member in common. -/
def Disjoint (d e : δ) : Prop := ∀ k, M.Names d k → ¬ M.Names e k

lemma get_overlay_of_not_names {d : δ} {k : M.Key} (h : ¬ M.Names d k) (e : δ) :
    M.get k (M.overlay d e) = M.get k e := by
  rw [M.get_overlay, not_not.mp h, Option.none_or]

end Members

/-! ## Stores -/

/-- A store with one resource.  The write of an update takes the candidate document; there may be
one more kind of write, which sets a flag of the row and reads nothing before. -/
structure MergingStore (σ δ α ε : Type) where
  members : Members δ
  /-- What an update reads of the resource. -/
  read : σ → Option δ
  /-- What the row of the resource shows. -/
  shown : σ → Option δ
  /-- A write lays the candidate over the row once more. -/
  rereads : Bool
  write : α → δ → σ → Except ε σ
  toggle : α → Bool → σ → Except ε σ
  /-- The document that a toggle amounts to. -/
  toggled : Bool → δ
  /-- The states of the store before any of the calls. -/
  Valid : σ → Prop
  /-- The states in which the row is as a call leaves it. -/
  Settled : σ → Prop
  /-- A write of a document does not change a member by way of others. -/
  Free : members.Key → δ → σ → Prop

/-- A call: an update with its payload, or a toggle. -/
inductive Request (δ α : Type)
  | update (caller : α) (payload : δ)
  | toggle (caller : α) (enabled : Bool)

/-- How far a call has come.  A call that is finished remembers the store it has left. -/
inductive Phase (σ δ : Type)
  | waiting
  | loaded (d : δ)
  | finished (left : σ)

/-- The store, and how far each call has come. -/
structure RunState (κ σ δ : Type) where
  store : σ
  phase : κ → Phase σ δ

namespace MergingStore

variable {σ δ α ε : Type} (S : MergingStore σ δ α ε)

/-- The document that is written, of what an update has made or read. -/
def merged (d : δ) (s : σ) : δ :=
  match S.rereads, S.read s with
  | true, some e => S.members.overlay d e
  | _, _ => d

/-- What the row shows of a member. -/
def showsAt (s : σ) (k : S.members.Key) : Option (S.members.Value k) :=
  (S.shown s).bind (S.members.get k)

/-- What an update would read of a member. -/
def readsAt (s : σ) (k : S.members.Key) : Option (S.members.Value k) :=
  (S.read s).bind (S.members.get k)

/-- What the operations of a store promise: the row they leave is settled, and a settled row keeps
the members that a write finds unchanged. -/
structure Lawful : Prop where
  write_settles : ∀ {a d s s'}, S.Valid s → S.write a d s = .ok s' → S.Valid s' ∧ S.Settled s'
  toggle_settles : ∀ {a b s s'}, S.Valid s → S.toggle a b s = .ok s' → S.Valid s' ∧ S.Settled s'
  write_frame : ∀ {a d s s'}, S.Settled s → S.write a d s = .ok s' → ∀ k,
    S.members.get k (S.merged d s) = S.readsAt s k → S.Free k (S.merged d s) s →
      S.showsAt s' k = S.showsAt s k
  toggle_frame : ∀ {a b s s'}, S.toggle a b s = .ok s' → ∀ k, ¬ S.members.Names (S.toggled b) k →
    S.showsAt s' k = S.showsAt s k

/-! ## Runs -/

variable {κ : Type} [DecidableEq κ]

/-- The document that a call is about. -/
def payload : Request δ α → δ
  | .update _ p => p
  | .toggle _ b => S.toggled b

/-- One operation of a call; `G` says which writes are taken into account.  Operations that only
read for themselves leave no trace and are left out. -/
inductive Step (calls : κ → Request δ α) (G : RunState κ σ δ → δ → δ → Prop) :
    RunState κ σ δ → RunState κ σ δ → Prop
  | read {x : RunState κ σ δ} {k : κ} {a : α} {p d : δ} (hcall : calls k = .update a p)
      (hphase : x.phase k = .waiting) (hread : S.read x.store = some d) :
      Step calls G x ⟨x.store, Function.update x.phase k (.loaded d)⟩
  | write {x : RunState κ σ δ} {k : κ} {a : α} {p d : δ} {s : σ} (hcall : calls k = .update a p)
      (hphase : x.phase k = .loaded d) (hwrite : S.write a (S.members.overlay p d) x.store = .ok s)
      (hG : G x p d) : Step calls G x ⟨s, Function.update x.phase k (.finished s)⟩
  | toggle {x : RunState κ σ δ} {k : κ} {a : α} {b : Bool} {s : σ} (hcall : calls k = .toggle a b)
      (hphase : x.phase k = .waiting) (htoggle : S.toggle a b x.store = .ok s) :
      Step calls G x ⟨s, Function.update x.phase k (.finished s)⟩

/-- The state before any call has begun. -/
def start (s : σ) : RunState κ σ δ := ⟨s, fun _ => .waiting⟩

/-- In every state that is reached, the row shows the members of each finished call as that call
has left them. -/
def Shows (calls : κ → Request δ α) (x : RunState κ σ δ) : Prop :=
  ∀ k left, x.phase k = .finished left → ∀ i, S.members.Names (S.payload (calls k)) i →
    S.showsAt x.store i = S.showsAt left i

/-- The members that finished calls have named still stand as a call has read them, and its write
does not change them by way of others. -/
def Fresh (calls : κ → Request δ α) (x : RunState κ σ δ) (p d : δ) : Prop :=
  ∀ j left, x.phase j = .finished left → ∀ i, S.members.Names (S.payload (calls j)) i →
    S.members.get i (S.merged d x.store) = S.readsAt x.store i ∧
      S.Free i (S.merged (S.members.overlay p d) x.store) x.store

/-- No call loses a member of another one, whatever the calls and the order of their steps. -/
def KeepsUpdates : Prop :=
  ∀ (κ : Type) [DecidableEq κ] (calls : κ → Request δ α),
    (∀ i j, i ≠ j → S.members.Disjoint (S.payload (calls i)) (S.payload (calls j))) →
    ∀ s, S.Valid s → ∀ x, Relation.ReflTransGen (S.Step calls fun _ _ _ => True) (start s) x →
      S.Shows calls x

/-- The same, for runs in which every update writes over fresh members. -/
def KeepsFreshUpdates : Prop :=
  ∀ (κ : Type) [DecidableEq κ] (calls : κ → Request δ α),
    (∀ i j, i ≠ j → S.members.Disjoint (S.payload (calls i)) (S.payload (calls j))) →
    ∀ s, S.Valid s → ∀ x, Relation.ReflTransGen (S.Step calls (S.Fresh calls)) (start s) x →
      S.Shows calls x

section Invariant

variable {S} {calls : κ → Request δ α} {x y : RunState κ σ δ}

/-- A state that runs reach. -/
structure Reached (S : MergingStore σ δ α ε) (calls : κ → Request δ α) (x : RunState κ σ δ) :
    Prop where
  valid : S.Valid x.store
  settled : ∀ k left, x.phase k = .finished left → S.Settled x.store
  shows : S.Shows calls x

omit [DecidableEq κ] in
lemma reached_start {s : σ} (hs : S.Valid s) : S.Reached calls (start s) where
  valid := hs
  settled _ _ h := nomatch h
  shows _ _ h := nomatch h

/-- After a call has finished, its members are shown as it left them, and those of the others as
they were. -/
lemma shows_finished {k : κ} {s : σ} (h : S.Shows calls x)
    (hframe : ∀ j left, j ≠ k → x.phase j = .finished left →
      ∀ i, S.members.Names (S.payload (calls j)) i → S.showsAt s i = S.showsAt x.store i) :
    S.Shows calls ⟨s, Function.update x.phase k (.finished s)⟩ := by
  intro j left hj i hi
  dsimp only at hj ⊢
  by_cases heq : j = k
  · subst heq
    rw [Function.update_self] at hj
    obtain rfl := Phase.finished.inj hj
    rfl
  · rw [Function.update_of_ne heq] at hj
    exact (hframe j left heq hj i hi).trans (h j left hj i hi)

/-- One step over fresh members keeps what is shown. -/
lemma reached_step (hS : S.Lawful)
    (hdisjoint : ∀ i j, i ≠ j → S.members.Disjoint (S.payload (calls i)) (S.payload (calls j)))
    (hx : S.Reached calls x) (h : S.Step calls (S.Fresh calls) x y) : S.Reached calls y := by
  cases h with
  | @read k a p d hcall hphase hread =>
    have hold : ∀ j left, Function.update x.phase k (.loaded d) j = .finished left →
        x.phase j = .finished left := by
      intro j left hj
      by_cases heq : j = k
      · subst heq
        rw [Function.update_self] at hj
        exact nomatch hj
      · rwa [Function.update_of_ne heq] at hj
    exact ⟨hx.valid, fun j left hj => hx.settled j left (hold j left hj),
      fun j left hj => hx.shows j left (hold j left hj)⟩
  | @write k a p d s hcall hphase hwrite hfresh =>
    obtain ⟨hvalid, hsettled⟩ := hS.write_settles hx.valid hwrite
    refine ⟨hvalid, fun _ _ _ => hsettled, shows_finished hx.shows fun j left hne hj i hi => ?_⟩
    obtain ⟨hstands, hfree⟩ := hfresh j left hj i hi
    refine hS.write_frame (hx.settled j left hj) hwrite i ?_ hfree
    -- the payload of the call does not name the member, so the candidate has what was read
    have hnot : ¬ S.members.Names p i := by
      have := hdisjoint j k hne i hi
      rwa [hcall] at this
    rw [← hstands]
    unfold merged
    split
    · rw [S.members.get_overlay, S.members.get_overlay_of_not_names hnot, S.members.get_overlay]
    · exact S.members.get_overlay_of_not_names hnot d
  | @toggle k a b s hcall hphase htoggle =>
    obtain ⟨hvalid, hsettled⟩ := hS.toggle_settles hx.valid htoggle
    refine ⟨hvalid, fun _ _ _ => hsettled, shows_finished hx.shows fun j left hne hj i hi => ?_⟩
    have hnot := hdisjoint j k hne i hi
    rw [hcall] at hnot
    exact hS.toggle_frame htoggle i hnot

end Invariant

/-- No call of a run loses a member of another one, when every update writes over fresh
members. -/
theorem Lawful.keepsFreshUpdates {S : MergingStore σ δ α ε} (hS : S.Lawful) :
    S.KeepsFreshUpdates := by
  intro κ _ calls hdisjoint s hs x hrun
  have hreached : S.Reached calls x := by
    induction hrun with
    | refl => exact reached_start hs
    | tail _ hstep ih => exact reached_step hS hdisjoint ih hstep
  exact hreached.shows

/-- Two updates that both read a resource before either of them writes it. -/
theorem exists_overlap {calls : κ → Request δ α} {k j : κ} (hne : j ≠ k) {a a' : α} {p p' d : δ}
    {s s₁ s₂ : σ} (hk : calls k = .update a p) (hj : calls j = .update a' p')
    (hread : S.read s = some d) (hwrite : S.write a (S.members.overlay p d) s = .ok s₁)
    (hwrite' : S.write a' (S.members.overlay p' d) s₁ = .ok s₂) :
    ∃ x, Relation.ReflTransGen (S.Step calls fun _ _ _ => True) (start s) x ∧ x.store = s₂ ∧
      x.phase k = .finished s₁ := by
  let read₁ : κ → Phase σ δ := Function.update (fun _ => .waiting) k (.loaded d)
  let read₂ : κ → Phase σ δ := Function.update read₁ j (.loaded d)
  let written₁ : κ → Phase σ δ := Function.update read₂ k (.finished s₁)
  have hwaiting : read₁ j = .waiting := by simp only [read₁, Function.update_of_ne hne]
  have hloaded : read₂ k = .loaded d := by
    simp only [read₂, read₁, Function.update_of_ne hne.symm, Function.update_self]
  have hwritten : written₁ j = .loaded d := by
    simp only [written₁, read₂, Function.update_of_ne hne, Function.update_self]
  have hstep₁ : S.Step calls (fun _ _ _ => True) (start s) ⟨s, read₁⟩ := .read hk rfl hread
  have hstep₂ : S.Step calls (fun _ _ _ => True) ⟨s, read₁⟩ ⟨s, read₂⟩ :=
    .read hj hwaiting hread
  have hstep₃ : S.Step calls (fun _ _ _ => True) ⟨s, read₂⟩ ⟨s₁, written₁⟩ :=
    .write hk hloaded hwrite trivial
  have hstep₄ : S.Step calls (fun _ _ _ => True) ⟨s₁, written₁⟩
      ⟨s₂, Function.update written₁ j (.finished s₂)⟩ := .write hj hwritten hwrite' trivial
  refine ⟨_, (((Relation.ReflTransGen.single hstep₁).tail hstep₂).tail hstep₃).tail hstep₄, rfl, ?_⟩
  simp only [written₁, Function.update_of_ne hne.symm, Function.update_self]

end MergingStore

end Portwyrm.Base

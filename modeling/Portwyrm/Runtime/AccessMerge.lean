import Portwyrm.Runtime.AccessPolicy

/-!
# Merged policies

Which requests Nginx grants with the access lines of a policy, and how the policy that
`merge_access_lists` makes of several access lists decides beside the lists themselves.

A merged policy pools the credentials and the client rules.  So a request may take its user from
one list and its address from another, and a rule of one list that another rule of the same list
hides comes to the front.
-/

namespace Portwyrm.Runtime

open Base

/-! ## Nginx -/

/-- A request: the address of the client, and the user whose password it presents. -/
structure Request where
  client : IpAddress
  user : Option String
deriving DecidableEq

/-- What the directives of a location say to a request; `none` where they ask nothing. -/
structure Verdict where
  auth : Option Bool
  access : Option Bool
  satisfyAny : Bool
deriving DecidableEq

/-- Nginx combines the two modules as `satisfy` says. -/
def Verdict.grants (v : Verdict) : Bool :=
  match v.auth, v.access with
  | none, none => true
  | some user, none => user
  | none, some client => client
  | some user, some client => if v.satisfyAny then user || client else user && client

/-- The line that demands a password. -/
def authLine : String := "auth_basic \"Authorization required\";"

/-- Nginx on the access lines of a location: `named` tells whether the password file names the
user of the request. -/
def nginxVerdict (client : IpAddress) (named : Bool) (lines : List String) : Verdict where
  auth := if authLine ∈ lines then some named else none
  access := if lines.filterMap parseRuleLine = [] then none else some (lineDecision client lines)
  satisfyAny := decide ("satisfy any;" ∈ lines)

/-! ## Policies -/

namespace AccessList

/-- The password file of the policy names the user. -/
def names (l : AccessList) (request : Request) : Bool :=
  l.credentials.any fun c => request.user = some c.username

/-- The rules of the policy admit the client. -/
def admits (l : AccessList) (request : Request) : Bool := clientsDecision request.client l.clients

/-- Some rule of the policy allows a network of the client, be it hidden by another rule or not. -/
def AllowsClient (l : AccessList) (request : Request) : Prop :=
  FirstMatch.SomeAllows (fun c : AccessClient => covers request.client c.address)
    (fun c => decide (c.directive = .allow)) l.clients

/-- Nginx grants the request with the access lines of the policy. -/
def grants (l : AccessList) (request : Request) : Bool :=
  (nginxVerdict request.client (l.names request) (accessLines (some l) none)).grants

/-- The policy demands a user and a client at once. -/
def DemandsBoth (l : AccessList) : Prop :=
  l.satisfyAny = false ∧ l.credentials ≠ [] ∧ l.clients ≠ []

variable {l : AccessList} {request : Request}

lemma names_iff : l.names request = true ↔ ∃ c ∈ l.credentials, request.user = some c.username := by
  simp [names]

lemma not_names (h : l.credentials = []) : l.names request = false := by
  simp [names, h]

lemma not_admits (h : l.clients = []) : l.admits request = false := by
  simp [admits, clientsDecision, h]

end AccessList

/-! ### The lines -/

variable {l : AccessList} {request : Request}

/-- Every line of a policy is one of its fragments. -/
lemma mem_accessLines {line : String} (h : line ∈ accessLines (some l) none) :
    (l.credentials ≠ [] ∧ (line = authLine ∨
      line = s!"auth_basic_user_file /data/access/{userFile l none};" ∨
      line = "proxy_set_header Authorization \"\";")) ∨
    (parseRuleLine line).isSome ∨
    line = if l.satisfyAny then "satisfy any;" else "satisfy all;" := by
  simp only [accessLines, List.mem_append] at h
  rcases h with (h | h) | h
  · by_cases hcredentials : l.credentials = []
    · simp [hcredentials] at h
    · rw [if_pos hcredentials] at h
      refine .inl ⟨hcredentials, ?_⟩
      rcases List.mem_append.mp h with h | h
      · simp only [List.mem_cons, List.not_mem_nil, or_false] at h
        exact h.imp id .inl
      · split at h
        · exact .inr (.inr (List.mem_singleton.mp h))
        · simp at h
  · refine .inr (.inl ?_)
    split at h
    · rcases List.mem_append.mp h with h | h
      · obtain ⟨c, -, rfl⟩ := List.mem_map.mp h
        rw [parseRuleLine_line]
        rfl
      · rw [List.mem_singleton.mp h]
        decide
    · simp at h
  · refine .inr (.inr ?_)
    split at h
    · exact List.mem_singleton.mp h
    · simp at h

/-- A password is demanded when the policy has credentials. -/
lemma authLine_mem_iff : authLine ∈ accessLines (some l) none ↔ l.credentials ≠ [] := by
  constructor
  · intro h
    rcases mem_accessLines h with ⟨hcredentials, -⟩ | hrule | hlast
    · exact hcredentials
    · exact absurd hrule (by decide)
    · cases hany : l.satisfyAny <;> rw [hany] at hlast <;> exact absurd hlast (by decide)
  · intro h
    simp only [accessLines, if_pos h, List.append_assoc]
    exact List.mem_append_left _ (by simp [authLine])

/-- The modules are alternatives when the policy says so. -/
lemma satisfyAny_mem_iff (hgiven : l.credentials ≠ [] ∨ l.clients ≠ []) :
    "satisfy any;" ∈ accessLines (some l) none ↔ l.satisfyAny = true := by
  constructor
  · intro h
    rcases mem_accessLines h with ⟨-, hauth | hfile | hheader⟩ | hrule | hlast
    · exact absurd hauth (by decide)
    · have hhead := congrArg (fun s : String => s.toList.head?) hfile
      have ha : (toString "auth_basic_user_file /data/access/").toList.head? = some 'a' := by decide
      simp only [String.toList_append, List.head?_append, ha, Option.some_or] at hhead
      exact absurd hhead (by decide)
    · exact absurd hheader (by decide)
    · exact absurd hrule (by decide)
    · cases hany : l.satisfyAny with
      | true => rfl
      | false => rw [hany] at hlast; exact absurd hlast (by decide)
  · intro h
    simp only [accessLines, if_pos hgiven, h]
    exact List.mem_append_right _ (by simp)

/-- What Nginx grants with a policy. -/
lemma grants_iff (hgiven : l.credentials ≠ [] ∨ l.clients ≠ []) :
    l.grants request = true ↔
      (l.DemandsBoth ∧ l.names request = true ∧ l.admits request = true) ∨
      (¬ l.DemandsBoth ∧ (l.names request = true ∨ l.admits request = true)) := by
  have hrules : (accessLines (some l) none).filterMap parseRuleLine = [] ↔ l.clients = [] := by
    rw [filterMap_accessLines]
    by_cases h : l.clients = [] <;> simp [h]
  have hverdict : nginxVerdict request.client (l.names request) (accessLines (some l) none) =
      ⟨if l.credentials ≠ [] then some (l.names request) else none,
        if l.clients = [] then none else some (l.admits request), l.satisfyAny⟩ := by
    simp only [nginxVerdict, authLine_mem_iff, hrules, lineDecision_accessLines,
      satisfyAny_mem_iff hgiven, Bool.decide_eq_true]
    rfl
  rw [AccessList.grants, hverdict]
  unfold AccessList.DemandsBoth
  by_cases hcredentials : l.credentials = []
  · have hclients : l.clients ≠ [] := hgiven.resolve_left (not_not.mpr hcredentials)
    simp [hcredentials, hclients, Verdict.grants, AccessList.not_names hcredentials]
  · by_cases hclients : l.clients = []
    · simp [hcredentials, hclients, Verdict.grants, AccessList.not_admits hclients]
    · cases hany : l.satisfyAny <;> simp [hcredentials, hclients, Verdict.grants]

/-! ## The merged policy -/

/-- Collecting credentials adds no other. -/
lemma mem_of_mergeCredentials {collected merged : Dict String AccessCredential}
    {credentials : List AccessCredential}
    (h : mergeCredentials collected credentials = .ok merged) {name : String}
    {c : AccessCredential} (hget : merged.get? name = some c) :
    collected.get? name = some c ∨ c ∈ credentials := by
  induction credentials generalizing collected with
  | nil =>
    obtain rfl := pure_eq_ok_iff.mp h
    exact .inl hget
  | cons c' rest ih =>
    simp only [mergeCredentials, bind_eq_ok_iff, raiseIf_eq_ok_iff] at h
    obtain ⟨-, -, hrest⟩ := h
    rcases ih hrest with hset | hmem
    · rw [Dict.get?_set] at hset
      split at hset
      · exact .inr (by simp [Option.some.inj hset])
      · exact .inl hset
    · exact .inr (List.mem_cons_of_mem _ hmem)

lemma AccessList.satisfyAny_of_validate {id : ℕ} {name : String}
    {credentials : List AccessCredential} {clients : List AccessClient} {satisfyAny passAuth : Bool}
    (h : AccessList.validate id name credentials clients satisfyAny passAuth = .ok l) :
    l.satisfyAny = satisfyAny := by
  unfold AccessList.validate at h
  split at h
  · split at h
    · obtain rfl := pure_eq_ok_iff.mp h
      rfl
    · exact absurd h throw_ne_ok
  · exact absurd h throw_ne_ok

/-- What a merged policy says, in terms of the lists. -/
structure Merged (lists : List AccessList) (p : AccessList) : Prop where
  credentials : ∀ c, c ∈ p.credentials ↔ ∃ l ∈ lists, c ∈ l.credentials
  clients : p.clients = orderedClients ((sortedBy natLe AccessList.id lists).flatMap
    AccessList.clients)
  satisfyAny : p.satisfyAny = true ↔ ∀ l ∈ lists, l.satisfyAny = true

lemma merged_of_mergeAccessLists {lists : List AccessList} {p : AccessList}
    (h : mergeAccessLists lists = .ok (some p)) : Merged lists p := by
  obtain ⟨hkept, hclients⟩ := mergeAccessLists_eq_some h
  unfold mergeAccessLists at h
  cases hordered : sortedBy natLe AccessList.id lists with
  | nil => simp [hordered] at h
  | cons first rest =>
    have hmem : ∀ l, l ∈ first :: rest ↔ l ∈ lists := fun l => by rw [← hordered, mem_sortedBy]
    simp only [hordered, bind_eq_ok_iff, pure_eq_ok_iff, Option.some.injEq] at h
    obtain ⟨collected, hcollected, merged, hmerged, rfl⟩ := h
    obtain ⟨-, hcredentials, -⟩ := AccessList.validate_eq_ok hmerged
    refine ⟨fun c => ⟨fun hc => ?_, fun hc => ?_⟩, hclients, ?_⟩
    · rw [hcredentials, List.mem_map] at hc
      obtain ⟨⟨name, c'⟩, hentry, rfl⟩ := hc
      have hget := Dict.mem_entries_iff.mp (mem_sortedBy.mp hentry)
      rcases mem_of_mergeCredentials hcollected hget with hnone | hmem'
      · simp at hnone
      · obtain ⟨l, hl, hc⟩ := List.mem_flatMap.mp hmem'
        exact ⟨l, (hmem l).mp hl, hc⟩
    · obtain ⟨l, hl, hc⟩ := hc
      exact hkept l hl c hc
    · rw [AccessList.satisfyAny_of_validate hmerged, List.all_eq_true]
      exact forall_congr' fun l => by rw [hmem]

section Merged

variable {lists : List AccessList} {p : AccessList}

/-- The lists together demand a user and a client at once. -/
def PoolDemandsBoth (lists : List AccessList) : Prop :=
  (∃ l ∈ lists, l.satisfyAny = false) ∧ (∃ l ∈ lists, l.credentials ≠ []) ∧
    ∃ l ∈ lists, l.clients ≠ []

lemma Merged.demandsBoth_iff (h : Merged lists p) : p.DemandsBoth ↔ PoolDemandsBoth lists := by
  have hany : p.satisfyAny = false ↔ ∃ l ∈ lists, l.satisfyAny = false := by
    rw [← Bool.not_eq_true, h.satisfyAny]
    simp
  have hcredentials : p.credentials ≠ [] ↔ ∃ l ∈ lists, l.credentials ≠ [] := by
    simp only [ne_eq, List.eq_nil_iff_forall_not_mem, not_forall, not_not, h.credentials]
    constructor
    · rintro ⟨c, l, hl, hc⟩
      exact ⟨l, hl, c, hc⟩
    · rintro ⟨l, hl, c, hc⟩
      exact ⟨c, l, hl, hc⟩
  have hclients : p.clients ≠ [] ↔ ∃ l ∈ lists, l.clients ≠ [] := by
    simp only [ne_eq, List.eq_nil_iff_forall_not_mem, not_forall, not_not, h.clients,
      mem_orderedClients, List.mem_flatMap, mem_sortedBy]
    constructor
    · rintro ⟨c, l, hl, hc⟩
      exact ⟨l, hl, c, hc⟩
    · rintro ⟨l, hl, c, hc⟩
      exact ⟨c, l, hl, hc⟩
  rw [AccessList.DemandsBoth, hany, hcredentials, hclients, PoolDemandsBoth]

/-- The merged password file names the users of all lists. -/
lemma Merged.names_iff (h : Merged lists p) :
    p.names request = true ↔ ∃ l ∈ lists, l.names request = true := by
  simp only [AccessList.names_iff, h.credentials]
  exact ⟨fun ⟨c, ⟨l, hl, hc⟩, huser⟩ => ⟨l, hl, c, hc, huser⟩,
    fun ⟨l, hl, c, hc, huser⟩ => ⟨c, ⟨l, hl, hc⟩, huser⟩⟩

/-- The merged rules admit what any rule of any list allows: the allowing rules stand in front. -/
lemma Merged.admits_iff (h : Merged lists p) :
    p.admits request = true ↔ ∃ l ∈ lists, l.AllowsClient request := by
  rw [AccessList.admits, h.clients, clientsDecision,
    FirstMatch.admits_reordered (fun c => mem_orderedClients) (allowsFirst_orderedClients _)]
  simp only [FirstMatch.SomeAllows, AccessList.AllowsClient, List.mem_flatMap, mem_sortedBy]
  exact ⟨fun ⟨c, ⟨l, hl, hc⟩, hallows⟩ => ⟨l, hl, c, hc, hallows⟩,
    fun ⟨l, hl, c, hc, hallows⟩ => ⟨c, ⟨l, hl, hc⟩, hallows⟩⟩

/-- User and client come from different lists: every list that names the user or admits the
client demands both, and has only one of them. -/
structure TakenApart (lists : List AccessList) (request : Request) : Prop where
  pool : PoolDemandsBoth lists
  user : ∃ l ∈ lists, l.names request = true
  client : ∃ l ∈ lists, l.AllowsClient request
  apart : ∀ l ∈ lists, l.names request = true ∨ l.admits request = true →
    l.DemandsBoth ∧ ¬ (l.names request = true ∧ l.admits request = true)

/-- Nothing but a hidden rule speaks for the request: the lists do not demand a user and a client
at once, none of them names the user or admits the client, and in one of them a rule that allows
the client stands behind one that refuses it. -/
structure HiddenAllowed (lists : List AccessList) (request : Request) : Prop where
  pool : ¬ PoolDemandsBoth lists
  refused : ∀ l ∈ lists, l.names request = false ∧ l.admits request = false
  client : ∃ l ∈ lists, l.AllowsClient request

/-- A list that demands both makes the pool demand both. -/
lemma poolDemandsBoth_of_mem (hl : l ∈ lists) (h : l.DemandsBoth) : PoolDemandsBoth lists :=
  ⟨⟨l, hl, h.1⟩, ⟨l, hl, h.2.1⟩, l, hl, h.2.2⟩

/-- A merged policy that grants a request that none of the lists grants, by the two ways in which
this happens. -/
lemma Merged.oversteps_iff (h : Merged lists p) (hp : p.credentials ≠ [] ∨ p.clients ≠ [])
    (hgiven : ∀ l ∈ lists, l.credentials ≠ [] ∨ l.clients ≠ []) (request : Request) :
    (p.grants request = true ∧ ∀ l ∈ lists, ¬ l.grants request = true) ↔
      TakenApart lists request ∨ HiddenAllowed lists request := by
  rw [grants_iff hp, h.demandsBoth_iff, h.names_iff, h.admits_iff]
  constructor
  · rintro ⟨⟨hpool, huser, hclient⟩ | ⟨hpool, hpooled⟩, hnone⟩
    · refine .inl ⟨hpool, huser, hclient, fun l hl hl' => ?_⟩
      have hrefused := mt (grants_iff (hgiven l hl)).mpr (hnone l hl)
      have hboth : l.DemandsBoth := by
        by_contra hboth
        exact hrefused (.inr ⟨hboth, hl'⟩)
      exact ⟨hboth, fun hl'' => hrefused (.inl ⟨hboth, hl''⟩)⟩
    · have hrefused : ∀ l ∈ lists, l.names request = false ∧ l.admits request = false := by
        intro l hl
        have hl' := mt (grants_iff (hgiven l hl)).mpr (hnone l hl)
        have hboth : ¬ l.DemandsBoth := fun hboth => hpool (poolDemandsBoth_of_mem hl hboth)
        simpa [hboth] using hl'
      refine .inr ⟨hpool, hrefused, hpooled.resolve_left ?_⟩
      rintro ⟨l, hl, hnames⟩
      exact absurd hnames (by simp [(hrefused l hl).1])
  · rintro (⟨hpool, huser, hclient, hapart⟩ | ⟨hpool, hrefused, hclient⟩)
    · refine ⟨.inl ⟨hpool, huser, hclient⟩, fun l hl hgrants => ?_⟩
      rcases (grants_iff (hgiven l hl)).mp hgrants with ⟨-, hnames, hadmits⟩ | ⟨hboth, hl'⟩
      · exact (hapart l hl (.inl hnames)).2 ⟨hnames, hadmits⟩
      · exact hboth (hapart l hl hl').1
    · refine ⟨.inr ⟨hpool, .inr hclient⟩, fun l hl hgrants => ?_⟩
      obtain ⟨hnames, hadmits⟩ := hrefused l hl
      simp [grants_iff (hgiven l hl), hnames, hadmits] at hgrants

/-- How conservative a merge is.  A request that the merged policy grants is granted by one of
the selected lists on its own, if and only if it neither takes its user and its client from
different lists nor is spoken for by a hidden rule alone. -/
theorem mergeAccessLists_conservative_iff (hmerge : mergeAccessLists lists = .ok (some p))
    (hgiven : ∀ l ∈ lists, l.credentials ≠ [] ∨ l.clients ≠ []) (request : Request) :
    (p.grants request = true → ∃ l ∈ lists, l.grants request = true) ↔
      ¬ TakenApart lists request ∧ ¬ HiddenAllowed lists request := by
  have h := merged_of_mergeAccessLists hmerge
  obtain ⟨l, hl⟩ : ∃ l, l ∈ lists := by
    refine List.exists_mem_of_ne_nil _ fun hnil => ?_
    rw [mergeAccessLists_eq_none.mpr hnil] at hmerge
    simp at hmerge
  have hp : p.credentials ≠ [] ∨ p.clients ≠ [] := by
    refine (hgiven l hl).imp (fun hne => ?_) fun hne => ?_
    · obtain ⟨c, hc⟩ := List.exists_mem_of_ne_nil _ hne
      exact List.ne_nil_of_mem ((h.credentials c).mpr ⟨l, hl, hc⟩)
    · obtain ⟨c, hc⟩ := List.exists_mem_of_ne_nil _ hne
      rw [h.clients]
      exact List.ne_nil_of_mem (mem_orderedClients.mpr
        (List.mem_flatMap.mpr ⟨l, mem_sortedBy.mpr hl, hc⟩))
  rw [← not_or, ← h.oversteps_iff hp hgiven request]
  simp

end Merged

/-! ### A user of one list at an address of another -/

/-- The list of an office: its user, from its network. -/
def officeAccess : AccessList where
  id := 1
  name := "office"
  credentials := [⟨"bob", "hash-b", by decide, by decide⟩]
  clients := [⟨"10.0.0.0/8", .allow, normalizeAddress_ten⟩]
  satisfyAny := false
  passAuth := false
  idPositive := Nat.one_pos
  nameGiven := strip_office

/-- The list of a team: its user, from its network. -/
def teamAccess : AccessList where
  id := 2
  name := "team"
  credentials := [⟨"alice", "hash-a", by decide, by decide⟩]
  clients := [⟨"192.168.0.0/16", .allow, by decide⟩]
  satisfyAny := false
  passAuth := false
  idPositive := Nat.two_pos
  nameGiven := strip_team

/-- The two lists as one policy. -/
def officeTeamAccess : AccessList where
  id := 1
  name := "office + team"
  credentials := teamAccess.credentials ++ officeAccess.credentials
  clients := officeAccess.clients ++ teamAccess.clients
  satisfyAny := false
  passAuth := false
  idPositive := Nat.one_pos
  nameGiven := by decide

/-- The user of the team comes in from the network of the office: both lists refuse, the merged
policy grants. -/
theorem merged_grants_apart :
    ∃ p, mergeAccessLists [officeAccess, teamAccess] = .ok (some p) ∧
      p.grants ⟨.v4 0x0a000001, some "alice"⟩ = true ∧
      ∀ l ∈ [officeAccess, teamAccess], l.grants ⟨.v4 0x0a000001, some "alice"⟩ = false := by
  refine ⟨officeTeamAccess, ?_, ?_, ?_⟩ <;> decide +kernel

/-- The user of the office is granted by the list of the office. -/
theorem mergeAccessLists_conservative_office :
    (officeTeamAccess.grants ⟨.v4 0x0a000001, some "bob"⟩ = true →
      ∃ l ∈ [officeAccess, teamAccess], l.grants ⟨.v4 0x0a000001, some "bob"⟩ = true) ↔
      ¬ TakenApart [officeAccess, teamAccess] ⟨.v4 0x0a000001, some "bob"⟩ ∧
        ¬ HiddenAllowed [officeAccess, teamAccess] ⟨.v4 0x0a000001, some "bob"⟩ :=
  mergeAccessLists_conservative_iff (by decide +kernel) (by decide +kernel) _

end Portwyrm.Runtime

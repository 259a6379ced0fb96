import Mathlib.Data.String.Basic
import Portwyrm.Runtime.AccessTables
import Portwyrm.Runtime.Nginx

/-!
# The effective access policy of a host

What `merge_access_lists` keeps of the access lists that a host selects, and how the rendered
client rules decide compared with the stored ones.
-/

namespace Portwyrm.Runtime

open Base

/-! ## Orders -/

instance : Std.Total fun a b : String × String => pairLe a b = true where
  total a b := by
    unfold pairLe textLe
    simp only [Bool.or_eq_true, decide_eq_true_eq, Bool.and_eq_true, beq_iff_eq]
    rcases lt_trichotomy a.1 b.1 with h | h | h
    · exact .inl (.inl h)
    · exact (le_total a.2 b.2).imp (fun h' => .inr ⟨h, h'⟩) fun h' => .inr ⟨h.symm, h'⟩
    · exact .inr (.inl h)

instance : IsTrans (String × String) fun a b => pairLe a b = true where
  trans a b c := by
    unfold pairLe textLe
    simp only [Bool.or_eq_true, decide_eq_true_eq, Bool.and_eq_true, beq_iff_eq]
    rintro (h | ⟨h, h'⟩) (g | ⟨g, g'⟩)
    · exact .inl (h.trans g)
    · exact .inl (g ▸ h)
    · exact .inl (h ▸ g)
    · exact .inr ⟨h.trans g, h'.trans g'⟩

/-! ## Merging -/

lemma AccessDirective.value_injective : Function.Injective AccessDirective.value := by
  intro d d' h
  cases d <;> cases d' <;> first | rfl | exact absurd h (by decide)

lemma AccessClient.key_injective : Function.Injective AccessClient.key := by
  rintro ⟨address, directive, _⟩ ⟨address', directive', _⟩ h
  obtain ⟨hd, ha⟩ := Prod.mk.inj h
  obtain rfl : address = address' := ha
  obtain rfl := AccessDirective.value_injective hd
  rfl

lemma mem_mergeClients {clients : List AccessClient} {key : String × String} {c : AccessClient} :
    (key, c) ∈ (mergeClients clients).entries ↔ c ∈ clients ∧ key = c.key := by
  have hfunctional : ∀ e ∈ clients.map fun c => (c.key, c), ∀ e' ∈ clients.map fun c => (c.key, c),
      e.1 = e'.1 → e.2 = e'.2 := by
    intro e he e' he' heq
    obtain ⟨c, -, rfl⟩ := List.mem_map.mp he
    obtain ⟨c', -, rfl⟩ := List.mem_map.mp he'
    exact AccessClient.key_injective heq
  rw [Dict.mem_entries_iff, mergeClients, Dict.get?_ofList_iff_of_functional hfunctional,
    List.mem_map]
  constructor
  · rintro ⟨c', hc', h⟩
    obtain ⟨rfl, rfl⟩ := Prod.mk.inj h
    exact ⟨hc', rfl⟩
  · rintro ⟨hc, rfl⟩
    exact ⟨c, hc, rfl⟩

/-- The rules of a merged policy, in the order of their directives and addresses. -/
def orderedClients (clients : List AccessClient) : List AccessClient :=
  (sortedBy pairLe Prod.fst (mergeClients clients).entries).map Prod.snd

lemma mem_orderedClients {clients : List AccessClient} {c : AccessClient} :
    c ∈ orderedClients clients ↔ c ∈ clients := by
  simp only [orderedClients, List.mem_map, mem_sortedBy, Prod.exists, exists_eq_right,
    mem_mergeClients]

/-- Sorting by directive puts the allowing rules first: `allow` comes before `deny`. -/
lemma allowsFirst_orderedClients (clients : List AccessClient) :
    FirstMatch.AllowsFirst (fun c : AccessClient => decide (c.directive = .allow))
      (orderedClients clients) := by
  have hsorted : (sortedBy pairLe Prod.fst (mergeClients clients).entries).Pairwise
      fun a b => pairLe a.1 b.1 = true := by
    have : Std.Total fun a b : (String × String) × AccessClient => pairLe a.1 b.1 = true :=
      ⟨fun a b => Std.Total.total (r := fun a b => pairLe a b = true) a.1 b.1⟩
    have : IsTrans _ fun a b : (String × String) × AccessClient => pairLe a.1 b.1 = true :=
      ⟨fun a b c => IsTrans.trans (r := fun a b => pairLe a b = true) a.1 b.1 c.1⟩
    exact List.pairwise_insertionSort _ _
  refine List.pairwise_map.mpr (hsorted.imp_of_mem ?_)
  rintro ⟨key, a⟩ ⟨key', b⟩ ha hb hle hallow
  obtain ⟨-, rfl⟩ := mem_mergeClients.mp (mem_sortedBy.mp ha)
  obtain ⟨-, rfl⟩ := mem_mergeClients.mp (mem_sortedBy.mp hb)
  have hb' : b.directive = .allow := by simpa using hallow
  show decide (a.directive = .allow) = true
  cases hd : a.directive with
  | allow => rfl
  | deny =>
    simp only [pairLe, AccessClient.key, hb', hd, Bool.or_eq_true, decide_eq_true_eq,
      Bool.and_eq_true, beq_iff_eq] at hle
    rcases hle with h | ⟨h, -⟩
    · exact absurd h (by decide)
    · exact absurd h (by decide)

/-- Collecting credentials keeps every one of them under its name. -/
lemma mergeCredentials_spec {collected merged : Dict String AccessCredential}
    {credentials : List AccessCredential}
    (h : mergeCredentials collected credentials = .ok merged)
    (hnames : ∀ name c, collected.get? name = some c → c.username = name) :
    (∀ name c, merged.get? name = some c → c.username = name) ∧
      (∀ c ∈ credentials, merged.get? c.username = some c) ∧
      ∀ name c, collected.get? name = some c → merged.get? name = some c := by
  induction credentials generalizing collected with
  | nil =>
    obtain rfl := pure_eq_ok_iff.mp h
    exact ⟨hnames, by simp, fun _ _ => id⟩
  | cons c rest ih =>
    simp only [mergeCredentials, bind_eq_ok_iff, raiseIf_eq_ok_iff] at h
    obtain ⟨-, hconflict, hrest⟩ := h
    have hkeep : ∀ name c', collected.get? name = some c' →
        (collected.set c.username c).get? name = some c' := by
      intro name c' hget
      rw [Dict.get?_set]
      split
      · -- the name is taken: the stored credential has the same hash, so it is the same
        rename_i hname
        subst hname
        have hhash : c'.passwordHash = c.passwordHash := by
          by_contra hne
          exact hconflict ⟨c', hget, hne⟩
        have huser : c'.username = c.username := hnames _ _ hget
        cases c
        cases c'
        simp_all
      · exact hget
    have hnames' : ∀ name c', (collected.set c.username c).get? name = some c' →
        c'.username = name := by
      intro name c' hget
      rw [Dict.get?_set] at hget
      split at hget
      · rename_i hname
        rw [← Option.some.inj hget, hname]
      · exact hnames name c' hget
    obtain ⟨hmerged, hall, hold⟩ := ih hrest hnames'
    refine ⟨hmerged, ?_, fun name c' hget => hold name c' (hkeep name c' hget)⟩
    intro c' hc'
    rcases List.mem_cons.mp hc' with rfl | hc'
    · exact hold _ _ (Dict.get?_set_self _ _ _)
    · exact hall c' hc'

/-- What a merged policy keeps: every credential and every rule of each list, the rules in
the order of their keys. -/
lemma mergeAccessLists_eq_some {lists : List AccessList} {p : AccessList}
    (h : mergeAccessLists lists = .ok (some p)) :
    (∀ l ∈ lists, ∀ c ∈ l.credentials, c ∈ p.credentials) ∧
      p.clients = orderedClients
        ((sortedBy natLe AccessList.id lists).flatMap AccessList.clients) := by
  unfold mergeAccessLists at h
  cases hordered : sortedBy natLe AccessList.id lists with
  | nil => simp [hordered] at h
  | cons first rest =>
    simp only [hordered, bind_eq_ok_iff, pure_eq_ok_iff, Option.some.injEq] at h
    obtain ⟨credentials, hcredentials, merged, hmerged, rfl⟩ := h
    obtain ⟨-, hcred, hclients⟩ := AccessList.validate_eq_ok hmerged
    refine ⟨fun l hl c hc => ?_, by rw [hclients]; rfl⟩
    have hmem : c ∈ (first :: rest).flatMap AccessList.credentials := by
      rw [← hordered]
      exact List.mem_flatMap.mpr ⟨l, mem_sortedBy.mpr hl, hc⟩
    have hget := (mergeCredentials_spec hcredentials (by simp)).2.1 c hmem
    rw [hcred, List.mem_map]
    exact ⟨(c.username, c), mem_sortedBy.mpr (Dict.mem_entries_iff.mpr hget), rfl⟩

lemma mergeAccessLists_eq_none {lists : List AccessList} :
    mergeAccessLists lists = .ok none ↔ lists = [] := by
  constructor
  · intro h
    unfold mergeAccessLists at h
    cases hordered : sortedBy natLe AccessList.id lists with
    | nil =>
      have := (perm_sortedBy natLe AccessList.id lists).length_eq
      simpa [hordered] using this.symm
    | cons first rest =>
      simp only [hordered, bind_eq_ok_iff, pure_eq_ok_iff] at h
      obtain ⟨_, -, _, -, hsome⟩ := h
      exact absurd hsome (by simp)
  · rintro rfl
    rfl

/-! ## The lists that a render reads -/

/-- Validating a dumped access list again changes nothing. -/
lemma AccessList.revalidate_self (l : AccessList) : l.revalidate = .ok l := by
  have hcredentials : l.credentials.mapM (fun c => AccessCredential.validate c.username
      c.passwordHash) = .ok l.credentials :=
    mapM_eq_ok_self fun c _ => c.validate_self
  have hclients : l.clients.mapM (fun c => AccessClient.validate c.address c.directive) =
      .ok l.clients :=
    mapM_eq_ok_self fun c _ => c.validate_self
  simp only [AccessList.revalidate, hcredentials, hclients, ok_bind, AccessList.validate_self]

lemma readAccessLists_eq (t : AccessTables) : readAccessLists t = accessRuntimeList t := by
  unfold readAccessLists
  cases accessRuntimeList t with
  | error e => rfl
  | ok lists => exact mapM_eq_ok_self fun l _ => l.revalidate_self

/-- `access_by_id` of lists with different ids. -/
lemma get?_accessById {lists : List AccessList} (hnodup : (lists.map AccessList.id).Nodup)
    {i : ℕ} {l : AccessList} : (accessById lists).get? i = some l ↔ l ∈ lists ∧ l.id = i := by
  have hfunctional : ∀ e ∈ lists.map fun l => (l.id, l), ∀ e' ∈ lists.map fun l => (l.id, l),
      e.1 = e'.1 → e.2 = e'.2 := by
    intro e he e' he' heq
    obtain ⟨l, hl, rfl⟩ := List.mem_map.mp he
    obtain ⟨l', hl', rfl⟩ := List.mem_map.mp he'
    exact List.inj_on_of_nodup_map hnodup hl hl' heq
  rw [accessById, Dict.get?_ofList_iff_of_functional hfunctional, List.mem_map]
  constructor
  · rintro ⟨l', hl', h⟩
    obtain ⟨rfl, rfl⟩ := Prod.mk.inj h
    exact ⟨hl', rfl⟩
  · rintro ⟨hl, rfl⟩
    exact ⟨l, hl, rfl⟩

variable {t : AccessTables} {lists : List AccessList}

lemma runtimeProjection_id {i : ℕ} {row : AccessListRow} {l : AccessList}
    (h : runtimeProjection t i row = .ok l) : l.id = i := by
  simp only [runtimeProjection, bind_eq_ok_iff] at h
  obtain ⟨credentials, -, clients, -, h⟩ := h
  exact (AccessList.validate_eq_ok h).1

/-- The access lists that a render reads have the different ids of their rows. -/
lemma nodup_readAccessLists (h : readAccessLists t = .ok lists) :
    (lists.map AccessList.id).Nodup := by
  rw [readAccessLists_eq, accessRuntimeList, mapM_eq_ok_iff] at h
  have hids : List.Forall₂ (fun (e : ℕ × AccessListRow) l => e.1 = AccessList.id l)
      (sortedBy natLe Prod.fst t.lists.rows.entries) lists :=
    h.imp fun e l hel => (runtimeProjection_id hel).symm
  have heq : (sortedBy natLe Prod.fst t.lists.rows.entries).map Prod.fst =
      lists.map AccessList.id :=
    List.forall₂_eq_eq_eq ▸ List.forall₂_map_left_iff.mpr (List.forall₂_map_right_iff.mpr hids)
  rw [← heq]
  exact ((perm_sortedBy _ _ _).map Prod.fst).nodup_iff.mpr t.lists.rows.nodup

/-- A render reads the projection of each stored access list. -/
lemma get?_readAccessLists (h : readAccessLists t = .ok lists) {i : ℕ} {row : AccessListRow}
    (hrow : t.lists.get? i = some row) :
    ∃ l, (accessById lists).get? i = some l ∧ runtimeProjection t i row = .ok l := by
  have hnodup := nodup_readAccessLists h
  rw [readAccessLists_eq, accessRuntimeList, mapM_eq_ok_iff] at h
  have hmem : (i, row) ∈ sortedBy natLe Prod.fst t.lists.rows.entries :=
    mem_sortedBy.mpr (Dict.mem_entries_iff.mpr hrow)
  obtain ⟨l, hl, hproj⟩ := Numeral.exists_of_mem_left h hmem
  exact ⟨l, (get?_accessById hnodup).mpr ⟨hl, runtimeProjection_id hproj⟩, hproj⟩

/-! ## Decisions -/

/-- The rule with this address covers a client. -/
def covers (client : IpAddress) (address : String) : Bool :=
  Text.strip address = "all" ||
    (IpNetwork.parse (Text.strip address).toList).any fun network => network.contains client

/-- Normalising an address does not change which clients it covers. -/
lemma covers_normal {address normal : String} (h : normalizeAddress address = .ok normal)
    (client : IpAddress) : covers client normal = covers client address := by
  rcases normalizeAddress_eq_ok h with ⟨hall, rfl⟩ | ⟨hall, network, hparse, rfl⟩
  · simp [covers, hall, show Text.strip "all" = "all" by decide]
  · have hcanonical := IpNetwork.canonical_of_parse hparse
    simp only [covers, Text.strip_of_stripped (stripped_text hcanonical), String.toList_ofList,
      IpNetwork.parse_text hcanonical, hparse, text_ne_all, hall]

/-- The decision on a client by the stored rules of an access list, in their order. -/
def storedDecision (t : AccessTables) (id : ℕ) (client : IpAddress) : Bool :=
  FirstMatch.admits (fun r : AccessRuleRow => covers client r.address)
    (fun r => decide (r.directive = .allow)) (t.rulesOf id)

/-- The decision on a client by the rules of a policy. -/
def clientsDecision (client : IpAddress) (clients : List AccessClient) : Bool :=
  FirstMatch.admits (fun c : AccessClient => covers client c.address)
    (fun c => decide (c.directive = .allow)) clients

/-- The rule that a line states, if it is an `allow` or `deny` line. -/
def parseRuleLine (line : String) : Option (AccessDirective × String) :=
  (Text.partition ' ' line).bind fun p =>
    let address := String.ofList p.2.toList.dropLast
    if p.1 = "allow" then some (.allow, address)
    else if p.1 = "deny" then some (.deny, address)
    else none

/-- The decision on a client by the `allow` and `deny` lines among rendered lines. -/
def lineDecision (client : IpAddress) (lines : List String) : Bool :=
  FirstMatch.admits (fun r : AccessDirective × String => covers client r.2)
    (fun r => decide (r.1 = .allow)) (lines.filterMap parseRuleLine)

/-- The access lines that a host is rendered with. -/
def hostAccessLines (lists : List AccessList) (host : RuntimeHost) : Result (List String) := do
  let effective ← effectivePolicy (accessById lists) host
  pure (accessLines effective (passwordFile host (selectedLists (accessById lists) host)))

/-! ### Lines -/

lemma parseRuleLine_line (c : AccessClient) :
    parseRuleLine c.line = some (c.directive, c.address) := by
  have hline : c.line = c.directive.value ++ String.singleton ' ' ++ (c.address ++ ";") := by
    rw [← String.append_assoc]
    rfl
  have hword : ' ' ∉ c.directive.value.toList := by
    cases c.directive <;> decide
  have haddress : String.ofList (c.address ++ ";").toList.dropLast = c.address := by
    simp [show ";".toList = [';'] by decide]
  rw [hline, parseRuleLine, Text.partition_join _ hword, Option.bind_some]
  dsimp only
  rw [haddress]
  cases c.directive
  · rfl
  · rfl

/-- A line that starts with another word states no rule. -/
lemma parseRuleLine_of_word {word rest : String} (hword : ' ' ∉ word.toList)
    (hallow : word ≠ "allow") (hdeny : word ≠ "deny") :
    parseRuleLine (word ++ String.singleton ' ' ++ rest) = none := by
  rw [parseRuleLine, Text.partition_join _ hword, Option.bind_some]
  dsimp only
  rw [if_neg hallow, if_neg hdeny]

lemma parseRuleLine_auth_basic : parseRuleLine "auth_basic \"Authorization required\";" = none := by
  decide

lemma parseRuleLine_user_file (file : String) :
    parseRuleLine s!"auth_basic_user_file /data/access/{file};" = none := by
  have hline : s!"auth_basic_user_file /data/access/{file};" =
      "auth_basic_user_file" ++ String.singleton ' ' ++ ("/data/access/" ++ file ++ ";") := by
    rw [← String.append_assoc, ← String.append_assoc]
    rfl
  rw [hline]
  exact parseRuleLine_of_word (by decide) (by decide) (by decide)

lemma parseRuleLine_set_header :
    parseRuleLine "proxy_set_header Authorization \"\";" = none := by
  decide

/-- The rules that the access lines of a policy state: its own, then the refusal of the rest. -/
lemma filterMap_accessLines (p : AccessList) (file : Option String) :
    (accessLines (some p) file).filterMap parseRuleLine =
      p.clients.map (fun c => (c.directive, c.address)) ++
        if p.clients ≠ [] then [(.deny, "all")] else [] := by
  have hclients : (p.clients.map AccessClient.line).filterMap parseRuleLine =
      p.clients.map fun c => (c.directive, c.address) := by
    have hline : parseRuleLine ∘ AccessClient.line = fun c => some (c.directive, c.address) :=
      funext parseRuleLine_line
    rw [List.filterMap_map, hline, List.filterMap_eq_map']
  have hdeny : parseRuleLine "deny all;" = some (.deny, "all") := by decide
  have hsatisfy : parseRuleLine (if p.satisfyAny then "satisfy any;" else "satisfy all;") = none := by
    cases p.satisfyAny <;> decide
  have hcredentials : (if p.credentials ≠ [] then
      ["auth_basic \"Authorization required\";",
        s!"auth_basic_user_file /data/access/{userFile p file};"] ++
      (if p.passAuth = false then ["proxy_set_header Authorization \"\";"] else [])
      else []).filterMap parseRuleLine = [] := by
    split
    · cases p.passAuth <;> simp [parseRuleLine_auth_basic, parseRuleLine_user_file,
        parseRuleLine_set_header]
    · rfl
  have hrules : (if p.clients ≠ [] then p.clients.map AccessClient.line ++ ["deny all;"]
      else []).filterMap parseRuleLine =
      p.clients.map (fun c => (c.directive, c.address)) ++
        if p.clients ≠ [] then [(.deny, "all")] else [] := by
    split
    · rw [List.filterMap_append, hclients, List.filterMap_cons, hdeny, List.filterMap_nil]
    · rename_i hnone
      simp [not_not.mp hnone]
  have hlast : (if p.credentials ≠ [] ∨ p.clients ≠ [] then
      [if p.satisfyAny then "satisfy any;" else "satisfy all;"] else []).filterMap parseRuleLine =
      [] := by
    split
    · rw [List.filterMap_cons, hsatisfy, List.filterMap_nil]
    · rfl
  rw [accessLines, List.filterMap_append, List.filterMap_append, hcredentials, hrules, hlast,
    List.nil_append, List.append_nil]

/-- The lines of a policy decide like its rules. -/
lemma lineDecision_accessLines (client : IpAddress) (p : AccessList) (file : Option String) :
    lineDecision client (accessLines (some p) file) = clientsDecision client p.clients := by
  rw [lineDecision, filterMap_accessLines, FirstMatch.admits_append_of_refusing]
  · exact FirstMatch.admits_map (fun c : AccessClient => (c.directive, c.address))
      (fun _ => rfl) fun _ => rfl
  · intro r hr
    split at hr
    · simp [List.mem_singleton.mp hr]
    · simp at hr

/-- The projected rules of an access list cover and allow like the stored ones. -/
lemma projection_alike {i : ℕ} {row : AccessListRow} {l : AccessList}
    (h : runtimeProjection t i row = .ok l) (client : IpAddress) :
    List.Forall₂ (fun (r : AccessRuleRow) (c : AccessClient) =>
      covers client c.address = covers client r.address ∧
        decide (c.directive = .allow) = decide (r.directive = .allow)) (t.rulesOf i) l.clients := by
  simp only [runtimeProjection, bind_eq_ok_iff] at h
  obtain ⟨credentials, -, clients, hclients, h⟩ := h
  rw [(AccessList.validate_eq_ok h).2.2]
  refine (mapM_eq_ok_iff.mp hclients).imp ?_
  intro r c hc
  obtain ⟨hnormal, hdirective⟩ := AccessClient.validate_eq_ok hc
  exact ⟨covers_normal hnormal client, by rw [hdirective]⟩

/-! ### One selected list -/

variable {host : RuntimeHost} {lines : List String} {i : ℕ}

/-- A host that selects one stored list is rendered with the rules of its projection, in the
order of their keys. -/
lemma hostAccessLines_single (hread : readAccessLists t = .ok lists)
    (hstored : (t.lists.get? i).isSome) (hselects : selectedIds host = [i])
    (hlines : hostAccessLines lists host = .ok lines) :
    ∃ row l, runtimeProjection t i row = .ok l ∧ ∀ client,
      lineDecision client lines = clientsDecision client (orderedClients l.clients) := by
  obtain ⟨row, hrow⟩ := Option.isSome_iff_exists.mp hstored
  obtain ⟨l, hget, hproj⟩ := get?_readAccessLists hread hrow
  have hselected : selectedLists (accessById lists) host = [l] := by
    simp [selectedLists, hselects, hget]
  simp only [hostAccessLines, effectivePolicy, hselected, bind_eq_ok_iff, pure_eq_ok_iff] at hlines
  obtain ⟨policy, hmerge, rfl⟩ := hlines
  cases policy with
  | none => simp [mergeAccessLists_eq_none] at hmerge
  | some p =>
    refine ⟨row, l, hproj, fun client => ?_⟩
    have hclients : p.clients = orderedClients l.clients := by
      simpa [sortedBy] using (mergeAccessLists_eq_some hmerge).2
    rw [lineDecision_accessLines, hclients]

/-- The stored rules, as the rules that cover and refuse one client. -/
abbrev HidesAllow (t : AccessTables) (id : ℕ) (client : IpAddress) : Prop :=
  FirstMatch.RefusedThenAllowed (fun r : AccessRuleRow => covers client r.address)
    (fun r => decide (r.directive = .allow)) (t.rulesOf id)

/-- The rendered lines of a host that selects one stored list decide on a client like the
stored rules in their order exactly when no `deny` rule that is the first to cover the client
stands before an `allow` rule that covers it too. -/
theorem lineDecision_eq_storedDecision_iff (hread : readAccessLists t = .ok lists)
    (hstored : (t.lists.get? i).isSome) (hselects : selectedIds host = [i])
    (hlines : hostAccessLines lists host = .ok lines) (client : IpAddress) :
    lineDecision client lines = storedDecision t i client ↔ ¬ HidesAllow t i client := by
  obtain ⟨row, l, hproj, hdecision⟩ := hostAccessLines_single hread hstored hselects hlines
  have halike := projection_alike hproj client
  have hstoredEq : storedDecision t i client = clientsDecision client l.clients :=
    (FirstMatch.admits_congr halike).symm
  rw [hdecision, hstoredEq, HidesAllow, ← FirstMatch.refusedThenAllowed_alike halike]
  exact FirstMatch.admits_reordered_iff (fun c => mem_orderedClients)
    (allowsFirst_orderedClients l.clients)

/-! ### A hidden rule -/

/-- An access list that refuses one client of a network and admits the others. -/
def overlapTables : AccessTables where
  lists := Table.empty.add { name := "office" }
  rules := (Table.empty.add ⟨1, 0, .deny, "10.0.0.5/32"⟩).add ⟨1, 1, .allow, "10.0.0.0/8"⟩
  credentials := Table.empty

/-- The list as a render reads it. -/
def overlapList : AccessList where
  id := 1
  name := "office"
  credentials := []
  clients := [⟨"10.0.0.5/32", .deny, by decide⟩, ⟨"10.0.0.0/8", .allow, normalizeAddress_ten⟩]
  satisfyAny := false
  passAuth := false
  idPositive := Nat.one_pos
  nameGiven := strip_office

/-- A proxy host that selects the list alone. -/
def overlapHost : RuntimeHost where
  id := 1
  kind := .proxy
  domainNames := ["app.example.test"]
  accessListId := 1

/-- The lines that the host is rendered with. -/
def overlapLines : List String :=
  ["allow 10.0.0.0/8;", "deny 10.0.0.5/32;", "deny all;", "satisfy all;"]

lemma readAccessLists_overlap : readAccessLists overlapTables = .ok [overlapList] := by decide

lemma hostAccessLines_overlap : hostAccessLines [overlapList] overlapHost = .ok overlapLines := by
  decide

/-- The refused client is admitted by the rendered lines. -/
theorem overlap_decisions_differ :
    ∃ lists lines, readAccessLists overlapTables = .ok lists ∧ selectedIds overlapHost = [1] ∧
      hostAccessLines lists overlapHost = .ok lines ∧
      lineDecision (.v4 0x0a000005) lines = true ∧
      storedDecision overlapTables 1 (.v4 0x0a000005) = false :=
  ⟨[overlapList], overlapLines, readAccessLists_overlap, rfl, hostAccessLines_overlap,
    by decide, by decide⟩

/-- On another client of the network the decisions agree. -/
theorem lineDecision_eq_storedDecision_overlap :
    lineDecision (.v4 0x0a000006) overlapLines = storedDecision overlapTables 1 (.v4 0x0a000006) ↔
      ¬ HidesAllow overlapTables 1 (.v4 0x0a000006) :=
  lineDecision_eq_storedDecision_iff readAccessLists_overlap (by decide) rfl
    hostAccessLines_overlap (.v4 0x0a000006)

end Portwyrm.Runtime

import Portwyrm.Runtime.AccessMerge
import Portwyrm.Runtime.BlockStructure
import Portwyrm.Tables.Collections
import Portwyrm.Tables.HostFrames

/-!
# Raw Nginx configuration

`enforce_raw_nginx_policy` keeps raw directives to administrators.  It looks for `advanced_config` in
a payload; the paths of locations and the scopes of IPv6 targets reach the server block as they are,
and are not looked at.  The block of a host that anyone else writes reads as the template of its kind
exactly when these texts stay in their places.
-/

namespace Portwyrm.Tables

open Base Base.Tokens Portwyrm.Runtime Portwyrm.Quic Portwyrm.Identity

/-! ## The policy -/

/-- `bool(str(item).strip())`. -/
def isGiven (v : Json) : Bool := Text.strip (strJson v) ≠ ""

mutual

/-- `_contains_advanced_config`. -/
def containsAdvancedConfig : Json → Bool
  | .object members => membersContain members
  | .list items => itemsContain items
  | _ => false

/-- Some item of a list contains raw configuration. -/
def itemsContain : List Json → Bool
  | [] => false
  | v :: rest => containsAdvancedConfig v || itemsContain rest

/-- Some member is raw configuration, or contains it. -/
def membersContain : List (String × Json) → Bool
  | [] => false
  | (key, v) :: rest =>
    (key = "advanced_config" && isGiven v) || containsAdvancedConfig v || membersContain rest

end

/-- `enforce_raw_nginx_policy`, of a write to `routing_hosts`. -/
def enforceRawNginxPolicy (actor : Actor) (d : Document) : Result Unit :=
  raiseIf (∃ p ∈ actor, p.isAdmin = false ∧ membersContain d.entries = true)
    (.authorizationError "advanced Nginx configuration requires an administrator")

lemma not_itemsContain {items : List Json} (h : itemsContain items = false) {v : Json}
    (hv : v ∈ items) : containsAdvancedConfig v = false := by
  induction items with
  | nil => exact absurd hv List.not_mem_nil
  | cons first rest ih =>
    rw [itemsContain, Bool.or_eq_false_iff] at h
    rcases List.mem_cons.mp hv with rfl | hv
    · exact h.1
    · exact ih h.2 hv

lemma not_membersContain {members : List (String × Json)} (h : membersContain members = false)
    {key : String} {v : Json} (hv : (key, v) ∈ members) :
    (key = "advanced_config" → Text.strip (strJson v) = "") ∧ containsAdvancedConfig v = false := by
  induction members with
  | nil => exact absurd hv List.not_mem_nil
  | cons first rest ih =>
    obtain ⟨key', v'⟩ := first
    rw [membersContain, Bool.or_eq_false_iff, Bool.or_eq_false_iff] at h
    rcases List.mem_cons.mp hv with heq | hv
    · obtain ⟨rfl, rfl⟩ := Prod.mk.inj heq
      refine ⟨fun hkey => ?_, h.1.2⟩
      simpa [hkey, isGiven] using h.1.1
    · exact ih h.2 hv

/-! ## Payloads without raw configuration -/

/-- Nothing but blanks is given as configuration, neither for a host nor for its locations. -/
def HostPayload.RawFree (payload : HostPayload) : Prop :=
  Text.strip (textOr payload.advancedConfig.get "") = "" ∧
    ∀ l ∈ payload.locationList, Text.strip (textOr l.advancedConfig "") = ""

section Documents

variable {d : Document} {payload : HostPayload}

lemma mem_of_get?_members {members : List (String × Json)} {key : String} {v : Json}
    (h : Json.get? members key = some v) : (key, v) ∈ members :=
  List.mem_reverse.mp (Dict.mem_of_lookup_eq_some h)

/-- What a member is read from. -/
lemma readMember_cases {α : Type} {read : Json → Option (Option α)} {key : String} {m : Member α}
    (h : readMember read d key = .ok m) : (d.get? key = none ∧ m = none) ∨
      (d.get? key ≠ none ∧ m = some none) ∨
      ∃ v value, d.get? key = some v ∧ read v = some value ∧ m = some value := by
  unfold readMember at h
  split at h
  · rename_i hget
    exact .inl ⟨hget, (pure_eq_ok_iff.mp h).symm⟩
  · rename_i hget
    exact .inr (.inl ⟨by simp [hget], (pure_eq_ok_iff.mp h).symm⟩)
  · rename_i v _ hget
    split at h
    · rename_i value hread
      exact .inr (.inr ⟨v, value, hget, hread, (pure_eq_ok_iff.mp h).symm⟩)
    · exact absurd h throw_ne_ok

/-- A member that a document has is not absent. -/
lemma ne_none_of_readMember {α : Type} {read : Json → Option (Option α)} {key : String}
    {m : Member α} (h : readMember read d key = .ok m) (hget : d.get? key ≠ none) : m ≠ none := by
  rcases readMember_cases h with ⟨hnone, -⟩ | ⟨-, rfl⟩ | ⟨v, value, -, -, rfl⟩
  · exact absurd hnone hget
  · simp
  · simp

/-- A text that is read from a blank member is blank. -/
lemma strip_readText {v : Json} {value : Option String} (h : readText v = some value)
    (hv : Text.strip (strJson v) = "") : Text.strip (textOr value "") = "" := by
  unfold readText at h
  split at h
  · obtain rfl := Option.some.inj h
    rw [textOr_empty]
    exact hv
  · obtain rfl := Option.some.inj h
    split
    · rw [textOr_empty]
      exact hv
    · rfl

/-- A text of a blank member is blank. -/
lemma strip_givenText {members : List (String × Json)} (h : membersContain members = false) :
    Text.strip (textOr (givenText members "advanced_config") "") = "" := by
  unfold givenText
  cases hget : (Json.get? members "advanced_config").filter truthy with
  | none => rfl
  | some v =>
    have hmem := mem_of_get?_members (Option.filter_eq_some_iff.mp hget).1
    rw [Option.map_some, textOr_empty]
    exact (not_membersContain h hmem).1 rfl

lemma advancedConfig_of_locationItem {v : Json} {l : LocationPayload}
    (h : locationItem v = some l) : ∃ members, v = .object members ∧
      l.advancedConfig = givenText members "advanced_config" := by
  unfold locationItem at h
  split at h
  · rename_i members
    refine ⟨members, rfl, ?_⟩
    dsimp only at h
    split at h
    · obtain ⟨port, -, hl⟩ := Option.bind_eq_some_iff.mp h
      obtain rfl := Option.some.inj hl
      rfl
    · obtain rfl := Option.some.inj h
      rfl
  · exact absurd h (by simp)

/-- The locations of a document carry no more than its members do. -/
lemma strip_of_readLocations {key : String} {m : Member (List LocationPayload)}
    (hd : membersContain d.entries = false) (h : readMember (readList locationItem) d key = .ok m) :
    ∀ l ∈ m.get.getD [], Text.strip (textOr l.advancedConfig "") = "" := by
  intro l hl
  rcases readMember_cases h with ⟨-, rfl⟩ | ⟨-, rfl⟩ | ⟨v, value, hget, hread, rfl⟩
  · exact absurd hl List.not_mem_nil
  · exact absurd hl List.not_mem_nil
  · have hv := (not_membersContain hd (Dict.mem_entries_iff.mpr hget)).2
    unfold readList at hread
    split at hread
    · rename_i items
      obtain ⟨ls, hls, rfl⟩ := Option.map_eq_some_iff.mp hread
      obtain ⟨item, hitem, hread⟩ :=
        Numeral.exists_of_mem_right (Numeral.mapM_eq_some_iff.mp hls) hl
      have hcontains := not_itemsContain (by simpa [containsAdvancedConfig] using hv) hitem
      obtain ⟨members, rfl, hconfig⟩ := advancedConfig_of_locationItem hread
      rw [hconfig]
      exact strip_givenText (by simpa [containsAdvancedConfig] using hcontains)
    · split at hread
      · exact absurd hread (by simp)
      · obtain rfl := Option.some.inj hread
        exact absurd hl List.not_mem_nil

/-- A document without raw configuration is read as a payload without. -/
lemma rawFree_of_hostPayload (hd : membersContain d.entries = false)
    (h : hostPayload d = .ok payload) : payload.RawFree := by
  have hread := hostPayload_spec h
  refine ⟨?_, ?_⟩
  · show Text.strip (textOr payload.advancedConfig.get "") = ""
    rcases readMember_cases hread.advancedConfig with
      ⟨-, hconfig⟩ | ⟨-, hconfig⟩ | ⟨v, value, hget, hvalue, hconfig⟩
    · rw [hconfig]
      rfl
    · rw [hconfig]
      rfl
    · rw [hconfig]
      exact strip_readText hvalue ((not_membersContain hd (Dict.mem_entries_iff.mpr hget)).1 rfl)
  · unfold HostPayload.locationList
    cases hlocations : payload.locations with
    | some given => exact strip_of_readLocations hd (hlocations ▸ hread.locations)
    | none => exact strip_of_readLocations hd hread.customLocations

/-- The members that decide about raw configuration are read when a document has them. -/
lemma ne_none_of_hostPayload (h : hostPayload d = .ok payload)
    (hconfig : d.get? "advanced_config" ≠ none) (hlocations : d.get? "locations" ≠ none) :
    payload.advancedConfig ≠ none ∧ payload.locations ≠ none :=
  ⟨ne_none_of_readMember (hostPayload_spec h).advancedConfig hconfig,
    ne_none_of_readMember (hostPayload_spec h).locations hlocations⟩

/-- What is stored fills up only the members that a payload leaves out. -/
lemma rawFree_over {stored : HostPayload} (hconfig : payload.advancedConfig ≠ none)
    (hlocations : payload.locations ≠ none) (h : payload.RawFree) :
    (payload.over stored).RawFree := by
  obtain ⟨config, hconfig⟩ := Option.ne_none_iff_exists'.mp hconfig
  obtain ⟨locations, hlocations⟩ := Option.ne_none_iff_exists'.mp hlocations
  unfold HostPayload.RawFree HostPayload.locationList at h ⊢
  simp only [HostPayload.over, hconfig, hlocations, Option.some_or] at h ⊢
  exact h

end Documents

/-! ## Writes -/

/-- A write of a host through the API. -/
inductive HostWrite
  | create (d : Document)
  | update (id : ℕ) (d : Document)
  | replace (id : ℕ) (d : Document)

section Writes

variable (bcryptHash : ℕ → String → String) (digest : String → String) (newId : List ℕ → ℕ)
  (actor : Actor) (now : String)

/-- `create_resource`, `update_resource` and `replace_resource` for a collection of hosts, behind the
hooks of every table. -/
def writeHostDocument (kind : HostKind) (w : HostWrite) (t : AllTables) : Result AllTables :=
  match w with
  | .create d => do
    enforceAuthorization actor (hostSection kind) .create
    enforceRawNginxPolicy actor d
    createDocument bcryptHash digest newId actor now (.hosts kind) d t
  | .update id d =>
    match getDocument t (.hosts kind) id with
    | none => pure t
    | some current => do
      enforceAuthorization actor (hostSection kind) .update
      enforceRawNginxPolicy actor (current.update d)
      updateDocument bcryptHash actor now (.hosts kind) id current d t
  | .replace id d =>
    match getDocument t (.hosts kind) id with
    | none => pure t
    | some _ => do
      enforceAuthorization actor (hostSection kind) .update
      enforceRawNginxPolicy actor d
      let payload ← hostPayload d
      let hosts ←
        replaceHost t.certificates.keys t.access.lists.rows.keys actor kind id payload t.hosts
      pure (stampAgain now (.hosts kind) id { t with hosts := hosts })

/-- The id that a write stores a host under, and the payload that it stores: an update fills its
payload up with what is stored. -/
def HostWrite.payload (kind : HostKind) (t : AllTables) : HostWrite → Result (ℕ × HostPayload)
  | .create d => do
    let payload ← hostPayload d
    let id ← givenId newId d t.hosts.keys
    pure (id, payload)
  | .update id d => do
    let payload ← hostPayload (((getDocument t (.hosts kind) id).getD Dict.empty).update d)
    pure (id, ((getHost kind id t.hosts).map fun stored =>
      payload.over (projectHost stored)).getD payload)
  | .replace id d => do
    let payload ← hostPayload d
    pure (id, payload)

end Writes

section Written

variable {bcryptHash : ℕ → String → String} {digest : String → String} {newId : List ℕ → ℕ}
  {now : String} {kind : HostKind} {w : HostWrite} {t t' : AllTables} {id : ℕ}
  {payload : HostPayload} {row : HostRow} {p : SecurityPrincipal}

lemma not_membersContain_of_policy (hp : p.isAdmin = false) {d : Document} {u : Unit}
    (h : enforceRawNginxPolicy (some p) d = .ok u) : membersContain d.entries = false := by
  rw [enforceRawNginxPolicy, raiseIf_eq_ok_iff] at h
  by_contra hcontains
  exact h ⟨p, rfl, hp, by simpa using hcontains⟩

lemma getHost_of_getDocument {current : Document}
    (h : getDocument t (.hosts kind) id = some current) :
    ∃ stored, getHost kind id t.hosts = some stored := by
  obtain ⟨d, hd, -⟩ := Option.map_eq_some_iff.mp h
  obtain ⟨stored, hstored, -⟩ := Option.map_eq_some_iff.mp hd
  exact ⟨stored, hstored⟩

/-- A stored host is shown with its configuration and its locations. -/
lemma get?_getDocument {current : Document} (h : getDocument t (.hosts kind) id = some current) :
    current.get? "advanced_config" ≠ none ∧ current.get? "locations" ≠ none := by
  obtain ⟨d, hd, rfl⟩ := Option.map_eq_some_iff.mp h
  obtain ⟨row, -, rfl⟩ := Option.map_eq_some_iff.mp hd
  have hshown : ∀ key : String, key ∉ cleanedMembers (.hosts kind) → key ≠ "created_on" →
      key ≠ "modified_on" → (otherMembers (cleanedMembers (.hosts kind)) (stampDocument
        ((t.stamps.get? (.hosts kind, id)).getD ⟨"", ""⟩) (hostDocument id row))).get? key =
          (hostDocument id row).get? key := by
    intro key hkey hcreated hmodified
    rw [otherMembers, Dict.get?_foldl_pop, if_neg hkey, stampDocument,
      Dict.get?_set_of_ne _ _ hmodified]
    split
    · rfl
    · rw [Dict.get?_set_of_ne _ _ hcreated]
  have hconfig : (hostDocument id row).get? "advanced_config" = some (.text row.advancedConfig) :=
    get?_shown (by exact nodup_hostKeys) rfl
  have hlocations : (hostDocument id row).get? "locations" =
      some (.list (row.locations.map locationJson)) := get?_shown (by exact nodup_hostKeys) rfl
  rw [hshown _ (by simp [cleanedMembers]) (by decide) (by decide), hconfig,
    hshown _ (by simp [cleanedMembers]) (by decide) (by decide), hlocations]
  exact ⟨(by rintro ⟨⟩), (by rintro ⟨⟩)⟩

/-- An accepted write stores what its payload says, and the payload carries no raw configuration. -/
theorem stored_of_writeHostDocument (hp : p.isAdmin = false)
    (h : writeHostDocument bcryptHash digest newId (some p) now kind w t = .ok t')
    (hpayload : w.payload newId kind t = .ok (id, payload))
    (hrow : getHost kind id t'.hosts = some row) :
    payload.RawFree ∧ row.enabled = payload.enabled.truthy true ∧
      ∃ certificates accessLists, HostStored certificates accessLists kind payload row := by
  have hset : ∀ {rows : Dict ℕ HostRow} {row' : HostRow},
      getHost kind id (rows.set id row') = some row → row = row' := by
    intro rows row' hget
    have := getHost_eq_some hget
    rw [Dict.get?_set_self] at this
    exact (Option.some.inj this).symm
  cases w with
  | create d =>
    simp only [writeHostDocument, createDocument, bind_eq_ok_iff, pure_eq_ok_iff] at h
    obtain ⟨_, -, _, hpolicy, payload', hpayload', id', hid', hosts, hhosts, rfl⟩ := h
    simp only [HostWrite.payload, bind_eq_ok_iff, pure_eq_ok_iff] at hpayload
    obtain ⟨payload'', hpayload'', id'', hid'', hpair⟩ := hpayload
    obtain ⟨rfl, rfl⟩ := Prod.mk.inj hpair
    obtain rfl := Except.ok.inj (hpayload'.symm.trans hpayload'')
    obtain rfl := Except.ok.inj (hid'.symm.trans hid'')
    obtain ⟨row', rfl, -, hwrite⟩ := createHost_spec hhosts
    obtain rfl := hset hrow
    obtain ⟨hstored, henabled, -⟩ := hostStored_of_writeHost hwrite
    exact ⟨rawFree_of_hostPayload (not_membersContain_of_policy hp hpolicy) hpayload', henabled,
      _, _, hstored⟩
  | update id' d =>
    simp only [HostWrite.payload, bind_eq_ok_iff, pure_eq_ok_iff] at hpayload
    obtain ⟨given, hgiven, hpair⟩ := hpayload
    obtain ⟨hid, hgivenPayload⟩ := Prod.mk.inj hpair
    subst hid
    cases hcurrent : getDocument t (.hosts kind) id' with
    | none =>
      simp only [writeHostDocument, hcurrent, pure_eq_ok_iff] at h
      rw [← h] at hrow
      simp [getDocument, plainDocument, hrow] at hcurrent
    | some current =>
      obtain ⟨stored, hstored⟩ := getHost_of_getDocument hcurrent
      simp only [writeHostDocument, hcurrent, updateDocument, bind_eq_ok_iff, pure_eq_ok_iff] at h
      obtain ⟨_, -, _, hpolicy, given', hgiven', hosts, hhosts, rfl⟩ := h
      rw [hcurrent, Option.getD_some] at hgiven
      obtain rfl := Except.ok.inj (hgiven.symm.trans hgiven')
      rw [hstored, Option.map_some, Option.getD_some] at hgivenPayload
      subst hgivenPayload
      rw [updateHost, hstored] at hhosts
      obtain ⟨row', rfl, hwrite⟩ := storeHost_spec hhosts
      obtain rfl := hset hrow
      obtain ⟨hhost, henabled, -⟩ := hostStored_of_writeHost hwrite
      -- the document that is merged has the members of the stored one
      have hkept : ∀ key, current.get? key ≠ none → (current.update d).get? key ≠ none := by
        intro key hkey hnone
        rw [Dict.get?_update, Option.or_eq_none_iff] at hnone
        exact hkey hnone.2
      obtain ⟨hconfig, hlocations⟩ := get?_getDocument hcurrent
      obtain ⟨hconfig', hlocations'⟩ :=
        ne_none_of_hostPayload hgiven (hkept _ hconfig) (hkept _ hlocations)
      have hfree := rawFree_of_hostPayload (not_membersContain_of_policy hp hpolicy) hgiven
      exact ⟨rawFree_over hconfig' hlocations' hfree, henabled, _, _, hhost⟩
  | replace id' d =>
    simp only [HostWrite.payload, bind_eq_ok_iff, pure_eq_ok_iff] at hpayload
    obtain ⟨given, hgiven, hpair⟩ := hpayload
    obtain ⟨rfl, rfl⟩ := Prod.mk.inj hpair
    cases hcurrent : getDocument t (.hosts kind) id' with
    | none =>
      simp only [writeHostDocument, hcurrent, pure_eq_ok_iff] at h
      rw [← h] at hrow
      simp [getDocument, plainDocument, hrow] at hcurrent
    | some current =>
      obtain ⟨stored, hstored⟩ := getHost_of_getDocument hcurrent
      simp only [writeHostDocument, hcurrent, bind_eq_ok_iff, pure_eq_ok_iff] at h
      obtain ⟨_, -, _, hpolicy, given', hgiven', hosts, hhosts, rfl⟩ := h
      obtain rfl := Except.ok.inj (hgiven.symm.trans hgiven')
      rw [replaceHost, hstored] at hhosts
      obtain ⟨row', rfl, hwrite⟩ := storeHost_spec hhosts
      obtain rfl := hset hrow
      obtain ⟨hhost, henabled, -⟩ := hostStored_of_writeHost hwrite
      exact ⟨rawFree_of_hostPayload (not_membersContain_of_policy hp hpolicy) hgiven, henabled,
        _, _, hhost⟩

end Written

/-! ## Texts in their places -/

/-- The scope of an IPv6 target, with its `%`. -/
def scopeOf (targetKind host : Option String) : List Char :=
  if textOr targetKind "dns" = TargetKind.ip.value then
    ((IpNetwork.splitScope (Text.strip (textOr host "")).toList).map fun split =>
      IpNetwork.scopeText split.2).getD []
  else []

/-- The path of a location is one word, and the scope and the forward path carry on the word of the
target. -/
def LocationPayload.Harmless (l : LocationPayload) : Prop :=
  IsPath (textOr l.path "/") ∧
    IsTarget (String.ofList (scopeOf l.targetKind l.forwardHost) ++ ":" ++ textOr l.forwardPath "")

/-- The texts that a proxy host and its access lists bring into the lines of its server block stay
in their places. -/
def HostPayload.Harmless (payload : HostPayload) (accessLists : List AccessList) : Prop :=
  IsServer (String.ofList (scopeOf payload.targetKind.get payload.forwardHost.get)) ∧
    (∀ l ∈ payload.locationList, l.Harmless) ∧ ∀ p ∈ accessLists, p.Contained

instance (l : LocationPayload) : Decidable l.Harmless := inferInstanceAs (Decidable (_ ∧ _))

section Texts

lemma isPlain_of_isDomainChar {c : Char} (h : IsDomainChar c) : IsPlain c :=
  isPlain_of_special (q := IsDomainChar) h (by
    unfold IsDomainChar
    decide)

/-- The text of an address is plain but for its scope. -/
lemma ipAddressText_shape {l t : List Char} (h : ipAddressText l = some t) :
    ∃ plain : List Char, (∀ c ∈ plain, IsPlain c) ∧
      t = plain ++ ((IpNetwork.splitScope l).map fun s => IpNetwork.scopeText s.2).getD [] := by
  have hdigit : ∀ {sep c : Char}, IsPlain sep → c = sep ∨ (Numeral.digitValue c).isSome →
      IsPlain c := by
    rintro sep c hsep (rfl | hc)
    · exact hsep
    · exact isPlain_of_isSome_digitValue hc
  unfold ipAddressText at h
  split at h
  · simp at h
  · rcases Option.or_eq_some_iff.mp h with hv4 | ⟨-, hv6⟩
    · obtain ⟨n, hparse, rfl⟩ := Option.map_eq_some_iff.mp hv4
      -- an IPv4 address has no scope
      have hpercent : '%' ∉ l := by
        intro hmem
        rcases Ipv4.eq_dot_or_digit_of_parse hparse '%' hmem with h | h
        · exact absurd h (by decide)
        · exact absurd h (by decide)
      have hsplit : IpNetwork.splitScope (l ++ IpNetwork.scopeText none) = some (l, none) :=
        IpNetwork.splitScope_eq hpercent (by simp)
      rw [IpNetwork.scopeText, List.append_nil] at hsplit
      refine ⟨Ipv4.text n, fun c hc => hdigit (by decide) (Ipv4.mem_text hc), ?_⟩
      rw [hsplit]
      exact (List.append_nil _).symm
    · obtain ⟨⟨address, scope⟩, hsplit, htext⟩ := Option.bind_eq_some_iff.mp hv6
      obtain ⟨n, hparse, rfl⟩ := Option.map_eq_some_iff.mp htext
      refine ⟨Ipv6.text n, fun c hc => hdigit (by decide) (Ipv6.mem_text hc), ?_⟩
      rw [hsplit]
      rfl

/-- A checked target is plain but for its scope. -/
lemma target_shape {targetKind host : Option String} {kind : TargetKind} {name t : String}
    (hkind : parseTargetKind (textOr targetKind "dns") = .ok kind)
    (h : target (textOr host "") kind name = .ok t) :
    ∃ plain : List Char, (∀ c ∈ plain, IsPlain c) ∧ t.toList = plain ++ scopeOf targetKind host := by
  have htext := value_of_parseTargetKind hkind
  have hnone : kind ≠ .ip → scopeOf targetKind host = [] := by
    intro hne
    rw [scopeOf, ← htext, if_neg]
    cases kind <;> first | exact absurd rfl hne | decide
  unfold target at h
  dsimp only at h
  split at h
  · exact absurd h throw_ne_ok
  · cases kind with
    | ip =>
      dsimp only at h
      split at h
      · rename_i text hread
        obtain rfl := pure_eq_ok_iff.mp h
        rw [scopeOf, ← htext, if_pos rfl, String.toList_ofList]
        exact ipAddressText_shape hread
      · exact absurd h throw_ne_ok
    | dns =>
      dsimp only at h
      split at h
      · rename_i hhost
        obtain rfl := pure_eq_ok_iff.mp h
        refine ⟨_, fun c hc => isPlain_of_isDomainChar (isDomainChar_of_isHostname hhost hc), ?_⟩
        rw [hnone nofun, List.append_nil]
      · exact absurd h throw_ne_ok
    | docker =>
      dsimp only at h
      split at h
      · rename_i hname
        obtain rfl := pure_eq_ok_iff.mp h
        refine ⟨_, fun c hc => ?_, by rw [hnone nofun, List.append_nil]⟩
        exact isPlain_of_special (q := fun c => isAsciiAlnum c ∨ c = '_' ∨ c = '.' ∨ c = '-')
          (hname.2.2 c hc) (by decide)
      · exact absurd h throw_ne_ok

/-- A port changes nothing behind its colon. -/
lemma readAll_port (p : Place) (port : ℕ) (rest : List Char) :
    readAll p (':' :: ((toString port).toList ++ rest)) = readAll p (':' :: rest) := by
  have hfield := isField_toString port
  have hsilent : readAll (read p ':').1 (toString port).toList = ((read p ':').1, []) := by
    cases p with
    | quote single =>
      have hquote : (read (.quote single) ':').1 = .quote single := by cases single <;> rfl
      rw [hquote, readAll_quote_of_isPlain single hfield.2]
    | quoteEscaped single => exact readAll_quote_of_isPlain single hfield.2
    | comment => exact readAll_comment_of_isPlain hfield.2
    | _ => exact readAll_word_of_isPlain hfield.2
  rw [readAll_cons, readAll_append, hsilent, List.nil_append, readAll_cons]

/-- The target of a location stays in its place when its scope and forward path do. -/
lemma isTarget_iff {host forwardPath : String} {plain scope : List Char}
    (hplain : ∀ c ∈ plain, IsPlain c) (hhost : host.toList = plain ++ scope) (port : ℕ) :
    IsTarget (host ++ ":" ++ toString port ++ forwardPath) ↔
      IsTarget (String.ofList scope ++ ":" ++ forwardPath) := by
  have hlist : (host ++ ":" ++ toString port ++ forwardPath ++ ";").toList =
      plain ++ (scope ++ ':' :: ((toString port).toList ++ (forwardPath.toList ++ [';']))) := by
    simp only [String.toList_append, hhost, List.append_assoc]
    rfl
  have hlist' : (String.ofList scope ++ ":" ++ forwardPath ++ ";").toList =
      scope ++ ':' :: (forwardPath.toList ++ [';']) := by
    simp only [String.toList_append, String.toList_ofList, List.append_assoc]
    rfl
  rw [IsTarget, IsTarget, hlist, hlist', readAll_append, readAll_word_of_isPlain hplain,
    List.nil_append, readAll_append .word scope, readAll_port, ← readAll_append]

/-- The server of a host stays in its place when its scope does. -/
lemma isServer_iff {host : String} {plain scope : List Char} (hplain : ∀ c ∈ plain, IsPlain c)
    (hhost : host.toList = plain ++ scope) : IsServer host ↔ IsServer (String.ofList scope) := by
  rw [IsServer, IsServer, String.toList_append, String.toList_append, hhost,
    String.toList_ofList (l := scope), List.append_assoc, readAll_append,
    readAll_quote_of_isPlain false hplain, List.nil_append]

end Texts

/-! ## Blocks of written hosts -/

section Blocks

variable {certificates accessLists : List ℕ} {kind : HostKind} {payload : HostPayload}
  {row : HostRow}

/-- What is stored of a location. -/
structure StoredLocation (l : LocationPayload) (r : LocationRow) : Prop where
  path : r.path = textOr l.path "/"
  slash : startsWithSlash r.path
  forwardPath : r.forwardPath = textOr l.forwardPath ""
  advancedConfig : r.advancedConfig = textOr l.advancedConfig ""
  target : ∃ plain : List Char, (∀ c ∈ plain, IsPlain c) ∧
    r.target.toList = plain ++ scopeOf l.targetKind l.forwardHost

lemma storedLocation_spec {l : LocationPayload} {r : LocationRow} (h : storedLocation l = .ok r) :
    StoredLocation l r := by
  simp only [storedLocation, validateLocation, bind_eq_ok_iff, raiseIf_eq_ok_iff, not_not,
    pure_eq_ok_iff] at h
  obtain ⟨protocol, -, kind, hkind, -, hslash, -, -, t, ht, port, -, -, -, rfl⟩ := h
  exact ⟨rfl, hslash, rfl, rfl, target_shape hkind ht⟩

/-- The texts of a stored location stay in their places when those of its payload do. -/
lemma contained_iff {l : LocationPayload} {r : LocationRow} (h : StoredLocation l r) :
    (runtimeLocation r).Contained ↔ l.Harmless := by
  obtain ⟨plain, hplain, htarget⟩ := h.target
  have hpath : (runtimeLocation r).path = textOr l.path "/" := h.path
  have hpass : (runtimeLocation r).passTarget =
      r.target ++ ":" ++ toString r.port ++ textOr l.forwardPath "" :=
    congrArg (r.target ++ ":" ++ toString r.port ++ ·) h.forwardPath
  rw [ProxyLocation.Contained, LocationPayload.Harmless, hpath, hpass, isTarget_iff hplain htarget]

/-- A stored proxy host has a target, which is plain but for its scope. -/
lemma forwardHost_shape (h : HostStored certificates accessLists .proxy payload row) :
    ∃ t : String, row.upstream.map UpstreamRow.target = some t ∧ ∃ plain : List Char,
      (∀ c ∈ plain, IsPlain c) ∧
        t.toList = plain ++ scopeOf payload.targetKind.get payload.forwardHost.get := by
  obtain ⟨t, ht, hupstream⟩ := h.forwardHost
  simp only [checkedHost, bind_eq_ok_iff] at ht
  obtain ⟨targetKind, htargetKind, ht⟩ := ht
  rcases storedUpstream_cases hupstream with ⟨hnone, -⟩ | ⟨-, u, hu, htarget, -⟩
  · rw [Member.get_of, textOr_empty] at hnone
    exact absurd (hnone ▸ strip_target ht) (by decide)
  · rw [Member.get_of, textOr_empty] at htarget
    refine ⟨t, ?_, target_shape htargetKind ht⟩
    rw [hu, Option.map_some, htarget]

/-- Collected names are domains. -/
lemma isDomain_of_collectDomains {domains values collected : List String}
    (hdomains : ∀ d ∈ domains, IsDomain d.toList)
    (h : collectDomains domains values = .ok collected) : ∀ d ∈ collected, IsDomain d.toList := by
  induction values generalizing domains with
  | nil =>
    obtain rfl := pure_eq_ok_iff.mp h
    exact hdomains
  | cons raw rest ih =>
    simp only [collectDomains, bind_eq_ok_iff, raiseIf_eq_ok_iff] at h
    obtain ⟨domain, hdomain, -, -, hrest⟩ := h
    obtain ⟨hname, rfl⟩ := canonicalDomain_eq_ok_iff.mp hdomain
    refine ih (fun d hd => ?_) hrest
    rcases List.mem_append.mp hd with hd | hd
    · exact hdomains d hd
    · rw [List.mem_singleton.mp hd]
      exact hname

lemma isField_of_isDomain {d : String} (h : IsDomain d.toList) : IsField d := by
  refine ⟨fun hnil => ?_, fun c hc => isPlain_of_isDomainChar (isDomainChar_of_mem h hc)⟩
  rw [hnil] at h
  exact absurd h (by decide)

/-- The texts of a written host are ordinary. -/
lemma ordinary_runtimeHost (h : HostStored certificates accessLists kind payload row)
    (hfree : payload.RawFree) (id : ℕ) : Ordinary (runtimeHost id row.shown.shown) where
  domainNames := by
    have hsources := h.sources
    simp only [canonicalDomains, bind_eq_ok_iff, raiseIf_eq_ok_iff, pure_eq_ok_iff] at hsources
    obtain ⟨collected, hcollected, -, -, heq⟩ := hsources
    have hdomains := isDomain_of_collectDomains (by simp) hcollected
    rw [heq] at hdomains
    exact fun d hd => isField_of_isDomain (hdomains d hd)
  forwardDomainName := by
    intro hkind domain hdomain
    have hredirect : kind = .redirect := h.kind_eq.symm.trans hkind
    have hname := h.forwardDomainName
    rw [if_pos hredirect] at hname
    obtain ⟨hisDomain, heq⟩ := canonicalDomain_eq_ok_iff.mp hname.1
    have hrow : row.redirectTarget = some domain := hdomain
    rw [hrow, Option.getD_some] at heq
    exact isField_of_isDomain (heq ▸ hisDomain)
  paths := by
    intro l hl
    obtain ⟨r, hr, rfl⟩ := List.mem_map.mp hl
    obtain ⟨given, -, hgiven⟩ := Numeral.exists_of_mem_right (mapM_eq_ok_iff.mp h.locations) hr
    exact (storedLocation_spec hgiven).slash
  advancedConfig := by
    show Text.strip row.advancedConfig = ""
    rw [h.advancedConfig]
    exact hfree.1
  advancedConfigs := by
    intro l hl
    obtain ⟨r, hr, rfl⟩ := List.mem_map.mp hl
    obtain ⟨given, hmem, hgiven⟩ := Numeral.exists_of_mem_right (mapM_eq_ok_iff.mp h.locations) hr
    show Text.strip r.advancedConfig = ""
    rw [(storedLocation_spec hgiven).advancedConfig]
    exact hfree.2 given hmem

/-- The addresses of a merged policy are those of its lists. -/
lemma contained_merged_iff {lists : List AccessList} {policy : Option AccessList}
    (h : mergeAccessLists lists = .ok policy) :
    (∀ p ∈ policy, p.Contained) ↔ ∀ l ∈ lists, l.Contained := by
  cases policy with
  | none =>
    rw [mergeAccessLists_eq_none.mp h]
    simp
  | some p =>
    have hmem : ∀ c, c ∈ p.clients ↔ ∃ l ∈ lists, c ∈ l.clients := by
      intro c
      rw [(merged_of_mergeAccessLists h).clients, mem_orderedClients, List.mem_flatMap]
      simp only [mem_sortedBy]
    constructor
    · intro hp l hl c hc
      exact hp p rfl c ((hmem c).mpr ⟨l, hl, hc⟩)
    · rintro hlists q hq c hc
      obtain rfl := Option.some.inj hq
      obtain ⟨l, hl, hcl⟩ := (hmem c).mp hc
      exact hlists l hl c hcl

/-- The texts of a written proxy host stay in their places when those of its payload and its access
lists do. -/
lemma contained_runtimeHost_iff (h : HostStored certificates accessLists .proxy payload row)
    (id : ℕ) {byId : Dict ℕ AccessList} {policy : Option AccessList}
    (hpolicy : effectivePolicy byId (runtimeHost id row.shown.shown) = .ok policy) :
    (runtimeHost id row.shown.shown).Contained policy ↔
      payload.Harmless ((payload.selectedAccessLists.map Int.toNat).filterMap byId.get?) := by
  obtain ⟨t, ht, plain, hplain, htarget⟩ := forwardHost_shape h
  have hserver : IsServer (orNone (runtimeHost id row.shown.shown).forwardHost) ↔
      IsServer (String.ofList (scopeOf payload.targetKind.get payload.forwardHost.get)) := by
    have hhost : (runtimeHost id row.shown.shown).forwardHost = some t := ht
    rw [hhost]
    exact isServer_iff hplain htarget
  have hspec := (mapM_eq_ok_iff.mp h.locations).imp fun _ _ => storedLocation_spec
  have hlocations : (∀ l ∈ (runtimeHost id row.shown.shown).locations, l.Contained) ↔
      ∀ l ∈ payload.locationList, l.Harmless := by
    constructor
    · intro hall l hl
      obtain ⟨r, hr, hstored⟩ := Numeral.exists_of_mem_left hspec hl
      exact (contained_iff hstored).mp (hall _ (List.mem_map_of_mem hr))
    · intro hall l hl
      obtain ⟨r, hr, rfl⟩ := List.mem_map.mp hl
      obtain ⟨given, hgiven, hstored⟩ := Numeral.exists_of_mem_right hspec hr
      exact (contained_iff hstored).mpr (hall given hgiven)
  have hlists : selectedLists byId (runtimeHost id row.shown.shown) =
      (payload.selectedAccessLists.map Int.toNat).filterMap byId.get? := by
    have hids : row.shown.shown.accessListIds = payload.selectedAccessLists.map Int.toNat :=
      h.accessListIds
    rw [selectedLists, selectedIds_runtimeHost, hids]
  rw [effectivePolicy, hlists] at hpolicy
  rw [RuntimeHost.Contained, HostPayload.Harmless, hserver, hlocations, contained_merged_iff hpolicy]

variable {bcryptHash : ℕ → String → String} {digest : String → String} {newId : List ℕ → ℕ}
  {now : String} {w : HostWrite} {t t' : AllTables} {id : ℕ} {p : SecurityPrincipal}

lemma isField_passwordFile (host : RuntimeHost) (selected : List AccessList) :
    ∀ file ∈ passwordFile host selected, IsField file := by
  intro file hfile
  unfold passwordFile at hfile
  split at hfile
  · obtain rfl := Option.some.inj hfile
    exact isField_append (isField_ofList (by decide)) (isField_toString host.id)
  · exact absurd hfile (by simp)

/-- The block of a stored host without raw configuration reads as the template of its kind, exactly
when an enabled proxy host brings in no text that leaves its place. -/
lemma tokens_stored_iff (hfree : payload.RawFree)
    (henabled : row.enabled = payload.enabled.truthy true)
    (hstored : HostStored certificates accessLists kind payload row) (platform : PlatformConfig)
    {byId : Dict ℕ AccessList} {policy : Option AccessList}
    (hpolicy : effectivePolicy byId (runtimeHost id row.shown.shown) = .ok policy) :
    let host := runtimeHost id row.shown.shown
    let file := passwordFile host (selectedLists byId host)
    tokens (serverBlock platform host policy file) =
        tokens (serverBlock platform host.blank (policy.map AccessList.blank) file) ↔
      (kind = .proxy → payload.enabled.truthy true = true →
        payload.Harmless ((payload.selectedAccessLists.map Int.toNat).filterMap byId.get?)) := by
  intro host file
  have hkind : host.kind = kind := hstored.kind_eq
  have henabled' : host.enabled = payload.enabled.truthy true := henabled
  rw [tokens_serverBlock_iff (ordinary_runtimeHost hstored hfree id) platform policy
    (isField_passwordFile host _), hkind, henabled']
  cases kind with
  | proxy => rw [contained_runtimeHost_iff hstored id hpolicy]
  | redirect => simp
  | dead => simp

/-- The server block of a host that someone without administrator rights has written reads as the
template of its kind, exactly when an enabled proxy host brings in no text that leaves its place. -/
theorem tokens_written_iff (hp : p.isAdmin = false)
    (hwrite : writeHostDocument bcryptHash digest newId (some p) now kind w t = .ok t')
    (hpayload : w.payload newId kind t = .ok (id, payload))
    (hrow : getHost kind id t'.hosts = some row) (platform : PlatformConfig)
    {byId : Dict ℕ AccessList} {policy : Option AccessList}
    (hpolicy : effectivePolicy byId (runtimeHost id row.shown.shown) = .ok policy) :
    let host := runtimeHost id row.shown.shown
    let file := passwordFile host (selectedLists byId host)
    tokens (serverBlock platform host policy file) =
        tokens (serverBlock platform host.blank (policy.map AccessList.blank) file) ↔
      (kind = .proxy → payload.enabled.truthy true = true →
        payload.Harmless ((payload.selectedAccessLists.map Int.toNat).filterMap byId.get?)) := by
  obtain ⟨hfree, henabled, certificates, accessLists, hstored⟩ :=
    stored_of_writeHostDocument hp hwrite hpayload hrow
  exact tokens_stored_iff hfree henabled hstored platform hpolicy

end Blocks

/-! ### A path with a block of its own -/

/-- A proxy host with one location. -/
def locationDocument (path : String) : Document :=
  Dict.ofList
    [ ("domain_names", .list [.text "a.example"]), ("forward_host", .text "web"),
      ("forward_port", .number 80),
      ("locations", .list [.object [("path", .text path), ("forward_host", .text "api")]]) ]

/-- Somebody who may manage proxy hosts and nothing else. -/
def hostEditor : SecurityPrincipal where
  userId := 2
  identity := "editor"
  permissions := Dict.ofList [("proxy_hosts", .level .manage)]

/-- The editor creates the host among empty tables. -/
def createLocation (path : String) : Result AllTables :=
  writeHostDocument (fun _ s => s) id (fun _ => 1) (some hostEditor) "" .proxy
    (.create (locationDocument path)) {}

/-- An ordinary path. -/
theorem tokens_written_iff_api : ∃ (t' : AllTables) (payload : HostPayload) (row : HostRow),
    createLocation "/api" = .ok t' ∧ getHost .proxy 1 t'.hosts = some row ∧
      (tokens (serverBlock {} (runtimeHost 1 row.shown.shown) none none) =
          tokens (serverBlock {} (runtimeHost 1 row.shown.shown).blank none none) ↔
        (HostKind.proxy = .proxy → payload.enabled.truthy true = true → payload.Harmless [])) := by
  obtain ⟨t', payload, row, hwrite, hpayload, hrow, hpolicy, hlists⟩ : ∃ (t' : AllTables)
      (payload : HostPayload) (row : HostRow), createLocation "/api" = .ok t' ∧
        (HostWrite.create (locationDocument "/api")).payload (fun _ => 1) .proxy {} =
          .ok (1, payload) ∧ getHost .proxy 1 t'.hosts = some row ∧
        effectivePolicy Dict.empty (runtimeHost 1 row.shown.shown) = .ok none ∧
        payload.selectedAccessLists = [] := ⟨_, _, _, rfl, rfl, rfl, rfl, rfl⟩
  have hiff := tokens_written_iff rfl hwrite hpayload hrow {} hpolicy
  rw [hlists] at hiff
  exact ⟨t', payload, row, hwrite, hrow, hiff⟩

/-- A path that closes the block of its location and opens another one. -/
def smuggledPath : String := "/ \x7b return 200; \x7d location /api"

/-- The path is no single word. -/
lemma not_harmless_smuggled {payload : HostPayload}
    (h : payload.locationList.map LocationPayload.path = [some smuggledPath])
    (accessLists : List AccessList) : ¬ payload.Harmless accessLists := by
  rintro ⟨-, hlocations, -⟩
  obtain ⟨l, hl, hpath⟩ := List.mem_map.mp (h ▸ List.mem_singleton_self (some smuggledPath))
  have hword := (hlocations l hl).1
  rw [hpath] at hword
  exact absurd hword (by decide)

/-- The editor brings a block of its own into the configuration. -/
theorem smuggled_written : ¬ ∀ (bcryptHash : ℕ → String → String) (digest : String → String)
    (newId : List ℕ → ℕ) (p : SecurityPrincipal) (now : String) (kind : HostKind) (w : HostWrite)
    (t t' : AllTables) (id : ℕ) (payload : HostPayload) (row : HostRow) (platform : PlatformConfig)
    (byId : Dict ℕ AccessList) (policy : Option AccessList), p.isAdmin = false →
    writeHostDocument bcryptHash digest newId (some p) now kind w t = .ok t' →
    w.payload newId kind t = .ok (id, payload) → getHost kind id t'.hosts = some row →
    effectivePolicy byId (runtimeHost id row.shown.shown) = .ok policy →
    let host := runtimeHost id row.shown.shown
    let file := passwordFile host (selectedLists byId host)
    tokens (serverBlock platform host policy file) =
      tokens (serverBlock platform host.blank (policy.map AccessList.blank) file) := by
  intro h
  obtain ⟨t', payload, row, hwrite, hpayload, hrow, hpolicy, hon, hpaths⟩ : ∃ (t' : AllTables)
      (payload : HostPayload) (row : HostRow), createLocation smuggledPath = .ok t' ∧
        (HostWrite.create (locationDocument smuggledPath)).payload (fun _ => 1) .proxy {} =
          .ok (1, payload) ∧ getHost .proxy 1 t'.hosts = some row ∧
        effectivePolicy Dict.empty (runtimeHost 1 row.shown.shown) = .ok none ∧
        payload.enabled.truthy true = true ∧
        payload.locationList.map LocationPayload.path = [some smuggledPath] :=
    ⟨_, _, _, rfl, rfl, rfl, rfl, rfl, rfl⟩
  have hsame := h _ _ _ hostEditor _ _ _ _ _ _ _ _ {} _ _ rfl hwrite hpayload hrow hpolicy
  obtain ⟨hfree, henabled, _, _, hstored⟩ := stored_of_writeHostDocument rfl hwrite hpayload hrow
  have hharmless := (tokens_stored_iff hfree henabled hstored {} hpolicy).mp hsame rfl hon
  exact not_harmless_smuggled hpaths _ hharmless

end Portwyrm.Tables

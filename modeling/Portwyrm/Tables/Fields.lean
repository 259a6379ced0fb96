import Portwyrm.Quic.RouteStore

/-!
# Fields of routing rows

The checks of `portwyrm.tables.routing` on single fields: upstream targets and domain names.
What a check returns passes it again, so a stored field is accepted when it is read back.
-/

namespace Portwyrm.Tables

open Base Portwyrm.Runtime Portwyrm.Quic

/-! ## Members of payloads -/

/-- A member of a payload: absent, null, or a value. -/
abbrev Member (α : Type) := Option (Option α)

namespace Member

variable {α : Type}

/-- A member with a value. -/
def of (a : α) : Member α := some (some a)

/-- `payload.get(key)`. -/
def get (m : Member α) : Option α := m.join

/-- `bool(payload.get(key, default))`. -/
def truthy (m : Member Bool) (default : Bool) : Bool :=
  match m with
  | none => default
  | some value => value.getD false

@[simp] lemma get_of (a : α) : get (of a) = some a := rfl

@[simp] lemma truthy_of (b default : Bool) : truthy (of b) default = b := rfl

end Member

/-- `value or default`, for a text. -/
def textOr (value : Option String) (default : String) : String :=
  (value.filter (· ≠ "")).getD default

/-- A text that a default has replaced is kept. -/
lemma textOr_textOr (value : Option String) (default : String) :
    textOr (some (textOr value default)) default = textOr value default := by
  rcases value with _ | s
  · by_cases h : default = "" <;> simp [textOr, Option.filter, h]
  · by_cases h : s = ""
    · by_cases h' : default = "" <;> simp [textOr, Option.filter, h, h']
    · simp [textOr, Option.filter, h]

lemma textOr_of_ne {s : String} (h : s ≠ "") (default : String) : textOr (some s) default = s := by
  simp [textOr, Option.filter, h]

lemma textOr_empty (s : String) : textOr (some s) "" = s := by
  by_cases h : s = "" <;> simp [textOr, Option.filter, h]

/-- `int(value or default)`. -/
def intOr (value : Option ℤ) (default : ℤ) : ℤ := (value.filter (· ≠ 0)).getD default

lemma intOr_of_ne {n : ℤ} (h : n ≠ 0) (default : ℤ) : intOr (some n) default = n := by
  simp [intOr, Option.filter, h]

/-! ## Targets -/

/-- `TargetKind`. -/
inductive TargetKind
  | ip
  | dns
  | docker
deriving DecidableEq, Repr

/-- The text of a kind of target. -/
def TargetKind.value : TargetKind → String
  | .ip => "ip"
  | .dns => "dns"
  | .docker => "docker"

/-- The kind of target with a given text. -/
def TargetKind.ofValue? (s : String) : Option TargetKind :=
  [TargetKind.ip, .dns, .docker].find? fun kind => kind.value = s

/-- `TargetKind(text)`. -/
def parseTargetKind (s : String) : Result TargetKind :=
  match TargetKind.ofValue? s with
  | some kind => pure kind
  | none => throw (.valueError s!"{Text.repr s} is not a valid TargetKind")

/-- `ipaddress.ip_address`: the text of the address that a text denotes. -/
def ipAddressText (l : List Char) : Option (List Char) :=
  if '/' ∈ l then none
  else ((Ipv4.parse l).map Ipv4.text).or
    ((IpNetwork.splitScope l).bind fun split =>
      (Ipv6.parse split.1).map fun n => Ipv6.text n ++ IpNetwork.scopeText split.2)

/-- `[a-z0-9]`. -/
def isLowerAlnum (c : Char) : Bool :=
  (97 ≤ c.toNat && c.toNat ≤ 122) || (48 ≤ c.toNat && c.toNat ≤ 57)

/-- `[A-Za-z0-9]`. -/
def isAsciiAlnum (c : Char) : Bool := isLowerAlnum c || (65 ≤ c.toNat && c.toNat ≤ 90)

/-- A label that `_target` accepts in a hostname. -/
def IsHostLabel (l : List Char) : Prop :=
  l ≠ [] ∧ l.length ≤ 63 ∧ (∀ c ∈ l.head?, isLowerAlnum c) ∧ (∀ c ∈ l.getLast?, isLowerAlnum c) ∧
    ∀ c ∈ l, isLowerAlnum c ∨ c = '-'

instance (l : List Char) : Decidable (IsHostLabel l) := inferInstanceAs (Decidable (_ ∧ _))

/-- A hostname that `_target` accepts. -/
def IsHostname (l : List Char) : Prop :=
  l.length ≤ 253 ∧ ∀ label ∈ l.splitOn '.', IsHostLabel label

instance (l : List Char) : Decidable (IsHostname l) := inferInstanceAs (Decidable (_ ∧ _))

/-- A name of a container that `_target` accepts. -/
def IsContainerName (l : List Char) : Prop :=
  (∃ c ∈ l.head?, isAsciiAlnum c) ∧ l.length ≤ 255 ∧
    ∀ c ∈ l, isAsciiAlnum c ∨ c = '_' ∨ c = '.' ∨ c = '-'

instance (l : List Char) : Decidable (IsContainerName l) := inferInstanceAs (Decidable (_ ∧ _))

/-- `_target`. -/
def target (value : String) (kind : TargetKind) (name : String) : Result String :=
  let stripped := Text.strip value
  if stripped = "" then throw (.domainValidationError s!"{name} is required")
  else match kind with
    | .ip =>
      match ipAddressText stripped.toList with
      | some text => pure (String.ofList text)
      | none => throw (.domainValidationError s!"{name} must be an IPv4 or IPv6 address")
    | .dns =>
      let normalized := Text.casefold (rstripDots stripped)
      if IsHostname normalized.toList then pure normalized
      else throw (.domainValidationError s!"{name} must be a valid DNS hostname")
    | .docker =>
      if IsContainerName stripped.toList then pure stripped
      else throw (.domainValidationError
        s!"{name} must be a valid Docker service/container name")

/-! ### Reading a target back -/

lemma isDomainChar_of_isLowerAlnum {c : Char} (h : isLowerAlnum c = true) : IsDomainChar c := by
  refine .inl ?_
  simp only [isLowerAlnum, Bool.or_eq_true, Bool.and_eq_true, decide_eq_true_eq] at h
  simp only [isAlnum, Bool.or_eq_true, Bool.and_eq_true, decide_eq_true_eq]
  exact .inl h

lemma isDomainChar_of_isHostname {l : List Char} (h : IsHostname l) {c : Char} (hc : c ∈ l) :
    IsDomainChar c := by
  rcases mem_splitOn '.' hc with rfl | ⟨label, hlabel, hc⟩
  · exact .inr (.inr (.inl rfl))
  · rcases (h.2 label hlabel).2.2.2.2 c hc with hc | rfl
    · exact isDomainChar_of_isLowerAlnum hc
    · exact .inr (.inl rfl)

/-- A text of characters of a domain name is stripped and in folded case. -/
lemma stripped_of_isDomainChar {s : String} (h : ∀ c ∈ s.toList, IsDomainChar c) :
    Text.strip s = s :=
  Text.strip_of_stripped ⟨fun c hc => isSpace_of_isDomainChar (h c (List.mem_of_mem_head? hc)),
    fun c hc => isSpace_of_isDomainChar (h c (List.mem_of_mem_getLast? hc))⟩

lemma casefold_of_isDomainChar {s : String} (h : ∀ c ∈ s.toList, IsDomainChar c) :
    Text.casefold s = s := by
  rw [Text.casefold]
  refine (congrArg String.ofList ?_).trans String.ofList_toList
  calc s.toList.flatMap Text.foldChar = s.toList.flatMap (fun c => [c]) :=
        List.flatMap_congr fun c hc => foldChar_of_isDomainChar (h c hc)
    _ = s.toList := List.flatMap_singleton' _

lemma ne_empty_of_isHostname {s : String} (h : IsHostname s.toList) : s ≠ "" := by
  rintro rfl
  exact (h.2 [] (by simp)).1 rfl

lemma isSpace_of_digit_or {c sep : Char} (hsep : Text.isSpace sep = false)
    (h : c = sep ∨ (Numeral.digitValue c).isSome) : Text.isSpace c = false := by
  rcases h with rfl | h
  · exact hsep
  · exact isSpace_of_digit h

/-- The text of an IPv6 address with its scope is no IPv4 address: it has a colon. -/
lemma parse_v4_text_v6 {n : ℕ} (hn : n < 2 ^ 128) (scope : List Char) :
    Ipv4.parse (Ipv6.text n ++ scope) = none := by
  have hcolon : ':' ∈ Ipv6.text n := by
    by_contra hnot
    have hparse := Ipv6.parse_text hn
    rw [Ipv6.parse, List.splitOn_eq_singleton hnot] at hparse
    simp at hparse
  rw [Option.eq_none_iff_forall_ne_some]
  intro m hm
  rcases Ipv4.eq_dot_or_digit_of_parse hm ':' (List.mem_append_left _ hcolon) with h | h
  · exact absurd h (by decide)
  · exact absurd h (by decide)

/-- The text of an address denotes it, and carries no white space at its ends when the text it was
read from does not. -/
lemma ipAddressText_idem {l t : List Char} (h : ipAddressText l = some t) :
    ipAddressText t = some t ∧ t ≠ [] ∧ (∀ c ∈ t.head?, Text.isSpace c = false) ∧
      ((∀ c ∈ l.getLast?, Text.isSpace c = false) → ∀ c ∈ t.getLast?, Text.isSpace c = false) := by
  unfold ipAddressText at h
  split at h
  · simp at h
  · rename_i hslash
    rcases Option.or_eq_some_iff.mp h with hv4 | ⟨-, hv6⟩
    · obtain ⟨n, hparse, rfl⟩ := Option.map_eq_some_iff.mp hv4
      have hread := Ipv4.parse_text (Ipv4.lt_of_parse hparse)
      have hne : Ipv4.text n ≠ [] := by
        intro hnil
        rw [hnil] at hread
        simp [Ipv4.parse] at hread
      have hspace : ∀ c ∈ Ipv4.text n, Text.isSpace c = false := fun c hc =>
        isSpace_of_digit_or (by decide) (Ipv4.mem_text hc)
      have hnoslash : '/' ∉ Ipv4.text n := by
        intro hmem
        rcases Ipv4.mem_text hmem with h | h
        · exact absurd h (by decide)
        · exact absurd h (by decide)
      refine ⟨?_, hne, fun c hc => hspace c (List.mem_of_mem_head? hc),
        fun _ c hc => hspace c (List.mem_of_mem_getLast? hc)⟩
      rw [ipAddressText, if_neg hnoslash, hread]
      rfl
    · obtain ⟨⟨address, scope⟩, hsplit, htext⟩ := Option.bind_eq_some_iff.mp hv6
      obtain ⟨n, hparse, rfl⟩ := Option.map_eq_some_iff.mp htext
      obtain ⟨rfl, hscope⟩ := IpNetwork.splitScope_eq_some hsplit
      have hn := Ipv6.lt_of_parse hparse
      have hread := Ipv6.parse_text hn
      have hne : Ipv6.text n ≠ [] := by
        intro hnil
        rw [hnil] at hread
        simp [Ipv6.parse] at hread
      have hspace : ∀ c ∈ Ipv6.text n, Text.isSpace c = false := fun c hc =>
        isSpace_of_digit_or (by decide) (Ipv6.mem_text hc)
      refine ⟨?_, by simp [hne], ?_, ?_⟩
      · have hnoslash : '/' ∉ Ipv6.text n ++ IpNetwork.scopeText scope := by
          intro hmem
          rcases List.mem_append.mp hmem with hmem | hmem
          · exact IpNetwork.not_mem_textV6 (by decide) (by decide) hmem
          · exact hslash (List.mem_append_right _ hmem)
        have hpercent : '%' ∉ Ipv6.text n := IpNetwork.not_mem_textV6 (by decide) (by decide)
        have hback := IpNetwork.splitScope_eq hpercent hscope
        rw [ipAddressText, if_neg hnoslash, parse_v4_text_v6 hn, hback, Option.map_none,
          Option.none_or, Option.bind_some, hread]
        rfl
      · intro c hc
        rw [List.head?_append_of_ne_nil _ hne] at hc
        exact hspace c (List.mem_of_mem_head? hc)
      · -- with a scope, the last character is that of the text that was read
        intro hlast c hc
        cases scope with
        | none =>
          rw [IpNetwork.scopeText, List.append_nil] at hc
          exact hspace c (List.mem_of_mem_getLast? hc)
        | some scope =>
          rw [IpNetwork.scopeText, List.getLast?_append_of_ne_nil _ (by simp)] at hc
          refine hlast c ?_
          rw [IpNetwork.scopeText, List.getLast?_append_of_ne_nil _ (by simp)]
          exact hc

/-- A checked target passes the check again, unchanged. -/
theorem target_idem {value : String} {kind : TargetKind} {name t : String}
    (h : target value kind name = .ok t) (name' : String) : target t kind name' = .ok t := by
  have hself : ∀ {s : String}, Text.strip s = s → s ≠ "" → Text.strip s ≠ "" := by
    intro s hs hne
    rwa [hs]
  unfold target at h
  dsimp only at h
  split at h
  · exact absurd h throw_ne_ok
  · rename_i hgiven
    cases kind with
    | ip =>
      dsimp only at h
      split at h
      · rename_i text htext
        obtain rfl := pure_eq_ok_iff.mp h
        obtain ⟨hidem, hne, hhead, hlast⟩ := ipAddressText_idem htext
        have hstripped : Text.strip (String.ofList text) = String.ofList text := by
          refine Text.strip_of_stripped ⟨?_, ?_⟩
          · simpa using hhead
          · simpa using hlast (Text.stripped_strip value).2
        have hne' : String.ofList text ≠ "" := by
          intro hempty
          exact hne (by simpa using congrArg String.toList hempty)
        rw [target, if_neg (hself hstripped hne'), hstripped, String.toList_ofList, hidem]
        rfl
      · exact absurd h throw_ne_ok
    | dns =>
      dsimp only at h
      split at h
      · rename_i hhost
        obtain rfl := pure_eq_ok_iff.mp h
        have hchars := fun c hc => isDomainChar_of_isHostname hhost (c := c) hc
        have hstripped := stripped_of_isDomainChar hchars
        rw [target, if_neg (hself hstripped (ne_empty_of_isHostname hhost)), hstripped,
          rstripDots_casefold, casefold_of_isDomainChar hchars, if_pos hhost]
        rfl
      · exact absurd h throw_ne_ok
    | docker =>
      dsimp only at h
      split at h
      · rename_i hname
        obtain rfl := pure_eq_ok_iff.mp h
        rw [target, Text.strip_strip, if_neg hgiven, if_pos hname]
        rfl
      · exact absurd h throw_ne_ok

/-- A checked target is no blank text. -/
lemma strip_target {value : String} {kind : TargetKind} {name t : String}
    (h : target value kind name = .ok t) : Text.strip t ≠ "" := by
  intro hblank
  have hidem := target_idem h name
  unfold target at hidem
  dsimp only at hidem
  rw [if_pos hblank] at hidem
  exact absurd hidem throw_ne_ok

/-! ## Domain names -/

/-- One name of `canonical_domains`. -/
def canonicalDomain (raw : String) : Result String :=
  let domain := Text.casefold (rstripDots (Text.strip raw))
  if IsDomain domain.toList then pure domain
  else throw (.domainValidationError s!"invalid domain name: {Text.repr raw}")

/-- The loop of `canonical_domains`: names join those collected so far. -/
def collectDomains (domains : List String) : List String → Result (List String)
  | [] => pure domains
  | raw :: rest => do
    let domain ← canonicalDomain raw
    raiseIf (domain ∈ domains) (.domainValidationError s!"duplicate domain name: {domain}")
    collectDomains (domains ++ [domain]) rest

/-- `canonical_domains`. -/
def canonicalDomains (values : List String) : Result (List String) := do
  let domains ← collectDomains [] values
  raiseIf (¬ (1 ≤ domains.length ∧ domains.length ≤ 100))
    (.domainValidationError "resources require between 1 and 100 domain names")
  pure domains

lemma canonicalDomain_idem {raw domain : String} (h : canonicalDomain raw = .ok domain) :
    canonicalDomain domain = .ok domain := by
  unfold canonicalDomain at h
  dsimp only at h
  split at h
  · rename_i hdomain
    obtain rfl := pure_eq_ok_iff.mp h
    have hchars := fun c hc => isDomainChar_of_mem hdomain (c := c) hc
    rw [canonicalDomain, stripped_of_isDomainChar hchars, rstripDots_casefold,
      casefold_of_isDomainChar hchars, if_pos hdomain]
    rfl
  · exact absurd h throw_ne_ok

/-- The names that are collected are canonical and different; collecting them again in the same
order succeeds. -/
lemma collectDomains_idem {domains values collected : List String}
    (h : collectDomains domains values = .ok collected) :
    ∃ added, collected = domains ++ added ∧ collectDomains domains added = .ok collected := by
  induction values generalizing domains with
  | nil =>
    obtain rfl := pure_eq_ok_iff.mp h
    exact ⟨[], by simp, rfl⟩
  | cons raw rest ih =>
    simp only [collectDomains, bind_eq_ok_iff, raiseIf_eq_ok_iff] at h
    obtain ⟨domain, hdomain, -, hnew, hrest⟩ := h
    obtain ⟨added, rfl, hagain⟩ := ih hrest
    refine ⟨domain :: added, by simp, ?_⟩
    simp only [collectDomains, bind_eq_ok_iff, raiseIf_eq_ok_iff]
    exact ⟨domain, canonicalDomain_idem hdomain, (), hnew, hagain⟩

/-- Canonical names are their own canonical names. -/
theorem canonicalDomains_idem {values domains : List String}
    (h : canonicalDomains values = .ok domains) : canonicalDomains domains = .ok domains := by
  simp only [canonicalDomains, bind_eq_ok_iff, raiseIf_eq_ok_iff, pure_eq_ok_iff] at h ⊢
  obtain ⟨collected, hcollected, -, hcount, rfl⟩ := h
  obtain ⟨added, hadded, hagain⟩ := collectDomains_idem hcollected
  obtain rfl : collected = added := by simpa using hadded
  exact ⟨_, hagain, (), hcount, rfl⟩

/-! ## References -/

/-- The row of a certificate that a payload names, under the foreign key. -/
def certificateKey (certificates : List ℕ) (certificateId : Option ℤ) : Result (Option ℕ) :=
  match certificateId with
  | none => pure none
  | some id => do
    raiseIf (∀ certificate ∈ certificates, (certificate : ℤ) ≠ id) .integrityError
    pure (some id.toNat)

/-- A certificate that is named is found under its id. -/
lemma certificateKey_some_eq_ok_iff {certificates : List ℕ} {z : ℤ} {key : Option ℕ} :
    certificateKey certificates (some z) = .ok key ↔
      ∃ certificate ∈ certificates, (certificate : ℤ) = z ∧ key = some certificate := by
  simp only [certificateKey, bind_eq_ok_iff, raiseIf_eq_ok_iff, not_forall, not_not,
    pure_eq_ok_iff]
  constructor
  · rintro ⟨-, ⟨certificate, hmem, rfl⟩, rfl⟩
    exact ⟨certificate, hmem, rfl, rfl⟩
  · rintro ⟨certificate, hmem, rfl, rfl⟩
    exact ⟨(), ⟨certificate, hmem, rfl⟩, rfl⟩

end Portwyrm.Tables

import Portwyrm.Base.IpNetwork

/-!
# The authority component

The `authority` of the generic syntax of URIs (RFC 3986, section 3.2): an optional user, a host,
and an optional port.  A host is an address in brackets, or a text without colons.
-/

namespace Portwyrm.Base

/-! ## Characters -/

/-- A character that stands for itself everywhere: a letter, a digit or one of `-._~`. -/
def isUnreserved (c : Char) : Bool :=
  (97 ≤ c.toNat && c.toNat ≤ 122) || (65 ≤ c.toNat && c.toNat ≤ 90) ||
    (48 ≤ c.toNat && c.toNat ≤ 57) || c == '-' || c == '.' || c == '_' || c == '~'

/-- `sub-delims`. -/
def isSubDelim (c : Char) : Bool := "!$&'()*+,;=".toList.contains c

/-- `HEXDIG`. -/
def isHexDigit (c : Char) : Bool := (Numeral.digitValue c).isSome

lemma isUnreserved_of_isHexDigit {c : Char} (h : isHexDigit c = true) : isUnreserved c = true := by
  unfold isHexDigit Numeral.digitValue at h
  simp only [Char.le_def, UInt32.le_iff_toNat_le] at h
  have hrange : (48 ≤ c.val.toNat ∧ c.val.toNat ≤ 57) ∨ (97 ≤ c.val.toNat ∧ c.val.toNat ≤ 102) ∨
      (65 ≤ c.val.toNat ∧ c.val.toNat ≤ 70) := by
    split at h
    · rename_i hc
      exact .inl hc
    · split at h
      · rename_i hc
        exact .inr (.inl hc)
      · split at h
        · rename_i hc
          exact .inr (.inr hc)
        · exact absurd h (by simp)
  simp only [isUnreserved, Char.toNat, Bool.or_eq_true, Bool.and_eq_true, decide_eq_true_eq]
  omega

/-- `*( unreserved / pct-encoded / sub-delims )`, perhaps with colons. -/
def isEncoded (colons : Bool) : List Char → Bool
  | [] => true
  | '%' :: high :: low :: rest => isHexDigit high && isHexDigit low && isEncoded colons rest
  | c :: rest =>
    (isUnreserved c || isSubDelim c || (colons && c == ':')) && isEncoded colons rest

/-- `IPvFuture`. -/
def isFuture : List Char → Bool
  | 'v' :: rest =>
    let version := rest.takeWhile isHexDigit
    version ≠ [] && (rest.dropWhile isHexDigit).head? = some '.' &&
      ((rest.dropWhile isHexDigit).tail ≠ [] &&
        (rest.dropWhile isHexDigit).tail.all fun c => isUnreserved c || isSubDelim c || c == ':')
  | _ => false

/-! ## The component -/

/-- A host. -/
inductive AuthorityHost
  | ipv6 (text : List Char)
  | future (text : List Char)
  | ipv4 (text : List Char)
  | name (text : List Char)
deriving DecidableEq

/-- The text of a host, without brackets. -/
def AuthorityHost.text : AuthorityHost → List Char
  | .ipv6 text | .future text | .ipv4 text | .name text => text

/-- An authority; an empty port is none. -/
structure Authority where
  userinfo : Option (List Char)
  host : AuthorityHost
  port : Option ℕ
deriving DecidableEq

namespace Authority

/-- The address in brackets at the start of a text, and what follows it. -/
def parseLiteral (l : List Char) : Option (AuthorityHost × List Char) :=
  let inner := l.takeWhile (· ≠ ']')
  match l.dropWhile (· ≠ ']') with
  | [] => none
  | _ :: tail =>
    if (Ipv6.parse inner).isSome then some (.ipv6 inner, tail)
    else if isFuture inner then some (.future inner, tail)
    else none

/-- `IPv4address`, which comes first, or `reg-name`. -/
def parseName (name : List Char) : Option AuthorityHost :=
  if (Ipv4.parse name).isSome then some (.ipv4 name)
  else if isEncoded false name then some (.name name)
  else none

/-- `[ ":" port ]`. -/
def parsePort : List Char → Option (Option ℕ)
  | [] => some none
  | [':'] => some none
  | ':' :: digits => (Numeral.numeral 10 digits).map some
  | _ => none

/-- `host [ ":" port ]`. -/
def parseHostPort (userinfo : Option (List Char)) (l : List Char) : Option Authority :=
  match l with
  | '[' :: rest => do
    let (host, tail) ← parseLiteral rest
    let port ← parsePort tail
    pure ⟨userinfo, host, port⟩
  | _ => do
    let host ← parseName (l.takeWhile (· ≠ ':'))
    let port ← parsePort (l.dropWhile (· ≠ ':'))
    pure ⟨userinfo, host, port⟩

/-- `[ userinfo "@" ] host [ ":" port ]`. -/
def parse (l : List Char) : Option Authority :=
  match l.splitOn '@' with
  | [hostPort] => parseHostPort none hostPort
  | [userinfo, hostPort] => if isEncoded true userinfo then parseHostPort (some userinfo) hostPort
    else none
  | _ => none

/-- A character that does not end an authority. -/
def continues (c : Char) : Bool := c ≠ '/' && c ≠ '?' && c ≠ '#'

/-- The authority of a URI: what stands between `//` and the path, the query or the fragment. -/
def ofUri (uri : List Char) : Option (List Char) :=
  match uri.dropWhile (· ≠ ':') with
  | ':' :: '/' :: '/' :: rest => some (rest.takeWhile continues)
  | _ => none

example : parse "user@[2001:db8::1]:8080".toList =
    some ⟨some "user".toList, .ipv6 "2001:db8::1".toList, some 8080⟩ := by
  decide

example : ofUri "http://example.com:80/path".toList = some "example.com:80".toList := by
  decide

/-! ## Names -/

variable {name text : List Char}

/-- A colon ends a name. -/
lemma takeWhile_colon (h : ':' ∉ name) (rest : List Char) :
    (name ++ ':' :: rest).takeWhile (· ≠ ':') = name := by
  have hname : ∀ c ∈ name, decide (c ≠ ':') = true := fun c hc =>
    decide_eq_true fun heq => h (heq ▸ hc)
  rw [List.takeWhile_append_of_pos hname]
  simp

lemma dropWhile_colon (h : ':' ∉ name) (rest : List Char) :
    (name ++ ':' :: rest).dropWhile (· ≠ ':') = ':' :: rest := by
  have hname : ∀ c ∈ name, decide (c ≠ ':') = true := fun c hc =>
    decide_eq_true fun heq => h (heq ▸ hc)
  rw [List.dropWhile_append_of_pos hname]
  simp

lemma isEncoded_of_unreserved (colons : Bool) (h : ∀ c ∈ name, isUnreserved c = true) :
    isEncoded colons name = true := by
  induction name with
  | nil => rfl
  | cons c rest ih =>
    have hc := h c List.mem_cons_self
    have hpercent : c ≠ '%' := by
      rintro rfl
      exact absurd hc (by decide)
    rw [isEncoded, hc, ih fun c hc => h c (List.mem_cons_of_mem _ hc)]
    · rfl
    · exact fun _ _ _ heq _ => hpercent heq

lemma parsePort_toDigits (port : ℕ) :
    parsePort (':' :: Nat.toDigits 10 port) = some (some port) := by
  have hnumeral := Numeral.numeral_toDigits (b := 10) (by decide) (by decide) port
  obtain ⟨d, digits, hdigits⟩ :=
    List.exists_cons_of_ne_nil (Nat.toDigits_ne_nil (n := port) (b := 10))
  rw [hdigits] at hnumeral ⊢
  rw [parsePort, hnumeral]
  · rfl
  · simp

/-- A name of unreserved characters, and a port, read back as they are. -/
theorem parse_name (h : ∀ c ∈ name, isUnreserved c = true) (port : ℕ) :
    ∃ host, host.text = name ∧
      parse (name ++ ':' :: Nat.toDigits 10 port) = some ⟨none, host, some port⟩ := by
  have hnot : ∀ c : Char, isUnreserved c = false → c ∉ name := fun c hc hmem =>
    absurd ((h c hmem).symm.trans hc) (by decide)
  have hcolon := hnot ':' (by decide)
  have hat : '@' ∉ name ++ ':' :: Nat.toDigits 10 port := by
    have hdigits : '@' ∉ Nat.toDigits 10 port := fun hmem =>
      absurd (Numeral.digitValue_isSome_of_mem_toDigits (by decide) (by decide) hmem) (by decide)
    simpa [hdigits] using hnot '@' (by decide)
  obtain ⟨host, hhost, htext⟩ : ∃ host, parseName name = some host ∧ host.text = name := by
    unfold parseName
    split
    · exact ⟨_, rfl, rfl⟩
    · rw [if_pos (isEncoded_of_unreserved false h)]
      exact ⟨_, rfl, rfl⟩
  refine ⟨host, htext, ?_⟩
  have hbracket : ∀ rest, name ++ ':' :: Nat.toDigits 10 port ≠ '[' :: rest := by
    intro rest heq
    cases name with
    | nil => exact absurd (List.cons.inj heq).1 (by decide)
    | cons c name =>
      obtain rfl : c = '[' := (List.cons.inj heq).1
      exact hnot '[' (by decide) List.mem_cons_self
  rw [parse, List.splitOn_eq_singleton hat]
  dsimp only
  rw [parseHostPort]
  · rw [takeWhile_colon hcolon, dropWhile_colon hcolon, hhost, parsePort_toDigits]
    rfl
  · exact hbracket

lemma text_of_parseName {host : AuthorityHost} (h : parseName name = some host) :
    host.text = name := by
  unfold parseName at h
  split at h
  · rw [← Option.some.inj h, AuthorityHost.text]
  · split at h
    · rw [← Option.some.inj h, AuthorityHost.text]
    · exact nomatch h

variable {authority : Authority}

lemma userinfo_of_parseHostPort {userinfo : Option (List Char)}
    (h : parseHostPort userinfo text = some authority) : authority.userinfo = userinfo := by
  unfold parseHostPort at h
  split at h
  · simp only [Option.bind_eq_bind, Option.bind_eq_some_iff, Option.pure_def,
      Option.some.injEq] at h
    obtain ⟨-, -, -, -, rfl⟩ := h
    rfl
  · simp only [Option.bind_eq_bind, Option.bind_eq_some_iff, Option.pure_def,
      Option.some.injEq] at h
    obtain ⟨-, -, -, -, rfl⟩ := h
    rfl

/-- Without a user and brackets, a host has no colon. -/
theorem colon_not_mem_of_parse (hbracket : text.head? ≠ some '[')
    (h : parse text = some authority) (huser : authority.userinfo = none) :
    ':' ∉ authority.host.text := by
  unfold parse at h
  split at h
  · rename_i hostPort hsplit
    obtain rfl : hostPort = text := by
      have htext : ['@'].intercalate (text.splitOn '@') = text := List.intercalate_splitOn '@'
      rwa [hsplit, List.intercalate_singleton] at htext
    unfold parseHostPort at h
    split at h
    · exact absurd rfl hbracket
    · simp only [Option.bind_eq_bind, Option.bind_eq_some_iff, Option.pure_def,
        Option.some.injEq] at h
      obtain ⟨host, hhost, port, -, rfl⟩ := h
      rw [text_of_parseName hhost]
      intro hmem
      have hall : (hostPort.takeWhile (· ≠ ':')).all (· ≠ ':') = true := List.all_takeWhile
      exact absurd rfl (of_decide_eq_true (List.all_eq_true.mp hall _ hmem))
  · split at h
    · rw [userinfo_of_parseHostPort h] at huser
      exact nomatch huser
    · exact nomatch h
  · exact nomatch h

end Authority

end Portwyrm.Base

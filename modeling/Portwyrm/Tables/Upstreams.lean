import Portwyrm.Base.Authority
import Portwyrm.Runtime.BlockStructure
import Portwyrm.Tables.HostRewrite

/-!
# Upstreams as they are rendered

The authorities that the templates write into `proxy_pass`, read by the generic syntax of URIs,
against the targets and ports that are stored.
-/

namespace Portwyrm.Tables

open Base Portwyrm.Runtime Portwyrm.Quic Portwyrm.Identity

/-! ## Directives -/

/-- The argument of a directive on a line of its own. -/
def argumentOf (directive : List Char) (line : String) : Option (List Char) :=
  ((directive ++ [' ']).isPrefixOf? (line.toList.dropWhile (· = ' '))).bind fun rest =>
    if rest.getLast? = some ';' then some rest.dropLast else none

/-- The argument of the last `proxy_pass` of a block; a raw configuration stands before it. -/
def passed (lines : List String) : Option (List Char) :=
  lines.reverse.findSome? (argumentOf "proxy_pass".toList)

/-- A text in quotes, without them. -/
def unquoted : List Char → List Char
  | '"' :: rest => rest.dropLast
  | l => l

/-- The value that the lines of a block set a variable to. -/
def assigned (lines : List String) (name : List Char) : List Char :=
  ((lines.findSome? (argumentOf ("set $".toList ++ name))).map unquoted).getD []

/-- `[A-Za-z0-9_]`. -/
def isVariableChar (c : Char) : Bool := isAsciiAlnum c || c == '_'

/-- A text with its variables substituted; `name` is what has been read of the name of a variable,
backwards. -/
def substituted (value : List Char → List Char) (name : Option (List Char)) :
    List Char → List Char
  | [] => (name.map fun name => value name.reverse).getD []
  | c :: rest =>
    match name with
    | none => if c = '$' then substituted value (some []) rest else c :: substituted value none rest
    | some name =>
      if isVariableChar c then substituted value (some (c :: name)) rest
      else value name.reverse ++
        if c = '$' then substituted value (some []) rest else c :: substituted value none rest

/-! ## Authorities -/

/-- The authority that the default location of a host passes to: that of the shared `proxy_pass`,
with the variables that the server block sets. -/
def defaultAuthority (host : RuntimeHost) : Option (List Char) :=
  (passed (Text.splitlines renderProxyInclude)).bind fun uri =>
    Authority.ofUri (substituted (assigned (proxyVariables host)) none uri)

/-- The authority that a location passes to. -/
def locationAuthority (lines : List String) : Option (List Char) :=
  (passed lines).bind Authority.ofUri

/-! ## Lines -/

section Lines

variable {directive argument : List Char} {line : String}

lemma isPrefixOf?_append (l rest : List Char) : l.isPrefixOf? (l ++ rest) = some rest := by
  induction l with
  | nil => rfl
  | cons c l ih => simp [List.isPrefixOf?, ih]

/-- A directive behind blanks has its argument. -/
lemma argumentOf_line (spaces : ℕ) (hhead : ∃ c ∈ directive.head?, c ≠ ' ')
    (h : line.toList = List.replicate spaces ' ' ++ (directive ++ [' '] ++ (argument ++ [';']))) :
    argumentOf directive line = some argument := by
  obtain ⟨c, hc, hne⟩ := hhead
  have hdrop : line.toList.dropWhile (· = ' ') = directive ++ [' '] ++ (argument ++ [';']) := by
    rw [h, List.dropWhile_append_of_pos (by simp)]
    obtain ⟨rest, rfl⟩ := List.head?_eq_some_iff.mp hc
    simp [hne]
  rw [argumentOf, hdrop, isPrefixOf?_append]
  simp

/-- What stands before and behind the `proxy_pass` of a block does not matter. -/
lemma passed_block {before behind : List String}
    (h : argumentOf "proxy_pass".toList line = some argument)
    (hbehind : ∀ line ∈ behind, argumentOf "proxy_pass".toList line = none) :
    passed (before ++ line :: behind) = some argument := by
  have hreverse : (before ++ line :: behind).reverse =
      behind.reverse ++ line :: before.reverse := by
    simp
  rw [passed, hreverse, List.findSome?_append, List.findSome?_eq_none_iff.mpr, Option.none_or,
    List.findSome?_cons, h]
  simpa using hbehind

end Lines

lemma passed_include : passed (Text.splitlines renderProxyInclude) =
    some "$forward_scheme://$server:$port".toList := by
  decide +kernel

lemma substituted_include (value : List Char → List Char) :
    substituted value none "$forward_scheme://$server:$port".toList =
      value "forward_scheme".toList ++ "://".toList ++ value "server".toList ++
        ':' :: value "port".toList := by
  rw [List.append_assoc, List.append_assoc]
  rfl

section Variables

variable (host : RuntimeHost)

lemma argumentOf_scheme : argumentOf "set $forward_scheme".toList
    s!"  set $forward_scheme {host.forwardScheme.value};" =
      some host.forwardScheme.value.toList := by
  refine argumentOf_line 2 ⟨'s', rfl, by decide⟩ ?_
  simp [toString]

lemma argumentOf_server : argumentOf "set $server".toList
    s!"  set $server \"{orNone host.forwardHost}\";" =
      some ('"' :: ((orNone host.forwardHost).toList ++ ['"'])) := by
  refine argumentOf_line 2 ⟨'s', rfl, by decide⟩ ?_
  simp [toString]

lemma argumentOf_port : argumentOf "set $port".toList
    s!"  set $port {orNone (host.forwardPort.map toString)};" =
      some (orNone (host.forwardPort.map toString)).toList := by
  refine argumentOf_line 2 ⟨'s', rfl, by decide⟩ ?_
  simp [toString]

/-- A line that sets a variable sets no other. -/
lemma argumentOf_other {line : String} {c c' : Char} {rest' : List Char} (rest : List Char)
    (hne : c ≠ c') (h : line.toList = "  set $".toList ++ c' :: rest') :
    argumentOf ("set $".toList ++ c :: rest) line = none := by
  have hdrop : ("  set $".toList ++ c' :: rest').dropWhile (· = ' ') =
      "set $".toList ++ c' :: rest' := rfl
  have hprefix : ∀ l : List Char, (l ++ c :: (rest ++ [' '])).isPrefixOf? (l ++ c' :: rest') =
      none := by
    intro l
    induction l with
    | nil => simp [List.isPrefixOf?, hne]
    | cons d l ih => simpa [List.isPrefixOf?] using ih
  rw [argumentOf, h, hdrop, List.append_assoc, List.cons_append, hprefix]
  rfl

lemma unquoted_of_head? {l : List Char} (h : l.head? ≠ some '"') : unquoted l = l := by
  unfold unquoted
  split
  · exact absurd rfl h
  · rfl

lemma assigned_scheme : assigned (proxyVariables host) "forward_scheme".toList =
    host.forwardScheme.value.toList := by
  have hscheme := argumentOf_scheme host
  have hvalue : unquoted host.forwardScheme.value.toList = host.forwardScheme.value.toList := by
    cases host.forwardScheme <;> decide
  rw [assigned, proxyVariables, List.findSome?_cons,
    show "set $".toList ++ "forward_scheme".toList = "set $forward_scheme".toList from rfl, hscheme]
  exact hvalue

lemma toList_scheme_line : s!"  set $forward_scheme {host.forwardScheme.value};".toList =
    "  set $".toList ++ 'f' :: ("orward_scheme ".toList ++
      (host.forwardScheme.value.toList ++ [';'])) := by
  simp [toString]

lemma toList_server_line : s!"  set $server \"{orNone host.forwardHost}\";".toList =
    "  set $".toList ++ 's' :: ("erver \"".toList ++
      ((orNone host.forwardHost).toList ++ ['"', ';'])) := by
  simp [toString]

lemma assigned_server : assigned (proxyVariables host) "server".toList =
    (orNone host.forwardHost).toList := by
  have hname : "set $".toList ++ "server".toList = "set $".toList ++ 's' :: "erver".toList := rfl
  have hscheme := argumentOf_other "erver".toList (show 's' ≠ 'f' by decide)
    (toList_scheme_line host)
  rw [assigned, proxyVariables, hname, List.findSome?_cons, hscheme, List.findSome?_cons,
    show "set $".toList ++ 's' :: "erver".toList = "set $server".toList from rfl,
    argumentOf_server]
  simp [unquoted]

lemma assigned_port : assigned (proxyVariables host) "port".toList =
    (orNone (host.forwardPort.map toString)).toList := by
  have hname : "set $".toList ++ "port".toList = "set $".toList ++ 'p' :: "ort".toList := rfl
  have hscheme := argumentOf_other "ort".toList (show 'p' ≠ 'f' by decide)
    (toList_scheme_line host)
  have hserver := argumentOf_other "ort".toList (show 'p' ≠ 's' by decide)
    (toList_server_line host)
  rw [assigned, proxyVariables, hname, List.findSome?_cons, hscheme, List.findSome?_cons, hserver,
    List.findSome?_cons, show "set $".toList ++ 'p' :: "ort".toList = "set $port".toList from rfl,
    argumentOf_port]
  refine unquoted_of_head? fun hhead => ?_
  cases hport : host.forwardPort with
  | none =>
    rw [hport] at hhead
    exact absurd hhead (by decide)
  | some port =>
    rw [hport] at hhead
    have hmem : '"' ∈ Nat.toDigits 10 port := by
      rw [← Nat.toList_repr]
      exact List.mem_of_mem_head? hhead
    have hdigit := Numeral.digitValue_isSome_of_mem_toDigits (by decide) (by decide) hmem
    exact absurd hdigit (by decide)

end Variables

/-! ## Targets -/

/-- An IPv6 address, as the check of targets writes it. -/
def IsIpv6 (t : String) : Prop :=
  ∃ (n : ℕ) (scope : Option (List Char)),
    n < 2 ^ 128 ∧ t.toList = Ipv6.text n ++ IpNetwork.scopeText scope

/-- A target that its check leaves as it is. -/
def IsNormal (kind : TargetKind) (t : String) : Prop := target t kind "target" = .ok t

/-- A text reads as an authority without a user, of a host and a port. -/
def Decodes (text : Option (List Char)) (host : String) (port : ℕ) : Prop :=
  ∃ authority, text.bind Authority.parse = some authority ∧ authority.userinfo = none ∧
    authority.host.text = host.toList ∧ authority.port = some port

lemma isUnreserved_of_isAsciiAlnum {c : Char} (h : isAsciiAlnum c = true) :
    isUnreserved c = true := by
  simp only [isAsciiAlnum, isLowerAlnum, Bool.or_eq_true] at h
  simp only [isUnreserved, Bool.or_eq_true]
  tauto

lemma isUnreserved_of_isLowerAlnum {c : Char} (h : isLowerAlnum c = true) :
    isUnreserved c = true := by
  refine isUnreserved_of_isAsciiAlnum ?_
  rw [isAsciiAlnum, h, Bool.true_or]

/-- An IPv6 address has a colon. -/
lemma colon_mem_of_parse {l : List Char} {n : ℕ} (h : Ipv6.parse l = some n) : ':' ∈ l := by
  by_contra hnot
  rw [Ipv6.parse, List.splitOn_eq_singleton hnot] at h
  simp at h

lemma colon_mem_text {n : ℕ} (h : n < 2 ^ 128) : ':' ∈ Ipv6.text n :=
  colon_mem_of_parse (Ipv6.parse_text h)

lemma head_of_isIpv6 {t : String} (h : IsIpv6 t) {c : Char} (hc : c ∈ t.toList.head?) :
    c = ':' ∨ isUnreserved c = true := by
  obtain ⟨n, scope, hn, htext⟩ := h
  have hne : Ipv6.text n ≠ [] := List.ne_nil_of_mem (colon_mem_text hn)
  rw [htext, List.head?_append_of_ne_nil _ hne] at hc
  exact (Ipv6.mem_text (List.mem_of_mem_head? hc)).imp_right isUnreserved_of_isHexDigit

lemma ne_nil_of_isIpv6 {t : String} (h : IsIpv6 t) : t.toList ≠ [] := by
  obtain ⟨n, scope, hn, htext⟩ := h
  exact List.ne_nil_of_mem (htext ▸ List.mem_append_left _ (colon_mem_text hn))

lemma mem_of_mem_strip {s : String} {c : Char} (h : c ∈ (Text.strip s).toList) : c ∈ s.toList := by
  rw [Text.strip, String.toList_ofList] at h
  exact (List.dropWhile_suffix _).subset ((List.rdropWhile_prefix _ _).subset h)

section Targets

variable {value : String} {kind : TargetKind} {name t : String}

/-- A checked target is an IPv6 address, which it was given as, or it needs no encoding. -/
lemma unreserved_or_isIpv6 (h : target value kind name = .ok t) :
    (∀ c ∈ t.toList, isUnreserved c = true) ∨ IsIpv6 t ∧ ':' ∈ value.toList := by
  unfold target at h
  dsimp only at h
  split at h
  · exact absurd h throw_ne_ok
  · cases kind with
    | ip =>
      dsimp only at h
      split at h
      · rename_i text hread
        obtain rfl := pure_eq_ok_iff.mp h
        rw [String.toList_ofList]
        unfold ipAddressText at hread
        split at hread
        · exact nomatch hread
        · rcases Option.or_eq_some_iff.mp hread with hv4 | ⟨-, hv6⟩
          · obtain ⟨n, hparse, rfl⟩ := Option.map_eq_some_iff.mp hv4
            refine .inl fun c hc => ?_
            rcases Ipv4.mem_text hc with rfl | hdigit
            · decide
            · exact isUnreserved_of_isHexDigit hdigit
          · obtain ⟨⟨address, scope⟩, hsplit, htext⟩ := Option.bind_eq_some_iff.mp hv6
            obtain ⟨n, hparse, rfl⟩ := Option.map_eq_some_iff.mp htext
            obtain ⟨hgiven, -⟩ := IpNetwork.splitScope_eq_some hsplit
            refine .inr ⟨⟨n, scope, Ipv6.lt_of_parse hparse, String.toList_ofList⟩, ?_⟩
            refine mem_of_mem_strip ?_
            rw [hgiven]
            exact List.mem_append_left _ (colon_mem_of_parse hparse)
      · exact absurd h throw_ne_ok
    | dns =>
      dsimp only at h
      split at h
      · rename_i hhost
        obtain rfl := pure_eq_ok_iff.mp h
        refine .inl fun c hc => ?_
        rcases mem_splitOn '.' hc with rfl | ⟨label, hlabel, hc⟩
        · decide
        · rcases (hhost.2 label hlabel).2.2.2.2 c hc with hc | rfl
          · exact isUnreserved_of_isLowerAlnum hc
          · decide
      · exact absurd h throw_ne_ok
    | docker =>
      dsimp only at h
      split at h
      · rename_i hname
        obtain rfl := pure_eq_ok_iff.mp h
        refine .inl fun c hc => ?_
        rcases hname.2.2 c hc with hc | rfl | rfl | rfl
        · exact isUnreserved_of_isAsciiAlnum hc
        all_goals decide
      · exact absurd h throw_ne_ok

lemma isNormal_iff (h : target value kind name = .ok t) : IsNormal kind value ↔ t = value := by
  refine ⟨fun hnormal => ?_, ?_⟩
  · exact Except.ok.inj ((target_name h "target").symm.trans hnormal)
  · rintro rfl
    exact target_idem h _

/-- What a text that starts as the target and goes on with the port reads as. -/
theorem decodes_iff (h : target value kind name = .ok t) {text : List Char} {port : ℕ}
    (hname : (∀ c ∈ t.toList, isUnreserved c = true) →
      text = t.toList ++ ':' :: Nat.toDigits 10 port)
    (hhead : IsIpv6 t → text.head? = t.toList.head?) :
    Decodes (some text) value port ↔ IsNormal kind value ∧ ¬ IsIpv6 value := by
  rw [isNormal_iff h]
  rcases unreserved_or_isIpv6 h with hplain | ⟨hv6, hcolon⟩
  · obtain ⟨host, hhost, hread⟩ := Authority.parse_name hplain port
    have hnot : ¬ IsIpv6 t := by
      rintro ⟨n, scope, hn, htext⟩
      have hmem : ':' ∈ t.toList :=
        htext ▸ List.mem_append_left _ (colon_mem_text hn)
      exact absurd (hplain ':' hmem) (by decide)
    rw [Decodes, Option.bind_some, hname hplain, hread]
    constructor
    · rintro ⟨authority, hauthority, -, htext, -⟩
      obtain rfl := Option.some.inj hauthority
      obtain rfl : t = value := String.toList_inj.mp (hhost.symm.trans htext)
      exact ⟨rfl, hnot⟩
    · rintro ⟨rfl, -⟩
      exact ⟨_, rfl, rfl, hhost, rfl⟩
  · refine iff_of_false ?_ ?_
    · rintro ⟨authority, hread, huser, htext, -⟩
      have hbracket : text.head? ≠ some '[' := by
        rw [hhead hv6]
        intro hc
        rcases head_of_isIpv6 hv6 hc with heq | hplain
        · exact absurd heq (by decide)
        · exact absurd hplain (by decide)
      exact Authority.colon_not_mem_of_parse hbracket hread huser (htext ▸ hcolon)
    · rintro ⟨rfl, hnot⟩
      exact hnot hv6

/-- What ends an authority in a URI stands neither in a target that needs no encoding nor at the
start of an address. -/
lemma endsAuthority_of_isUnreserved {c : Char} (h : c = ':' ∨ isUnreserved c = true) :
    Authority.continues c = true := by
  simp only [Authority.continues, Bool.and_eq_true, decide_eq_true_eq]
  refine ⟨⟨?_, ?_⟩, ?_⟩
  all_goals
    rintro rfl
    exact absurd h (by decide)

lemma decodes_uri_iff (h : target value kind name = .ok t) (scheme : ForwardScheme) {port : ℕ}
    {path : List Char} (hpath : ∀ c ∈ path.head?, c = '/') :
    Decodes (Authority.ofUri (scheme.value.toList ++ "://".toList ++
        (t.toList ++ ':' :: Nat.toDigits 10 port ++ path))) value port ↔
      IsNormal kind value ∧ ¬ IsIpv6 value := by
  have huri : ∀ rest, Authority.ofUri (scheme.value.toList ++ "://".toList ++ rest) =
      some (rest.takeWhile Authority.continues) := by
    intro rest
    cases scheme <;> rfl
  have hend : path.takeWhile Authority.continues = [] := by
    cases path with
    | nil => rfl
    | cons c path =>
      obtain rfl := hpath c rfl
      rfl
  have hport : ∀ c ∈ ':' :: Nat.toDigits 10 port, Authority.continues c = true := by
    intro c hc
    refine endsAuthority_of_isUnreserved ((List.mem_cons.mp hc).imp_right fun hdigit => ?_)
    exact isUnreserved_of_isHexDigit
      (Numeral.digitValue_isSome_of_mem_toDigits (by decide) (by decide) hdigit)
  rw [huri]
  refine decodes_iff h (fun hplain => ?_) (fun hv6 => ?_)
  · have hall : ∀ c ∈ t.toList ++ ':' :: Nat.toDigits 10 port, Authority.continues c = true := by
      intro c hc
      rcases List.mem_append.mp hc with hc | hc
      · exact endsAuthority_of_isUnreserved (.inr (hplain c hc))
      · exact hport c hc
    rw [List.takeWhile_append_of_pos hall, hend, List.append_nil]
  · obtain ⟨c, rest, hlist⟩ := List.exists_cons_of_ne_nil (ne_nil_of_isIpv6 hv6)
    have hc := endsAuthority_of_isUnreserved
      (head_of_isIpv6 hv6 (c := c) (by rw [hlist]; rfl))
    rw [hlist]
    simp [hc]

end Targets

/-! ## Templates -/

lemma argumentOf_of_head? {line : String} {c : Char} (hne : 'p' ≠ c)
    (h : (line.toList.dropWhile (· = ' ')).head? = some c) :
    argumentOf "proxy_pass".toList line = none := by
  have hdirective : "proxy_pass".toList ++ [' '] = 'p' :: "roxy_pass ".toList := rfl
  obtain ⟨rest, hrest⟩ := List.head?_eq_some_iff.mp h
  rw [argumentOf, hrest, hdirective, List.isPrefixOf?, if_neg (by simpa using hne)]
  rfl

/-- A stream passes to its target. -/
lemma passed_streamTail (stream : Stream) (before : List String) (protocol : String) :
    passed (before ++ streamTail stream protocol) =
      some (stream.forwardingHost.toList ++ ':' :: Nat.toDigits 10 stream.forwardingPort) := by
  refine passed_block (argumentOf_line 2 ⟨'p', rfl, by decide⟩ (by simp [toString])) ?_
  refine List.forall_mem_cons.mpr ⟨argumentOf_of_head? (c := 'a') (by decide) ?_, ?_⟩
  · simp [toString]
  refine List.forall_mem_cons.mpr ⟨argumentOf_of_head? (c := 'e') (by decide) ?_, ?_⟩
  · simp [toString]
  refine List.forall_mem_cons.mpr ⟨by decide, ?_⟩
  refine List.forall_mem_cons.mpr ⟨argumentOf_of_head? (c := 'i') (by decide) ?_, ?_⟩
  · simp [toString]
  exact List.forall_mem_singleton.mpr (by decide)

section Location

variable (accessList : Option AccessList) (passwordFile : Option String)

/-- No line of the access control of a location passes on. -/
lemma argumentOf_accessLines : ∀ line ∈ accessLines accessList passwordFile,
    argumentOf "proxy_pass".toList s!"    {line}" = none := by
  cases accessList with
  | none => exact fun line hline => absurd hline List.not_mem_nil
  | some l =>
    refine List.forall_mem_append.mpr ⟨List.forall_mem_append.mpr ⟨?_, ?_⟩, ?_⟩
    · split
      · refine List.forall_mem_append.mpr ⟨?_, ?_⟩
        · refine List.forall_mem_cons.mpr ⟨by decide, List.forall_mem_singleton.mpr ?_⟩
          exact argumentOf_of_head? (c := 'a') (by decide) (by simp [toString])
        · split
          · exact List.forall_mem_singleton.mpr (by decide)
          · exact List.forall_mem_nil _
      · exact List.forall_mem_nil _
    · split
      · refine List.forall_mem_append.mpr ⟨List.forall_mem_map.mpr fun client _ => ?_, ?_⟩
        · cases hdirective : client.directive with
          | allow =>
            refine argumentOf_of_head? (c := 'a') (by decide) ?_
            simp [toString, AccessClient.line, hdirective, AccessDirective.value]
          | deny =>
            refine argumentOf_of_head? (c := 'd') (by decide) ?_
            simp [toString, AccessClient.line, hdirective, AccessDirective.value]
        · exact List.forall_mem_singleton.mpr (by decide)
      · exact List.forall_mem_nil _
    · split
      · refine List.forall_mem_singleton.mpr ?_
        split <;> decide
      · exact List.forall_mem_nil _

/-- A location passes to its target. -/
lemma passed_renderLocation (location : ProxyLocation) (host : RuntimeHost) :
    passed (renderLocation location host accessList passwordFile) =
      some (location.forwardScheme.value.toList ++ "://".toList ++
        (location.forwardHost.toList ++ ':' :: Nat.toDigits 10 location.forwardPort ++
          location.forwardPath.toList)) := by
  have hbehind : ∀ line ∈ (accessLines accessList passwordFile).map (fun line => s!"    {line}") ++
      websocketLines host ++ ["  \x7d"], argumentOf "proxy_pass".toList line = none := by
    refine List.forall_mem_append.mpr ⟨List.forall_mem_append.mpr ⟨?_, ?_⟩, ?_⟩
    · exact List.forall_mem_map.mpr (argumentOf_accessLines accessList passwordFile)
    · unfold websocketLines
      split
      · decide
      · exact List.forall_mem_nil _
    · exact List.forall_mem_singleton.mpr (by decide)
  have hblock : renderLocation location host accessList passwordFile =
      ([s!"  location {location.path} \x7b"] ++
      (if location.advancedConfig ≠ "" then [indented (Text.rstrip location.advancedConfig) 4]
      else []) ++
      [ "    proxy_set_header Host $host;",
        "    proxy_set_header X-Forwarded-Scheme $scheme;",
        "    proxy_set_header X-Forwarded-Proto $scheme;",
        "    proxy_set_header X-Forwarded-For $remote_addr;",
        "    proxy_set_header X-Real-IP $remote_addr;" ]) ++
      s!"    proxy_pass {location.forwardScheme.value}://{location.passTarget};" ::
      ((accessLines accessList passwordFile).map (fun line => s!"    {line}") ++
      websocketLines host ++ ["  \x7d"]) := by
    simp only [renderLocation, ProxyLocation.passTarget, List.append_assoc, List.cons_append,
      List.nil_append]
  rw [hblock]
  refine passed_block (argumentOf_line 4 ⟨'p', rfl, by decide⟩ ?_) hbehind
  simp [toString, ProxyLocation.passTarget]

end Location

/-- The default location of a host passes to its upstream. -/
lemma defaultAuthority_eq {host : RuntimeHost} {t : String} {port : ℕ}
    (hhost : host.forwardHost = some t) (hport : host.forwardPort = some port) :
    defaultAuthority host = Authority.ofUri (host.forwardScheme.value.toList ++ "://".toList ++
      (t.toList ++ ':' :: Nat.toDigits 10 port ++ [])) := by
  have hdigits : (orNone (some (toString port))).toList = Nat.toDigits 10 port := Nat.toList_repr
  rw [defaultAuthority, passed_include, Option.bind_some, substituted_include, assigned_scheme,
    assigned_server, assigned_port, hhost, hport, Option.map_some, hdigits, orNone,
    Option.getD_some, List.append_nil, List.append_assoc _ t.toList]

/-! ## Upstreams -/

/-- The upstreams of stored rows: the kind and the text of a target, a port, and the authority that
is rendered for them. -/
inductive RenderedUpstream (certificates : List ℕ) :
    TargetKind → String → ℕ → Option (List Char) → Prop
  | default {rows : Dict ℕ HostRow} {id : ℕ} {row shown : HostRow} {upstream : UpstreamRow}
      (hreached : HostsReached rows) (hget : getHost .proxy id rows = some row)
      (hupstream : row.upstream = some upstream) (hshown : validateRuntimeHost id row = .ok shown) :
      RenderedUpstream certificates upstream.targetKind upstream.target upstream.port
        (defaultAuthority (runtimeHost id shown))
  | location {rows : Dict ℕ HostRow} {id : ℕ} {row shown : HostRow} {l l' : LocationRow}
      (hreached : HostsReached rows) (hget : getHost .proxy id rows = some row)
      (hlocation : l ∈ row.locations) (hshown : validateRuntimeHost id row = .ok shown)
      (hlocation' : validateRuntimeLocation l = .ok l')
      (accessList : Option AccessList) (passwordFile : Option String) :
      RenderedUpstream certificates l.targetKind l.target l.port (locationAuthority
        (renderLocation (runtimeLocation l') (runtimeHost id shown) accessList passwordFile))
  | tcp {calls : List (Actor × StreamOp)} {id : ℕ} {row shown : StreamRow}
      (hget : (streamRun certificates calls).get? id = some row)
      (hshown : validateRuntimeStream id row = .ok shown) (platform : PlatformConfig) :
      RenderedUpstream certificates row.targetKind row.target row.targetPort
        (passed (streamTcpLines platform (runtimeStream id shown)))
  | udp {calls : List (Actor × StreamOp)} {id : ℕ} {row shown : StreamRow}
      (hget : (streamRun certificates calls).get? id = some row)
      (hshown : validateRuntimeStream id row = .ok shown) (platform : PlatformConfig) :
      RenderedUpstream certificates row.targetKind row.target row.targetPort
        (passed (streamUdpLines platform (runtimeStream id shown)))

/-- A location that is stored in good order has a checked target and a path behind it. -/
lemma target_of_validateRuntimeLocation {l : LocationRow}
    (h : validateRuntimeLocation l = .ok l) :
    target l.target l.targetKind "location forward_host" = .ok l.target ∧
      ∀ c ∈ l.forwardPath.toList.head?, c = '/' := by
  simp only [validateRuntimeLocation, validateLocation, parseTargetKind_value, ok_bind,
    bind_eq_ok_iff, raiseIf_eq_ok_iff, pure_eq_ok_iff] at h
  obtain ⟨_, _, -, -, -, -, t, ht, _, _, -, hpath, hl⟩ := h
  have htarget : t = l.target := congrArg LocationRow.target hl
  rw [htarget] at ht
  refine ⟨ht, fun c hc => ?_⟩
  by_contra hne
  refine hpath ⟨?_, fun hslash => ?_⟩
  · intro hempty
    rw [hempty] at hc
    cases hc
  · exact hne (Option.some.inj (hc.symm.trans hslash))

/-- What a rendered authority reads as, for a stream. -/
lemma decodes_stream_iff {id : ℕ} {row shown : StreamRow}
    (hshown : validateRuntimeStream id row = .ok shown) (before : List String) (protocol : String) :
    Decodes (passed (before ++ streamTail (runtimeStream id shown) protocol)) row.target
      row.targetPort ↔ IsNormal row.targetKind row.target ∧ ¬ IsIpv6 row.target := by
  simp only [validateRuntimeStream, bind_eq_ok_iff, raiseIf_eq_ok_iff, pure_eq_ok_iff] at hshown
  obtain ⟨-, -, targetPort, hport, -, -, t, ht, -, -, rfl⟩ := hshown
  have heq := port_eq_ok_toNat hport
  obtain rfl : targetPort = row.targetPort := by omega
  rw [passed_streamTail]
  refine decodes_iff ht (fun _ => rfl) fun hv6 => ?_
  exact List.head?_append_of_ne_nil _ (ne_nil_of_isIpv6 hv6)

/-- A rendered upstream decodes to the stored target and port exactly when the target is stored in
its normal form and is no IPv6 address, which is written without brackets. -/
theorem rendered_decodes_iff {certificates : List ℕ} {kind : TargetKind} {t : String} {port : ℕ}
    {authority : Option (List Char)}
    (h : RenderedUpstream certificates kind t port authority) :
    Decodes authority t port ↔ IsNormal kind t ∧ ¬ IsIpv6 t := by
  cases h with
  | @default rows id row shown upstream hreached hget hupstream hshown =>
    obtain ⟨certificates', accessLists, hstored⟩ := hreached.storedHost (getHost_eq_some hget)
    obtain ⟨upstream', hupstream', htarget⟩ := hstored.proxied
      (of_decide_eq_true (Option.filter_eq_some_iff.mp hget).2)
    obtain rfl := Option.some.inj (hupstream.symm.trans hupstream')
    have hshows : shown.upstream = some upstream := by
      simp only [validateRuntimeHost, bind_eq_ok_iff, pure_eq_ok_iff] at hshown
      obtain ⟨-, -, -, -, -, -, -, -, -, -, -, -, -, -, rfl⟩ := hshown
      exact hupstream
    have hhost : (runtimeHost id shown).forwardHost = some upstream.target :=
      congrArg (Option.map UpstreamRow.target) hshows
    have hport : (runtimeHost id shown).forwardPort = some upstream.port :=
      congrArg (Option.map UpstreamRow.port) hshows
    rw [defaultAuthority_eq hhost hport]
    exact decodes_uri_iff htarget _ (by simp)
  | @location rows id row shown l l' hreached hget hlocation hshown hlocation' =>
    have hreread := hreached.reread id row (getHost_eq_some hget)
    obtain rfl := Except.ok.inj ((hreread.locations l hlocation).symm.trans hlocation')
    obtain ⟨htarget, hpath⟩ := target_of_validateRuntimeLocation hlocation'
    rw [locationAuthority, passed_renderLocation]
    exact decodes_uri_iff htarget _ hpath
  | @tcp calls id row shown hget hshown platform =>
    rw [streamTcpLines]
    exact decodes_stream_iff hshown _ "tcp"
  | @udp calls id row shown hget hshown platform =>
    rw [streamUdpLines]
    exact decodes_stream_iff hshown _ "udp"

/-- A proxy host at a given target. -/
def hostAt (kind host : String) : HostPayload where
  domainNames := .of ["app.example.com"]
  targetKind := .of kind
  forwardHost := .of host
  forwardPort := .of 8080

/-- The table with that host. -/
def hostsAt (kind host : String) : Dict ℕ HostRow :=
  (createHost [] [] none .proxy 1 (hostAt kind host) Dict.empty).toOption.getD Dict.empty

/-- The upstream of that host, and the host as it is rendered. -/
def renderedAt (kind host : String) : Option (UpstreamRow × RuntimeHost) := do
  let row ← getHost .proxy 1 (hostsAt kind host)
  let upstream ← row.upstream
  let shown ← (validateRuntimeHost 1 row).toOption
  pure (upstream, runtimeHost 1 shown)

lemma rendered_renderedAt {kind host : String} {upstream : UpstreamRow} {shown : RuntimeHost}
    (hop : (createHost [] [] none .proxy 1 (hostAt kind host) Dict.empty).toOption.isSome = true)
    (h : renderedAt kind host = some (upstream, shown)) :
    RenderedUpstream [] upstream.targetKind upstream.target upstream.port
      (defaultAuthority shown) := by
  simp only [renderedAt, Option.bind_eq_bind, Option.bind_eq_some_iff, Option.pure_def,
    Option.some.injEq, Prod.mk.injEq] at h
  obtain ⟨row, hget, _, hupstream, shownRow, hshown, rfl, rfl⟩ := h
  refine .default (HostsReached.create .empty (eq_getD_of_isSome hop)) hget hupstream ?_
  cases hrow : validateRuntimeHost 1 row with
  | error e =>
    rw [hrow] at hshown
    exact nomatch hshown
  | ok shownRow' =>
    rw [hrow] at hshown
    obtain rfl : shownRow' = shownRow := Option.some.inj hshown
    rfl

/-- The upstream of a host that is given by its name. -/
theorem rendered_decodes_iff_name :
    ∃ authority, RenderedUpstream [] .dns "backend.internal" 8080 authority ∧
      (Decodes authority "backend.internal" 8080 ↔
        IsNormal .dns "backend.internal" ∧ ¬ IsIpv6 "backend.internal") := by
  obtain ⟨⟨upstream, shown⟩, h⟩ := Option.isSome_iff_exists.mp
    (show (renderedAt "dns" "backend.internal").isSome = true by decide)
  have hupstream : ((renderedAt "dns" "backend.internal").map fun e =>
      (e.1.targetKind, e.1.target, e.1.port)) = some (.dns, "backend.internal", 8080) := by
    decide
  have hrendered := rendered_renderedAt (by decide) h
  rw [h, Option.map_some, Option.some.injEq, Prod.mk.injEq, Prod.mk.injEq] at hupstream
  obtain ⟨hkind, htarget, hport⟩ := hupstream
  rw [hkind, htarget, hport] at hrendered
  exact ⟨_, hrendered, rendered_decodes_iff hrendered⟩

/-- An IPv6 address is rendered without brackets, and reads as no authority. -/
theorem ipv6_not_decoded : ¬ ∀ (certificates : List ℕ) (kind : TargetKind) (t : String) (port : ℕ)
    (authority : Option (List Char)), RenderedUpstream certificates kind t port authority →
      Decodes authority t port := by
  intro hall
  obtain ⟨⟨upstream, shown⟩, h⟩ := Option.isSome_iff_exists.mp
    (show (renderedAt "ip" "2001:db8::1").isSome = true by decide)
  have hshown : ((renderedAt "ip" "2001:db8::1").map fun e =>
      (e.2.forwardScheme, e.2.forwardHost, e.2.forwardPort)) =
        some (.http, some "2001:db8::1", some 8080) := by
    decide
  rw [h, Option.map_some, Option.some.injEq, Prod.mk.injEq, Prod.mk.injEq] at hshown
  obtain ⟨hscheme, hhost, hport⟩ := hshown
  obtain ⟨_, hread, -⟩ := hall _ _ _ _ _ (rendered_renderedAt (by decide) h)
  have hnone : (Authority.ofUri (ForwardScheme.http.value.toList ++ "://".toList ++
      ("2001:db8::1".toList ++ ':' :: Nat.toDigits 10 8080 ++ []))).bind Authority.parse =
        none := by
    decide
  rw [defaultAuthority_eq hhost hport, hscheme, hnone] at hread
  exact nomatch hread

end Portwyrm.Tables

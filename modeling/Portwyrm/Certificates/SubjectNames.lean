import Portwyrm.Base.Dict
import Portwyrm.Base.Splitting
import Portwyrm.Errors

/-!
# The names of a certificate

`OpenSSLPEMValidator._parse_details` reads the text that `openssl x509` prints of a certificate: the
subject, the issuer, the serial number and the dates, and the names of the extension
`subjectAltName`, which stand on one line whatever their kinds are.
-/

namespace Portwyrm.Certificates

open Base

/-! ## Reading -/

/-- `CertificateInfo`, with the dates in seconds. -/
structure CertificateInfo where
  subject : String
  issuer : String
  serial : String
  notBefore : ℤ
  notAfter : ℤ
  domainNames : List String
deriving DecidableEq

/-- `entry.replace("DNS:", "")`. -/
def removeDns : List Char → List Char
  | 'D' :: 'N' :: 'S' :: ':' :: rest => removeDns rest
  | c :: rest => c :: removeDns rest
  | [] => []

/-- The domains of a line. -/
def lineDomains (stripped : String) : List String :=
  if Text.Contains stripped "DNS:" then
    ((stripped.toList.splitOn ',').map fun entry =>
      Text.lower (Text.strip (String.ofList (removeDns entry)))).filter (· ≠ "")
  else []

/-- The value of a line. -/
def readValue (values : Dict String String) (stripped : String) : Dict String String :=
  match Text.partition '=' stripped with
  | some (key, value) => values.set (Text.lower key) (Text.strip value)
  | none => values

/-- The body of the loop of `_parse_details`. -/
def readLine (read : Dict String String × List String) (line : String) :
    Dict String String × List String :=
  let stripped := Text.strip line
  (readValue read.1 stripped, read.2 ++ lineDomains stripped)

section Parse

/- `datetime.strptime(value, "%b %d %H:%M:%S %Y %Z")` in UTC. -/
variable (strptime : String → Option ℤ)

/-- A date among the values. -/
def dateOf (values : Dict String String) (key : String) : Result ℤ :=
  match (values.get? key).bind strptime with
  | some date => pure date
  | none => throw (.valueError "OpenSSL did not return parseable certificate dates")

/-- `_parse_details`. -/
def parseDetails (details : String) : Result CertificateInfo := do
  let (values, domains) := (Text.splitlines details).foldl readLine (.empty, [])
  let notBefore ← dateOf strptime values "notbefore"
  let notAfter ← dateOf strptime values "notafter"
  pure {
    subject := (values.get? "subject").getD ""
    issuer := (values.get? "issuer").getD ""
    serial := (values.get? "serial").getD ""
    notBefore := notBefore
    notAfter := notAfter
    domainNames := Dict.fromKeys domains }

end Parse

/-! ## What is printed -/

/-- The kinds of alternative names. -/
inductive NameKind
  | dns
  | ipAddress
  | email
  | uri
deriving DecidableEq

/-- The label of a kind, without its colon. -/
def NameKind.label : NameKind → String
  | .dns => "DNS"
  | .ipAddress => "IP Address"
  | .email => "email"
  | .uri => "URI"

/-- A text on one line. -/
def OnOneLine (s : String) : Prop := ∀ c ∈ s.toList, Text.isLineBreak c = false

/-- A name of a host: ASCII characters, of which none is white space or punctuation of the line. -/
structure IsHostName (s : String) : Prop where
  nonempty : s ≠ ""
  graphic : ∀ c ∈ s.toList, Text.isSpace c = false ∧ c.toNat < 128
  plain : ∀ c ∈ s.toList, c ≠ ',' ∧ c ≠ ':' ∧ c ≠ '='

/-- An entry of `subjectAltName`. -/
structure AlternativeName where
  kind : NameKind
  value : String
  onOneLine : OnOneLine value
  isHostName : kind = .dns → IsHostName value

/-- The text of an entry. -/
def AlternativeName.text (name : AlternativeName) : List Char :=
  name.kind.label.toList ++ ':' :: name.value.toList

/-- A certificate, as `openssl x509` prints it. -/
structure PrintedCertificate where
  subject : String
  issuer : String
  serial : String
  notBefore : String
  notAfter : String
  critical : Bool
  names : List AlternativeName
  onOneLine : ∀ s ∈ [subject, issuer, serial, notBefore, notAfter], OnOneLine s

namespace PrintedCertificate

variable (o : PrintedCertificate)

/-- The lines before the extension. -/
def fieldLines : List String :=
  ["subject=" ++ o.subject, "issuer=" ++ o.issuer, "serial=" ++ o.serial,
    "notBefore=" ++ o.notBefore, "notAfter=" ++ o.notAfter]

/-- The line of the names, without its indentation. -/
def namesText : List Char := [',', ' '].intercalate (o.names.map AlternativeName.text)

/-- The lines of the extension, which is printed when it is there. -/
def extensionLines : List String :=
  if o.names = [] then []
  else ["X509v3 Subject Alternative Name: " ++ (if o.critical then "critical" else ""),
    "    " ++ String.ofList o.namesText]

/-- The whole text. -/
def details : String := Text.ended (o.fieldLines ++ o.extensionLines)

/-- The names of hosts among the entries, in small letters and once each. -/
def hostNames : List String :=
  Dict.fromKeys ((o.names.filter fun name => name.kind = .dns).map fun name => Text.lower name.value)

end PrintedCertificate

/-! ## Domains of lines -/

lemma mem_lower {c : Char} (hc : ∀ d : Char, d.toLower = c ↔ d = c) {s : String} :
    c ∈ (Text.lower s).toList ↔ c ∈ s.toList := by
  rw [Text.lower, String.toList_ofList, List.mem_map]
  constructor
  · rintro ⟨d, hd, hlower⟩
    rwa [← (hc d).mp hlower]
  · intro hmem
    exact ⟨c, hmem, (hc c).mpr rfl⟩

lemma toLower_eq_iff {c : Char} (hc : c.isAlpha = false) (d : Char) : d.toLower = c ↔ d = c := by
  by_cases hd : d.isUpper = true
  · obtain ⟨n, hn, rfl⟩ := Text.exists_of_isUpper hd
    have hall : ∀ n ∈ List.range' 65 26,
        (Char.ofNat n).toLower.isAlpha = true ∧ (Char.ofNat n).isAlpha = true := by
      decide
    constructor
    · rintro rfl
      exact absurd (hall n hn).1 (by simp [hc])
    · rintro rfl
      exact absurd (hall n hn).2 (by simp [hc])
  · rw [Text.toLower_of_not_isUpper hd]

/-- What is not in the label stays. -/
lemma mem_removeDns {c : Char} (hc : c ∉ ['D', 'N', 'S', ':']) {l : List Char} (h : c ∈ l) :
    c ∈ removeDns l := by
  fun_induction removeDns l with
  | case1 rest ih =>
    refine ih ?_
    simp only [List.mem_cons, List.not_mem_nil, or_false, not_or] at hc h
    tauto
  | case2 d rest _ ih =>
    rcases List.mem_cons.mp h with rfl | h
    · exact List.mem_cons_self
    · exact List.mem_cons_of_mem _ (ih h)
  | case3 => exact h

lemma removeDns_of_colon {l : List Char} (h : ':' ∉ l) : removeDns l = l := by
  fun_induction removeDns l with
  | case1 rest ih => exact absurd (by simp) h
  | case2 d rest _ ih => rw [ih fun hmem => h (List.mem_cons_of_mem _ hmem)]
  | case3 => rfl

/-- A colon stays that is behind a character that is not in the label. -/
lemma colon_mem_removeDns {c : Char} (hc : c ∉ ['D', 'N', 'S', ':']) {l : List Char}
    (h : [c, ':'] <:+: l) : ':' ∈ removeDns l := by
  simp only [List.mem_cons, List.not_mem_nil, or_false, not_or] at hc
  obtain ⟨hD, hN, hS, hcolon⟩ := hc
  fun_induction removeDns l with
  | case1 rest ih =>
    refine ih ?_
    simpa [List.infix_cons_iff, hD, hN, hS, hcolon] using h
  | case2 d rest hlabel ih =>
    rcases List.infix_cons_iff.mp h with hprefix | hpart
    · obtain ⟨rfl, hcolons⟩ := List.cons_prefix_cons.mp hprefix
      obtain ⟨behind, rfl⟩ := hcolons
      refine List.mem_cons_of_mem _ ?_
      rw [List.singleton_append, removeDns]
      · exact List.mem_cons_self
      · exact nofun
    · exact List.mem_cons_of_mem _ (ih hpart)
  | case3 => exact absurd h (by simp)

/-- A part of a line with a domain of its own: a character that is in no name of a host. -/
lemma exists_domain {stripped : String} (hdns : Text.Contains stripped "DNS:") {c : Char}
    (hspace : Text.isSpace c = false) (hlower : c.isAlpha = false)
    (h : ∃ piece ∈ stripped.toList.splitOn ',', c ∈ removeDns piece) :
    ∃ domain ∈ lineDomains stripped, c ∈ domain.toList := by
  obtain ⟨piece, hpiece, hmem⟩ := h
  have hstrip : c ∈ (Text.strip (String.ofList (removeDns piece))).toList :=
    (Text.mem_strip_iff hspace).mpr (by rwa [String.toList_ofList])
  have hdomain := (mem_lower (toLower_eq_iff hlower)).mpr hstrip
  refine ⟨_, ?_, hdomain⟩
  rw [lineDomains, if_pos hdns]
  refine List.mem_filter.mpr ⟨List.mem_map.mpr ⟨piece, hpiece, rfl⟩, ?_⟩
  refine decide_eq_true fun hempty => ?_
  rw [hempty] at hdomain
  cases hdomain

/-! ## The fold over the lines -/

lemma foldl_readLine (lines : List String) (values : Dict String String) (domains : List String) :
    lines.foldl readLine (values, domains) =
      (lines.foldl (fun values line => readValue values (Text.strip line)) values,
        domains ++ lines.flatMap fun line => lineDomains (Text.strip line)) := by
  induction lines generalizing values domains with
  | nil => simp
  | cons line lines ih =>
    rw [List.foldl_cons, List.foldl_cons, List.flatMap_cons, ← List.append_assoc]
    exact ih _ _

lemma onOneLine_append {s t : String} (hs : OnOneLine s) (ht : OnOneLine t) : OnOneLine (s ++ t) := by
  intro c hc
  rw [String.toList_append, List.mem_append] at hc
  exact hc.elim (hs c) (ht c)

lemma label_plain (kind : NameKind) : ∀ c ∈ kind.label.toList,
    Text.isLineBreak c = false ∧ c ≠ ',' ∧ c ≠ ':' ∧ c ≠ '=' := by
  cases kind <;> decide

namespace PrintedCertificate

variable (o : PrintedCertificate)

lemma onOneLine_namesText : ∀ c ∈ o.namesText, Text.isLineBreak c = false := by
  intro c hc
  rcases Text.mem_intercalate hc with hsep | ⟨piece, hpiece, hc⟩
  · have hseparator : ∀ c ∈ [',', ' '], Text.isLineBreak c = false := by decide
    exact hseparator c hsep
  · obtain ⟨name, -, rfl⟩ := List.mem_map.mp hpiece
    rw [AlternativeName.text, List.mem_append, List.mem_cons] at hc
    rcases hc with hlabel | rfl | hvalue
    · exact (label_plain name.kind c hlabel).1
    · decide
    · exact name.onOneLine c hvalue

/-- The lines are read as they are printed. -/
lemma splitlines_details : Text.splitlines o.details = o.fieldLines ++ o.extensionLines := by
  refine Text.splitlines_ended fun line hmem => ?_
  rcases List.mem_append.mp hmem with hfield | hextension
  · have hline := o.onOneLine
    simp only [fieldLines, List.mem_cons, List.not_mem_nil, or_false] at hfield
    rcases hfield with rfl | rfl | rfl | rfl | rfl
    all_goals exact onOneLine_append (by unfold OnOneLine; decide) (hline _ (by simp))
  · rw [extensionLines] at hextension
    split at hextension
    · exact absurd hextension List.not_mem_nil
    · simp only [List.mem_cons, List.not_mem_nil, or_false] at hextension
      rcases hextension with rfl | rfl
      · refine onOneLine_append (by unfold OnOneLine; decide) ?_
        cases o.critical <;> unfold OnOneLine <;> decide
      · refine onOneLine_append (by unfold OnOneLine; decide) ?_
        rw [OnOneLine, String.toList_ofList]
        exact o.onOneLine_namesText

end PrintedCertificate

/-! ## The values -/

/-- A field that is printed behind its key is read back. -/
lemma readValue_field (key value : String) (hkey : '=' ∉ key.toList)
    (hhead : ∀ c ∈ key.toList.head?, Text.isSpace c = false) (hne : key ≠ "")
    (values : Dict String String) :
    ∃ read, readValue values (Text.strip (key ++ "=" ++ value)) = values.set (Text.lower key) read ∧
      (Text.Stripped value → read = value) := by
  have hstrip : Text.strip (key ++ "=" ++ value) = key ++ String.singleton '=' ++ Text.rstrip value := by
    have hleft : (key ++ "=" ++ value).toList.dropWhile Text.isSpace =
        key.toList ++ '=' :: value.toList := by
      rw [String.toList_append, String.toList_append]
      cases hchars : key.toList with
      | nil => exact absurd (String.toList_injective (hchars.trans rfl)) hne
      | cons c rest => simp [hhead c (by rw [hchars]; rfl)]
    rw [Text.strip, hleft, Text.rdropWhile_append_cons (by decide)]
    apply String.toList_injective
    simp [Text.rstrip]
  refine ⟨Text.strip (Text.rstrip value), ?_, fun hvalue => ?_⟩
  · rw [hstrip, readValue, Text.partition_join _ hkey]
  · have hright : Text.rstrip value = value := by
      rw [Text.rstrip, List.rdropWhile_eq_self_iff.mpr, String.ofList_toList]
      intro hchars
      simp [hvalue.2 _ (List.getLast?_eq_some_getLast hchars)]
    rw [hright, Text.strip_of_stripped hvalue]

/-- A line without a sign of equality has no value. -/
lemma readValue_of_notMem {stripped : String} (h : '=' ∉ stripped.toList)
    (values : Dict String String) : readValue values stripped = values := by
  rw [readValue, Text.partition_eq_none_iff.mpr h]

/-- A line with a colon before its sign of equality sets a value with a colon in its key. -/
lemma get?_readValue_of_colon {stripped key : String} {label rest : List Char}
    (hline : stripped.toList = label ++ ':' :: rest) (hlabel : '=' ∉ label)
    (hkey : ':' ∉ key.toList) (values : Dict String String) :
    (readValue values stripped).get? key = values.get? key := by
  rw [readValue]
  cases hpartition : Text.partition '=' stripped with
  | none => rfl
  | some found =>
    obtain ⟨name, value⟩ := found
    obtain ⟨rfl, -⟩ := Text.partition_eq_some_iff.mp hpartition
    rw [String.toList_append, String.toList_append, List.append_assoc] at hline
    have hcolon : ':' ∈ name.toList := by
      rcases List.append_eq_append_iff.mp hline with ⟨more, hmore, heq⟩ | ⟨more, hmore, heq⟩
      · cases more with
        | nil =>
          rw [List.nil_append] at heq
          exact absurd (List.cons.inj heq).1 (by decide)
        | cons c more =>
          obtain rfl : '=' = c := (List.cons.inj heq).1
          exact absurd (by rw [hmore]; simp) hlabel
      · cases more with
        | nil =>
          rw [List.nil_append] at heq
          exact absurd (List.cons.inj heq).1 (by decide)
        | cons c more =>
          obtain rfl : ':' = c := (List.cons.inj heq).1
          rw [hmore]
          simp
    have hne : Text.lower name ≠ key := by
      rintro rfl
      exact hkey ((mem_lower (toLower_eq_iff (by decide))).mpr hcolon)
    exact Dict.get?_set_of_ne _ _ hne.symm

namespace PrintedCertificate

variable {o : PrintedCertificate}

/-- The line of the names starts with the label of the first entry. -/
lemma exists_strip_namesText {name : AlternativeName} {names : List AlternativeName}
    (h : o.names = name :: names) : ∃ rest,
      (Text.strip ("    " ++ String.ofList o.namesText)).toList =
        name.kind.label.toList ++ ':' :: rest := by
  obtain ⟨more, hmore⟩ : ∃ more, o.namesText = name.kind.label.toList ++ ':' :: more := by
    rw [namesText, h]
    cases names with
    | nil => exact ⟨name.value.toList, by simp [AlternativeName.text]⟩
    | cons name' names =>
      rw [List.map_cons, List.map_cons, List.intercalate_cons_cons, AlternativeName.text]
      exact ⟨_, by rw [List.append_assoc, List.append_assoc, List.cons_append]⟩
  refine ⟨more.rdropWhile Text.isSpace, ?_⟩
  have hleft : ("    " ++ String.ofList o.namesText).toList.dropWhile Text.isSpace =
      name.kind.label.toList ++ ':' :: more := by
    rw [String.toList_append, show "    ".toList = [' ', ' ', ' ', ' '] from rfl,
      String.toList_ofList, hmore]
    cases name.kind <;> rfl
  rw [Text.strip, hleft, Text.rdropWhile_append_cons (by decide), String.toList_ofList]

/-- The header of the extension has no value, and no domain. -/
lemma header_plain (critical : Bool) :
    let header := Text.strip
      ("X509v3 Subject Alternative Name: " ++ if critical then "critical" else "")
    '=' ∉ header.toList ∧ ¬ Text.Contains header "DNS:" := by
  intro header
  refine ⟨fun hequal => ?_, fun hdns => ?_⟩
  · have hmem := (Text.mem_strip_iff (by decide)).mp hequal
    revert hmem
    cases critical <;> decide
  · have hpart := (Text.infix_strip_iff (by decide)).mp hdns
    revert hpart
    cases critical <;> decide

/-- The lines of the extension leave the values of the fields alone. -/
lemma get?_extensionLines {key : String} (hkey : ':' ∉ key.toList) (values : Dict String String) :
    (o.extensionLines.foldl (fun values line => readValue values (Text.strip line)) values).get? key =
      values.get? key := by
  rw [extensionLines]
  cases hnames : o.names with
  | nil => rfl
  | cons name names =>
    obtain ⟨rest, hrest⟩ := exists_strip_namesText hnames
    have hlabel : '=' ∉ name.kind.label.toList := fun h => (label_plain name.kind _ h).2.2.2 rfl
    rw [if_neg (List.cons_ne_nil _ _), List.foldl_cons, List.foldl_cons, List.foldl_nil,
      readValue_of_notMem (header_plain o.critical).1]
    exact get?_readValue_of_colon hrest hlabel hkey values

/-- The dates stand among the values. -/
lemma get?_dates (hbefore : Text.Stripped o.notBefore) (hafter : Text.Stripped o.notAfter)
    (values : Dict String String) :
    let read := (o.fieldLines ++ o.extensionLines).foldl
      (fun values line => readValue values (Text.strip line)) values
    read.get? "notbefore" = some o.notBefore ∧ read.get? "notafter" = some o.notAfter := by
  intro read
  have hkeys : ':' ∉ "notbefore".toList ∧ ':' ∉ "notafter".toList := by decide
  simp only [read, List.foldl_append, get?_extensionLines hkeys.1, get?_extensionLines hkeys.2]
  simp only [fieldLines, List.foldl_cons, List.foldl_nil]
  generalize readValue _ (Text.strip ("serial=" ++ o.serial)) = values
  obtain ⟨before, hreadBefore, heqBefore⟩ := readValue_field "notBefore" o.notBefore
    (by decide) (by decide) (by decide) values
  obtain ⟨after, hreadAfter, heqAfter⟩ := readValue_field "notAfter" o.notAfter
    (by decide) (by decide) (by decide) (values.set (Text.lower "notBefore") before)
  rw [show "notBefore" ++ "=" = "notBefore=" from rfl, heqBefore hbefore] at hreadBefore
  rw [show "notAfter" ++ "=" = "notAfter=" from rfl, heqBefore hbefore, heqAfter hafter]
    at hreadAfter
  rw [hreadBefore, hreadAfter, Dict.get?_set_of_ne _ _ (by decide)]
  exact ⟨Dict.get?_set_self _ _ _, Dict.get?_set_self _ _ _⟩

/-! ## The domains -/

/-- The domains that are read, before the repeated ones are left out. -/
def domains (o : PrintedCertificate) : List String :=
  (o.fieldLines ++ o.extensionLines).flatMap fun line => lineDomains (Text.strip line)

/-- A field in which the label stands adds a domain with a sign of equality. -/
lemma exists_domain_of_field {line : String} (hline : line ∈ o.fieldLines)
    (hdns : Text.Contains line "DNS:") : ∃ domain ∈ o.domains, '=' ∈ domain.toList := by
  have hequal : '=' ∈ (Text.strip line).toList := by
    refine (Text.mem_strip_iff (by decide)).mpr ?_
    simp only [fieldLines, List.mem_cons, List.not_mem_nil, or_false] at hline
    rcases hline with rfl | rfl | rfl | rfl | rfl
    all_goals rw [String.toList_append]; exact List.mem_append_left _ (by decide)
  obtain ⟨piece, hpiece, hmem⟩ := Text.exists_piece_of_infix (show ',' ∉ ['='] by decide)
    ((List.singleton_infix_iff _ _).mpr hequal)
  obtain ⟨domain, hdomain, hmem⟩ := exists_domain (c := '=')
    ((Text.infix_strip_iff (by decide)).mpr hdns) (by decide) (by decide)
    ⟨piece, hpiece, mem_removeDns (by decide) ((List.singleton_infix_iff _ _).mp hmem)⟩
  exact ⟨domain, List.mem_flatMap.mpr ⟨line, List.mem_append_left _ hline, hdomain⟩, hmem⟩

/-- An entry of another kind, on a line in which the label stands, adds a domain with a colon. -/
lemma exists_domain_of_entry {name : AlternativeName} (hname : name ∈ o.names)
    (hkind : name.kind ≠ .dns) (hdns : ['D', 'N', 'S', ':'] <:+: o.namesText) :
    ∃ domain ∈ o.domains, ':' ∈ domain.toList := by
  -- the character before the colon
  obtain ⟨c, before, hlabel, hc, hspace, hcomma⟩ : ∃ c before,
      name.kind.label.toList = before ++ [c] ∧ c ∉ ['D', 'N', 'S', ':'] ∧ Text.isSpace c = false ∧
        ',' ∉ [c, ':'] := by
    cases hcase : name.kind with
    | dns => exact absurd hcase hkind
    | ipAddress => exact ⟨'s', "IP Addres".toList, by decide, by decide, by decide, by decide⟩
    | email => exact ⟨'l', "emai".toList, by decide, by decide, by decide, by decide⟩
    | uri => exact ⟨'I', "UR".toList, by decide, by decide, by decide, by decide⟩
  have hlast : [c, ':'] <:+: o.namesText := by
    have htext : [c, ':'] <:+: name.text := ⟨before, name.value.toList, by
      rw [AlternativeName.text, hlabel]
      simp⟩
    exact htext.trans (Text.infix_intercalate (List.mem_map_of_mem hname))
  have hnames : o.names ≠ [] := List.ne_nil_of_mem hname
  let line := "    " ++ String.ofList o.namesText
  have hin : ∀ p : List Char, (∀ d ∈ p, Text.isSpace d = false) → p <:+: o.namesText →
      p <:+: (Text.strip line).toList := by
    intro p hp hpart
    refine (Text.infix_strip_iff hp).mpr (hpart.trans ?_)
    rw [String.toList_append, show (String.ofList o.namesText).toList = o.namesText from
      String.toList_ofList]
    exact (List.suffix_append _ _).isInfix
  obtain ⟨piece, hpiece, hmem⟩ := Text.exists_piece_of_infix hcomma
    (hin [c, ':'] (by simpa using ⟨hspace, by decide⟩) hlast)
  obtain ⟨domain, hdomain, hmem⟩ := exists_domain (hin _ (by decide) hdns) (by decide) (by decide)
    ⟨piece, hpiece, colon_mem_removeDns hc hmem⟩
  refine ⟨domain, List.mem_flatMap.mpr ⟨line, List.mem_append_right _ ?_, hdomain⟩, hmem⟩
  rw [extensionLines, if_neg hnames]
  simp [line]

lemma text_of_dns {name : AlternativeName} (h : name.kind = .dns) :
    name.text = 'D' :: 'N' :: 'S' :: ':' :: name.value.toList := by
  rw [AlternativeName.text, h]
  rfl

/-- An entry of a host puts the label on the line of the names. -/
lemma contains_of_dns {name : AlternativeName} (hname : name ∈ o.names) (h : name.kind = .dns) :
    Text.Contains (String.ofList o.namesText) "DNS:" := by
  have hlabel : ['D', 'N', 'S', ':'] <:+: name.text := by
    rw [text_of_dns h]
    exact (List.prefix_append ['D', 'N', 'S', ':'] name.value.toList).isInfix
  have hline : (String.ofList o.namesText).toList = o.namesText := String.toList_ofList
  rw [Text.Contains, hline]
  exact hlabel.trans (Text.infix_intercalate (List.mem_map_of_mem hname))

lemma stripped_of_isHostName {s : String} (h : IsHostName s) : Text.Stripped s :=
  ⟨fun c hc => (h.graphic c (List.mem_of_mem_head? hc)).1,
    fun c hc => (h.graphic c (List.mem_of_mem_getLast? hc)).1⟩

/-- The line of entries of hosts alone has no white space around it. -/
lemma stripped_namesText (h : ∀ name ∈ o.names, name.kind = .dns) :
    Text.Stripped (String.ofList o.namesText) := by
  rw [Text.Stripped, String.toList_ofList, namesText]
  refine ⟨?_, fun c hc => ?_⟩
  · cases hnames : o.names with
    | nil => simp
    | cons name names =>
      rw [List.map_cons, text_of_dns (h name (by simp [hnames])), List.intercalate_cons_cons_left]
      rintro c hc
      obtain rfl : 'D' = c := Option.some.inj hc
      decide
  · obtain ⟨piece, hpiece, hlast⟩ := Text.getLast?_intercalate (fun piece hpiece => by
      obtain ⟨name, hname, rfl⟩ := List.mem_map.mp hpiece
      rw [text_of_dns (h name hname)]
      exact List.cons_ne_nil _ _) hc
    obtain ⟨name, hname, rfl⟩ := List.mem_map.mp hpiece
    have hhost := name.isHostName (h name hname)
    have hvalue : name.value.toList ≠ [] := fun hnil =>
      hhost.nonempty (String.toList_injective (hnil.trans rfl))
    rw [AlternativeName.text, List.getLast?_append_of_ne_nil _ (List.cons_ne_nil _ _),
      List.getLast?_cons_of_ne_nil hvalue] at hlast
    exact (hhost.graphic c (List.mem_of_mem_getLast? hlast)).1

/-- An entry of a host, with a blank before it or without, is read as the name. -/
lemma strip_removeDns {name : AlternativeName} (h : name.kind = .dns) (blank : List Char)
    (hblank : blank = [] ∨ blank = [' ']) :
    Text.strip (String.ofList (removeDns (blank ++ name.text))) = name.value := by
  have hhost := name.isHostName h
  have hremoved : removeDns (blank ++ name.text) = blank ++ name.value.toList := by
    have hvalue := removeDns_of_colon fun hcolon => (hhost.plain ':' hcolon).2.1 rfl
    rw [text_of_dns h]
    rcases hblank with rfl | rfl
    · rw [List.nil_append, removeDns, hvalue, List.nil_append]
    · rw [List.singleton_append, removeDns, removeDns, hvalue, List.singleton_append]
      exact nofun
  rw [hremoved]
  refine Eq.trans ?_ (Text.strip_of_stripped (stripped_of_isHostName hhost))
  rcases hblank with rfl | rfl
  · rw [List.nil_append, String.ofList_toList]
  · rw [Text.strip, Text.strip, String.toList_ofList]
    rfl

/-- The pieces of a line of entries of hosts. -/
lemma splitOn_namesText {name : AlternativeName} {names : List AlternativeName}
    (heq : o.names = name :: names) (h : ∀ name ∈ o.names, name.kind = .dns) :
    o.namesText.splitOn ',' =
      name.text :: (names.map AlternativeName.text).map fun l => ' ' :: l := by
  have hplain : ∀ name ∈ o.names, ',' ∉ name.text := by
    intro name hname hcomma
    rw [AlternativeName.text, List.mem_append, List.mem_cons] at hcomma
    rcases hcomma with hlabel | hcolon | hvalue
    · exact (label_plain name.kind _ hlabel).2.1 rfl
    · exact absurd hcolon (by decide)
    · exact ((name.isHostName (h name hname)).plain _ hvalue).1 rfl
  rw [namesText, heq, List.map_cons, Text.intercalate_blank, List.splitOn_intercalate]
  · intro l hl
    rcases List.mem_cons.mp hl with rfl | hbehind
    · exact hplain name (heq ▸ List.mem_cons_self)
    · obtain ⟨text, htext, rfl⟩ := List.mem_map.mp hbehind
      obtain ⟨name', hname', rfl⟩ := List.mem_map.mp htext
      have hcomma := hplain name' (heq ▸ List.mem_cons_of_mem _ hname')
      simpa using hcomma
  · exact List.cons_ne_nil _ _

/-- Entries of hosts alone are read as they are. -/
lemma lineDomains_namesText (hnames : o.names ≠ []) (h : ∀ name ∈ o.names, name.kind = .dns) :
    lineDomains (Text.strip ("    " ++ String.ofList o.namesText)) =
      o.names.map fun name => Text.lower name.value := by
  have hstrip : Text.strip ("    " ++ String.ofList o.namesText) = String.ofList o.namesText := by
    refine Eq.trans ?_ (Text.strip_of_stripped (stripped_namesText h))
    rw [Text.strip, Text.strip, String.toList_append]
    rfl
  obtain ⟨name, names, heq⟩ := List.exists_cons_of_ne_nil hnames
  have hdns := contains_of_dns (heq ▸ List.mem_cons_self) (h name (heq ▸ List.mem_cons_self))
  have hmap : (o.namesText.splitOn ',').map (fun entry =>
      Text.lower (Text.strip (String.ofList (removeDns entry)))) =
        o.names.map fun name => Text.lower name.value := by
    rw [splitOn_namesText heq h, heq, List.map_cons, List.map_cons, List.map_map, List.map_map]
    have hfirst : Text.strip (String.ofList (removeDns name.text)) = name.value :=
      strip_removeDns (h name (heq ▸ List.mem_cons_self)) [] (.inl rfl)
    have hnext : ∀ name' ∈ names,
        Text.strip (String.ofList (removeDns (' ' :: name'.text))) = name'.value :=
      fun name' hname' =>
        strip_removeDns (h name' (heq ▸ List.mem_cons_of_mem _ hname')) [' '] (.inr rfl)
    rw [hfirst]
    refine congrArg _ (List.map_congr_left fun name' hname' => ?_)
    rw [Function.comp_apply, Function.comp_apply, hnext name' hname']
  rw [hstrip, lineDomains, if_pos hdns, String.toList_ofList, hmap, List.filter_eq_self]
  intro domain hdomain
  obtain ⟨name', hname', rfl⟩ := List.mem_map.mp hdomain
  refine decide_eq_true fun hempty => (name'.isHostName (h name' hname')).nonempty ?_
  apply String.toList_injective
  simpa [Text.lower] using congrArg String.toList hempty

end PrintedCertificate

/-! ## Exactness -/

section Exact

variable {strptime : String → Option ℤ} {o : PrintedCertificate}

/-- The dates of a certificate can be read. -/
structure ValidDates (strptime : String → Option ℤ) (o : PrintedCertificate) : Prop where
  notBefore : Text.Stripped o.notBefore ∧ (strptime o.notBefore).isSome
  notAfter : Text.Stripped o.notAfter ∧ (strptime o.notAfter).isSome

/-- The names that are read are those of the hosts. -/
def NamesExact (strptime : String → Option ℤ) (o : PrintedCertificate) : Prop :=
  ∃ info, parseDetails strptime o.details = .ok info ∧ info.domainNames = o.hostNames

/-- The label of the hosts stands in no other line than that of the names, and there only when all
entries are hosts. -/
def LinesTellNames (o : PrintedCertificate) : Prop :=
  (∀ line ∈ o.fieldLines, ¬ Text.Contains line "DNS:") ∧
    ((∀ name ∈ o.names, name.kind = .dns) ∨
      ¬ Text.Contains (String.ofList o.namesText) "DNS:")

lemma dateOf_eq {values : Dict String String} {key value : String} {date : ℤ}
    (hvalue : values.get? key = some value) (hdate : strptime value = some date) :
    dateOf strptime values key = .ok date := by
  rw [dateOf, hvalue, Option.bind_some, hdate]
  rfl

/-- The domains of a certificate with valid dates. -/
lemma parseDetails_eq (h : ValidDates strptime o) : ∃ info,
    parseDetails strptime o.details = .ok info ∧ info.domainNames = Dict.fromKeys o.domains := by
  obtain ⟨before, hbefore⟩ := Option.isSome_iff_exists.mp h.notBefore.2
  obtain ⟨after, hafter⟩ := Option.isSome_iff_exists.mp h.notAfter.2
  obtain ⟨hgetBefore, hgetAfter⟩ :=
    PrintedCertificate.get?_dates (o := o) h.notBefore.1 h.notAfter.1 .empty
  rw [parseDetails, o.splitlines_details, foldl_readLine]
  generalize (o.fieldLines ++ o.extensionLines).foldl
    (fun values line => readValue values (Text.strip line)) .empty = values at *
  dsimp only
  rw [dateOf_eq hgetBefore hbefore, ok_bind, dateOf_eq hgetAfter hafter, ok_bind, List.nil_append]
  refine ⟨_, rfl, ?_⟩
  rw [PrintedCertificate.domains]

/-- No name of a host has punctuation of the lines. -/
lemma plain_of_mem_hostNames {domain : String} (h : domain ∈ o.hostNames) :
    ':' ∉ domain.toList ∧ '=' ∉ domain.toList := by
  obtain ⟨name, hname, rfl⟩ := List.mem_map.mp (Dict.mem_fromKeys.mp h)
  have hhost := name.isHostName (of_decide_eq_true (List.mem_filter.mp hname).2)
  constructor
  · rw [mem_lower (toLower_eq_iff (by decide))]
    exact fun hmem => (hhost.plain _ hmem).2.1 rfl
  · rw [mem_lower (toLower_eq_iff (by decide))]
    exact fun hmem => (hhost.plain _ hmem).2.2 rfl

lemma lineDomains_of_not_contains {line : String} (h : ¬ Text.Contains line "DNS:") :
    lineDomains (Text.strip line) = [] := by
  rw [lineDomains, if_neg]
  exact fun hstrip => h ((Text.infix_strip_iff (by decide)).mp hstrip)

/-- Lines that tell the names are read as they are. -/
lemma domains_eq (h : LinesTellNames o) : o.domains =
    (o.names.filter fun name => name.kind = .dns).map fun name => Text.lower name.value := by
  obtain ⟨hfields, hnames⟩ := h
  have hnone : (o.fieldLines.flatMap fun line => lineDomains (Text.strip line)) = [] :=
    List.flatMap_eq_nil_iff.mpr fun line hline => lineDomains_of_not_contains (hfields line hline)
  rw [PrintedCertificate.domains, List.flatMap_append, hnone, List.nil_append,
    PrintedCertificate.extensionLines]
  by_cases hempty : o.names = []
  · rw [if_pos hempty, hempty]
    rfl
  · have hheader := (PrintedCertificate.header_plain o.critical).2
    rw [if_neg hempty, List.flatMap_cons, List.flatMap_singleton, lineDomains, if_neg hheader,
      List.nil_append]
    rcases hnames with hhosts | hnot
    · rw [PrintedCertificate.lineDomains_namesText hempty hhosts, List.filter_eq_self.mpr]
      exact fun name hname => decide_eq_true (hhosts name hname)
    · have hline : ¬ Text.Contains ("    " ++ String.ofList o.namesText) "DNS:" := by
        intro hdns
        rw [Text.Contains, String.toList_append] at hdns
        have hblank : ' ' ∉ "DNS:".toList := by decide
        rcases Text.infix_append_cons (x := [' ', ' ', ' ']) hblank hdns with h | h
        · exact absurd h (by decide)
        · exact hnot h
      rw [lineDomains_of_not_contains hline, List.filter_eq_nil_iff.mpr]
      · rfl
      · exact fun name hname hdns => hnot (PrintedCertificate.contains_of_dns hname (of_decide_eq_true hdns))

/-- The names of a certificate with valid dates are read exactly when the label of the hosts
stands in no field, and either all entries are hosts or the label does not occur. -/
theorem namesExact_iff (h : ValidDates strptime o) : NamesExact strptime o ↔ LinesTellNames o := by
  obtain ⟨info, hparse, hdomains⟩ := parseDetails_eq h
  have hexact : NamesExact strptime o ↔ Dict.fromKeys o.domains = o.hostNames := by
    rw [← hdomains]
    constructor
    · rintro ⟨info', hparse', hnames⟩
      rw [hparse] at hparse'
      rw [Except.ok.inj hparse']
      exact hnames
    · exact fun hnames => ⟨info, hparse, hnames⟩
  rw [hexact]
  constructor
  · intro hnames
    have hplain : ∀ domain ∈ o.domains, ':' ∉ domain.toList ∧ '=' ∉ domain.toList :=
      fun domain hdomain => plain_of_mem_hostNames (hnames ▸ Dict.mem_fromKeys.mpr hdomain)
    constructor
    · intro line hline hdns
      obtain ⟨domain, hdomain, hequal⟩ := PrintedCertificate.exists_domain_of_field hline hdns
      exact (hplain domain hdomain).2 hequal
    · by_contra hmixed
      push Not at hmixed
      obtain ⟨⟨name, hname, hkind⟩, hdns⟩ := hmixed
      have hline : (String.ofList o.namesText).toList = o.namesText := String.toList_ofList
      rw [Text.Contains, hline] at hdns
      obtain ⟨domain, hdomain, hcolon⟩ :=
        PrintedCertificate.exists_domain_of_entry hname hkind hdns
      exact (hplain domain hdomain).1 hcolon
  · intro htell
    rw [domains_eq htell, PrintedCertificate.hostNames]

end Exact

/-- The dates of the certificates below. -/
def sampleDates (s : String) : Option ℤ :=
  if s = "Jan  1 00:00:00 2025 GMT" then some 1735689600
  else if s = "Jan  1 00:00:00 2030 GMT" then some 1893456000
  else none

/-- An entry of one host. -/
def hostEntry : AlternativeName where
  kind := .dns
  value := "A.example"
  onOneLine := by unfold OnOneLine; decide
  isHostName _ := ⟨by decide, by decide, by decide⟩

/-- An entry of an address. -/
def addressEntry : AlternativeName where
  kind := .ipAddress
  value := "192.0.2.1"
  onOneLine := by unfold OnOneLine; decide
  isHostName := nofun

/-- A certificate with some names. -/
def sampleCertificate (names : List AlternativeName) : PrintedCertificate where
  subject := "CN = A.example"
  issuer := "CN = Test CA"
  serial := "01"
  notBefore := "Jan  1 00:00:00 2025 GMT"
  notAfter := "Jan  1 00:00:00 2030 GMT"
  critical := false
  names := names
  onOneLine := by
    simp only [List.forall_mem_cons, List.not_mem_nil, false_implies, implies_true, and_true]
    unfold OnOneLine
    decide

lemma validDates_sampleCertificate (names : List AlternativeName) :
    ValidDates sampleDates (sampleCertificate names) := by
  have hbefore : Text.Stripped "Jan  1 00:00:00 2025 GMT" := by
    rw [show "Jan  1 00:00:00 2025 GMT" = Text.strip "Jan  1 00:00:00 2025 GMT" by decide]
    exact Text.stripped_strip _
  have hafter : Text.Stripped "Jan  1 00:00:00 2030 GMT" := by
    rw [show "Jan  1 00:00:00 2030 GMT" = Text.strip "Jan  1 00:00:00 2030 GMT" by decide]
    exact Text.stripped_strip _
  exact ⟨⟨hbefore, rfl⟩, hafter, rfl⟩

/-- The name of a host is read in small letters. -/
theorem namesExact_host : NamesExact sampleDates (sampleCertificate [hostEntry]) := by
  refine (namesExact_iff (validDates_sampleCertificate [hostEntry])).mpr ⟨?_, .inl ?_⟩
  · intro line hline hdns
    have hmem : 'D' ∈ line.toList := hdns.subset (by decide)
    simp only [PrintedCertificate.fieldLines, sampleCertificate, List.mem_cons, List.not_mem_nil,
      or_false] at hline
    rcases hline with rfl | rfl | rfl | rfl | rfl
    all_goals rw [String.toList_append] at hmem; revert hmem; decide
  · intro name hname
    obtain rfl := List.mem_singleton.mp hname
    rfl

/-- The entry of an address beside that of a host becomes a domain. -/
theorem address_not_namesExact : ¬ ∀ (strptime : String → Option ℤ) (o : PrintedCertificate),
    ValidDates strptime o → NamesExact strptime o := by
  intro hall
  let o := sampleCertificate [hostEntry, addressEntry]
  have hhost : hostEntry ∈ o.names := List.mem_cons_self
  have haddress : addressEntry ∈ o.names := List.mem_cons_of_mem _ List.mem_cons_self
  have hvalid : ValidDates sampleDates o := validDates_sampleCertificate _
  obtain ⟨info, hparse, hnames⟩ := hall sampleDates o hvalid
  obtain ⟨info', hparse', hdomains⟩ := parseDetails_eq hvalid
  obtain rfl : info' = info := Except.ok.inj (hparse'.symm.trans hparse)
  have hline : (String.ofList o.namesText).toList = o.namesText := String.toList_ofList
  obtain ⟨domain, hdomain, hcolon⟩ := PrintedCertificate.exists_domain_of_entry haddress nofun
    (hline ▸ PrintedCertificate.contains_of_dns hhost rfl)
  have hshown : domain ∈ o.hostNames := by
    rw [← hnames, hdomains]
    exact Dict.mem_fromKeys.mpr hdomain
  exact (plain_of_mem_hostNames hshown).1 hcolon

end Portwyrm.Certificates

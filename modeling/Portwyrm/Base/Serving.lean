import Portwyrm.Base.Directives
import Portwyrm.Base.LongestPrefix

/-!
# What a server block answers

How Nginx answers a request by the directives of the server block that it has chosen: the directives
that rewrite come first, then the location is chosen by the path, exactly, by its start or by an
expression, and the directives of the location say what is done with the request.
-/

namespace Portwyrm.Base.Serving

open Directives LongestPrefix

/-- A request: `path` is what is compared with locations, `uri` what the client has sent. -/
structure HttpRequest where
  scheme : String
  forwardedProto : String
  host : String
  uri : String
  path : List Char
  slash : path.head? = some '/'

/-! ## Variables -/

/-- The values of variables. -/
abbrev Variables := String → String

/-- The variables of a request. -/
def HttpRequest.values (request : HttpRequest) : Variables := fun name =>
  if name = "scheme" then request.scheme
  else if name = "http_x_forwarded_proto" then request.forwardedProto
  else if name = "host" then request.host
  else if name = "request_uri" then request.uri
  else ""

/-- A letter of the name of a variable. -/
def isNameChar (c : Char) : Bool := c.isAlphanum || c = '_'

/-- A text that starts with the name of a variable. -/
def expandName (values : Variables) (l : List Char) : List Char :=
  (values (String.ofList (l.takeWhile isNameChar))).toList ++ l.dropWhile isNameChar

/-- A text, with each variable replaced by its value. -/
def expand (values : Variables) (text : String) : String :=
  match text.toList.splitOn '$' with
  | [] => ""
  | first :: names => String.ofList (first ++ names.flatMap (expandName values))

/-! ## Directives by name -/

/-- The arguments of a directive of a name. -/
def argumentsOf (name : String) : Directive → Option (List String)
  | .simple name' arguments => if name' = name then some arguments else none
  | .block _ _ _ => none

/-- The arguments and the block of a directive of a name. -/
def blockOf (name : String) : Directive → Option (List String × List Directive)
  | .simple _ _ => none
  | .block name' arguments body => if name' = name then some (arguments, body) else none

/-- Directives, with the files that they include. -/
def expanded (files : String → Option String) (directives : List Directive) : List Directive :=
  directives.flatMap fun d =>
    match argumentsOf "include" d with
    | some [path] => ((files path).bind parse).getD [d]
    | _ => [d]

/-! ## Rewriting -/

/-- `(a = b)` or `(a != b)`. -/
def holds (values : Variables) : List String → Bool
  | [a, operator, b] =>
    let left := expand values (String.ofList (a.toList.drop 1))
    let right := expand values (String.ofList b.toList.dropLast)
    if operator = "=" then left = right else if operator = "!=" then left ≠ right else false
  | _ => false

/-- One directive of the rewriting: it assigns a variable, or ends the request with what it
returns. -/
def assignStep (values : Variables) (d : Directive) : Except (List String) Variables :=
  match argumentsOf "return" d with
  | some arguments => .error (arguments.map (expand values))
  | none =>
    match argumentsOf "set" d with
    | some [name, value] =>
      .ok (Function.update values (String.ofList (name.toList.drop 1)) (expand values value))
    | _ => .ok values

/-- One directive, or a condition with a block of them. -/
def rewriteStep (values : Variables) (d : Directive) : Except (List String) Variables :=
  match blockOf "if" d with
  | some (condition, body) =>
    if holds values condition then body.foldlM assignStep values else .ok values
  | none => assignStep values d

/-- The directives that rewrite. -/
def rewrite (values : Variables) (directives : List Directive) :
    Except (List String) Variables :=
  directives.foldlM rewriteStep values

/-! ## Locations -/

/-- How the text of a location is compared with a path. -/
inductive Matching
  | exact
  | start
  | decisive
  | pattern (caseless : Bool)
deriving DecidableEq, Repr

/-- A location. -/
structure Location where
  matching : Matching
  text : List Char
  body : List Directive

/-- The location that a directive states. -/
def location? (d : Directive) : Option Location :=
  match blockOf "location" d with
  | some ([text], body) => some ⟨.start, text.toList, body⟩
  | some ([modifier, text], body) =>
    if modifier = "=" then some ⟨.exact, text.toList, body⟩
    else if modifier = "^~" then some ⟨.decisive, text.toList, body⟩
    else if modifier = "~" then some ⟨.pattern false, text.toList, body⟩
    else if modifier = "~*" then some ⟨.pattern true, text.toList, body⟩
    else none
  | _ => none

/-- A location that is compared with the start of a path. -/
def Location.isStart (l : Location) : Bool := l.matching = .start || l.matching = .decisive

/-- A location whose expression matches a path. -/
def Location.matchesBy (accepts : Bool → List Char → List Char → Bool) (path : List Char)
    (l : Location) : Bool :=
  match l.matching with
  | .pattern caseless => accepts caseless l.text path
  | _ => false

/-- The location of a path: the one with this very path, else the first whose expression matches,
unless the longest start decides, else the longest start. -/
def choose (accepts : Bool → List Char → List Char → Bool) (locations : List Location)
    (path : List Char) : Option Location :=
  match locations.find? fun l => l.matching = .exact && l.text = path with
  | some l => some l
  | none =>
    let best := longest Location.text (locations.filter Location.isStart) path
    if best.any fun l => l.matching = .decisive then best
    else (locations.find? (Location.matchesBy accepts path)).or best

/-! ## Answers -/

/-- What is done with a request in its location. -/
inductive Handler
  | passed (server : String) (path : List Char)
  | files (root : Option String)
deriving DecidableEq

/-- The answer to a request: a status, perhaps with a target, or what is done with the request for a
client that the rules of access admit. -/
inductive Answer
  | returned (arguments : List String)
  | handled (access : List Directive) (handler : Handler)

/-- The directives that say who is admitted. -/
def accessRules (body : List Directive) : List Directive :=
  body.filter fun d =>
    (argumentsOf "auth_basic" d).isSome || (argumentsOf "auth_basic_user_file" d).isSome ||
      (argumentsOf "allow" d).isSome || (argumentsOf "deny" d).isSome ||
      (argumentsOf "satisfy" d).isSome

/-- The scheme and server of a target, and its path. -/
def splitTarget (target : List Char) : List Char × List Char :=
  let rest := (target.dropWhile (· ≠ '/')).drop 2
  (target.takeWhile (· ≠ '/') ++ '/' :: '/' :: rest.takeWhile (· ≠ '/'), rest.dropWhile (· ≠ '/'))

/-- Where `proxy_pass` sends the request of a path: to the path of the target, which stands for the
text of the location unless it comes from variables; to the path itself where the target has
none. -/
def pass (values : Variables) (target : String) (text path : List Char) : Handler :=
  let (server, uri) := splitTarget (expand values target).toList
  if uri = [] then .passed (String.ofList server) path
  else if '$' ∈ target.toList then .passed (String.ofList server) uri
  else .passed (String.ofList server) (uri ++ path.drop text.length)

/-- What the directives of a location do. -/
def handler (values : Variables) (text path : List Char) (body : List Directive) : Handler :=
  match body.findSome? (argumentsOf "proxy_pass") with
  | some [target] => pass values target text path
  | _ => .files ((body.findSome? (argumentsOf "root")).bind List.head?)

/-- The answer of the directives of a location. -/
def answerIn (files : String → Option String) (values : Variables) (path : List Char)
    (l : Location) : Answer :=
  let body := expanded files l.body
  match rewrite values body with
  | .error arguments => .returned arguments
  | .ok values => .handled (accessRules body) (handler values l.text path body)

/-- The answer of a server block, given what its files say and which expressions accept a path. -/
def answer (accepts : Bool → List Char → List Char → Bool) (files : String → Option String)
    (server : List Directive) (request : HttpRequest) : Answer :=
  let server := expanded files server
  match rewrite request.values server with
  | .error arguments => .returned arguments
  | .ok values =>
    match choose accepts (server.filterMap location?) request.path with
    | some l => answerIn files values request.path l
    | none => .handled [] (.files none)

/-- The answer of the server block that a text holds. -/
def answerOf (accepts : Bool → List Char → List Char → Bool) (files : String → Option String)
    (text : String) (request : HttpRequest) : Option Answer :=
  (parse text).bind fun directives =>
    (directives.findSome? (blockOf "server")).map fun server =>
      answer accepts files server.2 request

/-! ## Texts with variables -/

section Expanding

variable {values : Variables} {text : String} {first : List Char} {names : List (List Char)}

lemma expand_eq (htext : text.toList = ['$'].intercalate (first :: names))
    (h : ∀ piece ∈ first :: names, '$' ∉ piece) :
    expand values text = String.ofList (first ++ names.flatMap (expandName values)) := by
  rw [expand, htext, List.splitOn_intercalate '$' h (by simp)]

/-- A text without variables stands for itself. -/
lemma expand_plain (h : '$' ∉ text.toList) : expand values text = text := by
  have htext : text.toList = ['$'].intercalate [text.toList] := by
    rw [List.intercalate_singleton]
  rw [expand_eq htext (by simpa using h), List.flatMap_nil, List.append_nil, String.ofList_toList]

/-- The name of a variable ends where its letters do. -/
lemma expandName_append {name rest : List Char} (hname : ∀ c ∈ name, isNameChar c = true)
    (hrest : ∀ c ∈ rest.head?, isNameChar c = false) :
    expandName values (name ++ rest) = (values (String.ofList name)).toList ++ rest := by
  have htake : rest.takeWhile isNameChar = [] := by
    cases rest with
    | nil => rfl
    | cons c rest => rw [List.takeWhile_cons, hrest c rfl, if_neg (by simp)]
  have hdrop : rest.dropWhile isNameChar = rest := by
    cases rest with
    | nil => rfl
    | cons c rest => rw [List.dropWhile_cons, hrest c rfl, if_neg (by simp)]
  have hall : name.dropWhile isNameChar = [] := List.dropWhile_eq_nil_iff.mpr hname
  rw [expandName, List.takeWhile_append_of_pos hname, htake, List.append_nil,
    List.dropWhile_append, hall, List.isEmpty_nil, if_pos rfl, hdrop]

end Expanding

/-! ## Targets -/

section Targets

variable {values : Variables} {scheme server uri text path : List Char} {target : String}

/-- A target is split behind its server. -/
lemma splitTarget_eq (hscheme : '/' ∉ scheme) (hserver : '/' ∉ server)
    (huri : ∀ c ∈ uri.head?, c = '/') :
    splitTarget (scheme ++ '/' :: '/' :: (server ++ uri)) =
      (scheme ++ '/' :: '/' :: server, uri) := by
  have hpos : ∀ l : List Char, '/' ∉ l → ∀ c ∈ l, decide (c ≠ '/') = true := by
    intro l hl c hc
    refine decide_eq_true ?_
    rintro rfl
    exact hl hc
  have htake : ∀ l rest : List Char, '/' ∉ l → (∀ c ∈ rest.head?, c = '/') →
      (l ++ rest).takeWhile (· ≠ '/') = l ∧ (l ++ rest).dropWhile (· ≠ '/') = rest := by
    intro l rest hl hrest
    have hall : l.dropWhile (· ≠ '/') = [] := List.dropWhile_eq_nil_iff.mpr (hpos l hl)
    rw [List.takeWhile_append_of_pos (hpos l hl), List.dropWhile_append, hall, List.isEmpty_nil,
      if_pos rfl]
    cases rest with
    | nil => simp
    | cons c rest => simp [hrest c rfl]
  obtain ⟨hs, hs'⟩ := htake scheme ('/' :: '/' :: (server ++ uri)) hscheme (by simp)
  obtain ⟨hu, hu'⟩ := htake server uri hserver huri
  rw [splitTarget, hs, hs', List.drop_succ_cons, List.drop_succ_cons, List.drop_zero, hu, hu']

lemma pass_eq (hexpand : (expand values target).toList = scheme ++ '/' :: '/' :: (server ++ uri))
    (hscheme : '/' ∉ scheme) (hserver : '/' ∉ server) (huri : ∀ c ∈ uri.head?, c = '/') :
    pass values target text path =
      if uri = [] then .passed (String.ofList (scheme ++ '/' :: '/' :: server)) path
      else if '$' ∈ target.toList then
        .passed (String.ofList (scheme ++ '/' :: '/' :: server)) uri
      else .passed (String.ofList (scheme ++ '/' :: '/' :: server))
        (uri ++ path.drop text.length) := by
  rw [pass, hexpand, splitTarget_eq hscheme hserver huri]

end Targets

/-! ## Directives that do not rewrite -/

/-- The name of a directive. -/
def nameOf : Directive → String
  | .simple name _ => name
  | .block name _ _ => name

lemma argumentsOf_of_ne {name : String} {d : Directive} (h : nameOf d ≠ name) :
    argumentsOf name d = none := by
  cases d with
  | simple name' arguments => exact if_neg h
  | block name' arguments body => rfl

lemma blockOf_of_ne {name : String} {d : Directive} (h : nameOf d ≠ name) :
    blockOf name d = none := by
  cases d with
  | simple name' arguments => rfl
  | block name' arguments body => exact if_neg h

/-- A directive that has no part in the rewriting. -/
def Neutral (d : Directive) : Prop :=
  argumentsOf "return" d = none ∧ argumentsOf "set" d = none ∧ blockOf "if" d = none

instance (d : Directive) : Decidable (Neutral d) :=
  inferInstanceAs (Decidable (_ ∧ _))

section Rewriting

variable {values : Variables} {files : String → Option String} {d : Directive}
  {directives directives' : List Directive}

lemma rewriteStep_neutral (h : Neutral d) : rewriteStep values d = .ok values := by
  obtain ⟨hreturn, hset, hif⟩ := h
  rw [rewriteStep, hif]
  dsimp only
  rw [assignStep, hreturn]
  dsimp only
  rw [hset]

lemma rewrite_append : rewrite values (directives ++ directives') =
    (rewrite values directives).bind fun values => rewrite values directives' := by
  rw [rewrite, List.foldlM_append]
  rfl

/-- Directives that have no part in the rewriting leave the variables alone. -/
lemma rewrite_neutral (h : ∀ d ∈ directives, Neutral d) :
    rewrite values directives = .ok values := by
  induction directives with
  | nil => rfl
  | cons d rest ih =>
    rw [rewrite, List.foldlM_cons, rewriteStep_neutral (h d List.mem_cons_self)]
    exact ih fun d hd => h d (List.mem_cons_of_mem _ hd)

lemma rewrite_neutral_append (h : ∀ d ∈ directives, Neutral d) :
    rewrite values (directives ++ directives') = rewrite values directives' := by
  rw [rewrite_append, rewrite_neutral h]
  rfl

lemma expanded_append : expanded files (directives ++ directives') =
    expanded files directives ++ expanded files directives' :=
  List.flatMap_append

/-- Without an include, directives stand for themselves. -/
lemma expanded_eq_self (h : ∀ d ∈ directives, argumentsOf "include" d = none) :
    expanded files directives = directives := by
  rw [expanded]
  conv_rhs => rw [← List.flatMap_singleton' directives]
  refine List.flatMap_congr fun d hd => ?_
  rw [h d hd]

/-- A file that is included stands for its directives. -/
lemma expanded_include {path text : String} (hfile : files path = some text)
    (hparse : parse text = some directives) :
    expanded files [.simple "include" [path]] = directives := by
  rw [expanded, List.flatMap_singleton, argumentsOf, if_pos rfl]
  dsimp only
  rw [hfile, Option.bind_some, hparse, Option.getD_some]

lemma accessRules_append : accessRules (directives ++ directives') =
    accessRules directives ++ accessRules directives' :=
  List.filter_append ..

end Rewriting

/-! ## Choosing -/

section Choosing

variable {accepts : Bool → List Char → List Char → Bool} {locations : List Location}
  {path : List Char}

/-- Without an exact location, the longest start decides or the expressions come first. -/
lemma choose_eq (h : ∀ l ∈ locations, l.matching ≠ .exact) :
    choose accepts locations path =
      if (longest Location.text (locations.filter Location.isStart) path).any
          fun l => l.matching = .decisive then
        longest Location.text (locations.filter Location.isStart) path
      else (locations.find? (Location.matchesBy accepts path)).or
        (longest Location.text (locations.filter Location.isStart) path) := by
  have hnone : (locations.find? fun l => l.matching = .exact && l.text = path) = none := by
    rw [List.find?_eq_none]
    intro l hl
    simp [h l hl]
  rw [choose, hnone]

/-- A decisive location before expressions and starts: it is chosen where no start says more, and
otherwise the expressions come before the starts. -/
lemma choose_decisive {first : Location} {patterns starts : List Location}
    (hfirst : first.matching = .decisive)
    (hpatterns : ∀ l ∈ patterns, ∃ caseless, l.matching = .pattern caseless)
    (hstarts : ∀ l ∈ starts, l.matching = .start)
    (hkeys : ((first :: starts).map Location.text).Nodup) :
    choose accepts (first :: (patterns ++ starts)) path =
      if first.text <+: path ∧
          ∀ l ∈ longest Location.text starts path, l.text.length < first.text.length then some first
      else (patterns.find? (Location.matchesBy accepts path)).or
        (longest Location.text starts path) := by
  have hexact : ∀ l ∈ first :: (patterns ++ starts), l.matching ≠ .exact := by
    intro l hl hexact
    rcases List.mem_cons.mp hl with rfl | hl
    · rw [hfirst] at hexact
      cases hexact
    · rcases List.mem_append.mp hl with hl | hl
      · obtain ⟨caseless, hpattern⟩ := hpatterns l hl
        rw [hpattern] at hexact
        cases hexact
      · rw [hstarts l hl] at hexact
        cases hexact
  have hfilter : (first :: (patterns ++ starts)).filter Location.isStart = first :: starts := by
    have hnone : patterns.filter Location.isStart = [] := by
      refine List.filter_eq_nil_iff.mpr fun l hl => ?_
      obtain ⟨caseless, hpattern⟩ := hpatterns l hl
      simp [Location.isStart, hpattern]
    have hall : starts.filter Location.isStart = starts :=
      List.filter_eq_self.mpr fun l hl => by simp [Location.isStart, hstarts l hl]
    rw [List.filter_cons_of_pos (by simp [Location.isStart, hfirst]), List.filter_append, hnone,
      hall, List.nil_append]
  have hfind : (first :: (patterns ++ starts)).find? (Location.matchesBy accepts path) =
      patterns.find? (Location.matchesBy accepts path) := by
    have hnone : starts.find? (Location.matchesBy accepts path) = none := by
      rw [List.find?_eq_none]
      intro l hl
      simp [Location.matchesBy, hstarts l hl]
    rw [List.find?_cons_of_neg (by simp [Location.matchesBy, hfirst]), List.find?_append, hnone,
      Option.or_none]
  rw [choose_eq hexact, hfilter, hfind, longest_cons hkeys]
  split
  · simp [hfirst]
  · have hdecisive : (longest Location.text starts path).any
        (fun l => l.matching = .decisive) = false := by
      rcases hlongest : longest Location.text starts path with _ | l
      · rfl
      · simp [hstarts l (mem_of_longest hlongest).1]
    rw [hdecisive, if_neg (by simp)]

end Choosing

end Portwyrm.Base.Serving

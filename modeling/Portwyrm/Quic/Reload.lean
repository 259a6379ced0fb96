import Portwyrm.Quic.Router

/-!
# Reading the route file again

`QuicRouter.reload` on documents of every shape.  The body of the `try` raises what the shape of the
document makes it raise, and the handler catches `OSError`, `ValueError` and `TypeError` only: on
which documents an exception gets past it, and what is installed where none does.
-/

namespace Portwyrm.Quic

open Base

/-! ## Folds whose rounds raise -/

section Folds

variable {ε σ α β : Type}

/-- The exception that ends a call. -/
def raised : Except ε β → Option ε
  | .ok _ => none
  | .error e => some e

lemma raised_eq_none_iff {x : Except ε β} : raised x = none ↔ ∃ b, x = .ok b := by
  cases x <;> simp [raised]

lemma except_bind_eq_ok_iff {x : Except ε α} {f : α → Except ε β} {b : β} :
    x >>= f = .ok b ↔ ∃ a, x = .ok a ∧ f a = .ok b := by
  cases x <;> simp [bind, Except.bind]

/-- A fold is ended by the first round that raises, where no round looks at the state for that. -/
lemma raised_foldlM {f : σ → α → Except ε σ} (h : ∀ s s' a, raised (f s a) = raised (f s' a))
    (l : List α) (s : σ) : raised (l.foldlM f s) = l.findSome? fun a => raised (f s a) := by
  induction l generalizing s with
  | nil => rfl
  | cons a l ih =>
    rw [List.foldlM_cons, List.findSome?_cons]
    cases hround : f s a with
    | error e => rfl
    | ok t =>
      refine (ih t).trans ?_
      simp only [h t s]
      rfl

/-- A fold comes to its end when every round does, and then it has gone through all of them. -/
lemma foldlM_eq_ok_iff {f : σ → α → Except ε σ} {g : α → Option β} (step : σ → β → σ)
    (h : ∀ s a s', f s a = .ok s' ↔ ∃ b, g a = some b ∧ s' = step s b) {l : List α} {s s' : σ} :
    l.foldlM f s = .ok s' ↔ ∃ bs, l.mapM g = some bs ∧ s' = bs.foldl step s := by
  induction l generalizing s with
  | nil => simp [pure, Except.pure, eq_comm]
  | cons a l ih =>
    rw [List.foldlM_cons, except_bind_eq_ok_iff]
    simp only [h, ih, List.mapM_cons, Option.bind_eq_bind, Option.bind_eq_some_iff, Option.pure_def,
      Option.some.injEq]
    constructor
    · rintro ⟨_, ⟨b, hb, rfl⟩, bs, hbs, rfl⟩
      exact ⟨b :: bs, ⟨b, hb, bs, hbs, rfl⟩, rfl⟩
    · rintro ⟨_, ⟨b, hb, bs, hbs, rfl⟩, rfl⟩
      exact ⟨_, ⟨b, hb, rfl⟩, bs, hbs, rfl⟩

end Folds

/-! ## Documents -/

/-- A value that `json.loads` returns. -/
inductive Document
  | null
  | bool (b : Bool)
  | int (n : ℤ)
  | float (literal : String)
  | text (s : String)
  | list (items : List Document)
  | object (members : List (String × Document))

/-- The kinds of exceptions that the body of `reload` raises. -/
inductive ReloadError
  | osError
  | valueError
  | typeError
  | attributeError
  | recursionError
deriving DecidableEq

/-- `except (OSError, ValueError, TypeError)`. -/
def ReloadError.isCaught : ReloadError → Bool
  | .osError | .valueError | .typeError => true
  | .attributeError | .recursionError => false

namespace Document

/-- `for x in value`: the items of a list, the characters of a text, the keys of an object. -/
def elements : Document → Except ReloadError (List Document)
  | .list items => pure items
  | .text s => pure (s.toList.map fun c => .text (String.singleton c))
  | .object members => pure ((Dict.ofList members).keys.map .text)
  | _ => throw .typeError

/-- `value.get(key, [])`. -/
def get (key : String) : Document → Except ReloadError Document
  | .object members => pure (((Dict.ofList members).get? key).getD (.list []))
  | _ => throw .attributeError

/-- What `for x in value.get(key, [])` goes through. -/
def each (key : String) (value : Document) : Except ReloadError (List Document) := do
  (← value.get key).elements

/-- `value.casefold()`. -/
def casefold : Document → Except ReloadError String
  | .text s => pure (Text.casefold s)
  | _ => throw .attributeError

end Document

/-- A `Route` with the values it has been given, which are not checked. -/
structure RouteObject where
  serverName : Document
  target : Document
  targetPort : Document
  alpn : Document := .text "h3"
  idleTimeoutSeconds : Document := .int 1800

/-- `Route(**raw)`. -/
def RouteObject.ofRaw : Document → Except ReloadError RouteObject
  | .object members =>
    let given := Dict.ofList members
    if ∀ name ∈ given.keys, name ∈ Route.fieldNames then
      match given.get? "server_name", given.get? "target", given.get? "target_port" with
      | some serverName, some target, some targetPort => pure {
          serverName, target, targetPort
          alpn := (given.get? "alpn").getD (.text "h3")
          idleTimeoutSeconds := (given.get? "idle_timeout_seconds").getD (.int 1800) }
      | _, _, _ => throw .typeError
    else throw .typeError
  | _ => throw .typeError

/-! ## The reading -/

/-- The routes that the router holds, and the time of the file that they are from. -/
structure Loaded where
  routes : Dict String RouteObject
  configMtime : ℚ

/-- The body of the inner loop of `reload`. -/
def addRoute (routes : Dict String RouteObject) (raw : Document) :
    Except ReloadError (Dict String RouteObject) := do
  let route ← RouteObject.ofRaw raw
  let name ← route.serverName.casefold
  pure (routes.set (rstripDots name) route)

/-- The body of the outer loop of `reload`. -/
def addListener (routes : Dict String RouteObject) (listener : Document) :
    Except ReloadError (Dict String RouteObject) := do
  let raws ← listener.each "routes"
  raws.foldlM addRoute routes

/-- The part of `reload` that reads a document. -/
def readRoutes (document : Document) : Except ReloadError (Dict String RouteObject) := do
  let listeners ← document.each "listeners"
  listeners.foldlM addListener .empty

section Reload

/- `json.loads`: what it makes of a text, which can be a `ValueError`, or a `RecursionError` where
lists and objects are nested too deeply. -/
variable (loads : String → Except ReloadError Document)

/-- The body of the `try` of `reload`. -/
def tryReload (file : Option ConfigFile) (s : Loaded) : Except ReloadError Loaded :=
  match file with
  | none => throw .osError
  | some file =>
    if file.mtime = s.configMtime then pure s
    else
      match file.text with
      -- the file cannot be opened, or it is not UTF-8
      | none => throw .valueError
      | some text => do
        let routes ← readRoutes (← loads text)
        pure ⟨routes, file.mtime⟩

/-- `reload`: the state behind the call, and the exception that leaves it. -/
def reload (file : Option ConfigFile) (s : Loaded) : Loaded × Option ReloadError :=
  match tryReload loads file s with
  | .ok s' => (s', none)
  | .error e => (s, if e.isCaught = true then none else some e)

end Reload

/-! ## Documents without fractions -/

mutual

/-- The value of a document that holds no fractions. -/
def Document.ofJson : Json → Document
  | .null => .null
  | .bool b => .bool b
  | .number n => .int n
  | .text s => .text s
  | .list items => .list (Document.ofItems items)
  | .object members => .object (Document.ofMembers members)

/-- The values of its items. -/
def Document.ofItems : List Json → List Document
  | [] => []
  | item :: items => Document.ofJson item :: Document.ofItems items

/-- The values of its members. -/
def Document.ofMembers : List (String × Json) → List (String × Document)
  | [] => []
  | (key, value) :: members => (key, Document.ofJson value) :: Document.ofMembers members

end

/-- `json.loads` on texts without fractions. -/
def jsonDocument (text : String) : Except ReloadError Document :=
  match Json.loads text with
  | some json => pure (Document.ofJson json)
  | none => throw .valueError

/-! ## What is installed -/

/-- The route of a raw value, under the key that it is stored at. -/
def rawEntry (raw : Document) : Option (String × RouteObject) :=
  match RouteObject.ofRaw raw with
  | .ok route =>
    match route.serverName with
    | .text name => some (rstripDots (Text.casefold name), route)
    | _ => none
  | .error _ => none

/-- The routes of a listener, in order. -/
def listenerEntries (listener : Document) : Option (List (String × RouteObject)) :=
  match listener.each "routes" with
  | .ok raws => raws.mapM rawEntry
  | .error _ => none

/-- The routes of a document, listener by listener. -/
def documentEntries (document : Document) : Option (List (String × RouteObject)) :=
  match document.each "listeners" with
  | .ok listeners => (listeners.mapM listenerEntries).map List.flatten
  | .error _ => none

lemma casefold_eq_ok {value : Document} {name : String} (h : value.casefold = .ok name) :
    ∃ s, value = .text s ∧ Text.casefold s = name := by
  cases value with
  | text s => exact ⟨s, rfl, Except.ok.inj h⟩
  | _ => cases h

lemma addRoute_eq_ok_iff {routes routes' : Dict String RouteObject} {raw : Document} :
    addRoute routes raw = .ok routes' ↔
      ∃ entry, rawEntry raw = some entry ∧ routes' = routes.set entry.1 entry.2 := by
  unfold addRoute rawEntry
  cases RouteObject.ofRaw raw with
  | error e => exact iff_of_false nofun nofun
  | ok route =>
    obtain ⟨serverName, target, targetPort, alpn, idleTimeoutSeconds⟩ := route
    cases serverName with
    | text name =>
      constructor
      · intro h
        exact ⟨_, rfl, (Except.ok.inj h).symm⟩
      · rintro ⟨entry, hentry, rfl⟩
        rw [← Option.some.inj hentry]
        rfl
    | _ => exact iff_of_false nofun nofun

lemma addListener_eq_ok_iff {routes routes' : Dict String RouteObject} {listener : Document} :
    addListener routes listener = .ok routes' ↔ ∃ entries, listenerEntries listener = some entries ∧
      routes' = entries.foldl (fun d e => d.set e.1 e.2) routes := by
  unfold addListener listenerEntries
  cases listener.each "routes" with
  | error e => exact iff_of_false nofun nofun
  | ok raws =>
    exact foldlM_eq_ok_iff (g := rawEntry)
      (fun (d : Dict String RouteObject) e => d.set e.1 e.2) fun _ _ _ => addRoute_eq_ok_iff

/-- What is read are the routes of the document: of a name the last one. -/
lemma readRoutes_eq_ok_iff {document : Document} {routes : Dict String RouteObject} :
    readRoutes document = .ok routes ↔
      ∃ entries, documentEntries document = some entries ∧ routes = Dict.ofList entries := by
  unfold readRoutes documentEntries
  cases document.each "listeners" with
  | error e => exact iff_of_false nofun nofun
  | ok listeners =>
    refine (foldlM_eq_ok_iff (g := listenerEntries)
      (fun (d : Dict String RouteObject) l => l.foldl (fun d e => d.set e.1 e.2) d)
      fun _ _ _ => addListener_eq_ok_iff).trans ?_
    simp only [Option.map_eq_some_iff, Dict.ofList]
    constructor
    · rintro ⟨lists, hlists, rfl⟩
      exact ⟨_, ⟨lists, hlists, rfl⟩, List.foldl_flatten.symm⟩
    · rintro ⟨_, ⟨lists, hlists, rfl⟩, rfl⟩
      exact ⟨lists, hlists, List.foldl_flatten⟩

/-! ## Where an exception gets past the handler -/

/-- A raw value from which a route is added. -/
def IsAdded (raw : Document) : Prop :=
  ∃ route name, RouteObject.ofRaw raw = .ok route ∧ route.serverName = .text name

/-- A raw value that makes a route has a text for its name. -/
def IsNamed (raw : Document) : Prop :=
  ∀ route, RouteObject.ofRaw raw = .ok route → ∃ name, route.serverName = .text name

/-- A listener whose routes are all added. -/
def IsRead (listener : Document) : Prop :=
  ∃ raws, listener.each "routes" = .ok raws ∧ ∀ raw ∈ raws, IsAdded raw

/-- A value that has members. -/
def IsObject (value : Document) : Prop := ∃ members, value = .object members

/-- A listener is an object, and its routes are named up to the first value that is none. -/
def WellFormedListener (listener : Document) : Prop :=
  IsObject listener ∧ ∀ before raw after, listener.each "routes" = .ok (before ++ raw :: after) →
    (∀ r ∈ before, IsAdded r) → IsNamed raw

/-- A document is an object, and its listeners are well formed up to the first one that is not
read. -/
def WellFormedDocument (document : Document) : Prop :=
  IsObject document ∧ ∀ before listener after,
    document.each "listeners" = .ok (before ++ listener :: after) →
    (∀ l ∈ before, IsRead l) → WellFormedListener listener

/-- Whatever ends a call, it is caught. -/
def AllCaught {β : Type} (x : Except ReloadError β) : Prop :=
  ∀ e, raised x = some e → e.isCaught = true

lemma allCaught_ok {β : Type} (b : β) : AllCaught (.ok b) := nofun

lemma allCaught_error_iff {β : Type} {e : ReloadError} :
    AllCaught (.error e : Except ReloadError β) ↔ e.isCaught = true :=
  ⟨fun h => h e rfl, fun h _ he => Option.some.inj he ▸ h⟩

/-- The exceptions of a fold are caught when those of the first round that raises are. -/
lemma allCaught_foldlM_iff {α σ : Type} {f : σ → α → Except ReloadError σ}
    (h : ∀ s s' a, raised (f s a) = raised (f s' a)) (l : List α) (s : σ) :
    AllCaught (l.foldlM f s) ↔ ∀ before a after, l = before ++ a :: after →
      (∀ x ∈ before, ∃ s', f s x = .ok s') → AllCaught (f s a) := by
  simp only [AllCaught, raised_foldlM h, List.findSome?_eq_some_iff, raised_eq_none_iff]
  constructor
  · intro hcaught before a after hl hbefore e he
    exact hcaught e ⟨before, a, after, hl, he, hbefore⟩
  · rintro hcaught e ⟨before, a, after, hl, he, hbefore⟩
    exact hcaught before a after hl hbefore e he

lemma allCaught_ofRaw (raw : Document) : AllCaught (RouteObject.ofRaw raw) := by
  unfold RouteObject.ofRaw
  split
  · dsimp only
    split
    · split
      · exact allCaught_ok _
      · exact allCaught_error_iff.mpr rfl
    · exact allCaught_error_iff.mpr rfl
  · exact allCaught_error_iff.mpr rfl

lemma allCaught_elements (value : Document) : AllCaught value.elements := by
  cases value <;> first | exact allCaught_ok _ | exact allCaught_error_iff.mpr rfl

/-- The members of an object are asked for, and what they are gone through raises is caught. -/
lemma allCaught_each_iff {key : String} {value : Document} :
    AllCaught (value.each key) ↔ IsObject value := by
  cases value with
  | object members => exact iff_of_true (allCaught_elements _) ⟨members, rfl⟩
  | _ => exact iff_of_false (fun h => nomatch allCaught_error_iff.mp h) nofun

lemma allCaught_casefold_iff {value : Document} :
    AllCaught value.casefold ↔ ∃ name, value = .text name := by
  cases value with
  | text s => exact iff_of_true (allCaught_ok _) ⟨s, rfl⟩
  | _ => exact iff_of_false (fun h => nomatch allCaught_error_iff.mp h) nofun

lemma allCaught_bind_iff {β γ : Type} {x : Except ReloadError β} {f : β → Except ReloadError γ} :
    AllCaught (x >>= f) ↔ AllCaught x ∧ ∀ b, x = .ok b → AllCaught (f b) := by
  cases x with
  | ok b => exact ⟨fun h => ⟨allCaught_ok b, fun _ hb => Except.ok.inj hb ▸ h⟩, fun h => h.2 b rfl⟩
  | error e => exact ⟨fun h => ⟨h, nofun⟩, fun h => h.1⟩

lemma addRoute_eq (routes : Dict String RouteObject) (raw : Document) :
    addRoute routes raw = RouteObject.ofRaw raw >>= fun route => route.serverName.casefold >>=
      fun name => pure (routes.set (rstripDots name) route) := rfl

lemma raised_addRoute (routes routes' : Dict String RouteObject) (raw : Document) :
    raised (addRoute routes raw) = raised (addRoute routes' raw) := by
  rw [addRoute_eq, addRoute_eq]
  cases RouteObject.ofRaw raw with
  | error e => rfl
  | ok route =>
    change raised (route.serverName.casefold >>= _) = raised (route.serverName.casefold >>= _)
    cases route.serverName.casefold <;> rfl

lemma allCaught_addRoute_iff {routes : Dict String RouteObject} {raw : Document} :
    AllCaught (addRoute routes raw) ↔ IsNamed raw := by
  rw [addRoute_eq, allCaught_bind_iff, and_iff_right (allCaught_ofRaw raw)]
  refine forall₂_congr fun route hroute => ?_
  rw [allCaught_bind_iff, allCaught_casefold_iff]
  exact and_iff_left fun _ _ => allCaught_ok _

lemma addRoute_ok_iff {routes : Dict String RouteObject} {raw : Document} :
    (∃ routes', addRoute routes raw = .ok routes') ↔ IsAdded raw := by
  constructor
  · rintro ⟨routes', h⟩
    obtain ⟨route, hroute, h⟩ := except_bind_eq_ok_iff.mp h
    obtain ⟨name, hname, -⟩ := except_bind_eq_ok_iff.mp h
    obtain ⟨s, hs, -⟩ := casefold_eq_ok hname
    exact ⟨route, s, hroute, hs⟩
  · rintro ⟨route, name, hroute, hname⟩
    refine ⟨routes.set (rstripDots (Text.casefold name)) route, ?_⟩
    rw [addRoute_eq, hroute]
    change route.serverName.casefold >>= _ = _
    rw [hname]
    rfl

lemma raised_addListener (routes routes' : Dict String RouteObject) (listener : Document) :
    raised (addListener routes listener) = raised (addListener routes' listener) := by
  unfold addListener
  cases listener.each "routes" with
  | error e => rfl
  | ok raws =>
    change raised (raws.foldlM addRoute routes) = raised (raws.foldlM addRoute routes')
    rw [raised_foldlM raised_addRoute, raised_foldlM raised_addRoute]
    simp only [raised_addRoute routes routes']

lemma allCaught_addListener_iff {routes : Dict String RouteObject} {listener : Document} :
    AllCaught (addListener routes listener) ↔ WellFormedListener listener := by
  unfold addListener WellFormedListener
  rw [allCaught_bind_iff, allCaught_each_iff]
  refine and_congr_right fun _ => ?_
  simp only [allCaught_foldlM_iff raised_addRoute, allCaught_addRoute_iff, addRoute_ok_iff]
  constructor
  · intro h before raw after hraws hbefore
    exact h _ hraws before raw after rfl hbefore
  · rintro h _ hraws before raw after rfl hbefore
    exact h before raw after hraws hbefore

lemma addListener_ok_iff {routes : Dict String RouteObject} {listener : Document} :
    (∃ routes', addListener routes listener = .ok routes') ↔ IsRead listener := by
  have hfold : ∀ raws : List Document,
      (∃ routes', raws.foldlM addRoute routes = .ok routes') ↔ ∀ raw ∈ raws, IsAdded raw := by
    intro raws
    rw [← raised_eq_none_iff, raised_foldlM raised_addRoute, List.findSome?_eq_none_iff]
    simp only [raised_eq_none_iff, addRoute_ok_iff]
  unfold addListener IsRead
  simp only [except_bind_eq_ok_iff, ← hfold]
  constructor
  · rintro ⟨routes', raws, hraws, h⟩
    exact ⟨raws, hraws, routes', h⟩
  · rintro ⟨raws, hraws, routes', h⟩
    exact ⟨routes', raws, hraws, h⟩

/-- What the reading of a document raises is caught when the document is well formed. -/
lemma allCaught_readRoutes_iff {document : Document} :
    AllCaught (readRoutes document) ↔ WellFormedDocument document := by
  unfold readRoutes WellFormedDocument
  rw [allCaught_bind_iff, allCaught_each_iff]
  refine and_congr_right fun _ => ?_
  simp only [allCaught_foldlM_iff raised_addListener, allCaught_addListener_iff, addListener_ok_iff]
  constructor
  · intro h before listener after hlisteners hbefore
    exact h _ hlisteners before listener after rfl hbefore
  · rintro h _ hlisteners before listener after rfl hbefore
    exact h before listener after hlisteners hbefore

section Reload

variable (loads : String → Except ReloadError Document)

/-- A reading of the file is total and atomic: no exception leaves it, and it either installs the
routes of the document with the time of the file, or leaves both as they are. -/
def IsAtomic (file : Option ConfigFile) (s : Loaded) : Prop :=
  (reload loads file s).2 = none ∧
    ((reload loads file s).1 = s ∨
      ∃ f text document entries, file = some f ∧ f.text = some text ∧ loads text = .ok document ∧
        documentEntries document = some entries ∧
        (reload loads file s).1 = ⟨Dict.ofList entries, f.mtime⟩)

/-- A file that is read again holds no text that is nested too deeply, and no document that is not
well formed. -/
def IsReadable (file : Option ConfigFile) (s : Loaded) : Prop :=
  ∀ f text, file = some f → f.mtime ≠ s.configMtime → f.text = some text →
    AllCaught (loads text) ∧ ∀ document, loads text = .ok document → WellFormedDocument document

variable {loads} {file : Option ConfigFile} {s : Loaded}

lemma allCaught_tryReload_iff : AllCaught (tryReload loads file s) ↔ IsReadable loads file s := by
  cases file with
  | none => exact iff_of_true (allCaught_error_iff.mpr rfl) nofun
  | some f =>
    rw [tryReload]
    split
    · rename_i hmtime
      refine iff_of_true (allCaught_ok s) fun f' _ hf hne => ?_
      obtain rfl := Option.some.inj hf
      exact absurd hmtime hne
    · rename_i hmtime
      split
      · rename_i htext
        refine iff_of_true (allCaught_error_iff.mpr rfl) fun f' text hf _ hsome => ?_
        obtain rfl := Option.some.inj hf
        exact nomatch htext.symm.trans hsome
      · rename_i text htext
        rw [allCaught_bind_iff]
        simp only [allCaught_bind_iff, allCaught_readRoutes_iff]
        constructor
        · rintro h f' text' hf - hsome
          obtain rfl := Option.some.inj hf
          obtain rfl := Option.some.inj (htext.symm.trans hsome)
          exact ⟨h.1, fun document hdocument => (h.2 document hdocument).1⟩
        · intro h
          obtain ⟨hloads, hdocument⟩ := h f text rfl hmtime htext
          exact ⟨hloads, fun document hread => ⟨hdocument document hread, fun _ _ => allCaught_ok _⟩⟩

/-- What is installed are the routes of the document. -/
lemma tryReload_eq_ok {s' : Loaded} (h : tryReload loads file s = .ok s') :
    s' = s ∨ ∃ f text document entries, file = some f ∧ f.text = some text ∧
      loads text = .ok document ∧ documentEntries document = some entries ∧
      s' = ⟨Dict.ofList entries, f.mtime⟩ := by
  cases file with
  | none => cases h
  | some f =>
    rw [tryReload] at h
    split at h
    · exact .inl (Except.ok.inj h).symm
    · split at h
      · cases h
      · rename_i text htext
        obtain ⟨document, hdocument, h⟩ := except_bind_eq_ok_iff.mp h
        obtain ⟨routes, hroutes, h⟩ := except_bind_eq_ok_iff.mp h
        obtain ⟨entries, hentries, rfl⟩ := readRoutes_eq_ok_iff.mp hroutes
        exact .inr ⟨f, text, document, entries, rfl, htext, hdocument, hentries,
          (Except.ok.inj h).symm⟩

/-- A reading of the route file is total and atomic if and only if the file is readable: its document
and its listeners are objects and its routes have texts for names, up to the first value that raises
an exception that is caught. -/
theorem reload_isAtomic_iff (loads : String → Except ReloadError Document)
    (file : Option ConfigFile) (s : Loaded) : IsAtomic loads file s ↔ IsReadable loads file s := by
  rw [← allCaught_tryReload_iff, IsAtomic, reload]
  cases htry : tryReload loads file s with
  | ok s' => exact iff_of_true ⟨rfl, tryReload_eq_ok htry⟩ (allCaught_ok s')
  | error e =>
    rw [allCaught_error_iff]
    dsimp only
    constructor
    · rintro ⟨h, -⟩
      by_contra hcaught
      rw [if_neg hcaught] at h
      cases h
    · intro hcaught
      exact ⟨if_pos hcaught, .inl rfl⟩

end Reload

/-- A list for a document ends the reloader: its `AttributeError` is not caught. -/
theorem reload_list_not_isAtomic :
    ¬ IsAtomic jsonDocument (some ⟨1, some "[]"⟩) ⟨.empty, -1⟩ := by
  rintro ⟨h, -⟩
  exact absurd h (by decide)

/-! ## The routes of the typed router -/

lemma ofItems_eq (items : List Json) : Document.ofItems items = items.map Document.ofJson := by
  induction items with
  | nil => rfl
  | cons item items ih => rw [Document.ofItems, ih, List.map_cons]

lemma get?_ofMembers (members : List (String × Json)) (key : String) :
    (Dict.ofList (Document.ofMembers members)).get? key =
      (Json.get? members key).map Document.ofJson := by
  rw [Dict.get?_ofList, Json.get?]
  have hmap : Document.ofMembers members = members.map fun m => (m.1, Document.ofJson m.2) := by
    induction members with
    | nil => rfl
    | cons m members ih => rw [Document.ofMembers, ih, List.map_cons]
  rw [hmap, ← List.map_reverse]
  induction members.reverse with
  | nil => rfl
  | cons m members ih =>
    rw [List.map_cons, List.lookup_cons, List.lookup_cons]
    split
    · rfl
    · exact ih

/-- A typed route among the routes that are not checked. -/
def Route.object (route : Route) : RouteObject where
  serverName := .text route.serverName
  target := .text route.target
  targetPort := .int route.targetPort
  alpn := .text route.alpn
  idleTimeoutSeconds := .int route.idleTimeoutSeconds

lemma member_eq_some {β : Type} {read : Json → Option β} {fallback : Option β}
    {members : List (String × Json)} {key : String} {b : β}
    (h : member read fallback members key = some b) :
    (∃ v, Json.get? members key = some v ∧ read v = some b) ∨
      Json.get? members key = none ∧ fallback = some b := by
  unfold member at h
  split at h
  · rename_i v hv
    exact .inl ⟨v, hv, h⟩
  · rename_i hv
    exact .inr ⟨hv, h⟩

/-- A member that is read as a value of a type, with a default of the same type. -/
lemma getD_of_member {β : Type} {read : Json → Option β} (write : β → Document) {b fallback : β}
    (hread : ∀ v b, read v = some b → Document.ofJson v = write b) {members : List (String × Json)}
    {key : String} (h : member read (some fallback) members key = some b) :
    ((Dict.ofList (Document.ofMembers members)).get? key).getD (write fallback) = write b := by
  rw [get?_ofMembers]
  obtain ⟨v, hv, hb⟩ | ⟨hv, hb⟩ := member_eq_some h
  · rw [hv, Option.map_some, Option.getD_some, hread v b hb]
  · rw [hv, Option.map_none, Option.getD_none, Option.some.inj hb]

/-- A member that has to be there. -/
lemma get?_of_member {β : Type} {read : Json → Option β} (write : β → Document) {b : β}
    (hread : ∀ v b, read v = some b → Document.ofJson v = write b) {members : List (String × Json)}
    {key : String} (h : member read none members key = some b) :
    (Dict.ofList (Document.ofMembers members)).get? key = some (write b) := by
  rw [get?_ofMembers]
  obtain ⟨v, hv, hb⟩ | ⟨-, hb⟩ := member_eq_some h
  · rw [hv, Option.map_some, hread v b hb]
  · cases hb

lemma ofJson_of_asText {v : Json} {s : String} (h : asText v = some s) :
    Document.ofJson v = .text s := by
  cases v <;> simp_all [asText, Document.ofJson]

lemma ofJson_of_asNat {v : Json} {n : ℕ} (h : asNat v = some n) : Document.ofJson v = .int n := by
  unfold asNat at h
  split at h
  · rw [← Option.some.inj h, Document.ofJson]
    rfl
  · cases h

lemma ofRaw_of_routeOf {raw : Json} {route : Route} (h : routeOf raw = some route) :
    RouteObject.ofRaw (Document.ofJson raw) = .ok route.object := by
  cases raw with
  | object members =>
    simp only [routeOf] at h
    split at h
    · rename_i hnames
      simp only [Option.bind_eq_bind, Option.bind_eq_some_iff] at h
      obtain ⟨serverName, hname, target, htarget, port, hport, alpn, halpn, timeout, htimeout, h⟩ := h
      obtain rfl := Option.some.inj h
      have hgiven : ∀ name ∈ (Dict.ofList (Document.ofMembers members)).keys,
          name ∈ Route.fieldNames := by
        intro name hmem
        obtain ⟨value, hvalue⟩ := Dict.mem_keys_iff.mp hmem
        rw [get?_ofMembers, Option.map_eq_some_iff] at hvalue
        obtain ⟨v, hv, -⟩ := hvalue
        obtain ⟨before, after, hmembers, -⟩ := List.lookup_eq_some_iff.mp hv
        have hm : (name, v) ∈ members := List.mem_reverse.mp (by rw [hmembers]; simp)
        exact of_decide_eq_true (List.all_eq_true.mp hnames (name, v) hm)
      rw [Document.ofJson, RouteObject.ofRaw]
      rw [if_pos hgiven, get?_of_member .text (fun _ _ => ofJson_of_asText) hname,
        get?_of_member .text (fun _ _ => ofJson_of_asText) htarget,
        get?_of_member (fun n : ℕ => .int n) (fun _ _ => ofJson_of_asNat) hport]
      dsimp only
      rw [getD_of_member .text (fun _ _ => ofJson_of_asText) halpn,
        show Document.int 1800 = (fun n : ℕ => Document.int n) 1800 from rfl,
        getD_of_member (fun n : ℕ => .int n) (fun _ _ => ofJson_of_asNat) htimeout]
      rfl
    · cases h
  | _ => cases h

lemma ofJson_of_asList {v : Json} {items : List Json} (h : asList v = some items) :
    Document.ofJson v = .list (items.map Document.ofJson) := by
  cases v with
  | list l =>
    obtain rfl := Option.some.inj h
    rw [Document.ofJson, ofItems_eq]
  | _ => cases h

lemma each_of_member {members : List (String × Json)} {key : String} {items : List Json}
    (h : member asList (some []) members key = some items) :
    (Document.ofJson (.object members)).each key = .ok (items.map Document.ofJson) := by
  have hvalue := getD_of_member (fun items => .list (items.map Document.ofJson))
    (fun _ _ => ofJson_of_asList) h
  rw [Document.ofJson]
  exact congrArg Document.elements hvalue

/-- A list whose items are read one by one, before and after. -/
lemma mapM_ofJson {β γ : Type} {read : Json → Option β} {read' : Document → Option γ} {f : β → γ}
    (h : ∀ v b, read v = some b → read' (Document.ofJson v) = some (f b)) {items : List Json}
    {bs : List β} (hitems : items.mapM read = some bs) :
    (items.map Document.ofJson).mapM read' = some (bs.map f) := by
  rw [Numeral.mapM_eq_some_iff] at hitems ⊢
  rw [List.forall₂_map_left_iff, List.forall₂_map_right_iff]
  exact hitems.imp h

lemma listenerEntries_of_listenerRoutes {listener : Json} {routes : List Route}
    (h : listenerRoutes listener = some routes) :
    listenerEntries (Document.ofJson listener) =
      some (routes.map fun route => (route.key, route.object)) := by
  cases listener with
  | object members =>
    obtain ⟨raws, hraws, h⟩ := Option.bind_eq_some_iff.mp h
    rw [listenerEntries, each_of_member hraws]
    refine mapM_ofJson (fun raw route hroute => ?_) h
    rw [rawEntry, ofRaw_of_routeOf hroute]
    rfl
  | _ => cases h

lemma documentEntries_of_documentRoutes {document : Json} {routes : List Route}
    (h : documentRoutes document = some routes) :
    documentEntries (Document.ofJson document) =
      some (routes.map fun route => (route.key, route.object)) := by
  cases document with
  | object members =>
    obtain ⟨listeners, hlisteners, h⟩ := Option.bind_eq_some_iff.mp h
    obtain ⟨lists, hlists, h⟩ := Option.bind_eq_some_iff.mp h
    obtain rfl := Option.some.inj h
    rw [documentEntries, each_of_member hlisteners]
    dsimp only
    rw [mapM_ofJson (fun _ _ => listenerEntries_of_listenerRoutes) hlists, Option.map_some,
      List.map_flatten]
  | _ => cases h

/-- Where the typed router installs routes, they are those that are read without their types. -/
theorem reload_of_router {α : Type} {r : Router α} {f : ConfigFile} {text : String}
    {document : Json} {routes : List Route} (htext : f.text = some text)
    (hjson : Json.loads text = some document) (hroutes : documentRoutes document = some routes)
    (hmtime : f.mtime ≠ r.configMtime) {s : Loaded} (hs : s.configMtime = r.configMtime) :
    (r.reload (some f)).routes = Dict.ofList (routes.map fun route => (route.key, route)) ∧
      reload jsonDocument (some f) s =
        (⟨Dict.ofList (routes.map fun route => (route.key, route.object)), f.mtime⟩, none) := by
  constructor
  · rw [Router.reload, if_neg hmtime, htext, Option.bind_some, loadRoutes, hjson]
    dsimp only [Option.bind_eq_bind, Option.bind_some]
    rw [hroutes]
    rfl
  · have hloads : jsonDocument text = .ok (Document.ofJson document) := by
      rw [jsonDocument, hjson]
      rfl
    have hread : readRoutes (Document.ofJson document) =
        .ok (Dict.ofList (routes.map fun route => (route.key, route.object))) :=
      readRoutes_eq_ok_iff.mpr ⟨_, documentEntries_of_documentRoutes hroutes, rfl⟩
    have htry : tryReload jsonDocument (some f) s =
        .ok ⟨Dict.ofList (routes.map fun route => (route.key, route.object)), f.mtime⟩ := by
      rw [tryReload, if_neg (hs ▸ hmtime), htext]
      exact except_bind_eq_ok_iff.mpr
        ⟨_, hloads, except_bind_eq_ok_iff.mpr ⟨_, hread, rfl⟩⟩
    rw [reload, htry]

end Portwyrm.Quic

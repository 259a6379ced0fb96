import Portwyrm.Base.Json
import Portwyrm.Quic.Wire

/-!
# The route file of the router

`Route`, and the part of `QuicRouter.reload` that reads a document: the routes of all listeners
in one dictionary, by server name.
-/

namespace Portwyrm.Quic

open Base

/-- `Route`. -/
structure Route where
  serverName : String
  target : String
  targetPort : ℕ
  alpn : String := "h3"
  idleTimeoutSeconds : ℕ := 1800
deriving DecidableEq

/-- The fields of `Route`. -/
def Route.fieldNames : List String :=
  ["server_name", "target", "target_port", "alpn", "idle_timeout_seconds"]

/-- A text in a document. -/
def asText : Json → Option String
  | .text s => some s
  | _ => none

/-- A number in a document. -/
def asNat : Json → Option ℕ
  | .number (.ofNat n) => some n
  | _ => none

/-- A list in a document. -/
def asList : Json → Option (List Json)
  | .list items => some items
  | _ => none

/-- `d.get(key, default)`, read as a value of some type. -/
def member {β : Type} (read : Json → Option β) (fallback : Option β)
    (members : List (String × Json)) (key : String) : Option β :=
  match Json.get? members key with
  | some v => read v
  | none => fallback

/-- `Route(**raw)`, for fields of the types that `Route` declares. -/
def routeOf : Json → Option Route
  | .object members => do
    if members.all fun m => m.1 ∈ Route.fieldNames then
      let serverName ← member asText none members "server_name"
      let target ← member asText none members "target"
      let targetPort ← member asNat none members "target_port"
      let alpn ← member asText (some "h3") members "alpn"
      let idleTimeoutSeconds ← member asNat (some 1800) members "idle_timeout_seconds"
      some ⟨serverName, target, targetPort, alpn, idleTimeoutSeconds⟩
    else none
  | _ => none

/-- The routes of one listener. -/
def listenerRoutes : Json → Option (List Route)
  | .object members => do
    let raws ← member asList (some []) members "routes"
    raws.mapM routeOf
  | _ => none

/-- The routes of a document, listener by listener. -/
def documentRoutes : Json → Option (List Route)
  | .object members => do
    let listeners ← member asList (some []) members "listeners"
    return (← listeners.mapM listenerRoutes).flatten
  | _ => none

/-- The key of a route: its server name in canonical form. -/
def Route.key (route : Route) : String := rstripDots (Text.casefold route.serverName)

/-- The dictionary of routes that a text describes, or `none` when reading it raises. -/
def loadRoutes (text : String) : Option (Dict String Route) := do
  let document ← Json.loads text
  let routes ← documentRoutes document
  some (Dict.ofList (routes.map fun route => (route.key, route)))

end Portwyrm.Quic

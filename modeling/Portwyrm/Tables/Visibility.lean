import Portwyrm.Base.Listing
import Portwyrm.Tables.Certificates
import Portwyrm.Tables.Hosts
import Portwyrm.Tables.Streams

/-!
# What a principal reads

The operations of the compatibility API that return resources: list, read, host report and the
download of a certificate.  What a principal without an overview reads should not depend on the
resources of others.
-/

namespace Portwyrm.Tables

open Base Portwyrm.Runtime Portwyrm.Identity

/-! ## States -/

/-- A row of `access_lists` with its members, as `_project` shows it. -/
structure AccessListItem where
  name : String
  satisfyAny : Bool
  passAuth : Bool
  usernames : List String
  clients : List (String × AccessDirective)
  identityIds : List ℕ
  extensions : Dict String Json

/-- The files of a certificate on disk. -/
structure Material where
  cert : Option (List ℕ)
  chain : Option (List ℕ)
  fullchain : Option (List ℕ)
  privkey : Option (List ℕ)

/-- The tables and the certificate material that the operations read; users and settings, which only
administrators read, are left out. -/
structure ResourceState where
  hosts : Dict ℕ HostRow := Dict.empty
  streams : Dict ℕ StreamRow := Dict.empty
  certificates : Dict ℕ CertificateRow := Dict.empty
  accessLists : Dict ℕ AccessListItem := Dict.empty
  materials : Dict ℕ Material := Dict.empty

/-! ## Resources -/

/-- A collection of the API. -/
inductive Collection
  | hosts (kind : HostKind)
  | streams
  | certificates
  | accessLists
  | users
  | settings
deriving DecidableEq

/-- `SECTION_BY_COLLECTION`. -/
def Collection.section_ : Collection → String
  | .hosts kind => hostSection kind
  | .streams => "streams"
  | .certificates => "certificates"
  | .accessLists => "access_lists"
  | .users => "users"
  | .settings => "settings"

/-- `COLLECTIONS`: the collections for administrators. -/
def Collection.adminOnly : Collection → Bool
  | .users | .settings => true
  | _ => false

/-- A resource, as the API returns it. -/
inductive Resource
  | host (id : ℕ) (kind : HostKind) (item : HostPayload)
  | stream (id : ℕ) (item : StreamPayload)
  | certificate (id : ℕ) (item : CertificatePayload)
  | accessList (id : ℕ) (item : AccessListItem)

/-- `str(owner)`, where it can be the text of an id. -/
def ownerText : Json → Option String
  | .number n => some (toString n)
  | .text s => some s
  | _ => none

/-- `item.get("owner_user_id", item.get("owner_id"))`, for an item that has these members in its
metadata. -/
def extensionOwner (extensions : Dict String Json) : Option String :=
  ((extensions.get? "owner_user_id").or (extensions.get? "owner_id")).bind ownerText

/-- The text of the owner that `_is_visible` looks at. -/
def Resource.owner : Resource → Option String
  | .host _ _ item => item.ownerPrincipalId.get.map toString
  | .stream _ item => extensionOwner item.extensions
  | .certificate _ item => item.ownerUserId.get.map toString
  | .accessList _ item => extensionOwner item.extensions

/-- `bool(value)`. -/
def truthy : Json → Bool
  | .null => false
  | .bool b => b
  | .number n => n ≠ 0
  | .text s => s ≠ ""
  | .list items => !items.isEmpty
  | .object members => !members.isEmpty

/-- `bool(item.get("enabled", 1))`. -/
def Resource.enabled : Resource → Bool
  | .host _ _ item => item.enabled.truthy true
  | .stream _ item => item.enabled.truthy true
  | .certificate _ item => ((item.extensions.get? "enabled").map truthy).getD true
  | .accessList _ item => ((item.extensions.get? "enabled").map truthy).getD true

/-- `_is_visible`. -/
def isVisible (p : SecurityPrincipal) (item : Resource) : Bool :=
  p.isAdmin || p.visibility = .all || item.owner = some (toString p.userId)

/-- `list_resources`. -/
def listResources (s : ResourceState) : Collection → List Resource
  | .hosts kind => (s.hosts.sorted.filter fun e => e.2.kind = kind).map fun e =>
      .host e.1 kind (projectHost e.2)
  | .streams => s.streams.sorted.map fun e => .stream e.1 (projectStream e.2)
  | .certificates => s.certificates.sorted.map fun e => .certificate e.1 (projectCertificate e.2)
  | .accessLists => s.accessLists.sorted.map fun e => .accessList e.1 e.2
  | .users | .settings => []

/-- `get_resource`. -/
def getResource (s : ResourceState) (c : Collection) (id : ℕ) : Option Resource :=
  match c with
  | .hosts kind => (getHost kind id s.hosts).map fun row => .host id kind (projectHost row)
  | .streams => (s.streams.get? id).map fun row => .stream id (projectStream row)
  | .certificates => (s.certificates.get? id).map fun row => .certificate id (projectCertificate row)
  | .accessLists => (s.accessLists.get? id).map fun item => .accessList id item
  | .users | .settings => none

/-! ## Operations -/

/-- An operation that returns resources. -/
inductive ReadOp
  | list (c : Collection)
  | get (c : Collection) (id : ℕ)
  | hostReport
  | downloadCertificate (id : ℕ)

/-- The line of a report: total, enabled and disabled. -/
structure ReportLine where
  total : ℕ
  enabled : ℕ
  disabled : ℕ
deriving DecidableEq

/-- What an operation returns. -/
inductive Reply
  | resources (items : List Resource)
  | resource (item : Resource)
  | report (lines : List (Collection × ReportLine))
  | archive (material : Material)

/-- `_authorize`, for reading. -/
def authorizeRead (p : SecurityPrincipal) (c : Collection) : Result Unit :=
  if c.adminOnly then raiseIf (p.isAdmin = false) (.http 403 "administrator required")
  else raiseIf (p.may c.section_ .read = false) (.http 403 "permission denied")

/-- The items of a collection that the principal may see. -/
def visibleItems (p : SecurityPrincipal) (s : ResourceState) (c : Collection) : List Resource :=
  (listResources s c).filter (isVisible p)

/-- The line of a collection. -/
def reportLine (p : SecurityPrincipal) (s : ResourceState) (c : Collection) : ReportLine where
  total := (visibleItems p s c).length
  enabled := (visibleItems p s c).countP Resource.enabled
  disabled := (visibleItems p s c).countP fun item => !item.enabled

/-- The collections of `host_report`. -/
def reportCollections : List Collection :=
  [.hosts .proxy, .hosts .redirect, .hosts .dead, .streams, .certificates, .accessLists]

/-- `host_report`. -/
def hostReport (p : SecurityPrincipal) (s : ResourceState) : List (Collection × ReportLine) :=
  (reportCollections.filter fun c => p.may c.section_ .read).map fun c => (c, reportLine p s c)

/-- `TableCertificateManager.download`, and the answer of the route when it fails. -/
def downloadCertificate (s : ResourceState) (id : ℕ) : Result Reply :=
  match s.certificates.get? id with
  | none => throw (.http 404 s!"certificate {id} was not found")
  | some _ =>
    match s.materials.get? id with
    | none => throw (.http 404 s!"certificate material {id} was not found")
    | some material => pure (.archive material)

/-- The handlers of the routes. -/
def call (p : SecurityPrincipal) (s : ResourceState) : ReadOp → Result Reply
  | .list c => do
    authorizeRead p c
    pure (.resources (visibleItems p s c))
  | .get c id => do
    authorizeRead p c
    match (getResource s c id).filter (isVisible p) with
    | none => throw (.http 404 "resource not found")
    | some item => pure (.resource item)
  | .hostReport => pure (.report (hostReport p s))
  | .downloadCertificate id => do
    authorizeRead p .certificates
    downloadCertificate s id

end Portwyrm.Tables

import Portwyrm.Tables.Lifecycle

/-!
# Audit rows

The hook of `portwyrm.tables.lifecycle` that writes one audit row for a mutation.  Its details are
the payload of the operation; the hook replaces the values under some keys at the top of the
payload.
-/

namespace Portwyrm.Tables

open Base Portwyrm.Identity

/-! ## Texts of values -/

mutual

/-- `repr(value)`. -/
def reprJson : Json → String
  | .null => "None"
  | .bool b => if b then "True" else "False"
  | .number n => toString n
  | .text s => Text.repr s
  | .list items => "[" ++ ", ".intercalate (reprItems items) ++ "]"
  | .object members => "\x7b" ++ ", ".intercalate (reprMembers members) ++ "\x7d"

/-- The texts of items. -/
def reprItems : List Json → List String
  | [] => []
  | v :: rest => reprJson v :: reprItems rest

/-- The texts of members. -/
def reprMembers : List (String × Json) → List String
  | [] => []
  | (k, v) :: rest => (Text.repr k ++ ": " ++ reprJson v) :: reprMembers rest

end

/-- `str(value)`. -/
def strJson : Json → String
  | .text s => s
  | v => reprJson v

/-! ## What the hook reads -/

/-- The snapshot of a host that is deleted. -/
structure DeletedResource where
  id : ℕ
  kind : String
  domainNames : List String
  forwardHost : Option String
  forwardPort : Option ℕ

/-- A snapshot, as it is stored. -/
def DeletedResource.json (r : DeletedResource) : Json :=
  .object
    [ ("id", .number r.id), ("kind", .text r.kind),
      ("domain_names", .list (r.domainNames.map Json.text)),
      ("forward_host", r.forwardHost.elim .null Json.text),
      ("forward_port", r.forwardPort.elim .null fun port => .number port) ]

/-- `OperationAttribution.details`. -/
structure Attribution where
  executorKind : String
  executorName : String
  correlationId : String

/-- An attribution, as it is stored. -/
def Attribution.json (a : Attribution) : Json :=
  .object
    [ ("executor_kind", .text a.executorKind), ("executor_name", .text a.executorName),
      ("correlation_id", .text a.correlationId) ]

/-- What a probe of a host leaves behind: the statuses observed, newest first, and the outcome. -/
structure ProbeOutcome where
  hostId : ℕ
  statuses : List String
  phase : Option String
  errorCode : Option String

/-- The context of an operation before its transaction commits; `objectKind` is what
`enforce_ownership` has noted of a host. -/
structure AuditContext where
  alias_ : String
  tableName : String
  principal : Actor := none
  payload : Dict String Json := Dict.empty
  objectId : Option ℕ := none
  resultId : Option ℕ := none
  targetPrincipalId : Option ℤ := none
  objectKind : Option String := none
  resultKind : Option String := none
  attribution : Option Attribution := none
  deletedResource : Option DeletedResource := none
  probe : Option ProbeOutcome := none
  staged : Bool := false

/-! ## Audit rows -/

/-- `_actor_snapshot`. -/
structure ActorSnapshot where
  principalId : ℕ
  email : String
  displayName : String
  actorName : String
  isAdmin : Bool
deriving DecidableEq

/-- A row of `audit_events`. -/
structure AuditEvent where
  actorPrincipalId : Option ℕ
  actorSnapshot : Option ActorSnapshot
  targetPrincipalId : Option ℤ
  outcome : String
  action : String
  objectType : String
  objectId : String
  details : Dict String Json

/-- The keys that `_details` redacts. -/
def redactedKeys : List String :=
  [ "password", "old_password", "new_password", "secret", "token", "private_key", "certificate",
    "certificate_key" ]

/-- `"[redacted]"`. -/
def redacted : Json := .text "[redacted]"

/-- `_MUTATIONS`. -/
def mutations : List String :=
  [ "create", "update", "replace", "delete", "enable", "disable", "register", "update_identity",
    "set_authorization", "authenticate", "change_password", "set_password", "issue", "refresh",
    "revoke", "rotate", "verify", "begin", "enroll", "confirm", "remove", "recover",
    "regenerate_backup_codes", "record_failure", "record", "apply", "stage", "upload", "request",
    "renew", "activate", "clear_active", "reconcile", "reload", "acquire", "release" ]

/-- `_AUDIT_EXCLUDED_TABLES`. -/
def auditExcludedTables : List String := ["audit_events", "runtime_leases"]

/-- `_ACTION`. -/
def auditActions : List (String × String) :=
  [ ("create", "created"), ("update", "updated"), ("replace", "replaced"), ("delete", "deleted"),
    ("enable", "enabled"), ("disable", "disabled") ]

/-- `_actor_snapshot`. -/
def actorSnapshot (p : SecurityPrincipal) : ActorSnapshot where
  principalId := p.userId
  email := p.identity
  displayName := p.displayName
  actorName :=
    if p.identity = "" then p.displayName
    else ((Text.partition '@' p.identity).map Prod.fst).getD p.identity
  isAdmin := p.isAdmin

/-- `_target_principal_id`. -/
def targetPrincipalId (c : AuditContext) : Option ℤ :=
  c.targetPrincipalId.or
    (if c.tableName = "personal_access_tokens" then
      match c.payload.get? "principal_id" with
      | some (.number n) => some n
      | _ => none
    else none)

/-- The collections of hosts, by the kinds of hosts. -/
def hostCollections : List (String × String) :=
  [("proxy", "proxy_hosts"), ("redirect", "redirection_hosts"), ("dead", "dead_hosts")]

/-- `_object_type`. -/
def objectType (c : AuditContext) : String :=
  if c.tableName ≠ "routing_hosts" then c.tableName
  else
    match c.objectKind.filter (· ≠ "") with
    | some kind => kind
    | none =>
      let kind := c.resultKind.getD (strJson ((c.payload.get? "kind").getD .null))
      (hostCollections.lookup kind).getD c.tableName

/-- `_object_id`. -/
def objectId (c : AuditContext) : String :=
  match c.objectId.or c.resultId with
  | some id => toString id
  | none =>
    match c.payload.get? "id" with
    | none | some .null => "collection"
    | some v => strJson v

/-- `_details`. -/
def details (c : AuditContext) : Dict String Json :=
  let payload := c.payload.mapEntries fun key value =>
    if key ∈ redactedKeys then redacted else value
  let payload := match c.attribution with
    | some attribution => payload.set "attribution" attribution.json
    | none => payload
  match c.deletedResource with
  | some resource => payload.set "deleted_resource" resource.json
  | none => payload

/-- The details of a change of health: none, when the status did not change. -/
def healthDetails (probe : ProbeOutcome) : Option (Dict String Json) :=
  match probe.statuses with
  | current :: previous :: _ =>
    if previous ∉ ["online", "offline"] ∨ current = previous then none
    else some (Dict.ofList
      [ ("from", .text previous), ("to", .text current),
        ("phase", probe.phase.elim .null Json.text),
        ("error_code", probe.errorCode.elim .null Json.text) ])
  | _ => none

/-- `audit_mutation`: the row that is staged. -/
def auditMutation (c : AuditContext) : Option AuditEvent :=
  if c.staged = true then none
  else if c.alias_ = "probe" ∧ c.tableName = "routing_hosts" then
    c.probe.bind fun probe => (healthDetails probe).map fun details =>
      { actorPrincipalId := c.principal.map SecurityPrincipal.userId
        actorSnapshot := c.principal.map actorSnapshot
        targetPrincipalId := targetPrincipalId c
        outcome := "success"
        action := "proxy_host.health.changed"
        objectType := "proxy_hosts"
        objectId := toString probe.hostId
        details := details }
  else if c.alias_ ∉ mutations ∨ c.tableName ∈ auditExcludedTables then none
  else some
    { actorPrincipalId := c.principal.map SecurityPrincipal.userId
      actorSnapshot := c.principal.map actorSnapshot
      targetPrincipalId := targetPrincipalId c
      outcome := "success"
      action := (auditActions.lookup c.alias_).getD c.alias_
      objectType := objectType c
      objectId := objectId c
      details := details c }

end Portwyrm.Tables

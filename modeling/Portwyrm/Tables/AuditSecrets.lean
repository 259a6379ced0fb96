import Portwyrm.Base.Masking
import Portwyrm.Tables.Audit

/-!
# Secrets in audit rows

When the details of an audit row say nothing about the secrets of the payload: redaction at the
top of a payload reaches the secrets that stand there under the redacted keys, and no others.
-/

namespace Portwyrm.Tables

open Base Portwyrm.Identity

/-! ## Secrets of payloads -/

/-- What is secret about a member, at any depth: the values under the keys that are redacted at the
top, and the credentials of DNS providers. -/
def secrecy (key : String) : Secrecy :=
  if key ∈ redactedKeys then .whole
  else if key = "dns_credentials" then .members
  else .plain

/-- What is secret about a member at the top of a payload: a code, too, where second factors are
kept. -/
def payloadSecrecy (tableName key : String) : Secrecy :=
  if tableName = "mfa_enrollments" ∧ key = "code" then .whole else secrecy key

/-- The secrets of a member of a payload. -/
def secretsAt (tableName key : String) (value : Json) : List Json :=
  Json.memberSecrets (payloadSecrecy tableName key) value (Json.secrets secrecy value)

/-- A member of a payload with a function applied to its secrets. -/
def onMember (tableName key : String) (f : Json → Json) (value : Json) : Json :=
  Json.replaceMember f (payloadSecrecy tableName key) value (Json.onSecrets secrecy f value)

/-- The secrets of a payload. -/
def payloadSecrets (tableName : String) (payload : Dict String Json) : List Json :=
  payload.entries.flatMap fun e => secretsAt tableName e.1 e.2

/-- A payload with a function applied to its secrets. -/
def onPayloadSecrets (tableName : String) (f : Json → Json) (payload : Dict String Json) :
    Dict String Json :=
  payload.mapEntries fun key value => onMember tableName key f value

/-- Two payloads differ in their secrets only. -/
def DifferInSecrets (tableName : String) (payload payload' : Dict String Json) : Prop :=
  onPayloadSecrets tableName (fun _ => redacted) payload =
    onPayloadSecrets tableName (fun _ => redacted) payload'

/-- The audit row of a mutation holds no secret: where its details have the place of a secret, the
place is redacted, and another payload that differs in its secrets only gives the same row. -/
def AuditKeepsSecrets (c : AuditContext) : Prop :=
  (∀ row ∈ auditMutation c, ∀ value ∈ payloadSecrets c.tableName row.details, value = redacted) ∧
    ∀ payload, DifferInSecrets c.tableName c.payload payload →
      auditMutation { c with payload := payload } = auditMutation c

/-- The hook writes something else under a key of the payload. -/
def Overwritten (c : AuditContext) (key : String) : Prop :=
  key = "attribution" ∧ c.attribution.isSome ∨ key = "deleted_resource" ∧ c.deletedResource.isSome

/-- The secrets of a payload stand at its top, under keys that are redacted, or under keys that
are overwritten. -/
def SecretsAtTop (c : AuditContext) : Prop :=
  ∀ key value, c.payload.get? key = some value → key ∉ redactedKeys → ¬ Overwritten c key →
    secretsAt c.tableName key value = []


/-! ## Members of payloads -/

section Members

variable {tableName key : String} {value value' : Json} {f g : Json → Json}

lemma onMember_eq_self_iff :
    onMember tableName key f value = value ↔ ∀ x ∈ secretsAt tableName key value, f x = x :=
  Json.replaceMember_eq_self_iff (Json.onSecrets_eq_self_iff f value) _

lemma secretsAt_onMember :
    secretsAt tableName key (onMember tableName key f value) =
      (secretsAt tableName key value).map f :=
  Json.memberSecrets_replaceMember f _ value (Json.secrets_onSecrets f value)

lemma onMember_onMember :
    onMember tableName key f (onMember tableName key g value) =
      onMember tableName key (f ∘ g) value :=
  Json.replaceMember_replaceMember f g _ value (Json.onSecrets_onSecrets f g value)

/-- A member without secrets is told by what its secrets do not change. -/
lemma eq_of_onMember_eq (hnone : secretsAt tableName key value = [])
    (h : onMember tableName key f value' = onMember tableName key f value) : value' = value := by
  have hself : onMember tableName key f value = value :=
    onMember_eq_self_iff.mpr (by simp [hnone])
  have hnone' : secretsAt tableName key value' = [] := by
    have hmap : secretsAt tableName key (onMember tableName key f value') =
        (secretsAt tableName key value').map f := secretsAt_onMember
    rw [h, hself, hnone] at hmap
    exact List.map_eq_nil_iff.mp hmap.symm
  have hself' : onMember tableName key f value' = value' :=
    onMember_eq_self_iff.mpr (by simp [hnone'])
  rw [← hself', h, hself]

end Members

/-! ## Details -/

section Details

variable {c : AuditContext} {payload : Dict String Json} {key : String}

/-- What the hook writes under a key that it does not take over. -/
lemma get?_details (h : ¬ Overwritten c key) :
    (details c).get? key =
      (c.payload.get? key).map fun value => if key ∈ redactedKeys then redacted else value := by
  have hattribution : c.attribution.isSome → key ≠ "attribution" :=
    fun hsome heq => h (.inl ⟨heq, hsome⟩)
  have hdeleted : c.deletedResource.isSome → key ≠ "deleted_resource" :=
    fun hsome heq => h (.inr ⟨heq, hsome⟩)
  unfold details
  cases ha : c.attribution with
  | none =>
    cases hd : c.deletedResource with
    | none => exact Dict.get?_mapEntries _ _ _
    | some resource =>
      exact (Dict.get?_set_of_ne _ _ (hdeleted (by simp [hd]))).trans (Dict.get?_mapEntries _ _ _)
  | some attribution =>
    have hne := hattribution (by simp [ha])
    cases hd : c.deletedResource with
    | none => exact (Dict.get?_set_of_ne _ _ hne).trans (Dict.get?_mapEntries _ _ _)
    | some resource =>
      exact (Dict.get?_set_of_ne _ _ (hdeleted (by simp [hd]))).trans
        ((Dict.get?_set_of_ne _ _ hne).trans (Dict.get?_mapEntries _ _ _))

/-- The snapshot of a deleted host holds no secret. -/
lemma secrets_deletedResource (resource : DeletedResource) :
    Json.secrets secrecy resource.json = [] := by
  have htexts : ∀ names : List String, Json.itemSecrets secrecy (names.map Json.text) = [] := by
    intro names
    induction names with
    | nil => rfl
    | cons name rest ih => simp [Json.itemSecrets, Json.secrets, ih]
  have hhost : Json.secrets secrecy (resource.forwardHost.elim .null Json.text) = [] := by
    cases resource.forwardHost <;> simp [Json.secrets]
  have hport : Json.secrets secrecy (resource.forwardPort.elim .null fun port => .number port) =
      [] := by
    cases resource.forwardPort <;> simp [Json.secrets]
  simp [DeletedResource.json, Json.secrets, Json.secretsOfMembers, Json.memberSecrets, secrecy,
    redactedKeys, htexts, hhost, hport]

/-- A key that the hook takes over does not depend on the payload. -/
lemma get?_details_of_overwritten (h : Overwritten c key) :
    ∃ value, (∀ payload, (details { c with payload := payload }).get? key = some value) ∧
      Json.secrets secrecy value = [] := by
  by_cases hd : key = "deleted_resource" ∧ c.deletedResource.isSome
  · obtain ⟨rfl, hsome⟩ := hd
    obtain ⟨resource, hresource⟩ := Option.isSome_iff_exists.mp hsome
    refine ⟨resource.json, fun payload => ?_, ?_⟩
    · simp only [details, hresource]
      exact Dict.get?_set_self _ _ _
    · exact secrets_deletedResource resource
  · obtain ⟨rfl, hsome⟩ := h.resolve_right hd
    obtain ⟨attribution, hattribution⟩ := Option.isSome_iff_exists.mp hsome
    refine ⟨attribution.json, fun payload => ?_, by simp [Attribution.json, Json.secrets,
      Json.secretsOfMembers, Json.memberSecrets, secrecy, redactedKeys]⟩
    simp only [details, hattribution]
    cases c.deletedResource with
    | none => exact Dict.get?_set_self _ _ _
    | some resource =>
      exact (Dict.get?_set_of_ne _ _ (by decide)).trans (Dict.get?_set_self _ _ _)

/-- The keys of the details depend on the keys of the payload only. -/
lemma keys_details (h : payload.keys = c.payload.keys) :
    (details { c with payload := payload }).keys = (details c).keys := by
  have hset : ∀ (d e : Dict String Json) (k : String) (v : Json), d.keys = e.keys →
      (d.set k v).keys = (e.set k v).keys := by
    intro d e k v hkeys
    have hmem : k ∈ d ↔ k ∈ e := by
      show k ∈ d.keys ↔ k ∈ e.keys
      rw [hkeys]
    simp only [Dict.keys_set, hkeys, hmem]
  have hredacted : ∀ f : String → Json → Json,
      (payload.mapEntries f).keys = (c.payload.mapEntries f).keys := by
    intro f
    rw [Dict.keys_mapEntries, Dict.keys_mapEntries, h]
  unfold details
  dsimp only
  cases c.attribution with
  | none =>
    cases c.deletedResource with
    | none => exact hredacted _
    | some resource => exact hset _ _ _ _ (hredacted _)
  | some attribution =>
    cases c.deletedResource with
    | none => exact hset _ _ _ _ (hredacted _)
    | some resource => exact hset _ _ _ _ (hset _ _ _ _ (hredacted _))

/-! ## Rows -/

/-- Payloads that differ in their secrets only have the same keys. -/
lemma keys_of_differInSecrets (h : DifferInSecrets c.tableName c.payload payload) :
    payload.keys = c.payload.keys := by
  have hkeys := congrArg Dict.keys h
  rw [onPayloadSecrets, onPayloadSecrets, Dict.keys_mapEntries, Dict.keys_mapEntries] at hkeys
  exact hkeys.symm

/-- They agree where there are no secrets. -/
lemma get?_of_differInSecrets (h : DifferInSecrets c.tableName c.payload payload)
    (hnone : ∀ value, c.payload.get? key = some value → secretsAt c.tableName key value = []) :
    payload.get? key = c.payload.get? key := by
  have hget := congrArg (fun d => Dict.get? d key) h
  simp only [onPayloadSecrets, Dict.get?_mapEntries] at hget
  cases hstored : c.payload.get? key with
  | none =>
    rw [hstored, Option.map_none] at hget
    exact Option.map_eq_none_iff.mp hget.symm
  | some value =>
    rw [hstored, Option.map_some] at hget
    obtain ⟨value', hvalue', heq⟩ := Option.map_eq_some_iff.mp hget.symm
    rw [hvalue', eq_of_onMember_eq (hnone value hstored) heq]

lemma not_overwritten {key : String} (h : key ∉ ["attribution", "deleted_resource"]) :
    ¬ Overwritten c key := by
  rintro (⟨rfl, -⟩ | ⟨rfl, -⟩)
  · exact h (by decide)
  · exact h (by decide)

/-- When all secrets stand at the top, the details do not tell payloads apart that differ in their
secrets only. -/
lemma details_of_differInSecrets (htop : SecretsAtTop c)
    (h : DifferInSecrets c.tableName c.payload payload) :
    details { c with payload := payload } = details c := by
  have hkeys := keys_of_differInSecrets h
  refine Dict.ext_get? (keys_details hkeys) fun key => ?_
  by_cases hover : Overwritten c key
  · obtain ⟨value, hvalue, -⟩ := get?_details_of_overwritten hover
    rw [hvalue payload]
    exact (hvalue c.payload).symm
  · have hover' : ¬ Overwritten { c with payload := payload } key := hover
    rw [get?_details hover', get?_details hover]
    by_cases hredacted : key ∈ redactedKeys
    · -- the value is gone, and both payloads have the key
      have hmem : payload.get? key = none ↔ c.payload.get? key = none := by
        rw [Dict.get?_eq_none_iff, Dict.get?_eq_none_iff]
        show key ∉ payload.keys ↔ key ∉ c.payload.keys
        rw [hkeys]
      simp only [hredacted, if_true]
      cases hstored : c.payload.get? key with
      | none => rw [hmem.mpr hstored]
      | some value =>
        have hne : payload.get? key ≠ none := fun hnone => by simp [hmem.mp hnone] at hstored
        obtain ⟨value', hvalue'⟩ := Option.ne_none_iff_exists'.mp hne
        rw [hvalue', Option.map_some, Option.map_some]
    · rw [get?_of_differInSecrets h fun value hvalue => htop key value hvalue hredacted hover]

/-- When all secrets stand at the top, the row does not tell payloads apart that differ in their
secrets only. -/
lemma auditMutation_of_differInSecrets (htop : SecretsAtTop c)
    (h : DifferInSecrets c.tableName c.payload payload) :
    auditMutation { c with payload := payload } = auditMutation c := by
  have hplain : ∀ key ∈ ["principal_id", "kind", "id"],
      key ∉ redactedKeys ∧ key ∉ ["attribution", "deleted_resource"] := by
    decide
  have hagree : ∀ key ∈ ["principal_id", "kind", "id"],
      payload.get? key = c.payload.get? key := by
    intro key hkey
    obtain ⟨hredacted, hover⟩ := hplain key hkey
    exact get?_of_differInSecrets h fun value hvalue =>
      htop key value hvalue hredacted (not_overwritten hover)
  have htarget : targetPrincipalId { c with payload := payload } = targetPrincipalId c := by
    simp only [targetPrincipalId, hagree "principal_id" (by decide)]
  have htype : objectType { c with payload := payload } = objectType c := by
    simp only [objectType, hagree "kind" (by decide)]
  have hid : objectId { c with payload := payload } = objectId c := by
    simp only [objectId, hagree "id" (by decide)]
  simp only [auditMutation, htarget, htype, hid, details_of_differInSecrets htop h]

/-- When all secrets stand at the top, every place of a secret in the details is redacted. -/
lemma secrets_details (htop : SecretsAtTop c) {value : Json}
    (hvalue : value ∈ payloadSecrets c.tableName (details c)) : value = redacted := by
  obtain ⟨⟨key, stored⟩, hstored, hmem⟩ := List.mem_flatMap.mp hvalue
  rw [Dict.mem_entries_iff] at hstored
  by_cases hover : Overwritten c key
  · obtain ⟨written, hwritten, hnone⟩ := get?_details_of_overwritten hover
    obtain rfl := Option.some.inj ((hwritten c.payload).symm.trans hstored)
    have hplain : payloadSecrecy c.tableName key = .plain := by
      obtain ⟨rfl, -⟩ | ⟨rfl, -⟩ := hover
      · simp [payloadSecrecy, secrecy, redactedKeys]
      · simp [payloadSecrecy, secrecy, redactedKeys]
    simp [secretsAt, hplain, Json.memberSecrets, hnone] at hmem
  · rw [get?_details hover] at hstored
    obtain ⟨given, hgiven, rfl⟩ := Option.map_eq_some_iff.mp hstored
    by_cases hredacted : key ∈ redactedKeys
    · have hwhole : payloadSecrecy c.tableName key = .whole := by
        unfold payloadSecrecy secrecy
        split
        · rfl
        · rfl
      simpa [secretsAt, hwhole, Json.memberSecrets, hredacted] using hmem
    · rw [if_neg hredacted, htop key given hgiven hredacted hover] at hmem
      exact absurd hmem List.not_mem_nil

/-- A payload whose secrets are changed. -/
def disguised (c : AuditContext) : Dict String Json :=
  onPayloadSecrets c.tableName (fun value => .list [value]) c.payload

lemma differInSecrets_disguised : DifferInSecrets c.tableName c.payload (disguised c) := by
  refine Dict.ext_get? ?_ fun key => ?_
  · simp only [onPayloadSecrets, disguised, Dict.keys_mapEntries]
  · simp only [onPayloadSecrets, disguised, Dict.get?_mapEntries, Option.map_map]
    refine congrArg (fun f => (c.payload.get? key).map f) (funext fun value => ?_)
    exact (onMember_onMember (f := fun _ => redacted)).symm

/-- When the details do not tell the disguised payload apart, all secrets stand at the top. -/
lemma secretsAtTop_of_details (h : details { c with payload := disguised c } = details c) :
    SecretsAtTop c := by
  intro key value hvalue hredacted hover
  have hover' : ¬ Overwritten { c with payload := disguised c } key := hover
  have hget : (details { c with payload := disguised c }).get? key = (details c).get? key :=
    congrArg (fun d => Dict.get? d key) h
  have hdisguised : (disguised c).get? key =
      some (onMember c.tableName key (fun value => .list [value]) value) := by
    rw [disguised, onPayloadSecrets, Dict.get?_mapEntries, hvalue, Option.map_some]
  rw [get?_details hover', get?_details hover, hvalue] at hget
  simp only [hdisguised, if_neg hredacted, Option.map_some, Option.some.injEq] at hget
  have hkept := onMember_eq_self_iff.mp hget
  refine List.eq_nil_iff_forall_not_mem.mpr fun x hx => ?_
  have hsize := congrArg sizeOf (hkept x hx)
  simp only [Json.list.sizeOf_spec, List.cons.sizeOf_spec, List.nil.sizeOf_spec] at hsize
  omega

/-- The details of a change of health hold no secret. -/
lemma payloadSecrets_healthDetails {probe : ProbeOutcome} {row : Dict String Json}
    (h : healthDetails probe = some row) : payloadSecrets "routing_hosts" row = [] := by
  unfold healthDetails at h
  split at h
  · split at h
    · exact absurd h (by simp)
    · obtain rfl := Option.some.inj h
      cases probe.phase <;> cases probe.errorCode <;>
        simp [payloadSecrets, secretsAt, payloadSecrecy, secrecy, redactedKeys, Json.memberSecrets,
          Json.secrets, Dict.ofList, Dict.set, Dict.store, Dict.empty]
  · exact absurd h (by simp)

/-- The operation is a probe of a host, whose row tells a change of health. -/
def IsProbe (c : AuditContext) : Prop := c.alias_ = "probe" ∧ c.tableName = "routing_hosts"

/-- The details of a row: a change of health, or what `_details` makes of the payload. -/
lemma details_of_auditMutation {row : AuditEvent} (h : auditMutation c = some row) :
    IsProbe c ∧ (∃ probe, healthDetails probe = some row.details) ∨
      ¬ IsProbe c ∧ row.details = details c := by
  have hstaged : ¬ c.staged = true := fun hs => by simp [auditMutation, hs] at h
  by_cases hprobe : IsProbe c
  · have hcond : c.alias_ = "probe" ∧ c.tableName = "routing_hosts" := hprobe
    simp only [auditMutation, if_neg hstaged, if_pos hcond] at h
    obtain ⟨probe, -, hmap⟩ := Option.bind_eq_some_iff.mp h
    obtain ⟨health, hhealth, rfl⟩ := Option.map_eq_some_iff.mp hmap
    exact .inl ⟨hprobe, probe, hhealth⟩
  · have hcond : ¬ (c.alias_ = "probe" ∧ c.tableName = "routing_hosts") := hprobe
    simp only [auditMutation, if_neg hstaged, if_neg hcond] at h
    split at h
    · exact absurd h (by simp)
    · obtain rfl := Option.some.inj h
      exact .inr ⟨hprobe, rfl⟩

/-- A change of health does not depend on the payload. -/
lemma auditMutation_of_isProbe (h : IsProbe c) (payload : Dict String Json) :
    auditMutation { c with payload := payload } = auditMutation c := by
  have hcond : c.alias_ = "probe" ∧ c.tableName = "routing_hosts" := h
  have hother : ¬ c.tableName = "personal_access_tokens" := by
    rw [h.2]
    decide
  simp only [auditMutation, if_pos hcond, targetPrincipalId, if_neg hother]

end Details

/-- The audit row of a mutation holds no secret exactly when it tells a change of health, or all
secrets of the payload stand at its top under keys that are redacted or taken over. -/
theorem auditKeepsSecrets_iff {c : AuditContext} (haudited : (auditMutation c).isSome = true) :
    AuditKeepsSecrets c ↔ IsProbe c ∨ SecretsAtTop c := by
  obtain ⟨row, hrow⟩ := Option.isSome_iff_exists.mp haudited
  constructor
  · rintro ⟨-, hsame⟩
    refine or_iff_not_imp_left.mpr fun hprobe => secretsAtTop_of_details ?_
    have hdisguised := (hsame _ differInSecrets_disguised).trans hrow
    obtain ⟨hyes, -⟩ | ⟨-, hdetails⟩ := details_of_auditMutation hrow
    · exact absurd hyes hprobe
    · obtain ⟨hyes, -⟩ | ⟨-, hdetails'⟩ := details_of_auditMutation hdisguised
      · exact absurd hyes hprobe
      · rw [← hdetails', hdetails]
  · intro h
    refine ⟨fun row' hrow' value hvalue => ?_, fun payload hpayload => ?_⟩
    · obtain ⟨hprobe, probe, hhealth⟩ | ⟨hprobe, hdetails⟩ := details_of_auditMutation hrow'
      · rw [hprobe.2, payloadSecrets_healthDetails hhealth] at hvalue
        exact absurd hvalue List.not_mem_nil
      · rw [hdetails] at hvalue
        exact secrets_details (h.resolve_left hprobe) hvalue
    · rcases h with hprobe | htop
      · exact auditMutation_of_isProbe hprobe payload
      · exact auditMutation_of_differInSecrets htop hpayload

/-! ### Credentials in an audit row -/

/-- A user is registered. -/
def registration : AuditContext where
  alias_ := "register"
  tableName := "principals"
  payload := Dict.ofList [("email", .text "ann@example.com"), ("password", .text "hunter2")]
  resultId := some 2

/-- The condition for this registration. -/
theorem auditKeepsSecrets_registration :
    AuditKeepsSecrets registration ↔ IsProbe registration ∨ SecretsAtTop registration :=
  auditKeepsSecrets_iff rfl

/-- A certificate is requested with the credentials of a DNS provider. -/
def dnsRequest : AuditContext where
  alias_ := "request"
  tableName := "certificates"
  payload := Dict.ofList
    [ ("domain_names", .list [.text "example.com"]), ("challenge_type", .text "dns-01"),
      ("dns_provider", .text "cloudflare"),
      ("dns_credentials", .object [("dns_cloudflare_api_token", .text "k3y")]) ]
  resultId := some 3

/-- The credentials stand in the row. -/
theorem dnsRequest_tells_credentials :
    ¬ ∀ c : AuditContext, (auditMutation c).isSome = true → AuditKeepsSecrets c := by
  intro h
  have hrow := (h dnsRequest rfl).1 _ rfl (.text "k3y")
  have hstands : Json.text "k3y" ∈ payloadSecrets "certificates" (details dnsRequest) := by
    simp [payloadSecrets, details, dnsRequest, Dict.mapEntries, Dict.ofList, Dict.set, Dict.store,
      Dict.empty, secretsAt, payloadSecrecy, secrecy, redactedKeys, Json.memberSecrets,
      Json.secrets, Json.itemSecrets]
  exact absurd (hrow hstands) (by simp [redacted])

end Portwyrm.Tables

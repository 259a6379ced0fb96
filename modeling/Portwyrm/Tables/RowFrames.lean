import Portwyrm.Base.Merging
import Portwyrm.Tables.Certificates
import Portwyrm.Tables.Streams

/-!
# What an update of a stream or a certificate leaves alone

A row that is written from a candidate keeps every member that the candidate has as the row shows
it, but for those that are stored by way of others: a stream without a transport forwards TCP, the
second name of an owner gives way to the first, and the kind of a challenge may come from the
metadata.
-/

namespace Portwyrm.Tables

open Base Portwyrm.Runtime Portwyrm.Quic Portwyrm.Identity

/-! ## Streams -/

/-- The members of a payload for a stream. -/
inductive StreamMember
  | ownerPrincipalId
  | tcpForwarding
  | udpForwarding
  | incomingPort
  | targetKind
  | forwardingHost
  | forwardingPort
  | certificateId
  | enabled
  | extension (key : String)

/-- The values of a member. -/
def StreamMember.Value : StreamMember → Type
  | ownerPrincipalId => Option ℕ
  | tcpForwarding | udpForwarding | enabled => Option Bool
  | incomingPort | forwardingPort | certificateId => Option ℤ
  | targetKind | forwardingHost => Option String
  | extension _ => Json

/-- A member of a payload. -/
def StreamPayload.get (payload : StreamPayload) : (k : StreamMember) → Option k.Value
  | .ownerPrincipalId => payload.ownerPrincipalId
  | .tcpForwarding => payload.tcpForwarding
  | .udpForwarding => payload.udpForwarding
  | .incomingPort => payload.incomingPort
  | .targetKind => payload.targetKind
  | .forwardingHost => payload.forwardingHost
  | .forwardingPort => payload.forwardingPort
  | .certificateId => payload.certificateId
  | .enabled => payload.enabled
  | .extension key => payload.extensions.get? key

/-- The members of streams. -/
def streamMembers : Members StreamPayload where
  Key := StreamMember
  Value := StreamMember.Value
  get k payload := payload.get k
  overlay := StreamPayload.over
  get_overlay k payload stored := by
    cases k with
    | extension key => exact Dict.get?_update stored.extensions payload.extensions key
    | _ => rfl

/-- A write of a candidate does not change a member by way of others. -/
def StreamFree (candidate : StreamPayload) : StreamMember → Prop
  | .tcpForwarding =>
    candidate.tcpForwarding.truthy false = true ∨ candidate.udpForwarding.truthy false = true
  | _ => True

section StreamFrame

variable {certificates : List ℕ} {actor : Actor} {id : ℕ} {candidate : StreamPayload}
  {rows rows' : Dict ℕ StreamRow} {row row' stored : StreamRow}

/-- How the columns of a written stream come from its payload. -/
structure StreamStored (payload : StreamPayload) (row : StreamRow) : Prop where
  protocol : row.protocol = (streamValues payload).protocol
  incomingPort : (row.incomingPort : ℤ) = intOr payload.incomingPort.get 0
  targetKind : TargetKind.ofValue? (textOr payload.targetKind.get "dns") = some row.targetKind
  target : row.target = textOr payload.forwardingHost.get ""
  targetPort : (row.targetPort : ℤ) = intOr payload.forwardingPort.get 0
  enabled : row.enabled = payload.enabled.truthy true
  compat : row.compat = payload

lemma streamStored_of_checkStream
    (h : checkStream certificates rows id (streamValues candidate) = .ok row) :
    StreamStored candidate row := by
  unfold checkStream at h
  obtain ⟨certificateId, -, h⟩ := bind_eq_ok_iff.mp h
  split at h
  · exact absurd h throw_ne_ok
  · rename_i kind hkind
    simp only [bind_eq_ok_iff, raiseIf_eq_ok_iff, not_not, pure_eq_ok_iff] at h
    obtain ⟨-, hincoming, -, htarget, -, -, -, -, rfl⟩ := h
    exact
      { protocol := rfl
        incomingPort := Int.toNat_of_nonneg (le_trans zero_le_one hincoming.1)
        targetKind := hkind
        target := rfl
        targetPort := Int.toNat_of_nonneg (le_trans zero_le_one htarget.1)
        enabled := rfl
        compat := rfl }

lemma targetKind_ofValue? (kind : TargetKind) : TargetKind.ofValue? kind.value = some kind := by
  cases kind <;> rfl

/-- A number that a row shows is stored again. -/
lemma intOr_of_member {m : Member ℤ} {n : ℕ} (hm : m = Member.of (n : ℤ)) : intOr m.get 0 = n := by
  rw [hm, Member.get_of]
  by_cases hzero : (n : ℤ) = 0
  · rw [hzero]
    rfl
  · exact intOr_of_ne hzero 0

/-- The transports of a stream that is stored from its flags. -/
lemma protocol_tcp_iff (payload : StreamPayload) :
    ((streamValues payload).protocol = .tcp ∨ (streamValues payload).protocol = .tcpUdp) ↔
      (payload.udpForwarding.truthy false = true → payload.tcpForwarding.truthy false = true) := by
  simp only [streamValues]
  cases payload.tcpForwarding.truthy false <;> cases payload.udpForwarding.truthy false <;> simp

lemma protocol_udp_iff (payload : StreamPayload) :
    ((streamValues payload).protocol = .udp ∨ (streamValues payload).protocol = .tcpUdp) ↔
      payload.udpForwarding.truthy false = true := by
  simp only [streamValues]
  cases payload.tcpForwarding.truthy false <;> cases payload.udpForwarding.truthy false <;> simp

/-- A write of a candidate keeps the members that the candidate has as the row shows them. -/
theorem streamFrame (h : StreamStored candidate row') (k : StreamMember)
    (hk : candidate.get k = (projectStream row).get k) (hfree : StreamFree candidate k) :
    (projectStream row').get k = (projectStream row).get k := by
  cases k with
  | ownerPrincipalId =>
    change row'.compat.ownerPrincipalId = row.compat.ownerPrincipalId
    rw [h.compat]
    exact hk
  | tcpForwarding =>
    change candidate.tcpForwarding = Member.of (decide (row.protocol = .tcp ∨ row.protocol = .tcpUdp))
      at hk
    change Member.of (decide (row'.protocol = .tcp ∨ row'.protocol = .tcpUdp)) = Member.of _
    have hgiven := congrArg (fun m => Member.truthy m false) hk
    rw [Member.truthy_of] at hgiven
    -- without a transport the stream would forward TCP
    have htcp := protocol_tcp_iff candidate
    rw [← h.protocol] at htcp
    refine congrArg Member.of ?_
    rw [← hgiven]
    rcases hfree with htrue | hudp
    · rw [htrue] at htcp ⊢
      exact decide_eq_true (htcp.mpr fun _ => rfl)
    · rw [Bool.eq_iff_iff, decide_eq_true_iff, htcp]
      exact ⟨fun himp => himp hudp, fun htrue _ => htrue⟩
  | udpForwarding =>
    change candidate.udpForwarding = Member.of (decide (row.protocol = .udp ∨ row.protocol = .tcpUdp))
      at hk
    change Member.of (decide (row'.protocol = .udp ∨ row'.protocol = .tcpUdp)) = Member.of _
    have hgiven := congrArg (fun m => Member.truthy m false) hk
    rw [Member.truthy_of] at hgiven
    refine congrArg Member.of ?_
    rw [← hgiven, Bool.eq_iff_iff, decide_eq_true_iff, h.protocol]
    exact protocol_udp_iff candidate
  | incomingPort =>
    change candidate.incomingPort = Member.of (row.incomingPort : ℤ) at hk
    have hport := h.incomingPort
    rw [intOr_of_member hk] at hport
    exact congrArg Member.of hport
  | targetKind =>
    change candidate.targetKind = Member.of row.targetKind.value at hk
    have hkind := h.targetKind
    have hne : row.targetKind.value ≠ "" := by
      cases row.targetKind <;> decide
    rw [hk, Member.get_of, textOr_of_ne hne, targetKind_ofValue?] at hkind
    exact congrArg (fun kind => Member.of (TargetKind.value kind)) (Option.some.inj hkind).symm
  | forwardingHost =>
    change candidate.forwardingHost = Member.of row.target at hk
    have htarget := h.target
    rw [hk, Member.get_of, textOr_empty] at htarget
    exact congrArg Member.of htarget
  | forwardingPort =>
    change candidate.forwardingPort = Member.of (row.targetPort : ℤ) at hk
    have hport := h.targetPort
    rw [intOr_of_member hk] at hport
    exact congrArg Member.of hport
  | certificateId =>
    change row'.compat.certificateId = row.compat.certificateId
    rw [h.compat]
    exact hk
  | enabled =>
    change candidate.enabled = Member.of row.enabled at hk
    have henabled := h.enabled
    rw [hk, Member.truthy_of] at henabled
    exact congrArg Member.of henabled
  | extension key =>
    change row'.compat.extensions.get? key = row.compat.extensions.get? key
    rw [h.compat]
    exact hk

end StreamFrame

section StreamStore

variable (certificates : List ℕ) (id : ℕ)

/-- The `update` operation of the table, which takes the candidate as it is. -/
def updateStreamRow (actor : Actor) (candidate : StreamPayload) (rows : Dict ℕ StreamRow) :
    Result (Dict ℕ StreamRow) :=
  match rows.get? id with
  | none => throw (.http 404 "Not Found")
  | some stored => storeStream certificates actor id stored (streamValues candidate) rows

/-- `update_resource` reads the stream, asks whether its port is free, and hands the candidate to
the operation of the table. -/
theorem updateStream_eq {actor : Actor} {payload : StreamPayload} {rows : Dict ℕ StreamRow}
    {stored : StreamRow} (h : rows.get? id = some stored) :
    updateStream certificates actor id payload rows =
      (do
        validateStream rows (some id) (streamValues (payload.over (projectStream stored)))
        updateStreamRow certificates id actor (payload.over (projectStream stored)) rows) := by
  simp only [updateStream, updateStreamRow, h]

/-- The updates of one stream. -/
def streamStore : MergingStore (Dict ℕ StreamRow) StreamPayload Actor Exc where
  members := streamMembers
  read rows := (rows.get? id).map projectStream
  shown rows := (rows.get? id).map projectStream
  rereads := false
  write := updateStreamRow certificates id
  toggle actor enabled := setStreamEnabled actor id enabled
  toggled enabled := { enabled := .of enabled }
  Valid rows := id ∈ rows
  Settled rows := id ∈ rows
  Free k candidate _ := StreamFree candidate k

variable {certificates id}

/-- What the `update` operation writes. -/
lemma updateStreamRow_spec {actor : Actor} {candidate : StreamPayload} {rows rows' : Dict ℕ StreamRow}
    (h : updateStreamRow certificates id actor candidate rows = .ok rows') :
    ∃ row, rows' = rows.set id row ∧ StreamStored candidate row := by
  unfold updateStreamRow at h
  split at h
  · exact absurd h throw_ne_ok
  · obtain ⟨row, rfl, hrow⟩ := storeStream_spec h
    exact ⟨row, rfl, streamStored_of_checkStream hrow⟩

theorem streamStore_lawful : (streamStore certificates id).Lawful where
  write_settles := by
    rintro actor candidate rows rows' - h
    obtain ⟨row, rfl, -⟩ := updateStreamRow_spec h
    have hmem : id ∈ rows.set id row := Dict.mem_iff.mpr ⟨row, Dict.get?_set_self rows id row⟩
    exact ⟨hmem, hmem⟩
  toggle_settles := by
    rintro actor enabled rows rows' hvalid h
    rcases setStreamEnabled_spec h with rfl | ⟨stored, -, rfl⟩
    · exact ⟨hvalid, hvalid⟩
    · have hmem : id ∈ rows.set id { stored with enabled := enabled } :=
        Dict.mem_iff.mpr ⟨_, Dict.get?_set_self rows id _⟩
      exact ⟨hmem, hmem⟩
  write_frame := by
    rintro actor candidate rows rows' hsettled h k hk hfree
    obtain ⟨stored, hstored⟩ := Dict.mem_iff.mp hsettled
    obtain ⟨row, rfl, hrow⟩ := updateStreamRow_spec h
    have hreads : (streamStore certificates id).readsAt rows k = (projectStream stored).get k := by
      simp only [MergingStore.readsAt, streamStore, hstored, Option.map_some, Option.bind_some]
      rfl
    have hframe := streamFrame hrow k (hk.trans hreads) hfree
    simp only [MergingStore.showsAt, streamStore, hstored, Dict.get?_set_self, Option.map_some,
      Option.bind_some]
    exact hframe
  toggle_frame := by
    rintro actor enabled rows rows' h k hk
    rcases setStreamEnabled_spec h with rfl | ⟨stored, hstored, rfl⟩
    · rfl
    · simp only [MergingStore.showsAt, streamStore, hstored, Dict.get?_set_self, Option.map_some,
        Option.bind_some]
      cases k with
      | enabled => exact absurd (by rintro ⟨⟩) hk
      | _ => rfl

end StreamStore

/-! ## Certificates -/

/-- The members of a payload for a certificate. -/
inductive CertificateMember
  | ownerPrincipalId
  | ownerUserId
  | niceName
  | provider
  | challengeType
  | keyType
  | materialRef
  | expiresAt
  | status
  | domainNames
  | extension (key : String)

/-- The values of a member. -/
def CertificateMember.Value : CertificateMember → Type
  | ownerPrincipalId | ownerUserId => Option ℕ
  | niceName | provider | challengeType | keyType | materialRef | status => Option String
  | expiresAt => Option ℤ
  | domainNames => Option (List String)
  | extension _ => Json

/-- A member of a payload. -/
def CertificatePayload.get (payload : CertificatePayload) : (k : CertificateMember) → Option k.Value
  | .ownerPrincipalId => payload.ownerPrincipalId
  | .ownerUserId => payload.ownerUserId
  | .niceName => payload.niceName
  | .provider => payload.provider
  | .challengeType => payload.challengeType
  | .keyType => payload.keyType
  | .materialRef => payload.materialRef
  | .expiresAt => payload.expiresAt
  | .status => payload.status
  | .domainNames => payload.domainNames
  | .extension key => payload.extensions.get? key

/-- The members of certificates. -/
def certificateMembers : Members CertificatePayload where
  Key := CertificateMember
  Value := CertificateMember.Value
  get k payload := payload.get k
  overlay := CertificatePayload.over
  get_overlay k payload stored := by
    cases k with
    | extension key => exact Dict.get?_update stored.extensions payload.extensions key
    | _ => rfl

/-- A write of a candidate does not change a member by way of others. -/
def CertificateFree (candidate : CertificatePayload) (row : CertificateRow) :
    CertificateMember → Prop
  | .ownerUserId => candidate.ownerPrincipalId = some row.ownerPrincipalId
  | .challengeType =>
    textOr row.challengeType "" ≠ "" ∨
      metaText candidate.extensions "challenge_type" = row.challengeType
  | _ => True

/-- What a row of a certificate is stored again with. -/
structure RestoredCertificate (row : CertificateRow) : Prop where
  niceName : row.niceName ≠ ""
  provider : row.provider ≠ ""
  keyType : row.keyType ≠ ""
  status : row.status ≠ ""
  domains : row.domains.map Text.casefold = row.domains

section CertificateFrame

variable {actor : Actor} {id : ℕ} {owner : Option ℕ} {payload candidate : CertificatePayload}
  {rows rows' : Dict ℕ CertificateRow} {row row' stored : CertificateRow}

lemma textOr_ne_empty {value : Option String} {default : String} (h : default ≠ "") :
    textOr value default ≠ "" := by
  rcases value with _ | s
  · exact h
  · by_cases hs : s = ""
    · rwa [hs, textOr, Option.filter_some, if_neg (by simp), Option.getD_none]
    · rwa [textOr_of_ne hs]

/-- The columns of a written certificate. -/
lemma certificateRow_spec (h : certificateRow owner payload = .ok row) :
    row = { ownerPrincipalId := owner
            niceName := textOr payload.niceName.get "Certificate"
            provider := textOr payload.provider.get "custom"
            challengeType := (payload.challengeType.get.filter (· ≠ "")).or
              (metaText payload.extensions "challenge_type")
            keyType := textOr payload.keyType.get "rsa"
            materialRef := payload.materialRef.get
            expiresAt := payload.expiresAt.get
            status := textOr payload.status.get "pending"
            extensions := payload.extensions
            domains := (payload.domainNames.get.getD []).map Text.casefold } := by
  simp only [certificateRow, bind_eq_ok_iff, pure_eq_ok_iff] at h
  obtain ⟨-, -, rfl⟩ := h
  rfl

lemma restored_of_certificateRow (h : certificateRow owner payload = .ok row) :
    RestoredCertificate row := by
  obtain rfl := certificateRow_spec h
  exact
    { niceName := textOr_ne_empty (by decide)
      provider := textOr_ne_empty (by decide)
      keyType := textOr_ne_empty (by decide)
      status := textOr_ne_empty (by decide)
      domains := by simp [Text.casefold_casefold] }

/-- A text that a row shows is stored again. -/
lemma textOr_of_member {m : Member String} {s default : String} (hm : m = Member.of s) (hs : s ≠ "") :
    textOr m.get default = s := by
  rw [hm, Member.get_of, textOr_of_ne hs]

/-- A write of a candidate keeps the members that the candidate has as the row shows them. -/
theorem certificateFrame (hr : RestoredCertificate row)
    (h : certificateRow candidate.owner candidate = .ok row') (k : CertificateMember)
    (hk : candidate.get k = (projectCertificate row).get k) (hfree : CertificateFree candidate row k) :
    (projectCertificate row').get k = (projectCertificate row).get k := by
  obtain rfl := certificateRow_spec h
  cases k with
  | ownerPrincipalId =>
    change candidate.ownerPrincipalId = some row.ownerPrincipalId at hk
    change some candidate.owner = some row.ownerPrincipalId
    rw [CertificatePayload.owner, hk]
    rfl
  | ownerUserId =>
    change candidate.ownerPrincipalId = some row.ownerPrincipalId at hfree
    change some candidate.owner = some row.ownerPrincipalId
    rw [CertificatePayload.owner, hfree]
    rfl
  | niceName => exact congrArg Member.of (textOr_of_member hk hr.niceName)
  | provider => exact congrArg Member.of (textOr_of_member hk hr.provider)
  | challengeType =>
    change candidate.challengeType = some row.challengeType at hk
    change some ((candidate.challengeType.get.filter (· ≠ "")).or _) = some row.challengeType
    have hget : candidate.challengeType.get = row.challengeType := by
      rw [hk]
      rfl
    rw [hget]
    refine congrArg some ?_
    cases hfilter : row.challengeType.filter (· ≠ "") with
    | some s =>
      rw [Option.some_or]
      exact ((Option.filter_eq_some_iff.mp hfilter).1).symm
    | none =>
      -- without a kind of its own, the row has that of its metadata
      rw [Option.none_or]
      refine hfree.resolve_left fun hne => hne ?_
      rw [textOr, hfilter, Option.getD_none]
  | keyType => exact congrArg Member.of (textOr_of_member hk hr.keyType)
  | materialRef =>
    change candidate.materialRef = some row.materialRef at hk
    change some candidate.materialRef.get = some row.materialRef
    rw [hk]
    rfl
  | expiresAt =>
    change candidate.expiresAt = some row.expiresAt at hk
    change some candidate.expiresAt.get = some row.expiresAt
    rw [hk]
    rfl
  | status => exact congrArg Member.of (textOr_of_member hk hr.status)
  | domainNames =>
    change candidate.domainNames = Member.of row.domains at hk
    change Member.of ((candidate.domainNames.get.getD []).map Text.casefold) = Member.of row.domains
    rw [hk, Member.get_of, Option.getD_some, hr.domains]
  | extension key => exact hk

end CertificateFrame

section CertificateStore

variable (id : ℕ)

/-- `update_resource` reads the certificate and hands the candidate to the operation of the table,
which lays it over the row once more. -/
theorem updateCertificate_eq {actor : Actor} {payload : CertificatePayload}
    {rows : Dict ℕ CertificateRow} {stored : CertificateRow} (h : rows.get? id = some stored) :
    updateCertificate actor id payload rows =
      updateCertificate actor id (payload.over (projectCertificate stored)) rows := by
  have hover : (payload.over (projectCertificate stored)).over (projectCertificate stored) =
      payload.over (projectCertificate stored) := by
    simp only [CertificatePayload.over, Option.or_assoc, Option.or_self, Dict.update_update]
  simp only [updateCertificate, h, hover]

/-- The updates of one certificate, which has no flag to set. -/
def certificateStore : MergingStore (Dict ℕ CertificateRow) CertificatePayload Actor Exc where
  members := certificateMembers
  read rows := (rows.get? id).map projectCertificate
  shown rows := (rows.get? id).map projectCertificate
  rereads := true
  write actor := updateCertificate actor id
  toggle _ _ _ := throw (.valueError "collection 'certificates' does not support enable/disable")
  toggled _ := {}
  Valid rows := id ∈ rows
  Settled rows := ∃ row, rows.get? id = some row ∧ RestoredCertificate row
  Free k candidate rows := ∀ row, rows.get? id = some row → CertificateFree candidate row k

variable {id}

/-- What the `update` operation writes. -/
lemma updateCertificate_spec {actor : Actor} {candidate : CertificatePayload}
    {rows rows' : Dict ℕ CertificateRow} {stored : CertificateRow} (hget : rows.get? id = some stored)
    (h : updateCertificate actor id candidate rows = .ok rows') :
    ∃ row, rows' = rows.set id row ∧
      certificateRow (candidate.over (projectCertificate stored)).owner
        (candidate.over (projectCertificate stored)) = .ok row := by
  rw [updateCertificate, hget] at h
  exact storeCertificate_spec h

theorem certificateStore_lawful : (certificateStore id).Lawful where
  write_settles := by
    rintro actor candidate rows rows' hvalid h
    obtain ⟨stored, hstored⟩ := Dict.mem_iff.mp hvalid
    obtain ⟨row, rfl, hrow⟩ := updateCertificate_spec hstored h
    have hget := Dict.get?_set_self rows id row
    exact ⟨Dict.mem_iff.mpr ⟨row, hget⟩, row, hget, restored_of_certificateRow hrow⟩
  toggle_settles := fun _ h => absurd h throw_ne_ok
  write_frame := by
    rintro actor candidate rows rows' ⟨stored, hstored, hrestored⟩ h k hk hfree
    obtain ⟨row, rfl, hrow⟩ := updateCertificate_spec hstored h
    have hmerged : (certificateStore id).merged candidate rows =
        candidate.over (projectCertificate stored) := by
      simp only [MergingStore.merged, certificateStore, hstored, Option.map_some]
      rfl
    rw [hmerged] at hk hfree
    have hreads : (certificateStore id).readsAt rows k = (projectCertificate stored).get k := by
      simp only [MergingStore.readsAt, certificateStore, hstored, Option.map_some, Option.bind_some]
      rfl
    have hframe := certificateFrame hrestored hrow k (hk.trans hreads) (hfree stored hstored)
    simp only [MergingStore.showsAt, certificateStore, hstored, Dict.get?_set_self, Option.map_some,
      Option.bind_some]
    exact hframe
  toggle_frame := fun h => absurd h throw_ne_ok

end CertificateStore

end Portwyrm.Tables

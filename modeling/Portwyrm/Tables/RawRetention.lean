import Portwyrm.Tables.RawNginx

/-!
# Raw configuration under edits by others

The guard keeps somebody without administrator rights from giving raw configuration.  It does not
look at what is stored, so an edit that is accepted has taken away what was there.
-/

namespace Portwyrm.Tables

open Base Portwyrm.Runtime Portwyrm.Quic Portwyrm.Identity

/-- An update or a replacement of a host. -/
def HostWrite.Edits (id : ℕ) : HostWrite → Prop
  | .create _ => False
  | .update id' _ | .replace id' _ => id' = id

/-- The raw texts of a host are those that were stored, and so are those of each location under a
path that was there before. -/
structure RawKept (stored row : HostRow) : Prop where
  config : row.advancedConfig = stored.advancedConfig
  locations : ∀ l ∈ stored.locations, ∀ l' ∈ row.locations, l'.path = l.path →
    l'.advancedConfig = l.advancedConfig

/-- No raw text is at stake: what is stored for the host and for the locations that a payload keeps
is blank, and the payload gives the same blanks. -/
structure RepeatsBlanks (payload : HostPayload) (stored : HostRow) : Prop where
  blank : Text.strip stored.advancedConfig = ""
  config : textOr payload.advancedConfig.get "" = stored.advancedConfig
  locations : ∀ l ∈ stored.locations, ∀ given ∈ payload.locationList,
    textOr given.path "/" = l.path →
      Text.strip l.advancedConfig = "" ∧ textOr given.advancedConfig "" = l.advancedConfig

section Edits

variable {bcryptHash : ℕ → String → String} {digest : String → String} {newId : List ℕ → ℕ}
  {now : String} {kind : HostKind} {w : HostWrite} {t t' : AllTables} {id : ℕ}
  {payload : HostPayload} {stored row : HostRow} {p : SecurityPrincipal}
  {certificates accessLists : List ℕ}

/-- What is kept of the raw texts, when the payload has none. -/
lemma rawKept_iff (hfree : payload.RawFree)
    (h : HostStored certificates accessLists kind payload row) :
    RawKept stored row ↔ RepeatsBlanks payload stored := by
  have hrows := mapM_eq_ok_iff.mp h.locations
  constructor
  · rintro ⟨hconfig, hlocations⟩
    have hgiven : textOr payload.advancedConfig.get "" = stored.advancedConfig :=
      h.advancedConfig.symm.trans hconfig
    refine ⟨hgiven ▸ hfree.1, hgiven, fun l hl given hmem hpath => ?_⟩
    obtain ⟨l', hl', hstored⟩ := Numeral.exists_of_mem_left hrows hmem
    have hspec := storedLocation_spec hstored
    have hsame : textOr given.advancedConfig "" = l.advancedConfig :=
      hspec.advancedConfig.symm.trans (hlocations l hl l' hl' (hspec.path.trans hpath))
    exact ⟨hsame ▸ hfree.2 given hmem, hsame⟩
  · rintro ⟨-, hconfig, hlocations⟩
    refine ⟨h.advancedConfig.trans hconfig, fun l hl l' hl' hpath => ?_⟩
    obtain ⟨given, hmem, hstored⟩ := Numeral.exists_of_mem_right hrows hl'
    have hspec := storedLocation_spec hstored
    rw [hspec.advancedConfig]
    exact (hlocations l hl given hmem (hspec.path.symm.trans hpath)).2

/-- An accepted edit has a payload, and writes a host. -/
lemma exists_of_edit (hw : w.Edits id) (hstored : getHost kind id t.hosts = some stored)
    (h : writeHostDocument bcryptHash digest newId (some p) now kind w t = .ok t') :
    ∃ payload row, w.payload newId kind t = .ok (id, payload) ∧
      getHost kind id t'.hosts = some row := by
  obtain ⟨current, hcurrent⟩ : ∃ current, getDocument t (.hosts kind) id = some current := by
    rw [getDocument, plainDocument, hstored]
    exact ⟨_, rfl⟩
  cases w with
  | create d => exact hw.elim
  | update id' d =>
    obtain rfl : id' = id := hw
    simp only [writeHostDocument, hcurrent, updateDocument, updateHost, hstored, bind_eq_ok_iff,
      pure_eq_ok_iff] at h
    obtain ⟨_, -, _, -, payload, hpayload, hosts, hhosts, rfl⟩ := h
    obtain ⟨row, rfl, hwrite⟩ := storeHost_spec hhosts
    have hkind := (hostStored_of_writeHost hwrite).1.kind_eq
    refine ⟨payload.over (projectHost stored), row, ?_, getHost_set hkind⟩
    simp only [HostWrite.payload, hcurrent, hstored, Option.getD_some, Option.map_some, hpayload]
    rfl
  | replace id' d =>
    obtain rfl : id' = id := hw
    simp only [writeHostDocument, hcurrent, replaceHost, hstored, bind_eq_ok_iff,
      pure_eq_ok_iff] at h
    obtain ⟨_, -, _, -, payload, hpayload, hosts, hhosts, rfl⟩ := h
    obtain ⟨row, rfl, hwrite⟩ := storeHost_spec hhosts
    have hkind := (hostStored_of_writeHost hwrite).1.kind_eq
    refine ⟨payload, row, ?_, getHost_set hkind⟩
    simp only [HostWrite.payload, hpayload]
    rfl

/-- An accepted edit by somebody without administrator rights keeps the raw texts exactly when they
are blank and are given again. -/
theorem rawConfig_kept_iff (hp : p.isAdmin = false) (hw : w.Edits id)
    (hstored : getHost kind id t.hosts = some stored)
    (h : writeHostDocument bcryptHash digest newId (some p) now kind w t = .ok t') :
    ∃ payload row, w.payload newId kind t = .ok (id, payload) ∧
      getHost kind id t'.hosts = some row ∧
      (RawKept stored row ↔ RepeatsBlanks payload stored) := by
  obtain ⟨payload, row, hpayload, hrow⟩ := exists_of_edit hw hstored h
  obtain ⟨hfree, -, certificates, accessLists, hwritten⟩ :=
    stored_of_writeHostDocument hp h hpayload hrow
  exact ⟨payload, row, hpayload, hrow, rawKept_iff hfree hwritten⟩

end Edits

/-! ### Clearing the configuration of a host -/

/-- A proxy host of the editor, with a raw configuration. -/
def rawDocument (advancedConfig : String) : Document :=
  Dict.ofList
    [ ("domain_names", .list [.text "a.example"]), ("forward_host", .text "web"),
      ("forward_port", .number 80), ("owner_principal_id", .number 2),
      ("advanced_config", .text advancedConfig) ]

/-- An administrator creates the host. -/
def createRaw (advancedConfig : String) : Result AllTables :=
  writeHostDocument (fun _ s => s) id (fun _ => 1)
    (some { userId := 1, identity := "admin", isAdmin := true }) "" .proxy
    (.create (rawDocument advancedConfig)) {}

/-- The tables with the host. -/
def rawTables (advancedConfig : String) : AllTables := (createRaw advancedConfig).toOption.getD {}

/-- The editor updates the host. -/
def editRaw (advancedConfig : String) (d : Document) : Result AllTables :=
  writeHostDocument (fun _ s => s) id (fun _ => 1) (some hostEditor) "" .proxy (.update 1 d)
    (rawTables advancedConfig)

/-- The editor turns the cache on, of a host without a raw configuration. -/
theorem rawConfig_kept_iff_caching : ∃ t' payload stored row,
    getHost .proxy 1 (rawTables "").hosts = some stored ∧
    editRaw "" (Dict.ofList [("caching_enabled", .bool true)]) = .ok t' ∧
    getHost .proxy 1 t'.hosts = some row ∧ (RawKept stored row ↔ RepeatsBlanks payload stored) := by
  obtain ⟨stored, hstored⟩ := Option.isSome_iff_exists.mp
    (show (getHost .proxy 1 (rawTables "").hosts).isSome = true by decide +kernel)
  have hedit : editRaw "" (Dict.ofList [("caching_enabled", .bool true)]) =
      .ok ((editRaw "" (Dict.ofList [("caching_enabled", .bool true)])).toOption.getD {}) :=
    eq_getD_of_isSome (by decide +kernel)
  have hedits : (HostWrite.update 1 (Dict.ofList [("caching_enabled", .bool true)])).Edits 1 := rfl
  obtain ⟨payload, row, -, hrow, hkept⟩ := rawConfig_kept_iff rfl hedits hstored hedit
  exact ⟨_, payload, stored, row, hstored, hedit, hrow, hkept⟩

/-- The configuration of the host, before and after the editor gives an empty one. -/
def clearedConfigs : Option (String × String) := do
  let stored ← getHost .proxy 1 (rawTables "deny all;").hosts
  let t' ← (editRaw "deny all;" (Dict.ofList [("advanced_config", .text "")])).toOption
  let row ← getHost .proxy 1 t'.hosts
  some (stored.advancedConfig, row.advancedConfig)

/-- The editor clears what the administrator has configured. -/
theorem rawConfig_cleared : ∃ t' stored row,
    getHost .proxy 1 (rawTables "deny all;").hosts = some stored ∧
    editRaw "deny all;" (Dict.ofList [("advanced_config", .text "")]) = .ok t' ∧
    getHost .proxy 1 t'.hosts = some row ∧ ¬ RawKept stored row := by
  have hconfigs : clearedConfigs = some ("deny all;", "") := by decide +kernel
  simp only [clearedConfigs, Option.bind_eq_bind, Option.bind_eq_some_iff, Option.some.injEq,
    Prod.mk.injEq] at hconfigs
  obtain ⟨stored, hstored, t', hedit, row, hrow, hbefore, hafter⟩ := hconfigs
  refine ⟨t', stored, row, hstored, ?_, hrow, fun hkept => ?_⟩
  · generalize editRaw "deny all;" _ = edited at hedit ⊢
    cases edited with
    | error e => exact nomatch hedit
    | ok t'' => exact congrArg Except.ok (Option.some.inj hedit)
  · have hsame := hkept.config
    rw [hbefore, hafter] at hsame
    exact absurd hsame (by decide)

end Portwyrm.Tables

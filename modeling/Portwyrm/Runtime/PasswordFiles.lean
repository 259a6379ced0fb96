import Portwyrm.Base.Htpasswd
import Portwyrm.Runtime.AccessMerge
import Portwyrm.Runtime.GeneratedPaths
import Portwyrm.Runtime.RenderOutcome

/-!
# Password files of a generation

The files that a render makes for hosts and access lists have names of their own, so each is in the
generation with its own text.  The password file that a proxy host names is among them,
and holds the users of the policy that the host is rendered with.
-/

namespace Portwyrm.Runtime

open Base

/-! ## Names -/

/-- The kinds of files that a render makes for hosts and access lists. -/
inductive FileKind
  | list
  | merged
  | proxy
  | redirection
  | dead
deriving DecidableEq

namespace FileKind

/-- The part of a name before the id. -/
def start : FileKind → String
  | list => "access/"
  | merged => "access/proxy-host-"
  | proxy => "http/proxy-"
  | redirection => "http/redirection-"
  | dead => "http/dead-"

/-- The part of a name behind the id. -/
def stop : FileKind → String
  | list | merged => ""
  | proxy | redirection | dead => ".conf"

/-- The name of a file. -/
def name (kind : FileKind) (id : ℕ) : String := kind.start ++ toString id ++ kind.stop

lemma toList_name (kind : FileKind) (id : ℕ) :
    (kind.name id).toList = kind.start.toList ++ ((toString id).toList ++ kind.stop.toList) := by
  rw [name, String.toList_append, String.toList_append, List.append_assoc]

lemma name_list (id : ℕ) : list.name id = "access/" ++ toString id := String.append_empty

lemma name_merged (id : ℕ) : merged.name id = "access/" ++ ("proxy-host-" ++ toString id) := by
  rw [← String.append_assoc]
  exact String.append_empty

/-- The names of different kinds do not start alike, except for those of password files. -/
lemma start_not_prefix (kind kind' : FileKind) (h : kind ≠ kind') :
    ¬ kind.start.toList <+: kind'.start.toList ∨ kind = .list ∧ kind' = .merged := by
  cases kind <;> cases kind' <;> revert h <;> decide

/-- A number is no word. -/
lemma name_list_ne_merged (id id' : ℕ) : list.name id ≠ merged.name id' := by
  intro h
  have hlist := congrArg String.toList h
  rw [toList_name, toList_name] at hlist
  have hstart : merged.start.toList = list.start.toList ++ "proxy-host-".toList := by decide
  rw [hstart, List.append_assoc, List.append_cancel_left_eq] at hlist
  have hmem : 'p' ∈ (toString id).toList ++ list.stop.toList := by
    rw [hlist]
    exact List.mem_append_left _ (by decide)
  rcases List.mem_append.mp hmem with hmem | hmem
  · exact not_mem_toString (by decide) id hmem
  · exact absurd hmem (by decide)

/-- The name of a file tells what it is made for. -/
lemma name_injective {kind kind' : FileKind} {id id' : ℕ} (h : kind.name id = kind'.name id') :
    kind = kind' ∧ id = id' := by
  have hkind : kind = kind' := by
    by_contra hne
    have hlist := congrArg String.toList h
    rw [toList_name, toList_name] at hlist
    rcases List.prefix_or_prefix_of_prefix (List.prefix_append kind.start.toList _)
      (hlist ▸ List.prefix_append kind'.start.toList _) with hstart | hstart
    · rcases start_not_prefix kind kind' hne with hno | ⟨rfl, rfl⟩
      · exact hno hstart
      · exact name_list_ne_merged id id' h
    · rcases start_not_prefix kind' kind (Ne.symm hne) with hno | ⟨rfl, rfl⟩
      · exact hno hstart
      · exact name_list_ne_merged id' id h.symm
  subst hkind
  refine ⟨rfl, ?_⟩
  have hstart : kind.start ++ toString id = kind.start ++ toString id' :=
    (String.append_left_inj _).mp h
  exact Numeral.toString_injective ((String.append_right_inj _).mp hstart)

end FileKind

/-! ## Texts -/

/-- The selected access lists of a host. -/
abbrev selectedOf (input : RenderInput) (host : RuntimeHost) : List AccessList :=
  selectedLists (accessById input.accessLists) host

/-- The text that a render makes for a host or an access list. -/
def FileText (platform : PlatformConfig) (input : RenderInput) (id : ℕ) (text : String) :
    FileKind → Prop
  | .list => ∃ l ∈ input.accessLists, l.id = id ∧ renderHtpasswd l = text
  | .merged => ∃ host ∈ input.proxyHosts, host.id = id ∧ 1 < (selectedOf input host).length ∧
      ∃ policy, effectivePolicy (accessById input.accessLists) host = .ok (some policy) ∧
        renderHtpasswd policy = text
  | .proxy => ∃ host ∈ input.proxyHosts, host.id = id ∧
      ∃ effective, effectivePolicy (accessById input.accessLists) host = .ok effective ∧
        renderProxy platform host effective (passwordFile host (selectedOf input host)) = text
  | .redirection => ∃ host ∈ input.redirectionHosts, host.id = id ∧
      renderRedirection platform host = text
  | .dead => ∃ host ∈ input.deadHosts, host.id = id ∧ renderDead platform host = text

/-- The hosts of each kind, and the access lists, have different ids. -/
structure DistinctIds (input : RenderInput) : Prop where
  proxyHosts : (input.proxyHosts.map RuntimeHost.id).Nodup
  redirectionHosts : (input.redirectionHosts.map RuntimeHost.id).Nodup
  deadHosts : (input.deadHosts.map RuntimeHost.id).Nodup
  accessLists : (input.accessLists.map AccessList.id).Nodup

section Texts

variable {platform : PlatformConfig} {input : RenderInput} {id : ℕ} {text text' : String}
variable {kind : FileKind}

/-- Each of them has one text. -/
lemma FileText.unique (hids : DistinctIds input) (h : FileText platform input id text kind)
    (h' : FileText platform input id text' kind) : text = text' := by
  cases kind with
  | list =>
    obtain ⟨l, hl, rfl, rfl⟩ := h
    obtain ⟨l', hl', hid, rfl⟩ := h'
    rw [List.inj_on_of_nodup_map hids.accessLists hl' hl hid]
  | merged =>
    obtain ⟨host, hhost, rfl, -, policy, hpolicy, rfl⟩ := h
    obtain ⟨host', hhost', hid, -, policy', hpolicy', rfl⟩ := h'
    obtain rfl := List.inj_on_of_nodup_map hids.proxyHosts hhost' hhost hid
    obtain rfl := Option.some.inj (Except.ok.inj (hpolicy.symm.trans hpolicy'))
    rfl
  | proxy =>
    obtain ⟨host, hhost, rfl, effective, heffective, rfl⟩ := h
    obtain ⟨host', hhost', hid, effective', heffective', rfl⟩ := h'
    obtain rfl := List.inj_on_of_nodup_map hids.proxyHosts hhost' hhost hid
    obtain rfl := Except.ok.inj (heffective.symm.trans heffective')
    rfl
  | redirection =>
    obtain ⟨host, hhost, rfl, rfl⟩ := h
    obtain ⟨host', hhost', hid, rfl⟩ := h'
    rw [List.inj_on_of_nodup_map hids.redirectionHosts hhost' hhost hid]
  | dead =>
    obtain ⟨host, hhost, rfl, rfl⟩ := h
    obtain ⟨host', hhost', hid, rfl⟩ := h'
    rw [List.inj_on_of_nodup_map hids.deadHosts hhost' hhost hid]

end Texts

/-! ## The files of a render -/

/-- The starts of the names of all other files. -/
def otherStarts : List String :=
  ["nginx.conf", "http/default.conf", "http/status.conf", "include/", "conf.d/", "quic/", "custom/",
    "default_www/", "stream/stream-"]

/-- The name of a file that is made for no host and no access list. -/
def OtherName (name : String) : Prop := ∃ start ∈ otherStarts, start.toList <+: name.toList

instance : DecidablePred OtherName := fun name =>
  inferInstanceAs (Decidable (∃ start ∈ otherStarts, start.toList <+: name.toList))

lemma otherName_append {start : String} (hstart : start ∈ otherStarts) (rest stop : String) :
    OtherName (start ++ rest ++ stop) := by
  refine ⟨start, hstart, ?_⟩
  rw [String.append_assoc, String.toList_append]
  exact List.prefix_append _ _

lemma not_otherName (kind : FileKind) (id : ℕ) : ¬ OtherName (kind.name id) := by
  rintro ⟨start, hstart, hprefix⟩
  have hapart : ∀ start ∈ otherStarts, ¬ start.toList <+: kind.start.toList ∧
      ¬ kind.start.toList <+: start.toList := by
    cases kind <;> decide
  rw [FileKind.toList_name] at hprefix
  rcases List.prefix_or_prefix_of_prefix hprefix (List.prefix_append _ _) with h | h
  · exact (hapart start hstart).1 h
  · exact (hapart start hstart).2 h

section Render

variable {platform : PlatformConfig} {input : RenderInput} {files : Files}
variable {proxies : List (List (String × String))} {custom : List (String × String)}

/-- The files that `render` stores, in the order in which it stores them. -/
def renderedFiles (platform : PlatformConfig) (input : RenderInput)
    (proxies : List (List (String × String))) (custom : List (String × String)) :
    List (String × String) :=
  platformFiles platform input.quicPassthroughHosts ++
  (sortedBy natLe AccessList.id input.accessLists).map accessFile ++
  proxies.flatten ++ laterFiles platform input custom

lemma accessFile_eq (l : AccessList) :
    accessFile l = (FileKind.list.name l.id, renderHtpasswd l) := by
  rw [FileKind.name_list]
  rfl

lemma mergedFiles_eq {host : RuntimeHost} {selected : List AccessList}
    {effective : Option AccessList} :
    mergedFiles (passwordFile host selected) effective =
      if 1 < selected.length then
        effective.toList.map fun policy => (FileKind.merged.name host.id, renderHtpasswd policy)
      else [] := by
  unfold passwordFile
  split
  · rcases effective with _ | policy
    · rfl
    · rw [mergedFiles, Option.toList_some, List.map_singleton, FileKind.name_merged]
      rfl
  · rfl

/-- The files that no resource asks for have other names. -/
lemma otherName_of_platformFiles {routes : List QuicRoute} {e : String × String}
    (he : e ∈ platformFiles platform routes) : OtherName e.1 := by
  have hnames : ∀ name ∈ platformNames ++ ["default_www/index.html"], OtherName name := by
    decide
  refine hnames e.1 (List.mem_append.mpr ?_)
  rcases List.mem_append.mp he with he | he
  · exact .inl (List.mem_map_of_mem (f := Prod.fst) he)
  · refine .inr ?_
    split at he
    · rw [List.mem_singleton.mp he]
      exact List.mem_singleton_self _
    · simp at he

/-- A file that a render stores for a proxy host has one of the texts of the host. -/
lemma fileText_of_mem_proxyFiles {host : RuntimeHost} {l : List (String × String)}
    (h : proxyFiles platform (accessById input.accessLists) host = .ok l)
    (hhost : host ∈ input.proxyHosts) {e : String × String} (he : e ∈ l) :
    ∃ kind, e.1 = FileKind.name kind host.id ∧ FileText platform input host.id e.2 kind := by
  obtain ⟨effective, heffective, rfl⟩ := proxyFiles_eq_ok.mp h
  rcases List.mem_append.mp he with he | he
  · rw [mergedFiles_eq] at he
    split at he
    · rename_i hmany
      obtain ⟨policy, hpolicy, rfl⟩ := List.mem_map.mp he
      obtain rfl := Option.mem_toList.mp hpolicy
      exact ⟨.merged, rfl, host, hhost, rfl, hmany, policy, heffective, rfl⟩
    · simp at he
  · obtain rfl := List.mem_singleton.mp he
    exact ⟨.proxy, rfl, host, hhost, rfl, effective, heffective, rfl⟩

/-- What a render stores are the texts of hosts and access lists, and files with other names. -/
lemma fileText_of_mem (hcustom : (sortedBy textLe Prod.fst platform.customIncludes.entries).mapM
      customFile = .ok custom)
    (hproxies : (sortedBy natLe RuntimeHost.id input.proxyHosts).mapM
      (proxyFiles platform (accessById input.accessLists)) = .ok proxies)
    {e : String × String} (he : e ∈ renderedFiles platform input proxies custom) :
    OtherName e.1 ∨
      ∃ kind id, e.1 = FileKind.name kind id ∧ FileText platform input id e.2 kind := by
  simp only [renderedFiles, laterFiles, List.mem_append, List.mem_map, mem_sortedBy] at he
  rcases he with ((he | ⟨l, hl, rfl⟩) | he) | ((⟨host, hhost, rfl⟩ | ⟨host, hhost, rfl⟩) |
    ⟨stream, -, rfl⟩) | he
  · exact .inl (otherName_of_platformFiles he)
  · rw [accessFile_eq]
    exact .inr ⟨.list, l.id, rfl, l, hl, rfl, rfl⟩
  · obtain ⟨files, hfiles, he⟩ := List.mem_flatten.mp he
    obtain ⟨host, hhost, hl⟩ := Numeral.exists_of_mem_right (mapM_eq_ok_iff.mp hproxies) hfiles
    obtain ⟨kind, hname, htext⟩ := fileText_of_mem_proxyFiles hl (mem_sortedBy.mp hhost) he
    exact .inr ⟨kind, host.id, hname, htext⟩
  · exact .inr ⟨.redirection, host.id, rfl, host, hhost, rfl, rfl⟩
  · exact .inr ⟨.dead, host.id, rfl, host, hhost, rfl, rfl⟩
  · have hstart : "stream/stream-" ∈ otherStarts := by decide
    exact .inl (otherName_append hstart _ _)
  · obtain ⟨e', -, he'⟩ := Numeral.exists_of_mem_right (mapM_eq_ok_iff.mp hcustom) he
    simp only [customFile, bind_eq_ok_iff, pure_eq_ok_iff] at he'
    obtain ⟨-, -, rfl⟩ := he'
    have hstart : "custom/" ∈ otherStarts := by decide
    exact .inl (otherName_append hstart _ _)

/-- The text of a host or an access list is stored under its name. -/
lemma mem_renderedFiles (hproxies : (sortedBy natLe RuntimeHost.id input.proxyHosts).mapM
      (proxyFiles platform (accessById input.accessLists)) = .ok proxies)
    {kind : FileKind} {id : ℕ} {text : String} (h : FileText platform input id text kind) :
    (kind.name id, text) ∈ renderedFiles platform input proxies custom := by
  have hproxy : ∀ host ∈ input.proxyHosts, ∃ l ∈ proxies,
      proxyFiles platform (accessById input.accessLists) host = .ok l := fun host hhost =>
    Numeral.exists_of_mem_left (mapM_eq_ok_iff.mp hproxies) (mem_sortedBy.mpr hhost)
  simp only [renderedFiles, laterFiles, List.mem_append, List.mem_map, mem_sortedBy]
  cases kind with
  | list =>
    obtain ⟨l, hl, rfl, rfl⟩ := h
    exact .inl (.inl (.inr ⟨l, hl, accessFile_eq l⟩))
  | merged =>
    obtain ⟨host, hhost, rfl, hmany, policy, hpolicy, rfl⟩ := h
    obtain ⟨files, hfiles, heq⟩ := hproxy host hhost
    obtain ⟨effective, heffective, rfl⟩ := proxyFiles_eq_ok.mp heq
    obtain rfl := Except.ok.inj (hpolicy.symm.trans heffective)
    refine .inl (.inr (List.mem_flatten.mpr ⟨_, hfiles, List.mem_append_left _ ?_⟩))
    rw [mergedFiles_eq, if_pos hmany]
    exact List.mem_singleton_self _
  | proxy =>
    obtain ⟨host, hhost, rfl, effective, heffective, rfl⟩ := h
    obtain ⟨files, hfiles, heq⟩ := hproxy host hhost
    obtain ⟨effective', heffective', rfl⟩ := proxyFiles_eq_ok.mp heq
    obtain rfl := Except.ok.inj (heffective.symm.trans heffective')
    refine .inl (.inr (List.mem_flatten.mpr ⟨_, hfiles, List.mem_append_right _ ?_⟩))
    exact List.mem_singleton_self _
  | redirection =>
    obtain ⟨host, hhost, rfl, rfl⟩ := h
    exact .inr (.inl (.inl (.inl ⟨host, hhost, rfl⟩)))
  | dead =>
    obtain ⟨host, hhost, rfl, rfl⟩ := h
    exact .inr (.inl (.inl (.inr ⟨host, hhost, rfl⟩)))

/-- The text of a host or an access list is in the generation under its name. -/
theorem get?_fileText (hids : DistinctIds input) (h : render platform input = .ok files)
    {kind : FileKind} {id : ℕ} {text : String} (htext : FileText platform input id text kind) :
    files.get? (kind.name id) = some text := by
  obtain ⟨proxies, custom, hcustom, hproxies, rfl⟩ := render_eq_ok h
  rw [earlierFiles, ← addFiles_append, ← addFiles_append, ← addFiles_append, ← List.append_assoc,
    ← List.append_assoc]
  refine get?_addFiles_of_mem (mem_renderedFiles hproxies htext) fun e he hname => ?_
  rcases fileText_of_mem hcustom hproxies he with hother | ⟨kind', id', hname', htext'⟩
  · exact absurd (hname ▸ hother) (not_otherName kind id)
  · obtain ⟨rfl, rfl⟩ := FileKind.name_injective (hname'.symm.trans hname)
    exact htext'.unique hids htext

end Render

/-! ## The file that a proxy host names -/

/-- The line that names a password file below `/data`. -/
def userFileLine (path : String) : String := "auth_basic_user_file /data/" ++ path ++ ";"

section Named

variable {l : AccessList} {file : Option String} {path : String}

lemma userFileLine_eq : userFileLine path = "auth_basic_user_file /data/" ++ (path ++ ";") :=
  String.append_assoc

lemma userFileLine_ne {line : String}
    (h : ¬ "auth_basic_user_file /data/".toList <+: line.toList) : userFileLine path ≠ line := by
  rintro rfl
  rw [userFileLine_eq] at h
  exact h ⟨_, String.toList_append.symm⟩

lemma userFileLine_ne_client (c : AccessClient) : userFileLine path ≠ c.line := by
  have happend : c.line = c.directive.value ++ (" " ++ (c.address ++ ";")) := by
    show c.directive.value ++ " " ++ c.address ++ ";" = _
    rw [String.append_assoc, String.append_assoc]
  rw [userFileLine_eq, happend]
  cases c.directive <;> exact append_ne_append (by decide) (by decide)

/-- The access lines of a policy name one password file. -/
lemma path_eq_of_mem (h : userFileLine path ∈ accessLines (some l) file) :
    path = "access/" ++ userFile l file := by
  simp only [accessLines, List.mem_append] at h
  rcases h with (h | h) | h
  · split at h
    · rcases List.mem_append.mp h with h | h
      · rcases List.mem_pair.mp h with h | h
        · exact absurd h (userFileLine_ne (by decide))
        · have hpath : "auth_basic_user_file /data/" ++ path =
              "auth_basic_user_file /data/access/" ++ userFile l file :=
            (String.append_left_inj _).mp h
          have hfolder : "auth_basic_user_file /data/access/" =
              "auth_basic_user_file /data/" ++ "access/" := by decide
          rw [hfolder, String.append_assoc] at hpath
          exact (String.append_right_inj _).mp hpath
      · split at h
        · exact absurd (List.mem_singleton.mp h) (userFileLine_ne (by decide))
        · simp at h
    · simp at h
  · split at h
    · rcases List.mem_append.mp h with h | h
      · obtain ⟨c, -, hc⟩ := List.mem_map.mp h
        exact absurd hc.symm (userFileLine_ne_client c)
      · exact absurd (List.mem_singleton.mp h) (userFileLine_ne (by decide))
    · simp at h
  · split at h
    · refine absurd (List.mem_singleton.mp h) (userFileLine_ne ?_)
      cases l.satisfyAny <;> decide
    · simp at h

end Named

/-! ### Its users -/

lemma fits_pair (c : AccessCredential) : Htpasswd.Fits c.pair :=
  ⟨c.usernameOk.2.1, c.usernameOk.2.2, c.passwordHashOk.2⟩

/-- `render_htpasswd` writes a line for each credential. -/
lemma toList_renderHtpasswd (l : AccessList) :
    (renderHtpasswd l).toList = Htpasswd.text (l.credentials.map AccessCredential.pair) := by
  rw [renderHtpasswd, Htpasswd.text]
  induction l.credentials with
  | nil => rfl
  | cons c rest ih =>
    rw [List.map_cons, String.join_cons, String.toList_append, ih, List.map_cons,
      List.flatMap_cons]
    congr 1
    show (c.username ++ ":" ++ c.passwordHash ++ "\n").toList = _
    simp [Htpasswd.line, AccessCredential.pair]

/-- The users of a password file are those of its access list. -/
lemma records_renderHtpasswd (l : AccessList) :
    Htpasswd.records (renderHtpasswd l).toList = l.credentials.map AccessCredential.pair := by
  rw [toList_renderHtpasswd]
  exact Htpasswd.records_text (List.forall_mem_map.mpr fun c _ => fits_pair c)

/-- The file holds the users of the policy. -/
def HoldsUsers (text : String) (policy : AccessList) : Prop :=
  ∀ user, user ∈ Htpasswd.records text.toList ↔ user ∈ policy.credentials.map AccessCredential.pair

section Users

variable {platform : PlatformConfig} {input : RenderInput} {files : Files} {host : RuntimeHost}
variable {policy : AccessList}

/-- A policy that is made of one access list keeps its id and its users. -/
lemma policy_of_single {l : AccessList} (h : mergeAccessLists [l] = .ok (some policy)) :
    policy.id = l.id ∧ HoldsUsers (renderHtpasswd l) policy := by
  refine ⟨?_, fun user => ?_⟩
  · have hordered : sortedBy natLe AccessList.id [l] = [l] := rfl
    unfold mergeAccessLists at h
    simp only [hordered, bind_eq_ok_iff, pure_eq_ok_iff, Option.some.injEq] at h
    obtain ⟨_, _, merged, hmerged, rfl⟩ := h
    exact (AccessList.validate_eq_ok hmerged).1
  · rw [records_renderHtpasswd, List.mem_map, List.mem_map]
    simp only [(merged_of_mergeAccessLists h).credentials, List.mem_singleton, exists_eq_left]

lemma userFile_passwordFile {selected : List AccessList} (h : 1 < selected.length) :
    userFile policy (passwordFile host selected) = "proxy-host-" ++ toString host.id := by
  have hfile : passwordFile host selected = some ("proxy-host-" ++ toString host.id) := if_pos h
  rw [userFile, hfile, Option.filter_some, if_pos (by simp), Option.getD_some]

variable (platform) in
/-- The file that the access lines of a host name is one that the render makes, and it holds the
users of the policy. -/
lemma exists_fileText_userFile (hhost : host ∈ input.proxyHosts)
    (hids : (input.accessLists.map AccessList.id).Nodup)
    (h : effectivePolicy (accessById input.accessLists) host = .ok (some policy)) :
    ∃ kind id text, "access/" ++ userFile policy (passwordFile host (selectedOf input host)) =
        FileKind.name kind id ∧
      FileText platform input id text kind ∧ HoldsUsers text policy := by
  by_cases hmany : 1 < (selectedOf input host).length
  · refine ⟨.merged, host.id, renderHtpasswd policy, ?_,
      ⟨host, hhost, rfl, hmany, policy, h, rfl⟩, fun user => by rw [records_renderHtpasswd]⟩
    rw [FileKind.name_merged, userFile_passwordFile hmany]
  · have hne : selectedOf input host ≠ [] := by
      intro hnil
      exact nomatch h.symm.trans (mergeAccessLists_eq_none.mpr hnil)
    obtain ⟨l, hl⟩ : ∃ l, selectedOf input host = [l] := by
      rw [← List.length_eq_one_iff]
      have := List.length_pos_iff.mpr hne
      omega
    have hmem : l ∈ input.accessLists := by
      have hselected : l ∈ selectedOf input host := hl ▸ List.mem_singleton_self l
      exact ((mem_selectedLists hids).mp hselected).1
    obtain ⟨hid, husers⟩ := policy_of_single (hl ▸ h : mergeAccessLists [l] = .ok (some policy))
    refine ⟨.list, l.id, renderHtpasswd l, ?_, ⟨l, hmem, rfl, rfl⟩, husers⟩
    rw [FileKind.name_list, passwordFile, if_neg hmany, ← hid]
    rfl

/-- The texts of hosts and access lists all are in a generation under their names, which tell them
apart, and the password file that a proxy host names is the one with the users of its policy. -/
theorem passwordFiles_of_render (hids : DistinctIds input) (h : render platform input = .ok files) :
    (∀ kind id text, FileText platform input id text kind →
      files.get? (FileKind.name kind id) = some text) ∧
    ∀ host ∈ input.proxyHosts, ∃ effective,
      effectivePolicy (accessById input.accessLists) host = .ok effective ∧
      files.get? (proxyName host) = some (renderProxy platform host effective
        (passwordFile host (selectedOf input host))) ∧
      ∀ path, userFileLine path ∈
          accessLines effective (passwordFile host (selectedOf input host)) →
        ∃ policy text, effective = some policy ∧ files.get? path = some text ∧
          HoldsUsers text policy := by
  refine ⟨fun _ _ _ htext => get?_fileText hids h htext, fun host hhost => ?_⟩
  obtain ⟨effective, heffective, hproxy⟩ := get?_render h hids.proxyHosts hhost
  refine ⟨effective, heffective, hproxy, fun path hpath => ?_⟩
  cases effective with
  | none => simp [accessLines] at hpath
  | some policy =>
    obtain ⟨kind, id, text, hname, htext, husers⟩ :=
      exists_fileText_userFile platform hhost hids.accessLists heffective
    refine ⟨policy, text, rfl, ?_, husers⟩
    rw [path_eq_of_mem hpath, hname]
    exact get?_fileText hids h htext

end Users

/-! ### A host with two access lists -/

/-- A list with one user. -/
def staffList : AccessList :=
  ⟨1, "staff", [⟨"anna", "$1$a", by decide, by decide⟩], [], false, false, Nat.one_pos, by decide⟩

/-- Another list with one user. -/
def guestList : AccessList :=
  ⟨2, "guests", [⟨"ben", "$1$b", by decide, by decide⟩], [], false, false, Nat.two_pos, by decide⟩

/-- A host that selects both. -/
def teamHost : RuntimeHost :=
  { id := 7, kind := .proxy, domainNames := ["team.example"], accessListIds := [2, 1] }

/-- The input with the host and the lists. -/
def teamInput : RenderInput := { proxyHosts := [teamHost], accessLists := [staffList, guestList] }

/-- The policy of the host. -/
def teamPolicy : AccessList :=
  { staffList with
    name := "staff + guests"
    credentials := staffList.credentials ++ guestList.credentials
    nameGiven := by decide }

lemma effectivePolicy_team :
    effectivePolicy (accessById teamInput.accessLists) teamHost = .ok (some teamPolicy) := by
  decide

theorem passwordFiles_team : ∃ files, render {} teamInput = .ok files ∧
    ∃ text, files.get? "access/proxy-host-7" = some text ∧ HoldsUsers text teamPolicy := by
  have hpolicies : ∀ host ∈ teamInput.proxyHosts, ∃ policy,
      effectivePolicy (accessById teamInput.accessLists) host = .ok policy :=
    List.forall_mem_singleton.mpr ⟨_, effectivePolicy_team⟩
  obtain ⟨files, hfiles⟩ := render_ok_iff.mpr hpolicies
  have hids : DistinctIds teamInput := by constructor <;> decide
  obtain ⟨-, hhosts⟩ := passwordFiles_of_render hids hfiles
  obtain ⟨effective, heffective, -, hpaths⟩ := hhosts teamHost (List.mem_singleton_self _)
  obtain rfl := Except.ok.inj (effectivePolicy_team.symm.trans heffective)
  obtain ⟨policy, text, hpolicy, hget, husers⟩ := hpaths "access/proxy-host-7" (by decide)
  obtain rfl := Option.some.inj hpolicy
  exact ⟨files, hfiles, text, hget, husers⟩

end Portwyrm.Runtime

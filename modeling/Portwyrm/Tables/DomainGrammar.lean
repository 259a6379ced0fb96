import Portwyrm.Tables.WrittenRows

/-!
# The grammar of domain names

What `canonical_domains` makes of a list of names, against the grammar that the renderer and the
column of `RoutingSourceStore` count on: labels of lower-case ASCII letters, digits and hyphens,
in at most 253 characters with the wildcard in front.
-/

namespace Portwyrm.Tables

open Base Portwyrm.Quic

/-! ## The grammar -/

/-- A lower-case ASCII letter or a digit. -/
def IsLetterDigit (c : Char) : Prop :=
  (97 ≤ c.toNat ∧ c.toNat ≤ 122) ∨ (48 ≤ c.toNat ∧ c.toNat ≤ 57)

/-- A label of letters, digits and hyphens, with no hyphen at its ends. -/
structure LdhLabel (l : List Char) : Prop where
  ne_nil : l ≠ []
  length_le : l.length ≤ 63
  chars : ∀ c ∈ l, IsLetterDigit c ∨ c = '-'
  head : l.head? ≠ some '-'
  last : l.getLast? ≠ some '-'

/-- Labels, at least two, joined by dots. -/
def JoinedLabels (l : List Char) : Prop :=
  ∃ labels : List (List Char), 2 ≤ labels.length ∧ (∀ label ∈ labels, LdhLabel label) ∧
    l = ['.'].intercalate labels

/-- A name of the grammar: joined labels, perhaps behind a wildcard, that fit the column. -/
structure GrammarName (l : List Char) : Prop where
  spelled : JoinedLabels l ∨ ∃ body, l = '*' :: '.' :: body ∧ JoinedLabels body
  length_le : l.length ≤ 253

/-- The normal form of one name: stripped, without the dots at its end, folded. -/
def normalName (raw : String) : String := Text.casefold (rstripDots (Text.strip raw))

/-- What a list of names asks of its normal form. -/
structure NormalForm (values domains : List String) : Prop where
  count : 1 ≤ domains.length ∧ domains.length ≤ 100
  nodup : domains.Nodup
  /-- Each name stands in the place of the name it was made from. -/
  order : domains = values.map normalName
  names : ∀ name ∈ domains, GrammarName name.toList
  again : canonicalDomains domains = .ok domains

/-! ## Labels and names of the pattern -/

/-- Without regard to case, `[a-z0-9]` has this one letter more. -/
def dotlessI : Char := Char.ofNat 0x131

lemma isAlnum_iff {c : Char} : isAlnum c = true ↔ IsLetterDigit c ∨ c = dotlessI := by
  have hdotless : c = dotlessI ↔ c.toNat = 0x131 :=
    ⟨fun h => h ▸ by decide, fun h => by rw [← Char.ofNat_toNat c, h, dotlessI]⟩
  rw [hdotless]
  simp [isAlnum, IsLetterDigit]

lemma ldhLabel_iff {l : List Char} : LdhLabel l ↔ IsLabel l ∧ dotlessI ∉ l := by
  have hchar : ∀ c, isAlnum c = true → c ≠ '-' := by
    rintro c hc rfl
    exact absurd hc (by decide)
  constructor
  · intro h
    have halnum : ∀ c ∈ l, c ≠ '-' → isAlnum c = true := fun c hc hne =>
      isAlnum_iff.mpr (.inl ((h.chars c hc).resolve_right hne))
    refine ⟨⟨h.ne_nil, h.length_le, fun c hc => ?_, fun c hc => ?_, fun c hc => ?_⟩, ?_⟩
    · exact halnum c (List.mem_of_mem_head? hc) fun heq => h.head (heq ▸ hc)
    · exact halnum c (List.mem_of_mem_getLast? hc) fun heq => h.last (heq ▸ hc)
    · exact (h.chars c hc).imp (fun hld => isAlnum_iff.mpr (.inl hld)) (fun heq => heq)
    · intro hmem
      rcases h.chars _ hmem with hld | heq
      · exact absurd hld (by unfold IsLetterDigit; decide)
      · exact absurd heq (by decide)
  · rintro ⟨⟨hne, hlength, hhead, hlast, hchars⟩, hdotless⟩
    refine ⟨hne, hlength, fun c hc => ?_, fun h => ?_, fun h => ?_⟩
    · refine (hchars c hc).imp (fun halnum => ?_) (fun heq => heq)
      exact (isAlnum_iff.mp halnum).resolve_right fun heq => hdotless (heq ▸ hc)
    · exact hchar _ (hhead '-' h) rfl
    · exact hchar _ (hlast '-' h) rfl

lemma mem_of_mem_splitOn {sep c : Char} {l part : List Char} (hpart : part ∈ l.splitOn sep)
    (hc : c ∈ part) : c ∈ l := by
  rw [show l = [sep].intercalate (l.splitOn sep) from (List.intercalate_splitOn sep).symm]
  generalize l.splitOn sep = parts at hpart
  induction parts with
  | nil => simp at hpart
  | cons first rest ih =>
    rcases eq_or_ne rest [] with rfl | hne
    · obtain rfl : part = first := by simpa using hpart
      simpa using hc
    · rw [List.intercalate_cons_of_ne_nil hne]
      rcases List.mem_cons.mp hpart with rfl | hrest
      · simp [hc]
      · simp [ih hrest]

lemma joined_iff {l : List Char} : JoinedLabels l ↔
    2 ≤ (l.splitOn '.').length ∧ (∀ label ∈ l.splitOn '.', IsLabel label) ∧ dotlessI ∉ l := by
  constructor
  · rintro ⟨labels, hcount, hlabels, rfl⟩
    have hdot : ∀ label ∈ labels, '.' ∉ label := by
      intro label hlabel hmem
      rcases (hlabels label hlabel).chars _ hmem with hld | heq
      · exact absurd hld (by unfold IsLetterDigit; decide)
      · exact absurd heq (by decide)
    have hsplit : (['.'].intercalate labels).splitOn '.' = labels :=
      List.splitOn_intercalate '.' hdot fun hnil => by simp [hnil] at hcount
    rw [hsplit]
    refine ⟨hcount, fun label hlabel => (ldhLabel_iff.mp (hlabels label hlabel)).1, fun hmem => ?_⟩
    rcases mem_splitOn '.' hmem with heq | ⟨part, hpart, hin⟩
    · exact absurd heq (by decide)
    · rw [hsplit] at hpart
      exact (ldhLabel_iff.mp (hlabels part hpart)).2 hin
  · rintro ⟨hcount, hlabels, hdotless⟩
    refine ⟨l.splitOn '.', hcount, fun label hlabel => ?_, (List.intercalate_splitOn '.').symm⟩
    exact ldhLabel_iff.mpr ⟨hlabels label hlabel, fun hmem =>
      hdotless (mem_of_mem_splitOn hlabel hmem)⟩

lemma mem_joined {l : List Char} (h : JoinedLabels l) {c : Char} (hc : c ∈ l) :
    c = '.' ∨ c = '-' ∨ IsLetterDigit c := by
  obtain ⟨-, hlabels, hdotless⟩ := joined_iff.mp h
  rcases mem_splitOn '.' hc with heq | ⟨part, hpart, hmem⟩
  · exact .inl heq
  · have hlabel : LdhLabel part := ldhLabel_iff.mpr
      ⟨hlabels part hpart, fun hin => hdotless (mem_of_mem_splitOn hpart hin)⟩
    exact .inr (hlabel.chars c hmem).symm

lemma ne_dot_of_mem_ldhLabel {l : List Char} (h : LdhLabel l) {c : Char} (hc : c ∈ l) :
    c ≠ '.' := by
  rintro rfl
  rcases h.chars _ hc with hld | heq
  · exact absurd hld (by unfold IsLetterDigit; decide)
  · exact absurd heq (by decide)

lemma intercalate_ldhLabels_ne_nil {labels : List (List Char)} (hne : labels ≠ [])
    (h : ∀ label ∈ labels, LdhLabel label) : ['.'].intercalate labels ≠ [] := by
  obtain ⟨first, rest, rfl⟩ := List.exists_cons_of_ne_nil hne
  have hfirst : first ≠ [] := (h first (by simp)).ne_nil
  cases rest with
  | nil => simpa using hfirst
  | cons second rest => simp [List.intercalate_cons_of_ne_nil, hfirst]

/-- JoinedLabels labels do not end in a dot. -/
lemma getLast?_ne_dot_of_joined {l : List Char} (h : JoinedLabels l) : l.getLast? ≠ some '.' := by
  obtain ⟨labels, -, hlabels, rfl⟩ := h
  induction labels with
  | nil => simp
  | cons first rest ih =>
    rcases eq_or_ne rest [] with rfl | hne
    · intro hlast
      rw [List.intercalate_singleton] at hlast
      exact ne_dot_of_mem_ldhLabel (hlabels first (by simp)) (List.mem_of_mem_getLast? hlast) rfl
    · have hrest : ∀ label ∈ rest, LdhLabel label := fun label hmem =>
        hlabels label (List.mem_cons_of_mem _ hmem)
      have hsome := List.getLast?_isSome.mpr (intercalate_ldhLabels_ne_nil hne hrest)
      obtain ⟨c, hc⟩ := Option.isSome_iff_exists.mp hsome
      rw [List.intercalate_cons_of_ne_nil hne, List.getLast?_append, hc, Option.some_or, ← hc]
      exact ih hrest

lemma dropDot_of_last {l : List Char} (h : l.getLast? ≠ some '.') : dropDot l = l := if_neg h

lemma domainBody_eq_self {l : List Char} (h : ∀ body, l ≠ '*' :: '.' :: body) :
    domainBody l = l := by
  unfold domainBody
  split
  · rename_i body
    exact absurd rfl (h body)
  · rfl

/-- A name of the grammar ends in a letter or a digit. -/
lemma GrammarName.last {l : List Char} (h : GrammarName l) : l.getLast? ≠ some '.' := by
  rcases h.spelled with hjoined | ⟨body, rfl, hjoined⟩
  · exact getLast?_ne_dot_of_joined hjoined
  · cases body with
    | nil =>
      have := (joined_iff.mp hjoined).1
      exact absurd this (by decide)
    | cons c body => simpa using getLast?_ne_dot_of_joined hjoined

/-- The pattern accepts two kinds of names outside the grammar: with a dotless i, and with a
wildcard in front of more than 251 characters. -/
lemma grammarName_iff {l : List Char} (hlast : l.getLast? ≠ some '.') :
    GrammarName l ↔ Quic.IsDomain l ∧ dotlessI ∉ l ∧ l.length ≤ 253 := by
  by_cases hwild : ∃ body, l = '*' :: '.' :: body
  · obtain ⟨body, rfl⟩ := hwild
    have hbody : dropDot (domainBody ('*' :: '.' :: body)) = body := by
      refine dropDot_of_last ?_
      cases body with
      | nil => simp [domainBody]
      | cons c body => simpa [domainBody] using hlast
    have hjoined : ¬ JoinedLabels ('*' :: '.' :: body) := fun hjoined => by
      rcases mem_joined hjoined (List.mem_cons_self) with heq | heq | hld
      · exact absurd heq (by decide)
      · exact absurd heq (by decide)
      · exact absurd hld (by unfold IsLetterDigit; decide)
    have hdotless : dotlessI ∉ '*' :: '.' :: body ↔ dotlessI ∉ body := by
      simp [show dotlessI ≠ '*' by decide, show dotlessI ≠ '.' by decide]
    rw [Quic.IsDomain, hbody, hdotless]
    constructor
    · rintro ⟨hspelled, hlength⟩
      obtain ⟨body', heq, hbody'⟩ := hspelled.resolve_left hjoined
      obtain rfl : body = body' := by simpa using heq
      obtain ⟨hcount, hlabels, hplain⟩ := joined_iff.mp hbody'
      simp only [List.length_cons] at hlength ⊢
      exact ⟨⟨by omega, hcount, hlabels⟩, hplain, hlength⟩
    · rintro ⟨⟨-, hcount, hlabels⟩, hplain, hlength⟩
      exact ⟨.inr ⟨body, rfl, joined_iff.mpr ⟨hcount, hlabels, hplain⟩⟩, hlength⟩
  · have hbody : dropDot (domainBody l) = l := by
      rw [domainBody_eq_self fun body heq => hwild ⟨body, heq⟩, dropDot_of_last hlast]
    rw [Quic.IsDomain, hbody]
    constructor
    · rintro ⟨hspelled, hlength⟩
      have hjoined := hspelled.resolve_right fun ⟨body, heq, _⟩ => hwild ⟨body, heq⟩
      obtain ⟨hcount, hlabels, hdotless⟩ := joined_iff.mp hjoined
      exact ⟨⟨hlength, hcount, hlabels⟩, hdotless, hlength⟩
    · rintro ⟨⟨-, hcount, hlabels⟩, hdotless, hlength⟩
      exact ⟨.inl (joined_iff.mpr ⟨hcount, hlabels, hdotless⟩), hlength⟩

/-! ## Folding -/

lemma mem_dropWhile {α : Type} {p : α → Bool} {a : α} {l : List α} (ha : a ∈ l)
    (hp : p a = false) : a ∈ l.dropWhile p := by
  induction l with
  | nil => exact ha
  | cons b l ih =>
    rw [List.dropWhile_cons]
    split
    · rename_i hb
      rcases List.mem_cons.mp ha with rfl | ha
      · exact absurd hb (by simp [hp])
      · exact ih ha
    · exact ha

lemma mem_rdropWhile {α : Type} {p : α → Bool} {a : α} {l : List α} (ha : a ∈ l)
    (hp : p a = false) : a ∈ l.rdropWhile p :=
  List.mem_reverse.mpr (mem_dropWhile (List.mem_reverse.mpr ha) hp)

/-- Stripping takes blanks and dots away, no letter. -/
lemma dotlessI_mem_stripped {raw : String} :
    dotlessI ∈ (rstripDots (Text.strip raw)).toList ↔ dotlessI ∈ raw.toList := by
  rw [rstripDots, Text.strip, String.toList_ofList, String.toList_ofList]
  constructor
  · intro h
    have h := (List.rdropWhile_prefix _ _).subset h
    have h := (List.rdropWhile_prefix _ _).subset h
    exact (List.dropWhile_suffix _).subset h
  · intro h
    exact mem_rdropWhile (mem_rdropWhile (mem_dropWhile h (by decide)) (by decide)) (by decide)

lemma eq_of_mem_foldChar {c d : Char} (h : d ∈ Text.foldChar c) (hd : d = dotlessI ∨ d = '*') :
    c = d := by
  rcases Text.foldChar_cases c with ⟨e, he, hf⟩ | hf
  · have hall : (Text.asciiFoldings.all fun e =>
        e.2.all fun d => d ≠ dotlessI ∧ d ≠ '*') = true := by decide
    simp only [List.all_eq_true, decide_eq_true_eq] at hall
    have := hall e he d (hf ▸ h)
    exact absurd hd (by simp [this])
  · obtain rfl : d = c.toLower := by simpa [hf] using h
    by_cases hu : c.isUpper = true
    · obtain ⟨n, hn, rfl⟩ := Text.exists_of_isUpper hu
      have hall : ∀ n ∈ List.range' 65 26,
          ¬ ((Char.ofNat n).toLower = dotlessI ∨ (Char.ofNat n).toLower = '*') := by decide
      exact absurd hd (hall n hn)
    · exact (Text.toLower_of_not_isUpper hu).symm

/-- A name has a dotless i in its normal form when it has one. -/
lemma dotlessI_mem_normalName {raw : String} :
    dotlessI ∈ (normalName raw).toList ↔ dotlessI ∈ raw.toList := by
  refine Iff.trans ?_ dotlessI_mem_stripped
  rw [normalName, Text.casefold, String.toList_ofList, List.mem_flatMap]
  constructor
  · rintro ⟨c, hc, hmem⟩
    exact eq_of_mem_foldChar hmem (.inl rfl) ▸ hc
  · intro h
    exact ⟨dotlessI, h, by decide⟩

/-- A wildcard comes from a wildcard. -/
lemma wildcard_of_normalName {raw : String} {body : List Char}
    (h : (normalName raw).toList = '*' :: '.' :: body) :
    ∃ rest, (rstripDots (Text.strip raw)).toList = '*' :: '.' :: rest := by
  rw [normalName, Text.casefold, String.toList_ofList] at h
  have hstar : Text.foldChar '*' = ['*'] := by decide
  cases hl : (rstripDots (Text.strip raw)).toList with
  | nil => simp [hl] at h
  | cons c l =>
    rw [hl, List.flatMap_cons] at h
    obtain ⟨d, tail, hfold⟩ := List.exists_cons_of_ne_nil (Text.foldChar_ne_nil c)
    rw [hfold, List.cons_append, List.cons.injEq] at h
    obtain rfl : c = '*' := eq_of_mem_foldChar (by simp [hfold, h.1]) (.inr rfl)
    obtain ⟨rfl, rfl⟩ : '*' = d ∧ [] = tail := by simpa using hstar.symm.trans hfold
    cases l with
    | nil => simp at h
    | cons c' l =>
      rw [List.flatMap_cons] at h
      obtain ⟨d', tail', hfold'⟩ := List.exists_cons_of_ne_nil (Text.foldChar_ne_nil c')
      rw [hfold', List.nil_append, List.cons_append, List.cons.injEq] at h
      refine ⟨l, ?_⟩
      by_contra hne
      have hdot : c' ≠ '.' := fun heq => hne (by rw [heq])
      exact ne_dot_of_mem_foldChar (by rw [hfold']; exact List.mem_cons_self) hdot h.2.1

lemma getLast?_normalName (raw : String) : (normalName raw).toList.getLast? ≠ some '.' := by
  intro h
  have hself : rstripDots (normalName raw) = normalName raw := rstripDots_casefold _
  rw [← hself, rstripDots, String.toList_ofList] at h
  have hne : (normalName raw).toList.rdropWhile (· = '.') ≠ [] := fun hnil => by simp [hnil] at h
  rw [List.getLast?_eq_some_getLast hne, Option.some.injEq] at h
  exact absurd h (by simpa using List.rdropWhile_last_not (· = '.') _ hne)

/-- A name that the pattern accepts, without a dot at its end, is its own normal form. -/
lemma normalName_of_isDomain {name : String} (h : Quic.IsDomain name.toList)
    (hlast : name.toList.getLast? ≠ some '.') : normalName name = name := by
  have hchars := fun c hc => isDomainChar_of_mem h (c := c) hc
  have hdots : rstripDots name = name := by
    rw [rstripDots, List.rdropWhile_eq_self_iff.mpr, String.ofList_toList]
    intro hne
    rw [List.getLast?_eq_some_getLast hne] at hlast
    simpa using hlast
  rw [normalName, stripped_of_isDomainChar hchars, hdots, casefold_of_isDomainChar hchars]

/-! ## Lists of names -/

/-- The names collected are the normal forms of the names given, in their order. -/
lemma collectDomains_eq_ok_iff {domains values collected : List String} :
    collectDomains domains values = .ok collected ↔
      (∀ raw ∈ values, Quic.IsDomain (normalName raw).toList) ∧
        (∀ name ∈ values.map normalName, name ∉ domains) ∧ (values.map normalName).Nodup ∧
        collected = domains ++ values.map normalName := by
  induction values generalizing domains with
  | nil => rw [collectDomains, pure_eq_ok_iff]; simp [eq_comm]
  | cons raw rest ih =>
    simp only [collectDomains, bind_eq_ok_iff, raiseIf_eq_ok_iff, canonicalDomain_eq_ok_iff, ih]
    rw [List.map_cons, List.nodup_cons, List.forall_mem_cons, List.forall_mem_cons]
    constructor
    · rintro ⟨domain, ⟨hname, rfl⟩, -, hnew, hnames, hdisjoint, hnodup, rfl⟩
      refine ⟨⟨hname, hnames⟩, ⟨hnew, fun name hmem hin => ?_⟩, ⟨fun hmem => ?_, hnodup⟩, ?_⟩
      · exact hdisjoint name hmem (List.mem_append_left _ hin)
      · exact hdisjoint _ hmem (List.mem_append_right _ (List.mem_singleton_self _))
      · simp [normalName]
    · rintro ⟨⟨hname, hnames⟩, ⟨hnew, hdisjoint⟩, ⟨hraw, hnodup⟩, rfl⟩
      refine ⟨_, ⟨hname, rfl⟩, (), hnew, hnames, fun name hmem hin => ?_, hnodup, ?_⟩
      · rcases List.mem_append.mp hin with hin | hin
        · exact hdisjoint name hmem hin
        · rw [List.mem_singleton.mp hin] at hmem
          exact hraw hmem
      · simp [normalName]

/-- What `canonical_domains` accepts, and what it returns. -/
lemma canonicalDomains_eq_ok_iff {values domains : List String} :
    canonicalDomains values = .ok domains ↔
      (∀ raw ∈ values, Quic.IsDomain (normalName raw).toList) ∧ (values.map normalName).Nodup ∧
        (1 ≤ values.length ∧ values.length ≤ 100) ∧ domains = values.map normalName := by
  simp only [canonicalDomains, bind_eq_ok_iff, raiseIf_eq_ok_iff, not_not, pure_eq_ok_iff,
    collectDomains_eq_ok_iff]
  constructor
  · rintro ⟨collected, ⟨hnames, -, hnodup, rfl⟩, -, hcount, rfl⟩
    exact ⟨hnames, hnodup, by simpa using hcount, by simp⟩
  · rintro ⟨hnames, hnodup, hcount, rfl⟩
    exact ⟨_, ⟨hnames, by simp, hnodup, rfl⟩, (), by simpa using hcount, by simp⟩

/-- Names of the grammar are accepted as they are. -/
lemma canonicalDomains_of_grammar {values : List String} (hnodup : values.Nodup)
    (hcount : 1 ≤ values.length ∧ values.length ≤ 100)
    (hnames : ∀ name ∈ values, GrammarName name.toList) : canonicalDomains values = .ok values := by
  have hdomain : ∀ name ∈ values, Quic.IsDomain name.toList := fun name hmem =>
    ((grammarName_iff (hnames name hmem).last).mp (hnames name hmem)).1
  have hself : ∀ name ∈ values, normalName name = name := fun name hmem =>
    normalName_of_isDomain (hdomain name hmem) (hnames name hmem).last
  have hmap : values.map normalName = values :=
    (List.map_congr_left hself).trans (List.map_id values)
  refine canonicalDomains_eq_ok_iff.mpr ⟨fun name hmem => ?_, by rwa [hmap], hcount, hmap.symm⟩
  rw [hself name hmem]
  exact hdomain name hmem

/-- A name whose normal form is in the grammar, once the pattern accepts it: it has no dotless i,
and if it is a wildcard then its folding fits the column. -/
structure Fitting (raw : String) : Prop where
  dotless : dotlessI ∉ raw.toList
  wildcard : ∀ rest, (rstripDots (Text.strip raw)).toList = '*' :: '.' :: rest →
    (Text.casefold (rstripDots (Text.strip raw))).length ≤ 253

lemma grammarName_normalName_iff {raw : String} (h : Quic.IsDomain (normalName raw).toList) :
    GrammarName (normalName raw).toList ↔ Fitting raw := by
  rw [grammarName_iff (getLast?_normalName raw), dotlessI_mem_normalName, String.length_toList]
  constructor
  · rintro ⟨-, hdotless, hlength⟩
    exact ⟨hdotless, fun _ _ => hlength⟩
  · rintro ⟨hdotless, hwildcard⟩
    refine ⟨h, hdotless, ?_⟩
    by_cases hwild : ∃ body, (normalName raw).toList = '*' :: '.' :: body
    · obtain ⟨body, hbody⟩ := hwild
      obtain ⟨rest, hrest⟩ := wildcard_of_normalName hbody
      exact hwildcard rest hrest
    · -- without a wildcard the look-ahead sees the whole name
      have hlength := h.1
      rw [domainBody_eq_self fun body heq => hwild ⟨body, heq⟩,
        dropDot_of_last (getLast?_normalName raw), String.length_toList] at hlength
      exact hlength

/-- Names of the grammar are never rejected, and an accepted list has its normal form in the
grammar exactly when each of its names is fitting. -/
theorem canonicalDomains_grammar_iff (values : List String) :
    (values.Nodup → 1 ≤ values.length ∧ values.length ≤ 100 →
      (∀ name ∈ values, GrammarName name.toList) → canonicalDomains values = .ok values) ∧
    ∀ domains, canonicalDomains values = .ok domains →
      (NormalForm values domains ↔ ∀ raw ∈ values, Fitting raw) := by
  refine ⟨canonicalDomains_of_grammar, fun domains h => ?_⟩
  have hagain := canonicalDomains_idem h
  obtain ⟨hnames, hnodup, hcount, rfl⟩ := canonicalDomains_eq_ok_iff.mp h
  have hname : ∀ raw ∈ values, GrammarName (normalName raw).toList ↔ Fitting raw :=
    fun raw hraw => grammarName_normalName_iff (hnames raw hraw)
  constructor
  · intro hform raw hraw
    exact (hname raw hraw).mp (hform.names _ (List.mem_map_of_mem hraw))
  · intro hfitting
    refine ⟨by simpa using hcount, hnodup, rfl, fun name hmem => ?_, hagain⟩
    obtain ⟨raw, hraw, rfl⟩ := List.mem_map.mp hmem
    exact (hname raw hraw).mpr (hfitting raw hraw)

/-- Two names, one of them given in upper case with a dot at its end. -/
theorem canonicalDomains_grammar_iff_example :
    canonicalDomains ["*.example.org", "a.b"] = .ok ["*.example.org", "a.b"] ∧
      (NormalForm ["Example.ORG."] ["example.org"] ↔ ∀ raw ∈ ["Example.ORG."], Fitting raw) := by
  refine ⟨(canonicalDomains_grammar_iff _).1 (by decide) (by decide) fun name hname => ?_,
    (canonicalDomains_grammar_iff _).2 _ (by decide)⟩
  refine (grammarName_iff ?_).mpr ?_
  · revert name
    decide
  · revert name
    decide

/-- A name of 253 characters behind a wildcard. -/
def wideWildcard : List Char :=
  '*' :: '.' :: ['.'].intercalate
    [List.replicate 63 'a', List.replicate 63 'a', List.replicate 63 'a', List.replicate 61 'a']

/-- A name with a letter outside ASCII and a wildcard of 255 characters are accepted, and are no
names of the grammar. -/
theorem dotlessName_accepted :
    (∃ domains, canonicalDomains ["\u0131.example"] = .ok domains ∧
      ¬ NormalForm ["\u0131.example"] domains) ∧
    ∃ domains, canonicalDomains [String.ofList wideWildcard] = .ok domains ∧
      ¬ NormalForm [String.ofList wideWildcard] domains := by
  constructor
  · refine ⟨["\u0131.example"], by decide, fun h => ?_⟩
    have hname := h.names _ (List.mem_singleton_self _)
    exact ((grammarName_iff hname.last).mp hname).2.1 (by decide)
  · have hdomain : Quic.IsDomain wideWildcard := by decide +kernel
    have hself : normalName (String.ofList wideWildcard) = String.ofList wideWildcard :=
      normalName_of_isDomain (by rwa [String.toList_ofList])
        (by rw [String.toList_ofList]; decide)
    refine ⟨[String.ofList wideWildcard], canonicalDomains_eq_ok_iff.mpr ?_, fun h => ?_⟩
    · simp [hself, hdomain]
    · have hname := h.names _ (List.mem_singleton_self _)
      rw [String.toList_ofList] at hname
      exact absurd hname.length_le (by decide +kernel)

end Portwyrm.Tables

import Mathlib.Data.List.Perm.Basic
import Mathlib.Data.Nat.Notation
import Mathlib.Tactic.Lemma

/-!
# Records that are written one by one

A list of records is written to a store, every record in a transaction of its own: a record that is
refused ends the run, and the records before it stay written.  A dry run looks all records up in the
store as it is before the first of them.  The two agree when every record is accepted at its turn
and finds there what the dry run has found.
-/

namespace Portwyrm.Base

/-- What is stored under the key of a record. -/
inductive Finding
  | absent
  | equal
  | different
deriving DecidableEq, Repr

/-- A store that records are written to. -/
structure RecordStore (σ ρ ε : Type) where
  /-- What is found under the key of a record. -/
  find : σ → ρ → Except ε Finding
  /-- Whether a record is written, after what is found under its key, or refused. -/
  writes : ρ → Finding → Except ε Bool
  /-- Write a record, after what is found under its key. -/
  write : Finding → ρ → σ → Except ε σ

namespace RecordStore

variable {σ ρ ε : Type} (S : RecordStore σ ρ ε)

/-- The finding for a record that is not refused before it is written. -/
def check (s : σ) (r : ρ) : Except ε Finding := do
  let found ← S.find s r
  let _ ← S.writes r found
  pure found

/-- One record: the finding, and the store afterwards. -/
def apply (s : σ) (r : ρ) : Except ε (Finding × σ) := do
  let found ← S.find s r
  if ← S.writes r found then do
    let s' ← S.write found r s
    pure (found, s')
  else pure (found, s)

/-- The findings for all records in one store. -/
def dryRun (s : σ) (records : List ρ) : Except ε (List Finding) := records.mapM (S.check s)

/-- The records are written: the findings, and the store afterwards. -/
def run (s : σ) : List ρ → Except ε (List Finding) × σ
  | [] => (.ok [], s)
  | r :: rest =>
    match S.apply s r with
    | .error e => (.error e, s)
    | .ok (found, s') => ((run s' rest).1.map (found :: ·), (run s' rest).2)

/-- The records that a run comes to, each with the store that it meets. -/
def turns (s : σ) : List ρ → List (σ × ρ)
  | [] => []
  | r :: rest =>
    (s, r) :: match S.apply s r with
      | .error _ => []
      | .ok (_, s') => turns s' rest

/-- A record is accepted. -/
def Accepts (s : σ) (r : ρ) : Prop := ∃ x, S.apply s r = .ok x

/-- What a record finds is `found`. -/
def Finds (found : Finding) (s : σ) (r : ρ) : Prop := S.find s r = .ok found

instance (found : Finding) (s : σ) (r : ρ) : Decidable (S.Finds found s r) :=
  match h : S.find s r with
  | .error _ => .isFalse fun h' => nomatch h.symm.trans h'
  | .ok found' =>
    if heq : found' = found then .isTrue (heq ▸ h)
    else .isFalse fun h' => heq (Except.ok.inj (h.symm.trans h'))

/-- What is stored stays stored. -/
def Persistent : Prop :=
  ∀ s r x r', S.apply s r = .ok x → S.Finds .absent x.2 r' → S.Finds .absent s r'

/-- A dry run foresees what a run does. -/
structure Foreseen (s : σ) (records : List ρ) : Prop where
  accepted : ∀ x ∈ S.turns s records, S.Accepts x.1 x.2
  /-- No resource that is new was stored by a record before. -/
  new : ∀ x ∈ S.turns s records, S.Finds .absent s x.2 → S.Finds .absent x.1 x.2
  /-- As many records as before find an equal resource. -/
  equal : (S.turns s records).countP (fun x => S.Finds .equal x.1 x.2) =
    (S.turns s records).countP fun x => S.Finds .equal s x.2

variable {S} {s s' : σ} {r : ρ} {records : List ρ} {found : Finding} {fs fs' : List Finding}

/-! ## A run, turn by turn -/

lemma finds_of_apply {x : Finding × σ} (h : S.apply s r = .ok x) : S.Finds x.1 s r := by
  unfold Finds
  cases hfind : S.find s r with
  | error e =>
    rw [apply, hfind] at h
    exact nomatch h
  | ok found =>
    rw [apply, hfind] at h
    cases hwrites : S.writes r found with
    | error e =>
      simp [bind, Except.bind, hwrites] at h
    | ok b =>
      cases b with
      | false =>
        simp [bind, Except.bind, hwrites, pure, Except.pure] at h
        rw [← h]
      | true =>
        cases hwrite : S.write found r s with
        | error e => simp [bind, Except.bind, hwrites, hwrite] at h
        | ok s' =>
          simp [bind, Except.bind, hwrites, hwrite, pure, Except.pure] at h
          rw [← h]

lemma run_cons_of_error {e : ε} {rest : List ρ} (h : S.apply s r = .error e) :
    S.run s (r :: rest) = (.error e, s) := by
  rw [run, h]

lemma run_cons_of_ok {rest : List ρ} (h : S.apply s r = .ok (found, s')) :
    S.run s (r :: rest) = ((S.run s' rest).1.map (found :: ·), (S.run s' rest).2) := by
  rw [run, h]

lemma turns_cons_of_error {e : ε} {rest : List ρ} (h : S.apply s r = .error e) :
    S.turns s (r :: rest) = [(s, r)] := by
  rw [turns, h]

lemma turns_cons_of_ok {rest : List ρ} (h : S.apply s r = .ok (found, s')) :
    S.turns s (r :: rest) = (s, r) :: S.turns s' rest := by
  rw [turns, h]

/-- A run ends well when every record it comes to is accepted; all records are reached then, and
the findings are those at their turns. -/
theorem run_ok_iff : (∃ fs, (S.run s records).1 = .ok fs) ↔
    ∀ x ∈ S.turns s records, S.Accepts x.1 x.2 := by
  induction records generalizing s with
  | nil => exact iff_of_true ⟨[], rfl⟩ nofun
  | cons r rest ih =>
    cases happly : S.apply s r with
    | error e =>
      rw [run_cons_of_error happly, turns_cons_of_error happly]
      refine iff_of_false (fun h => nomatch h.choose_spec) fun h => ?_
      obtain ⟨x, hx⟩ := h (s, r) List.mem_cons_self
      exact nomatch happly.symm.trans hx
    | ok x =>
      obtain ⟨found, s'⟩ := x
      rw [run_cons_of_ok happly, turns_cons_of_ok happly, List.forall_mem_cons, ← ih,
        and_iff_right ⟨_, happly⟩]
      constructor
      · rintro ⟨fs, hfs⟩
        cases hrest : (S.run s' rest).1 with
        | error e =>
          rw [hrest] at hfs
          exact nomatch hfs
        | ok fs' => exact ⟨fs', rfl⟩
      · rintro ⟨fs, hfs⟩
        exact ⟨found :: fs, by rw [hfs]; rfl⟩

lemma map_snd_turns (h : ∀ x ∈ S.turns s records, S.Accepts x.1 x.2) :
    (S.turns s records).map Prod.snd = records := by
  induction records generalizing s with
  | nil => rfl
  | cons r rest ih =>
    cases happly : S.apply s r with
    | error e =>
      rw [turns_cons_of_error happly] at h
      obtain ⟨x, hx⟩ := h (s, r) List.mem_cons_self
      exact nomatch happly.symm.trans hx
    | ok x =>
      obtain ⟨found, s'⟩ := x
      rw [turns_cons_of_ok happly, List.forall_mem_cons] at h
      rw [turns_cons_of_ok happly, List.map_cons, ih h.2]

lemma forall₂_turns (h : (S.run s records).1 = .ok fs) :
    List.Forall₂ (fun found x => S.Finds found x.1 x.2) fs (S.turns s records) := by
  induction records generalizing s fs with
  | nil =>
    obtain rfl : [] = fs := Except.ok.inj h
    exact .nil
  | cons r rest ih =>
    cases happly : S.apply s r with
    | error e =>
      rw [run_cons_of_error happly] at h
      exact nomatch h
    | ok x =>
      obtain ⟨found, s'⟩ := x
      rw [run_cons_of_ok happly] at h
      rw [turns_cons_of_ok happly]
      cases hrest : (S.run s' rest).1 with
      | error e =>
        rw [hrest] at h
        exact nomatch h
      | ok fs' =>
        rw [hrest] at h
        obtain rfl : found :: fs' = fs := Except.ok.inj h
        exact .cons (finds_of_apply happly) (ih hrest)

/-- A run that is refused leaves the store alone when the record that is refused meets the store
as it was. -/
theorem run_error_iff : ((∃ fs, (S.run s records).1 = .ok fs) ∨ (S.run s records).2 = s) ↔
    ∀ x ∈ S.turns s records, ¬ S.Accepts x.1 x.2 → x.1 = s := by
  have hgeneral : ∀ (s₁ : σ), ((∃ fs, (S.run s₁ records).1 = .ok fs) ∨ (S.run s₁ records).2 = s) ↔
      ∀ x ∈ S.turns s₁ records, ¬ S.Accepts x.1 x.2 → x.1 = s := by
    induction records with
    | nil => exact fun s₁ => iff_of_true (.inl ⟨[], rfl⟩) nofun
    | cons r rest ih =>
      intro s₁
      cases happly : S.apply s₁ r with
      | error e =>
        have hrefused : ¬ S.Accepts s₁ r := fun ⟨x, hx⟩ => nomatch happly.symm.trans hx
        rw [run_cons_of_error happly, turns_cons_of_error happly, List.forall_mem_singleton]
        constructor
        · rintro (⟨fs, hfs⟩ | heq) -
          · exact nomatch hfs
          · exact heq
        · exact fun h => .inr (h hrefused)
      | ok x =>
        obtain ⟨found, s'⟩ := x
        rw [run_cons_of_ok happly, turns_cons_of_ok happly, List.forall_mem_cons, ← ih s']
        have haccepts : S.Accepts s₁ r := ⟨_, happly⟩
        rw [and_iff_right fun h => absurd haccepts h]
        refine or_congr_left ?_
        cases hrest : (S.run s' rest).1 with
        | error e =>
          exact iff_of_false (fun h => nomatch h.choose_spec) fun h => nomatch h.choose_spec
        | ok fs' => exact iff_of_true ⟨_, rfl⟩ ⟨_, rfl⟩
  exact hgeneral s

/-! ## Stages of a run -/

section Stages

variable {I : ℕ → σ → Prop} {C : ℕ → Prop}

/-- When each record leads, under its condition, from one stage to the next, a run under all
conditions ends well, and at the last stage. -/
theorem run_stages (hstep : ∀ n s r, records[n]? = some r → I n s → C n →
      ∃ found s', S.apply s r = .ok (found, s') ∧ I (n + 1) s')
    (hstart : I 0 s) (hconditions : ∀ n < records.length, C n) :
    (∃ fs, (S.run s records).1 = .ok fs) ∧ I records.length (S.run s records).2 := by
  induction records generalizing s I C with
  | nil => exact ⟨⟨[], rfl⟩, hstart⟩
  | cons r rest ih =>
    rw [List.length_cons] at hconditions ⊢
    obtain ⟨found, s', happly, hnext⟩ := hstep 0 s r rfl hstart (hconditions 0 (Nat.succ_pos _))
    have hrest : ∀ n s r, rest[n]? = some r → I (n + 1) s → C (n + 1) →
        ∃ found s', S.apply s r = .ok (found, s') ∧ I (n + 1 + 1) s' := by
      intro n s r hr
      exact hstep (n + 1) s r (List.getElem?_cons_succ.trans hr)
    obtain ⟨⟨fs, hfs⟩, hend⟩ := ih (I := fun n => I (n + 1)) (C := fun n => C (n + 1)) hrest hnext
      fun n hn => hconditions (n + 1) (Nat.succ_lt_succ hn)
    rw [run_cons_of_ok happly]
    exact ⟨⟨found :: fs, by rw [hfs]; rfl⟩, hend⟩

/-- A run that ends well meets the conditions under which its records are accepted. -/
theorem conditions_of_run (hstep : ∀ n s r, records[n]? = some r → I n s → C n →
      ∃ found s', S.apply s r = .ok (found, s') ∧ I (n + 1) s')
    (hneeds : ∀ n s r, records[n]? = some r → I n s → S.Accepts s r → C n)
    (hstart : I 0 s) (hrun : ∃ fs, (S.run s records).1 = .ok fs) :
    ∀ n < records.length, C n := by
  induction records generalizing s I C with
  | nil => exact nofun
  | cons r rest ih =>
    have haccepts : ∀ x ∈ S.turns s (r :: rest), S.Accepts x.1 x.2 := run_ok_iff.mp hrun
    have hfirst : C 0 := hneeds 0 s r rfl hstart (haccepts (s, r) List.mem_cons_self)
    obtain ⟨found, s', happly, hnext⟩ := hstep 0 s r rfl hstart hfirst
    rw [turns_cons_of_ok happly, List.forall_mem_cons] at haccepts
    have hrest := ih (I := fun n => I (n + 1)) (C := fun n => C (n + 1))
      (fun n s r hr => hstep (n + 1) s r (List.getElem?_cons_succ.trans hr))
      (fun n s r hr => hneeds (n + 1) s r (List.getElem?_cons_succ.trans hr))
      hnext (run_ok_iff.mpr haccepts.2)
    intro n hn
    cases n with
    | zero => exact hfirst
    | succ n => exact hrest n (Nat.lt_of_succ_lt_succ hn)

end Stages

/-! ## The dry run -/

lemma finds_of_check (h : S.check s r = .ok found) : S.Finds found s r := by
  unfold Finds
  cases hfind : S.find s r with
  | error e =>
    rw [check, hfind] at h
    exact nomatch h
  | ok found' =>
    rw [check, hfind] at h
    cases hwrites : S.writes r found' with
    | error e => simp [bind, Except.bind, hwrites] at h
    | ok b =>
      simp [bind, Except.bind, hwrites, pure, Except.pure] at h
      rw [h]

lemma forall₂_of_dryRun (h : S.dryRun s records = .ok fs) :
    List.Forall₂ (fun found r => S.Finds found s r) fs records := by
  induction records generalizing fs with
  | nil =>
    obtain rfl : [] = fs := Except.ok.inj h
    exact .nil
  | cons r rest ih =>
    rw [dryRun, List.mapM_cons] at h
    cases hcheck : S.check s r with
    | error e =>
      rw [hcheck] at h
      exact nomatch h
    | ok found =>
      cases hrest : rest.mapM (S.check s) with
      | error e =>
        rw [hcheck, hrest] at h
        exact nomatch h
      | ok fs' =>
        rw [hcheck, hrest] at h
        obtain rfl : found :: fs' = fs := Except.ok.inj h
        exact .cons (finds_of_check hcheck) (ih hrest)

/-! ## Counting findings -/

/-- A finding is counted where it is made. -/
lemma count_eq_countP {α : Type*} {P : Finding → α → Prop} [∀ found, DecidablePred (P found)]
    (hunique : ∀ found found' a, P found a → P found' a → found = found') {l : List α}
    (h : List.Forall₂ P fs l) (found : Finding) :
    fs.count found = l.countP fun a => P found a := by
  induction h with
  | nil => rfl
  | cons hfound _ ih =>
    rename_i found' a fs l
    rw [List.count_cons, List.countP_cons, ih]
    refine congrArg _ (if_congr ?_ rfl rfl)
    rw [beq_iff_eq, decide_eq_true_iff]
    exact ⟨fun heq => heq ▸ hfound, fun hP => hunique _ _ _ hfound hP⟩

lemma finds_unique {found found' : Finding} (h : S.Finds found s r) (h' : S.Finds found' s r) :
    found = found' :=
  Except.ok.inj (h.symm.trans h')

/-- Of two conditions, the stronger one is met as often as the weaker one only where they agree. -/
lemma countP_eq_iff {α : Type*} {p q : α → Prop} [DecidablePred p] [DecidablePred q] {l : List α}
    (h : ∀ a ∈ l, p a → q a) : l.countP (fun a => p a) = l.countP (fun a => q a) ↔
      ∀ a ∈ l, q a → p a := by
  induction l with
  | nil => exact iff_of_true rfl nofun
  | cons a l ih =>
    rw [List.forall_mem_cons] at h
    have hle : l.countP (fun a => p a) ≤ l.countP fun a => q a :=
      List.countP_mono_left fun a ha hp => by simpa using h.2 a ha (by simpa using hp)
    rw [List.countP_cons, List.countP_cons, List.forall_mem_cons, ← ih h.2]
    by_cases hp : p a
    · have hq := h.1 hp
      simp [hp, hq]
    · by_cases hq : q a
      · simp only [hp, hq, decide_true, decide_false, if_true, Bool.false_eq_true, if_false,
          forall_const, false_and, iff_false]
        omega
      · simp [hp, hq]

/-- Lists of findings are permutations of each other when as many resources are new, and as many
equal. -/
lemma perm_iff_counts (hlength : fs.length = fs'.length) : fs.Perm fs' ↔
    fs.count .absent = fs'.count .absent ∧ fs.count .equal = fs'.count .equal := by
  have htotal : ∀ fs : List Finding,
      fs.count .absent + fs.count .equal + fs.count .different = fs.length := by
    intro fs
    induction fs with
    | nil => rfl
    | cons found fs ih =>
      simp only [List.count_cons, List.length_cons]
      cases found <;> simp <;> omega
  rw [List.perm_iff_count]
  constructor
  · exact fun h => ⟨h .absent, h .equal⟩
  · rintro ⟨habsent, hequal⟩ found
    have h := htotal fs
    have h' := htotal fs'
    cases found with
    | absent => exact habsent
    | equal => exact hequal
    | different => omega

/-- What is absent at the turn of a record was absent before. -/
lemma absent_before (hS : S.Persistent) {s₀ : σ}
    (h : ∀ r, S.Finds .absent s r → S.Finds .absent s₀ r) :
    ∀ x ∈ S.turns s records, S.Finds .absent x.1 x.2 → S.Finds .absent s₀ x.2 := by
  induction records generalizing s with
  | nil => exact nofun
  | cons r rest ih =>
    cases happly : S.apply s r with
    | error e =>
      rw [turns_cons_of_error happly, List.forall_mem_singleton]
      exact h r
    | ok x =>
      obtain ⟨found, s'⟩ := x
      rw [turns_cons_of_ok happly, List.forall_mem_cons]
      exact ⟨h r, ih fun r' hr' => h r' (hS s r _ r' happly hr')⟩

/-- When a dry run refuses nothing, the run succeeds with as many findings of each kind exactly when
it is foreseen. -/
theorem foreseen_iff (hS : S.Persistent) (hdry : S.dryRun s records = .ok fs) :
    (∃ fs', (S.run s records).1 = .ok fs' ∧ fs'.Perm fs) ↔ S.Foreseen s records := by
  -- both lists of findings are counted along the turns
  have hcounts : ∀ fs', (S.run s records).1 = .ok fs' → (fs'.Perm fs ↔
      (S.turns s records).countP (fun x => S.Finds .absent x.1 x.2) =
        (S.turns s records).countP (fun x => S.Finds .absent s x.2) ∧
      (S.turns s records).countP (fun x => S.Finds .equal x.1 x.2) =
        (S.turns s records).countP fun x => S.Finds .equal s x.2) := by
    intro fs' hrun
    have hturns := forall₂_turns hrun
    have hbefore : List.Forall₂ (fun found x => S.Finds found s x.2) fs (S.turns s records) := by
      have hmap := map_snd_turns (run_ok_iff.mp ⟨fs', hrun⟩)
      have hdry' := forall₂_of_dryRun hdry
      rw [← hmap, List.forall₂_map_right_iff] at hdry'
      exact hdry'
    have hunique : ∀ found found' (x : σ × ρ), S.Finds found x.1 x.2 → S.Finds found' x.1 x.2 →
        found = found' := fun _ _ _ => finds_unique
    have hunique' : ∀ found found' (x : σ × ρ), S.Finds found s x.2 → S.Finds found' s x.2 →
        found = found' := fun _ _ _ => finds_unique
    rw [perm_iff_counts (hturns.length_eq.trans hbefore.length_eq.symm),
      count_eq_countP hunique hturns, count_eq_countP hunique hturns,
      count_eq_countP hunique' hbefore, count_eq_countP hunique' hbefore]
  have hbefore : ∀ x ∈ S.turns s records, S.Finds .absent x.1 x.2 → S.Finds .absent s x.2 :=
    absent_before hS fun _ h => h
  have hnew := countP_eq_iff hbefore
  constructor
  · rintro ⟨fs', hrun, hperm⟩
    obtain ⟨habsent, hequal⟩ := (hcounts fs' hrun).mp hperm
    exact ⟨run_ok_iff.mp ⟨fs', hrun⟩, hnew.mp habsent, hequal⟩
  · rintro ⟨haccepted, habsent, hequal⟩
    obtain ⟨fs', hrun⟩ := run_ok_iff.mpr haccepted
    exact ⟨fs', hrun, (hcounts fs' hrun).mpr ⟨hnew.mpr habsent, hequal⟩⟩

end RecordStore

end Portwyrm.Base

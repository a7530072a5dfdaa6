import Lancaster.Stem.Trace
import Mathlib.Data.List.Infix

/-!
Runs pass by pass. A rule fires on a stem when its guard, its ending and its acceptable result allow
it, and the first rule that fires wins the pass. Which rules a pass consults is a parameter, so the
same theory holds of bucketed tables and of plain lists. Every run either ends or goes on for ever.
-/
namespace Lancaster

/-- The rule passes the intact guard, ends the stem, and leaves an acceptable stem once cut. -/
structure Rule.Fires (r : Rule) (m : Option Int) (intact : Bool) (w u : Word) : Prop where
  guard : r.intactOnly = true → intact = true
  ending : r.suffix <:+ w
  result : u = cut m (w.take (w.length - min r.removeCount w.length) ++ r.append)
  acceptable : isAcceptable u = true

/-- The first rule of a list that fires on a stem, with what it leaves of the stem. -/
def WinsFirst (rules : List Rule) (m : Option Int) (intact : Bool) (w : Word) (v : Win) : Prop :=
  v.rule.Fires m intact w v.stem ∧ ∃ before after, rules = before ++ v.rule :: after ∧
    ∀ r ∈ before, ∀ u, ¬ r.Fires m intact w u

def NoneFires (rules : List Rule) (m : Option Int) (intact : Bool) (w : Word) : Prop :=
  ∀ r ∈ rules, ∀ u, ¬ r.Fires m intact w u

def consultedWin (consult : Word → List Rule) (m : Option Int) (intact : Bool) (w : Word) :
    Option Win :=
  firstWin (consult w) m intact w

/-- A run from a stem that ends after these wins. Only the first pass can be intact. -/
inductive RunEnds (consult : Word → List Rule) (m : Option Int) :
    Bool → Word → List Win → Prop where
  | rest {intact w} : NoneFires (consult w) m intact w → RunEnds consult m intact w []
  | stop {intact w v} : WinsFirst (consult w) m intact w v → v.rule.continues = false →
      RunEnds consult m intact w [v]
  | more {intact w v vs} : WinsFirst (consult w) m intact w v → v.rule.continues = true →
      RunEnds consult m false v.stem vs → RunEnds consult m intact w (v :: vs)

def RunsOn (consult : Word → List Rule) (m : Option Int) (intact : Bool) (w : Word) : Prop :=
  ∃ vs : Nat → Win, WinsFirst (consult w) m intact w (vs 0) ∧ ∀ n, (vs n).rule.continues = true ∧
    WinsFirst (consult (vs n).stem) m false (vs n).stem (vs (n + 1))

/-- What stemming a word comes to: a refusal, an unacceptable word as it is, or a run that ends. -/
inductive ComesTo (consult : Word → List Rule) (l : Limits) (w : Word) :
    Except StemFault Run → Prop where
  | refused {f} : l.fit w = .error f → ComesTo consult l w (.error f)
  | kept {u} : l.fit w = .ok u → isAcceptable u = false → ComesTo consult l w (.ok ⟨u, []⟩)
  | ended {u vs} : l.fit w = .ok u → isAcceptable u = true →
      RunEnds consult l.maxLength true u vs → ComesTo consult l w (.ok ⟨u, vs⟩)

def NeverEnds (consult : Word → List Rule) (l : Limits) (w : Word) : Prop :=
  ∃ u, l.fit w = .ok u ∧ isAcceptable u = true ∧ RunsOn consult l.maxLength true u

def consultedRun (consult : Word → List Rule) (l : Limits) (passes : Nat) (w : Word) :
    Except StemFault Run :=
  (l.fit w).bind (runFitted (consultedWin consult l.maxLength) passes)

def RuleTable.rulesFor (t : RuleTable) (w : Word) : List Rule :=
  match w.getLast? with
  | some c => t.bucket c
  | none => []

/-- Stemming has this outcome under every number of passes that is large enough. -/
def RuleTable.Answers (t : RuleTable) (l : Limits) (traced : Bool) (w : Word)
    (o : Except StemFault StemResult) : Prop :=
  o ≠ .error .unfinished ∧ ∃ enough, ∀ passes, enough ≤ passes → t.stem l passes traced w = o

/-- No number of passes is enough. -/
def RuleTable.RunsForEver (t : RuleTable) (l : Limits) (traced : Bool) (w : Word) : Prop :=
  ∀ passes, t.stem l passes traced w = .error .unfinished

variable {m : Option Int} {intact : Bool} {w u : Word} {r : Rule} {rules : List Rule} {v : Win}

theorem Rule.matches_iff :
    r.matches w intact = true ↔ (r.intactOnly = true → intact = true) ∧ r.suffix <:+ w := by
  cases h : r.intactOnly <;> simp [Rule.matches, h, List.isSuffixOf_iff_suffix]

theorem Rule.apply_eq (r : Rule) (w : Word) :
    r.apply w = w.take (w.length - min r.removeCount w.length) ++ r.append := by
  have h : w.length - min r.removeCount w.length = w.length - r.removeCount := by omega
  rw [h, Rule.apply]

theorem Rule.attempt_eq_some_iff : r.attempt m intact w = some u ↔ r.Fires m intact w u := by
  unfold Rule.attempt
  constructor
  · intro h
    split at h
    · rename_i hc
      obtain ⟨hm, ha⟩ := Bool.and_eq_true_iff.mp hc
      obtain ⟨hg, he⟩ := Rule.matches_iff.mp hm
      obtain rfl := Option.some.inj h
      exact ⟨hg, he, by rw [Rule.apply_eq], ha⟩
    · cases h
  · rintro ⟨hg, he, hu, ha⟩
    rw [← Rule.apply_eq] at hu
    rw [if_pos, hu]
    rw [Bool.and_eq_true, ← hu]
    exact ⟨Rule.matches_iff.mpr ⟨hg, he⟩, ha⟩

theorem Rule.attempt_eq_none_iff :
    r.attempt m intact w = none ↔ ∀ u, ¬ r.Fires m intact w u := by
  rw [Option.eq_none_iff_forall_ne_some]
  simp only [ne_eq, Rule.attempt_eq_some_iff]

theorem firstWin_eq_none_iff : firstWin rules m intact w = none ↔ NoneFires rules m intact w := by
  simp [firstWin, NoneFires, Rule.attempt_eq_none_iff]

theorem firstWin_eq_some_iff :
    firstWin rules m intact w = some v ↔ WinsFirst rules m intact w v := by
  unfold firstWin WinsFirst
  rw [List.findSome?_eq_some_iff]
  constructor
  · rintro ⟨before, r, after, hr, hv, hb⟩
    obtain ⟨u, hu, rfl⟩ := Option.map_eq_some_iff.mp hv
    refine ⟨Rule.attempt_eq_some_iff.mp hu, before, after, hr, fun s hs => ?_⟩
    exact Rule.attempt_eq_none_iff.mp (Option.map_eq_none_iff.mp (hb s hs))
  · rintro ⟨hv, before, after, hr, hb⟩
    refine ⟨before, v.rule, after, hr, ?_, fun s hs => ?_⟩
    · rw [Rule.attempt_eq_some_iff.mpr hv]; rfl
    · rw [Rule.attempt_eq_none_iff.mpr (hb s hs)]; rfl

theorem WinsFirst.mem (h : WinsFirst rules m intact w v) : v.rule ∈ rules := by
  obtain ⟨-, before, after, rfl, -⟩ := h
  simp

theorem firstWin_filter {p : Rule → Bool}
    (h : ∀ r ∈ rules, ∀ u, r.Fires m intact w u → p r = true) :
    firstWin (rules.filter p) m intact w = firstWin rules m intact w := by
  induction rules with
  | nil => rfl
  | cons r rules ih =>
    have hr := ih fun s hs => h s (List.mem_cons_of_mem _ hs)
    cases hp : p r with
    | true =>
      rw [List.filter_cons_of_pos hp]
      simp only [firstWin, List.findSome?_cons] at hr ⊢
      rw [hr]
    | false =>
      have hn : r.attempt m intact w = none := Rule.attempt_eq_none_iff.mpr fun u hu => by
        have := h r List.mem_cons_self u hu
        rw [hp] at this
        cases this
      rw [List.filter_cons_of_neg (by simp [hp]), hr]
      simp [firstWin, hn]

section Runs

variable {consult : Word → List Rule} {l : Limits} {vs vs' : List Win} {passes : Nat}

theorem RunEnds.of_runWins (h : runWins (consultedWin consult m) passes intact w = some vs) :
    RunEnds consult m intact w vs := by
  induction passes generalizing intact w vs with
  | zero => cases h
  | succ passes ih =>
    rw [runWins] at h
    split at h
    · rename_i hn
      obtain rfl := Option.some.inj h
      exact .rest (firstWin_eq_none_iff.mp hn)
    · rename_i v hv
      have hw := firstWin_eq_some_iff.mp hv
      split at h
      · rename_i hc
        obtain ⟨us, hus, rfl⟩ := Option.map_eq_some_iff.mp h
        exact .more hw hc (ih hus)
      · rename_i hc
        obtain rfl := Option.some.inj h
        exact .stop hw (Bool.eq_false_iff.mpr hc)

theorem runWins_rest (h : NoneFires (consult w) m intact w) :
    runWins (consultedWin consult m) (passes + 1) intact w = some [] := by
  simp [runWins, consultedWin, firstWin_eq_none_iff.mpr h]

theorem runWins_stop (h : WinsFirst (consult w) m intact w v) (hc : v.rule.continues = false) :
    runWins (consultedWin consult m) (passes + 1) intact w = some [v] := by
  simp [runWins, consultedWin, firstWin_eq_some_iff.mpr h, hc]

theorem runWins_more (h : WinsFirst (consult w) m intact w v) (hc : v.rule.continues = true) :
    runWins (consultedWin consult m) (passes + 1) intact w =
      (runWins (consultedWin consult m) passes false v.stem).map (v :: ·) := by
  simp [runWins, consultedWin, firstWin_eq_some_iff.mpr h, hc]

theorem RunEnds.runWins_eq (h : RunEnds consult m intact w vs) (hp : vs.length < passes) :
    runWins (consultedWin consult m) passes intact w = some vs := by
  induction h generalizing passes with
  | rest hn =>
    obtain ⟨passes, rfl⟩ := Nat.exists_eq_add_of_lt hp
    exact runWins_rest hn
  | stop hv hc =>
    obtain ⟨passes, rfl⟩ := Nat.exists_eq_add_of_lt hp
    exact runWins_stop hv hc
  | more hv hc _ ih =>
    cases passes with
    | zero => cases hp
    | succ passes => rw [runWins_more hv hc, ih (Nat.lt_of_succ_lt_succ hp)]; rfl

theorem RunEnds.unique (h : RunEnds consult m intact w vs) (h' : RunEnds consult m intact w vs') :
    vs = vs' := by
  have hv := h.runWins_eq (show vs.length < max vs.length vs'.length + 1 by omega)
  have hv' := h'.runWins_eq (show vs'.length < max vs.length vs'.length + 1 by omega)
  exact Option.some.inj (hv.symm.trans hv')

theorem RunEnds.exists_winsFirst (h : RunEnds consult m intact w vs) (hv : v ∈ vs) :
    ∃ b u, WinsFirst (consult u) m b u v := by
  induction h with
  | rest _ => cases hv
  | @stop b u x hx _ =>
    obtain rfl := List.mem_singleton.mp hv
    exact ⟨b, u, hx⟩
  | @more b u x xs hx _ _ ih =>
    rcases List.mem_cons.mp hv with rfl | hv
    · exact ⟨b, u, hx⟩
    · exact ih hv

/-- What holds of a word and is kept by every rule that fires holds of every stem of the run. -/
theorem RunEnds.stems_induction {P : Word → Prop} (h : RunEnds consult m intact w vs) (hw : P w)
    (hstep : ∀ u, ∀ r ∈ consult u, ∀ b x, P u → r.Fires m b u x → P x) : ∀ x ∈ vs, P x.stem := by
  intro x hx
  induction h with
  | rest _ => cases hx
  | @stop b u y hy _ =>
    obtain rfl := List.mem_singleton.mp hx
    exact hstep u x.rule hy.mem b x.stem hw hy.1
  | @more b u y ys hy _ _ ih =>
    have hkept := hstep u y.rule hy.mem b y.stem hw hy.1
    rcases List.mem_cons.mp hx with rfl | hx
    · exact hkept
    · exact ih hkept hx

/-- Too few passes at every number of them: the next pass has a winner that goes on. -/
theorem exists_more_of_unfinished
    (h : ∀ passes, runWins (consultedWin consult m) passes intact w = none) :
    ∃ v, WinsFirst (consult w) m intact w v ∧ v.rule.continues = true ∧
      ∀ passes, runWins (consultedWin consult m) passes false v.stem = none := by
  cases hv : firstWin (consult w) m intact w with
  | none =>
    have h1 : runWins (consultedWin consult m) 1 intact w = some [] :=
      runWins_rest (firstWin_eq_none_iff.mp hv)
    cases h1.symm.trans (h 1)
  | some v =>
    have hw := firstWin_eq_some_iff.mp hv
    cases hc : v.rule.continues with
    | false =>
      have h1 : runWins (consultedWin consult m) 1 intact w = some [v] := runWins_stop hw hc
      cases h1.symm.trans (h 1)
    | true =>
      refine ⟨v, hw, hc, fun passes => ?_⟩
      exact Option.map_eq_none_iff.mp ((runWins_more hw hc).symm.trans (h (passes + 1)))

theorem runsOn_iff :
    RunsOn consult m intact w ↔
      ∀ passes, runWins (consultedWin consult m) passes intact w = none := by
  constructor
  · rintro ⟨vs, h0, hs⟩
    have later : ∀ passes n, runWins (consultedWin consult m) passes false (vs n).stem = none := by
      intro passes
      induction passes with
      | zero => intro n; rfl
      | succ passes ih =>
        intro n
        rw [runWins_more (hs n).2 (hs (n + 1)).1, ih (n + 1)]
        rfl
    intro passes
    cases passes with
    | zero => rfl
    | succ passes => rw [runWins_more h0 (hs 0).1, later passes 0]; rfl
  · intro h
    obtain ⟨v, hv, hc, hn⟩ := exists_more_of_unfinished h
    -- Every winner that goes on for ever chooses the next one.
    choose next hnext using fun x : { v : Win //
      ∀ passes, runWins (consultedWin consult m) passes false v.stem = none } =>
        exists_more_of_unfinished x.2
    let chain : Nat → { v : Win //
        ∀ passes, runWins (consultedWin consult m) passes false v.stem = none } :=
      fun n => Nat.rec ⟨v, hn⟩ (fun _ x => ⟨next x, (hnext x).2.2⟩) n
    refine ⟨fun n => (chain n).1, hv, fun n => ⟨?_, (hnext (chain n)).1⟩⟩
    cases n with
    | zero => exact hc
    | succ n => exact (hnext (chain n)).2.1

theorem Limits.fit_ne_unfinished (l : Limits) (w : Word) : l.fit w ≠ .error .unfinished := by
  unfold Limits.fit
  split
  · simp
  · split
    · simp
    · split <;> simp

theorem ComesTo.of_consultedRun {o : Except StemFault Run}
    (h : consultedRun consult l passes w = o) (ho : o ≠ .error .unfinished) :
    ComesTo consult l w o := by
  subst h
  unfold consultedRun at ho ⊢
  cases hf : l.fit w with
  | error f => exact .refused hf
  | ok u =>
    simp only [hf, Except.bind, runFitted] at ho ⊢
    cases ha : isAcceptable u with
    | false => exact .kept hf ha
    | true =>
      rw [ha, if_pos rfl] at ho
      rw [if_pos rfl]
      cases hr : runWins (consultedWin consult l.maxLength) passes true u with
      | none => simp [hr] at ho
      | some vs => exact .ended hf ha (.of_runWins hr)

theorem ComesTo.consultedRun_eq {o : Except StemFault Run} (h : ComesTo consult l w o) :
    ∃ enough, ∀ passes, enough ≤ passes → consultedRun consult l passes w = o := by
  cases h with
  | refused hf => exact ⟨0, fun passes _ => by rw [consultedRun, hf]; rfl⟩
  | kept hf ha => exact ⟨0, fun passes _ => by simp [consultedRun, hf, Except.bind, runFitted, ha]⟩
  | @ended u vs hf ha hr =>
    refine ⟨vs.length + 1, fun passes hp => ?_⟩
    simp [consultedRun, hf, Except.bind, runFitted, ha, hr.runWins_eq hp]

theorem ComesTo.exists_of_fit {P : List Win → Prop} (hf : l.fit w = .ok u) (hnil : P [])
    (hruns : isAcceptable u = true → ∃ vs, RunEnds consult l.maxLength true u vs ∧ P vs) :
    ∃ vs, ComesTo consult l w (.ok ⟨u, vs⟩) ∧ P vs := by
  cases ha : isAcceptable u with
  | false => exact ⟨[], .kept hf ha, hnil⟩
  | true =>
    obtain ⟨vs, hr, hvs⟩ := hruns ha
    exact ⟨vs, .ended hf ha hr, hvs⟩

theorem ComesTo.ne_unfinished {o : Except StemFault Run} (h : ComesTo consult l w o) :
    o ≠ .error .unfinished := by
  cases h with
  | @refused f hf =>
    rintro h
    cases h
    exact l.fit_ne_unfinished w hf
  | kept => simp
  | ended => simp

theorem ComesTo.fit_eq {r : Run} (h : ComesTo consult l w (.ok r)) : l.fit w = .ok r.start := by
  cases h with
  | kept hf _ => exact hf
  | ended hf _ _ => exact hf

theorem ComesTo.step_mem_trace {r : Run} (h : ComesTo consult l w (.ok r)) (hv : v ∈ r.wins) :
    v.step ∈ r.trace := by
  cases h with
  | kept => cases hv
  | ended _ ha _ =>
    rw [Run.trace_eq_cons ha]
    exact List.mem_cons_of_mem _ (List.mem_map_of_mem hv)

theorem ComesTo.congr {consult' : Word → List Rule} {o : Except StemFault Run}
    (h : ∀ passes, consultedRun consult l passes w = consultedRun consult' l passes w)
    (hc : ComesTo consult l w o) : ComesTo consult' l w o := by
  obtain ⟨enough, he⟩ := hc.consultedRun_eq
  exact .of_consultedRun ((h enough).symm.trans (he enough le_rfl)) hc.ne_unfinished

theorem neverEnds_iff :
    NeverEnds consult l w ↔ ∀ passes, consultedRun consult l passes w = .error .unfinished := by
  unfold NeverEnds consultedRun
  constructor
  · rintro ⟨u, hf, ha, hr⟩ passes
    simp [hf, Except.bind, runFitted, ha, runsOn_iff.mp hr passes]
  · intro h
    cases hf : l.fit w with
    | error f =>
      have hu : f = .unfinished := by simpa [hf, Except.bind] using h 0
      exact absurd (hu ▸ hf) (l.fit_ne_unfinished w)
    | ok u =>
      simp only [hf, Except.bind, runFitted] at h
      cases ha : isAcceptable u with
      | false => simp [ha] at h
      | true =>
        refine ⟨u, rfl, ha, runsOn_iff.mpr fun passes => ?_⟩
        have hp := h passes
        rw [ha, if_pos rfl] at hp
        cases hr : runWins (consultedWin consult l.maxLength) passes true u with
        | none => rfl
        | some vs => simp [hr] at hp

end Runs

section Tables

variable {t : RuleTable} {l : Limits} {traced : Bool} {o : Except StemFault StemResult}

theorem RuleTable.run_eq (t : RuleTable) (l : Limits) (passes : Nat) (w : Word) :
    t.run l passes w = consultedRun t.rulesFor l passes w := by
  have h : t.win l.maxLength = consultedWin t.rulesFor l.maxLength := by
    funext intact u
    unfold RuleTable.win consultedWin RuleTable.rulesFor
    cases u.getLast? with
    | none => rfl
    | some c => rfl
  rw [RuleTable.run, consultedRun, h]

theorem RuleTable.answers_iff :
    t.Answers l traced w o ↔
      ∃ run, ComesTo t.rulesFor l w run ∧ o = run.map fun r => r.result traced := by
  constructor
  · rintro ⟨ho, enough, h⟩
    have hr := h enough le_rfl
    rw [RuleTable.stem, RuleTable.run_eq] at hr
    refine ⟨_, .of_consultedRun rfl ?_, hr.symm⟩
    intro hu
    rw [hu] at hr
    exact ho hr.symm
  · rintro ⟨run, hc, rfl⟩
    obtain ⟨enough, h⟩ := hc.consultedRun_eq
    refine ⟨?_, enough, fun passes hp => ?_⟩
    · have := hc.ne_unfinished
      cases run with
      | error f => simpa [Except.map] using this
      | ok r => simp [Except.map]
    · rw [RuleTable.stem, RuleTable.run_eq, h passes hp]

theorem RuleTable.answers_ok_iff {a : StemResult} :
    t.Answers l traced w (.ok a) ↔
      ∃ r, ComesTo t.rulesFor l w (.ok r) ∧ a = r.result traced := by
  rw [RuleTable.answers_iff]
  constructor
  · rintro ⟨run, hc, hr⟩
    cases run with
    | error f => cases hr
    | ok r => exact ⟨r, hc, Except.ok.inj hr⟩
  · rintro ⟨r, hc, rfl⟩
    exact ⟨.ok r, hc, rfl⟩

theorem ComesTo.answers {run : Run} (h : ComesTo t.rulesFor l w (.ok run)) (traced : Bool) :
    t.Answers l traced w (.ok (run.result traced)) :=
  RuleTable.answers_ok_iff.mpr ⟨run, h, rfl⟩

theorem RuleTable.Answers.exists_run {s : Word} {tr : Trace}
    (h : t.Answers l true w (.ok ⟨s, some tr⟩)) :
    ∃ run, ComesTo t.rulesFor l w (.ok run) ∧ s = run.stem ∧ tr = run.trace := by
  obtain ⟨run, hc, hrun⟩ := RuleTable.answers_ok_iff.mp h
  obtain ⟨hs, htr⟩ := StemResult.mk.inj hrun
  exact ⟨run, hc, hs, Option.some.inj htr⟩

theorem RuleTable.comesTo_of_run {passes : Nat} {run : Run} (h : t.run l passes w = .ok run) :
    ComesTo t.rulesFor l w (.ok run) :=
  .of_consultedRun ((t.run_eq l passes w).symm.trans h) nofun

theorem RuleTable.answers_of_stem {passes : Nat} {a : StemResult}
    (h : t.stem l passes traced w = .ok a) : t.Answers l traced w (.ok a) := by
  rw [RuleTable.stem] at h
  cases hr : t.run l passes w with
  | error f => simp [hr, Except.map] at h
  | ok run =>
    obtain rfl : run.result traced = a := by simpa [hr, Except.map] using h
    exact (RuleTable.comesTo_of_run hr).answers traced

theorem RuleTable.runsForEver_iff : t.RunsForEver l traced w ↔ NeverEnds t.rulesFor l w := by
  rw [neverEnds_iff]
  refine forall_congr' fun passes => ?_
  rw [RuleTable.stem, RuleTable.run_eq]
  cases consultedRun t.rulesFor l passes w <;> simp [Except.map]

end Tables

end Lancaster

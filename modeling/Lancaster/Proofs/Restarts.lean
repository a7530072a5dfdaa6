import Lancaster.Proofs.Anchoring

/-!
Restarts. Without rules for intact words a pass depends on its stem alone. So a run may be broken
off at any stem from which it goes on and taken up again as the run of that stem, and a stem at
which a run came to rest stays as it is. Limits must not be negative, for those cut a word anew
each time.
-/
namespace Lancaster

/-- Whether another pass starts after so many wins: none has been left out, or the last one asks for
it. -/
def Run.goesOnAfter (r : Run) (j : Nat) : Bool :=
  (r.wins.take j).getLast?.all fun v => v.rule.continues

variable {consult : Word → List Rule} {m : Option Int} {intact : Bool} {w u : Word} {r : Rule}
  {rules : List Rule} {v : Win} {vs : List Win} {l : Limits} {t : RuleTable} {run : Run}
  {passes i j : Nat}

theorem Rule.Fires.of_unguarded (h : r.Fires m intact w u) (hr : r.intactOnly = false)
    (b : Bool) : r.Fires m b w u := by
  refine ⟨?_, h.ending, h.result, h.acceptable⟩
  intro hi
  cases hr.symm.trans hi

theorem NoneFires.of_unguarded (h : NoneFires rules m intact w)
    (hrules : ∀ r ∈ rules, r.intactOnly = false) (b : Bool) : NoneFires rules m b w := by
  intro r hr u hu
  exact h r hr u (hu.of_unguarded (hrules r hr) intact)

theorem WinsFirst.of_unguarded (h : WinsFirst rules m intact w v)
    (hrules : ∀ r ∈ rules, r.intactOnly = false) (b : Bool) : WinsFirst rules m b w v := by
  have hmem := h.mem
  obtain ⟨hv, before, after, rfl, hbefore⟩ := h
  refine ⟨hv.of_unguarded (hrules v.rule hmem) b, before, after, rfl, ?_⟩
  intro r hr u hu
  have hguard := hrules r (List.mem_append_left _ hr)
  exact hbefore r hr u (hu.of_unguarded hguard intact)

theorem RunEnds.of_unguarded (h : RunEnds consult m intact w vs)
    (hrules : ∀ u, ∀ r ∈ consult u, r.intactOnly = false) (b : Bool) :
    RunEnds consult m b w vs := by
  cases h with
  | rest hn => exact .rest (hn.of_unguarded (hrules w) b)
  | stop hv hc => exact .stop (hv.of_unguarded (hrules w) b) hc
  | more hv hc hr => exact .more (hv.of_unguarded (hrules w) b) hc hr

theorem RunEnds.drop (h : RunEnds consult m intact w vs) (hv : vs[i]? = some v)
    (hc : v.rule.continues = true) : RunEnds consult m false v.stem (vs.drop (i + 1)) := by
  induction h generalizing i with
  | rest _ => cases hv
  | @stop b u x hx hstop =>
    obtain ⟨hi, rfl⟩ := List.getElem?_eq_some_iff.mp hv
    have hzero : i = 0 := by simpa using hi
    subst hzero
    cases hstop.symm.trans hc
  | @more b u x xs hx _ hr ih =>
    cases i with
    | zero =>
      obtain rfl := Option.some.inj hv
      exact hr
    | succ i => exact ih hv

theorem Run.stem_drop (h : vs[i]? = some v) (w : Word) :
    (Run.mk v.stem (vs.drop (i + 1))).stem = (Run.mk w vs).stem := by
  induction vs generalizing i w with
  | nil => cases h
  | cons x xs ih =>
    rw [Run.stem_cons]
    cases i with
    | zero =>
      obtain rfl := Option.some.inj h
      rfl
    | succ i => exact ih h x.stem

theorem Run.goesOnAfter_succ (h : run.wins[i]? = some v) :
    run.goesOnAfter (i + 1) = v.rule.continues := by
  simp [Run.goesOnAfter, List.getLast?_take, h]

theorem RunEnds.stem_within (h : RunEnds consult m intact w vs) (hv : v ∈ vs)
    (hm : ∀ n, m = some n → 0 ≤ n) : Within m v.stem := by
  intro n hn
  obtain ⟨b, u, hwin⟩ := h.exists_winsFirst hv
  rw [hwin.1.result, hn]
  exact length_cut_le_of_positive (hm n hn) _

theorem RunEnds.stem_acceptable (h : RunEnds consult m intact w vs) (hv : v ∈ vs) :
    isAcceptable v.stem = true := by
  obtain ⟨b, u, hwin⟩ := h.exists_winsFirst hv
  exact hwin.1.acceptable

theorem RunEnds.comesTo (h : RunEnds consult m intact u vs)
    (hrules : ∀ u, ∀ r ∈ consult u, r.intactOnly = false) (ha : isAcceptable u = true)
    (hu : Within m u) (o : Overflow) : ComesTo consult ⟨m, o⟩ u (.ok ⟨u, vs⟩) :=
  .ended (Within.fit_eq hu) ha (h.of_unguarded hrules true)

theorem RunEnds.comesTo_drop (h : RunEnds consult m intact w vs)
    (hrules : ∀ u, ∀ r ∈ consult u, r.intactOnly = false) (hm : ∀ n, m = some n → 0 ≤ n)
    (hv : vs[i]? = some v) (hc : v.rule.continues = true) (o : Overflow) :
    ComesTo consult ⟨m, o⟩ v.stem (.ok ⟨v.stem, vs.drop (i + 1)⟩) := by
  have hmem : v ∈ vs := List.mem_of_getElem? hv
  exact (h.drop hv hc).comesTo hrules (h.stem_acceptable hmem) (h.stem_within hmem hm) o

theorem ComesTo.restarted {step : TraceStep} (h : ComesTo consult l w (.ok run))
    (hrules : ∀ u, ∀ r ∈ consult u, r.intactOnly = false)
    (hm : ∀ n, l.maxLength = some n → 0 ≤ n) (hstep : run.trace[j]? = some step)
    (hgoes : run.goesOnAfter j = true) (o : Overflow) :
    ∃ again, ComesTo consult ⟨l.maxLength, o⟩ step.stem (.ok again) ∧ again.stem = run.stem ∧
      again.trace = ⟨none, step.stem⟩ :: run.trace.drop (j + 1) := by
  cases h with
  | kept _ ha => simp [Run.trace, ha] at hstep
  | @ended u vs hf ha hr =>
    rw [Run.trace_eq_cons ha] at hstep ⊢
    cases j with
    | zero =>
      obtain rfl := Option.some.inj hstep
      have hu := Limits.length_le_of_fit hm hf
      exact ⟨⟨u, vs⟩, hr.comesTo hrules ha hu o, rfl, Run.trace_eq_cons ha⟩
    | succ i =>
      rw [List.getElem?_cons_succ, List.getElem?_map] at hstep
      obtain ⟨v, hv, rfl⟩ := Option.map_eq_some_iff.mp hstep
      rw [Run.goesOnAfter_succ hv] at hgoes
      have hacc := hr.stem_acceptable (List.mem_of_getElem? hv)
      refine ⟨⟨v.stem, vs.drop (i + 1)⟩, hr.comesTo_drop hrules hm hv hgoes o,
        Run.stem_drop hv u, ?_⟩
      rw [Run.trace_eq_cons hacc, List.drop_succ_cons, List.map_drop]
      rfl

/-- A run that goes on after all of its wins has come to rest: no rule wins any more. -/
theorem ComesTo.stem_rested (h : ComesTo consult l w (.ok run))
    (hrules : ∀ u, ∀ r ∈ consult u, r.intactOnly = false)
    (hm : ∀ n, l.maxLength = some n → 0 ≤ n) (hgoes : run.goesOnAfter run.wins.length = true)
    (o : Overflow) : ComesTo consult ⟨l.maxLength, o⟩ run.stem (.ok ⟨run.stem, []⟩) := by
  cases h with
  | @kept u hf ha =>
    have hu := Limits.length_le_of_fit hm hf
    exact .kept (Within.fit_eq hu) ha
  | @ended u vs hf ha hr =>
    cases hlen : vs.length with
    | zero =>
      obtain rfl := List.length_eq_zero_iff.mp hlen
      exact hr.comesTo hrules ha (Limits.length_le_of_fit hm hf) o
    | succ i =>
      have hv : vs[i]? = some vs[i] := List.getElem?_eq_getElem (by omega)
      have hempty : vs.drop (i + 1) = [] := List.drop_eq_nil_of_le hlen.le
      have hstem := Run.stem_drop hv u
      rw [hlen, Run.goesOnAfter_succ hv] at hgoes
      have hcomes := hr.comesTo_drop hrules hm hv hgoes o
      rw [hempty] at hstem hcomes
      rw [← hstem]
      exact hcomes

/-- A run may be started anew at any stem from which it goes on: it comes to the same stem, and its
trace is the rest of the old one. A stem at which the rules came to rest is stemmed to itself. -/
theorem RuleTable.answers_restarted (hrules : ∀ r ∈ t.toList, r.intactOnly = false)
    (hm : ∀ n, l.maxLength = some n → 0 ≤ n) (hrun : t.run l passes w = .ok run) :
    (∀ j step, run.trace[j]? = some step → run.goesOnAfter j = true → ∀ o,
      t.Answers ⟨l.maxLength, o⟩ true step.stem
        (.ok ⟨run.stem, some (⟨none, step.stem⟩ :: run.trace.drop (j + 1))⟩)) ∧
    (run.goesOnAfter run.wins.length = true → ∀ o traced,
      t.Answers ⟨l.maxLength, o⟩ traced run.stem (.ok ((Run.mk run.stem []).result traced))) := by
  have hunguarded : ∀ u, ∀ r ∈ t.rulesFor u, r.intactOnly = false := by
    intro u r hr
    exact hrules r (RuleTable.mem_toList_of_mem_rulesFor hr)
  have hcomes := RuleTable.comesTo_of_run hrun
  constructor
  · intro j step hstep hgoes o
    obtain ⟨again, hagain, hstem, htrace⟩ := hcomes.restarted hunguarded hm hstep hgoes o
    rw [← hstem, ← htrace]
    exact hagain.answers true
  · intro hgoes o traced
    exact (hcomes.stem_rested hunguarded hm hgoes o).answers traced

def plainTable : RuleTable := (compileText "s1>\ngni3>\nde2>\n".toList).table

theorem exists_plainTable_run : ∃ run, plainTable.run {} 4 "paintings".toList = .ok run ∧
    run.trace = [⟨none, "paintings".toList⟩, ⟨some "(1:s1>)".toList, "painting".toList⟩,
      ⟨some "(2:gni3>)".toList, "paint".toList⟩] ∧
    run.stem = "paint".toList ∧ run.goesOnAfter 1 = true ∧
    run.goesOnAfter run.wins.length = true :=
  ⟨_, rfl, by decide, by decide, by decide, by decide⟩

theorem RuleTable.answers_restarted_plain :
    (∀ r ∈ plainTable.toList, r.intactOnly = false) ∧
    (∀ n, (some 254 : Option Int) = some n → 0 ≤ n) ∧
    ∃ run, plainTable.run {} 4 "paintings".toList = .ok run ∧
      (∀ o, plainTable.Answers ⟨some 254, o⟩ true "painting".toList
        (.ok ⟨"paint".toList, some [⟨none, "painting".toList⟩,
          ⟨some "(2:gni3>)".toList, "paint".toList⟩]⟩)) ∧
      ∀ o, plainTable.Answers ⟨some 254, o⟩ true "paint".toList
        (.ok ⟨"paint".toList, some [⟨none, "paint".toList⟩]⟩) := by
  have hrules : ∀ r ∈ plainTable.toList, r.intactOnly = false := by
    intro r hr
    rw [RuleTable.mem_toList] at hr
    revert r
    decide
  have hm : ∀ n, (some 254 : Option Int) = some n → 0 ≤ n := by
    intro n hn
    obtain rfl := Option.some.inj hn
    decide
  obtain ⟨run, hrun, htrace, hstem, hgoes, hrested⟩ := exists_plainTable_run
  obtain ⟨hanew, hrest⟩ := RuleTable.answers_restarted hrules hm hrun
  refine ⟨hrules, hm, run, hrun, ?_, ?_⟩
  · intro o
    have h := hanew 1 ⟨some "(1:s1>)".toList, "painting".toList⟩ (by rw [htrace]; rfl) hgoes o
    rw [htrace, hstem] at h
    exact h
  · intro o
    have h := hrest hrested o true
    rw [hstem] at h
    exact h

end Lancaster

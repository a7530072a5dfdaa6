import Lancaster.Proofs.Passes

/-!
Traces as records. A greedy run is told step by step: each step is won by the first rule that fires
in the bucket of the last letter, every step but the last asks for another, and the run rests only
when it must. The traces that stemming returns are exactly the records of greedy runs.
-/
namespace Lancaster

def stemAfter (w : Word) (wins : List Win) (i : Nat) : Word := (Run.mk w (wins.take i)).stem

def RuleTable.PassWon (t : RuleTable) (m : Option Int) (intact : Bool) (w : Word) (v : Win) :
    Prop :=
  ∃ c, w.getLast? = some c ∧ WinsFirst (t.bucket c) m intact w v

def RuleTable.Rests (t : RuleTable) (m : Option Int) (intact : Bool) (w : Word) : Prop :=
  ∃ c, w.getLast? = some c ∧ NoneFires (t.bucket c) m intact w

/-- Steps are counted from zero, and only step zero is intact. -/
structure RuleTable.GreedyRun (t : RuleTable) (m : Option Int) (w : Word) (wins : List Win) :
    Prop where
  won : ∀ i (h : i < wins.length), t.PassWon m (i == 0) (stemAfter w wins i) wins[i]
  continuing : ∀ i (h : i + 1 < wins.length), wins[i].rule.continues = true
  ended : (∃ v, wins.getLast? = some v ∧ v.rule.continues = false) ∨
    t.Rests m (wins.length == 0) (stemAfter w wins wins.length)

/-- An unacceptable word has the empty trace. Any other trace begins with the word itself, and then
lists the label and the stem of each win of a greedy run. -/
def RuleTable.Recorded (t : RuleTable) (m : Option Int) (w s : Word) (tr : Trace) : Prop :=
  isAcceptable w = false ∧ s = w ∧ tr = [] ∨
    isAcceptable w = true ∧ ∃ wins, t.GreedyRun m w wins ∧
      s = stemAfter w wins wins.length ∧
      tr = ⟨none, w⟩ :: wins.map fun v => ⟨some v.rule.label, v.stem⟩

variable {consult : Word → List Rule} {t : RuleTable} {l : Limits} {m : Option Int} {intact : Bool}
  {w u s : Word} {v : Win} {vs : List Win} {tr : Trace}

@[simp] theorem stemAfter_zero (w : Word) (vs : List Win) : stemAfter w vs 0 = w := by
  simp [stemAfter, Run.stem]

@[simp] theorem stemAfter_cons_succ (w : Word) (v : Win) (vs : List Win) (i : Nat) :
    stemAfter w (v :: vs) (i + 1) = stemAfter v.stem vs i := by
  rw [stemAfter, stemAfter, List.take_succ_cons, Run.stem_cons]

theorem stemAfter_length (w : Word) (vs : List Win) :
    stemAfter w vs vs.length = (Run.mk w vs).stem := by
  rw [stemAfter, List.take_length]

theorem RunEnds.nil_iff : RunEnds consult m intact w [] ↔ NoneFires (consult w) m intact w := by
  constructor
  · intro h
    cases h with
    | rest hn => exact hn
  · exact .rest

theorem RunEnds.cons_iff :
    RunEnds consult m intact w (v :: vs) ↔ WinsFirst (consult w) m intact w v ∧
      (v.rule.continues = false ∧ vs = [] ∨
        v.rule.continues = true ∧ RunEnds consult m false v.stem vs) := by
  constructor
  · intro h
    cases h with
    | stop hv hc => exact ⟨hv, .inl ⟨hc, rfl⟩⟩
    | more hv hc hr => exact ⟨hv, .inr ⟨hc, hr⟩⟩
  · rintro ⟨hv, ⟨hc, rfl⟩ | ⟨hc, hr⟩⟩
    · exact .stop hv hc
    · exact .more hv hc hr

/-- A run that ends, told step by step. -/
structure StepRecord (consult : Word → List Rule) (m : Option Int) (intact : Bool) (w : Word)
    (wins : List Win) : Prop where
  won : ∀ i (h : i < wins.length),
    WinsFirst (consult (stemAfter w wins i)) m (intact && i == 0) (stemAfter w wins i) wins[i]
  continuing : ∀ i (h : i + 1 < wins.length), wins[i].rule.continues = true
  ended : (∃ v, wins.getLast? = some v ∧ v.rule.continues = false) ∨
    NoneFires (consult (stemAfter w wins wins.length)) m (intact && wins.length == 0)
      (stemAfter w wins wins.length)

theorem StepRecord.tail (h : StepRecord consult m intact w (v :: vs)) (hv : vs ≠ []) :
    StepRecord consult m false v.stem vs := by
  constructor
  · intro i hi
    have hw := h.won (i + 1) (Nat.succ_lt_succ hi)
    rw [stemAfter_cons_succ, List.getElem_cons_succ] at hw
    simpa using hw
  · exact fun i hi => h.continuing (i + 1) (Nat.succ_lt_succ hi)
  · rcases h.ended with ⟨u, hu, hc⟩ | hn
    · obtain ⟨x, xs, rfl⟩ := List.exists_cons_of_ne_nil hv
      exact .inl ⟨u, by simpa using hu, hc⟩
    · exact .inr (by simpa using hn)

theorem StepRecord.cons (hw : WinsFirst (consult w) m intact w v) (hc : v.rule.continues = true)
    (h : StepRecord consult m false v.stem vs) : StepRecord consult m intact w (v :: vs) := by
  constructor
  · intro i hi
    cases i with
    | zero => simpa using hw
    | succ i => simpa using h.won i (Nat.lt_of_succ_lt_succ hi)
  · intro i hi
    cases i with
    | zero => exact hc
    | succ i => exact h.continuing i (Nat.lt_of_succ_lt_succ hi)
  · rcases h.ended with ⟨u, hu, hu'⟩ | hn
    · exact .inl ⟨u, by rw [List.getLast?_cons, hu]; rfl, hu'⟩
    · exact .inr (by simpa using hn)

theorem runEnds_iff_stepRecord :
    RunEnds consult m intact w vs ↔ StepRecord consult m intact w vs := by
  induction vs generalizing intact w with
  | nil =>
    rw [RunEnds.nil_iff]
    constructor
    · intro h
      exact ⟨by simp, by simp, .inr (by simpa using h)⟩
    · intro h
      rcases h.ended with ⟨v, hv, -⟩ | hn
      · simp at hv
      · simpa using hn
  | cons v vs ih =>
    rw [RunEnds.cons_iff]
    constructor
    · rintro ⟨hv, ⟨hc, rfl⟩ | ⟨hc, hr⟩⟩
      · refine ⟨fun i hi => ?_, by simp, .inl ⟨v, rfl, hc⟩⟩
        obtain rfl : i = 0 := by simpa using hi
        simpa using hv
      · exact .cons hv hc (ih.mp hr)
    · intro h
      have hv : WinsFirst (consult w) m intact w v := by
        have hw := h.won 0 (Nat.succ_pos vs.length)
        rw [stemAfter_zero, List.getElem_cons_zero] at hw
        simpa using hw
      refine ⟨hv, ?_⟩
      cases vs with
      | nil =>
        rcases h.ended with ⟨u, hu, hc⟩ | hn
        · obtain rfl : v = u := by simpa using hu
          exact .inl ⟨hc, rfl⟩
        · cases hc : v.rule.continues with
          | false => exact .inl ⟨rfl, rfl⟩
          | true => exact .inr ⟨rfl, .rest (by simpa using hn)⟩
      | cons x xs =>
        have hc : v.rule.continues = true := h.continuing 0 (by simp)
        exact .inr ⟨hc, ih.mpr (h.tail (by simp))⟩

theorem RuleTable.passWon_iff : t.PassWon m intact w v ↔ WinsFirst (t.rulesFor w) m intact w v := by
  unfold RuleTable.PassWon RuleTable.rulesFor
  cases hw : w.getLast? with
  | none => simp [WinsFirst]
  | some c => simp

theorem RuleTable.rests_iff (h : w ≠ []) :
    t.Rests m intact w ↔ NoneFires (t.rulesFor w) m intact w := by
  unfold RuleTable.Rests RuleTable.rulesFor
  rw [List.getLast?_eq_getLast_of_ne_nil h]
  simp

theorem StepRecord.stemAfter_ne_nil (h : StepRecord consult m intact w vs) (hw : w ≠ []) (i : Nat)
    (hi : i ≤ vs.length) : stemAfter w vs i ≠ [] := by
  cases i with
  | zero => simpa using hw
  | succ i =>
    have hs : stemAfter w vs (i + 1) = vs[i].stem := by
      simp [stemAfter, Run.stem, List.getLast?_take, List.getElem?_eq_getElem hi]
    rw [hs]
    exact ne_nil_of_isAcceptable (h.won i hi).1.acceptable

theorem RuleTable.greedyRun_iff (hw : w ≠ []) :
    t.GreedyRun m w vs ↔ RunEnds t.rulesFor m true w vs := by
  rw [runEnds_iff_stepRecord]
  constructor
  · intro h
    refine ⟨fun i hi => RuleTable.passWon_iff.mp (h.won i hi), h.continuing, ?_⟩
    rcases h.ended with hs | hn
    · exact .inl hs
    · obtain ⟨c, hc, hn⟩ := hn
      refine .inr ?_
      rw [RuleTable.rulesFor, hc]
      exact hn
  · intro h
    refine ⟨fun i hi => RuleTable.passWon_iff.mpr (h.won i hi), h.continuing, ?_⟩
    rcases h.ended with hs | hn
    · exact .inl hs
    · exact .inr ((RuleTable.rests_iff (h.stemAfter_ne_nil hw _ le_rfl)).mpr hn)

theorem RuleTable.recorded_iff (hf : l.fit w = .ok u) :
    t.Recorded l.maxLength u s tr ↔
      ∃ r, ComesTo t.rulesFor l w (.ok r) ∧ s = r.stem ∧ tr = r.trace := by
  constructor
  · rintro (⟨ha, rfl, rfl⟩ | ⟨ha, wins, hg, rfl, rfl⟩)
    · exact ⟨⟨s, []⟩, .kept hf ha, rfl, by simp [Run.trace, ha]⟩
    · have hr := (RuleTable.greedyRun_iff (ne_nil_of_isAcceptable ha)).mp hg
      refine ⟨⟨u, wins⟩, .ended hf ha hr, stemAfter_length u wins, ?_⟩
      simp [Run.trace, ha, Win.step]
  · rintro ⟨r, hc, rfl, rfl⟩
    cases hc with
    | kept hu ha =>
      obtain rfl := Except.ok.inj (hu.symm.trans hf)
      exact .inl ⟨ha, rfl, by simp [Run.trace, ha]⟩
    | @ended _ wins hu ha hr =>
      obtain rfl := Except.ok.inj (hu.symm.trans hf)
      have hg := (RuleTable.greedyRun_iff (ne_nil_of_isAcceptable ha)).mpr hr
      refine .inr ⟨ha, wins, hg, (stemAfter_length _ wins).symm, ?_⟩
      simp [Run.trace, ha, Win.step]

/-- A stem and a trace are returned just when they record a greedy run from the fitted word, and
without a trace the same stem is returned. -/
theorem RuleTable.answers_traced_iff_recorded (t : RuleTable) (l : Limits) (w s : Word) :
    (∀ tr, t.Answers l true w (.ok ⟨s, some tr⟩) ↔
      ∃ w₀, l.fit w = .ok w₀ ∧ t.Recorded l.maxLength w₀ s tr) ∧
    (t.Answers l false w (.ok ⟨s, none⟩) ↔ ∃ tr, t.Answers l true w (.ok ⟨s, some tr⟩)) := by
  constructor
  · intro tr
    constructor
    · intro h
      obtain ⟨r, hc, rfl, rfl⟩ := h.exists_run
      exact ⟨r.start, hc.fit_eq, (RuleTable.recorded_iff hc.fit_eq).mpr ⟨r, hc, rfl, rfl⟩⟩
    · rintro ⟨w₀, hf, hr⟩
      obtain ⟨r, hc, rfl, rfl⟩ := (RuleTable.recorded_iff hf).mp hr
      exact hc.answers true
  · simp only [RuleTable.answers_ok_iff]
    constructor
    · rintro ⟨r, hc, hr⟩
      obtain ⟨rfl, -⟩ := StemResult.mk.inj hr
      exact ⟨r.trace, r, hc, rfl⟩
    · rintro ⟨tr, r, hc, hr⟩
      obtain ⟨rfl, -⟩ := StemResult.mk.inj hr
      exact ⟨r, hc, rfl⟩

end Lancaster

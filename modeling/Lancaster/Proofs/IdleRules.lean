import Lancaster.Proofs.EndlessRuns

/-!
Idle rules. A rule that wins no pass of a run might as well not be there: every pass of the run has
the same winner without it. Rules are told apart by their places in the list, since equal rules may
stand at several of them, and the run may be one that never ends.
-/
namespace Lancaster

/-- The rule at this place in the list wins a pass over its bucket: it fires, and none of the rules
that stand before it in the bucket does. -/
def WinsAt (rules : List Rule) (m : Option Int) (intact : Bool) (w : Word) (i : Nat) : Prop :=
  ∃ r, rules[i]? = some r ∧ (∃ u, r.Fires m intact w u) ∧
    ∀ s ∈ rules.take i, s.letter = r.letter → ∀ u, ¬ s.Fires m intact w u

/-- The rule at this place wins some pass of stemming the word. Passes are counted from zero, and
only pass zero is intact. -/
def AppliedAt (rules : List Rule) (l : Limits) (w : Word) (i : Nat) : Prop :=
  ∃ k u, (RuleTable.ofList rules).passStem l w k = some u ∧
    WinsAt rules l.maxLength (k == 0) u i

/-- The tables answer the word alike, with a stem and a trace or with a refusal, or they both stem
it for ever. -/
structure RuleTable.AgreeOn (t t' : RuleTable) (l : Limits) (w : Word) : Prop where
  answers : ∀ traced o, t.Answers l traced w o ↔ t'.Answers l traced w o
  forEver : ∀ traced, t.RunsForEver l traced w ↔ t'.RunsForEver l traced w

variable {rules : List Rule} {m : Option Int} {intact : Bool} {w : Word} {i : Nat} {l : Limits}
  {t t' : RuleTable}

theorem firstWin_eraseIdx (h : ¬ WinsAt rules m intact w i) :
    firstWin (rules.eraseIdx i) m intact w = firstWin rules m intact w := by
  by_cases hi : i < rules.length
  · have hsplit : rules = rules.take i ++ rules[i] :: rules.drop (i + 1) := by
      rw [List.cons_getElem_drop_succ, List.take_append_drop]
    have hwhole : firstWin rules m intact w =
        firstWin (rules.take i ++ rules[i] :: rules.drop (i + 1)) m intact w := by
      rw [← hsplit]
    rw [hwhole, List.eraseIdx_eq_take_drop_succ]
    unfold firstWin
    rw [List.findSome?_append, List.findSome?_append]
    cases hbefore : firstWin (rules.take i) m intact w with
    | some v =>
      -- A rule that stands before the place wins, with it or without it.
      rw [firstWin] at hbefore
      rw [hbefore]
      rfl
    | none =>
      have hidle : rules[i].attempt m intact w = none := by
        rw [Rule.attempt_eq_none_iff]
        intro u hu
        apply h
        refine ⟨rules[i], List.getElem?_eq_getElem hi, ⟨u, hu⟩, ?_⟩
        intro s hs _
        exact firstWin_eq_none_iff.mp hbefore s hs
      rw [List.findSome?_cons, hidle]
      rfl
  · rw [List.eraseIdx_of_length_le (by omega)]

theorem runWins_congr {win win' : Bool → Word → Option Win}
    (h : ∀ k u, passStart win k intact w = some u →
      win' (intact && k == 0) u = win (intact && k == 0) u) (passes : Nat) :
    runWins win' passes intact w = runWins win passes intact w := by
  induction passes generalizing intact w with
  | zero => rfl
  | succ passes ih =>
    have hfirst : win' intact w = win intact w := by simpa using h 0 w rfl
    rw [runWins, runWins, hfirst]
    cases hv : win intact w with
    | none => rfl
    | some v =>
      cases hc : v.rule.continues with
      | false => simp [hc]
      | true =>
        have hlater : runWins win' passes false v.stem = runWins win passes false v.stem := by
          apply ih
          intro k u hu
          rw [← passStart_succ_of_win hv hc] at hu
          simpa using h (k + 1) u hu
        simp [hc, hlater]

theorem RuleTable.win_ofList (rules : List Rule) (m : Option Int) (intact : Bool) (w : Word) :
    (RuleTable.ofList rules).win m intact w = firstWin rules m intact w := by
  rw [← firstWin_rulesFor_ofList, RuleTable.win, RuleTable.rulesFor]
  cases w.getLast? with
  | none => rfl
  | some c => rfl

theorem RuleTable.run_eraseIdx (h : ¬ AppliedAt rules l w i) (passes : Nat) :
    (RuleTable.ofList (rules.eraseIdx i)).run l passes w =
      (RuleTable.ofList rules).run l passes w := by
  rw [RuleTable.run, RuleTable.run]
  cases hf : l.fit w with
  | error f => simp only [Except.bind]
  | ok u₀ =>
    cases ha : isAcceptable u₀ with
    | false => simp [Except.bind, runFitted, ha]
    | true =>
      have hwins : runWins ((RuleTable.ofList (rules.eraseIdx i)).win l.maxLength) passes true u₀ =
          runWins ((RuleTable.ofList rules).win l.maxLength) passes true u₀ := by
        apply runWins_congr
        intro k u hu
        rw [RuleTable.win_ofList, RuleTable.win_ofList, Bool.true_and]
        apply firstWin_eraseIdx
        intro hwins
        exact h ⟨k, u, by simpa [RuleTable.passStem, hf, ha] using hu, hwins⟩
      simp [Except.bind, runFitted, ha, hwins]

theorem RuleTable.AgreeOn.of_run (h : ∀ passes, t.run l passes w = t'.run l passes w) :
    t.AgreeOn t' l w := by
  have hstem : ∀ traced passes, t.stem l passes traced w = t'.stem l passes traced w := by
    intro traced passes
    rw [RuleTable.stem, RuleTable.stem, h]
  constructor
  · intro traced o
    simp only [RuleTable.Answers, hstem]
  · intro traced
    simp only [RuleTable.RunsForEver, hstem]

theorem RuleTable.AgreeOn.symm (h : t.AgreeOn t' l w) : t'.AgreeOn t l w :=
  ⟨fun traced o => (h.answers traced o).symm, fun traced => (h.forEver traced).symm⟩

/-- A rule that wins no pass of stemming a word can be taken out of the list: the word is answered
as before, or it is still stemmed for ever. So a rule that is put anywhere into a list changes what
becomes of a word only if it is itself applied to that word. -/
theorem RuleTable.agreeOn_of_idle (rules : List Rule) (l : Limits) (w : Word) :
    (∀ i, ¬ AppliedAt rules l w i →
      (RuleTable.ofList (rules.eraseIdx i)).AgreeOn (RuleTable.ofList rules) l w) ∧
    ∀ i r, i ≤ rules.length →
      ¬ (RuleTable.ofList (rules.insertIdx i r)).AgreeOn (RuleTable.ofList rules) l w →
        AppliedAt (rules.insertIdx i r) l w i := by
  have hidle : ∀ (given : List Rule) i, ¬ AppliedAt given l w i →
      (RuleTable.ofList (given.eraseIdx i)).AgreeOn (RuleTable.ofList given) l w := by
    intro given i h
    apply RuleTable.AgreeOn.of_run
    intro passes
    exact RuleTable.run_eraseIdx h passes
  constructor
  · exact hidle rules
  · intro i r _ hchanged
    by_contra hnot
    have hagree := hidle (rules.insertIdx i r) i hnot
    rw [List.eraseIdx_insertIdx_self] at hagree
    exact hchanged hagree.symm

def pluralRule : Rule :=
  ⟨['i', 'e', 's'], false, 3, ['y'], true, [], 0, by decide, by decide, by decide⟩

/-- Asks for another pass of a stem that it leaves as it is. -/
def restlessRule : Rule :=
  ⟨['i', 'e', 's'], false, 3, ['i', 'e', 's'], true, [], 0, by decide, by decide, by decide⟩

theorem not_appliedAt_repeated :
    ¬ AppliedAt [pluralRule, pluralRule, restlessRule] {} "flies".toList 1 := by
  rintro ⟨k, u, -, r, hr, ⟨x, hx⟩, hbefore⟩
  obtain rfl := Option.some.inj hr
  exact hbefore pluralRule (by decide) rfl x hx

theorem restless_runsForEver :
    (RuleTable.ofList [restlessRule, pluralRule]).RunsForEver {} false "flies".toList := by
  have hfirst : (RuleTable.ofList [restlessRule, pluralRule]).passStem {} "flies".toList 1 =
      some "flies".toList := by
    decide
  have hsecond : (RuleTable.ofList [restlessRule, pluralRule]).passStem {} "flies".toList 2 =
      some "flies".toList := by
    decide
  exact RuleTable.runsForEver_of_repeats (by decide) (by decide) hfirst hsecond

/-- The second of two equal rules is idle. A rule that makes stemming go on for ever is not. -/
theorem RuleTable.agreeOn_of_idle_repeated :
    ¬ AppliedAt [pluralRule, pluralRule, restlessRule] {} "flies".toList 1 ∧
    (RuleTable.ofList [pluralRule, restlessRule]).AgreeOn
      (RuleTable.ofList [pluralRule, pluralRule, restlessRule]) {} "flies".toList ∧
    ¬ (RuleTable.ofList [restlessRule, pluralRule]).AgreeOn (RuleTable.ofList [pluralRule]) {}
      "flies".toList ∧
    AppliedAt [restlessRule, pluralRule] {} "flies".toList 0 := by
  have hchanged : ¬ (RuleTable.ofList [restlessRule, pluralRule]).AgreeOn
      (RuleTable.ofList [pluralRule]) {} "flies".toList := by
    intro hagree
    have hends : ¬ (RuleTable.ofList [pluralRule]).RunsForEver {} false "flies".toList :=
      RuleTable.not_runsForEver 2 (by decide)
    exact hends ((hagree.forEver false).mp restless_runsForEver)
  have hrepeated := (RuleTable.agreeOn_of_idle [pluralRule, pluralRule, restlessRule] {}
    "flies".toList).1 1 not_appliedAt_repeated
  have hinserted := (RuleTable.agreeOn_of_idle [pluralRule] {} "flies".toList).2 0 restlessRule
    (by decide) hchanged
  exact ⟨not_appliedAt_repeated, hrepeated, hchanged, hinserted⟩

end Lancaster

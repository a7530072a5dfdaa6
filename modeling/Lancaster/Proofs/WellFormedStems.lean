import Lancaster.Proofs.EndlessRuns
import Lancaster.Proofs.Restarts
import Lancaster.Proofs.StemLetters

/-!
Well-formed stems. Rules may remove more than there is, and limits may cut what they append at any
place, but no rule fires unless its result is acceptable. So no pass starts at an empty stem. The
stems of a word of small letters keep to its alphabet, to the limit and to the gate, and only a word
that is unacceptable from the start has a stem that is.
-/
namespace Lancaster

/-- A word that the limits admit and from which rules may be tried. -/
structure Limits.WellFormed (l : Limits) (w : Word) : Prop extends l.Admits w where
  acceptable : isAcceptable w = true

variable {consult : Word → List Rule} {intact : Bool} {w u : Word} {r : Rule} {vs : List Win}
  {l : Limits} {t : RuleTable} {run : Run} {k : Nat}

theorem Rule.Fires.wellFormed (h : r.Fires l.maxLength intact w u) (hl : l.Positive)
    (hw : l.WellFormed w) : l.WellFormed u :=
  ⟨h.admitted hl hw.toAdmits, h.acceptable⟩

theorem RuleTable.passStem_acceptable (h : t.passStem l w k = some u) : isAcceptable u = true := by
  obtain ⟨w₀, -, ha, hpass⟩ := RuleTable.exists_fitted_of_passStem h
  apply passStart_induction (P := fun x => isAcceptable x = true) hpass ha
  intro r b x y _ hy
  exact hy.acceptable

theorem RuleTable.passStem_wellFormed (h : t.passStem l w k = some u) (hl : l.Positive)
    (hne : w ≠ []) (hw : w.IsLower) : l.WellFormed u := by
  obtain ⟨w₀, hf, ha, hpass⟩ := RuleTable.exists_fitted_of_passStem h
  have hstart : l.WellFormed w₀ := ⟨Limits.admits_of_fit hl hne hw hf, ha⟩
  apply passStart_induction hpass hstart
  intro r b x y hx hy
  exact hy.wellFormed hl hx

theorem RunEnds.wins_wellFormed (h : RunEnds consult l.maxLength intact w vs) (hl : l.Positive)
    (hw : l.WellFormed w) : ∀ v ∈ vs, l.WellFormed v.stem := by
  apply h.stems_induction hw
  intro u r _ b x hu hx
  exact hx.wellFormed hl hu

theorem ComesTo.trace_wellFormed (h : ComesTo consult l w (.ok run)) (hl : l.Positive)
    (hne : w ≠ []) (hw : w.IsLower) : ∀ step ∈ run.trace, l.WellFormed step.stem := by
  cases h with
  | kept _ ha => simp [Run.trace, ha]
  | @ended w₀ vs hf ha hr =>
    have hstart : l.WellFormed w₀ := ⟨Limits.admits_of_fit hl hne hw hf, ha⟩
    rw [Run.trace_eq_cons ha]
    intro step hstep
    rcases List.mem_cons.mp hstep with rfl | hstep
    · exact hstart
    · obtain ⟨v, hv, rfl⟩ := List.mem_map.mp hstep
      exact hr.wins_wellFormed hl hstart v hv

theorem ComesTo.stem_acceptable_iff (h : ComesTo consult l w (.ok run)) :
    isAcceptable run.stem = true ↔ isAcceptable run.start = true := by
  cases h with
  | kept => exact Iff.rfl
  | ended _ ha hr =>
    constructor
    · intro _
      exact ha
    · intro _
      apply hr.stem_induction (P := fun x => isAcceptable x = true) ha
      intro r b x y _ hy
      exact hy.acceptable

/-- Every pass, also of a run that never ends, finds a last letter to look up. Stems of words of
small letters, under no limit or one that leaves a letter, are words of small letters within the
limit. Those of the trace are acceptable, and the last one is if the fitted word is. -/
theorem RuleTable.stems_wellFormed (t : RuleTable) (l : Limits) (w : Word) :
    (∀ k u, t.passStem l w k = some u → ∃ c, u.getLast? = some c) ∧
    (l.Positive → w ≠ [] → w.IsLower →
      (∀ k u, t.passStem l w k = some u → l.WellFormed u) ∧
      ∀ traced a, t.Answers l traced w (.ok a) →
        (∀ tr, a.trace = some tr → ∀ step ∈ tr, l.WellFormed step.stem) ∧ l.Admits a.stem ∧
          ∃ w₀, l.fit w = .ok w₀ ∧ (isAcceptable a.stem = true ↔ isAcceptable w₀ = true)) := by
  constructor
  · intro k u hpass
    have hne : u ≠ [] := ne_nil_of_isAcceptable (RuleTable.passStem_acceptable hpass)
    exact ⟨u.getLast hne, List.getLast?_eq_getLast_of_ne_nil hne⟩
  · intro hl hne hw
    constructor
    · intro k u hpass
      exact RuleTable.passStem_wellFormed hpass hl hne hw
    · intro traced a hanswer
      obtain ⟨run, hcomes, rfl⟩ := RuleTable.answers_ok_iff.mp hanswer
      refine ⟨?_, hcomes.admits hl hne hw, run.start, hcomes.fit_eq, hcomes.stem_acceptable_iff⟩
      intro tr htr
      cases traced with
      | false => cases htr
      | true =>
        obtain rfl := Option.some.inj htr
        exact hcomes.trace_wellFormed hl hne hw

/-- The limit cuts what the first rule makes of the word. -/
theorem RuleTable.stems_wellFormed_swelling :
    Limits.Positive ⟨some 5, .reject⟩ ∧ "cats".toList ≠ [] ∧ Text.IsLower "cats".toList ∧
    swellingTable.passStem ⟨some 5, .reject⟩ "cats".toList 1 = some "catse".toList ∧
    Limits.WellFormed ⟨some 5, .reject⟩ "catse".toList ∧
    ∃ tr, swellingTable.Answers ⟨some 5, .reject⟩ true "cats".toList
        (.ok ⟨"catse".toList, some tr⟩) ∧
      tr.length = 2 ∧ ∀ step ∈ tr, Limits.WellFormed ⟨some 5, .reject⟩ step.stem := by
  have hl : Limits.Positive ⟨some 5, .reject⟩ := by
    intro n hn
    obtain rfl := Option.some.inj hn
    decide
  have hpass : swellingTable.passStem ⟨some 5, .reject⟩ "cats".toList 1 = some "catse".toList := by
    decide
  have hanswer : swellingTable.stem ⟨some 5, .reject⟩ 3 true "cats".toList = .ok ⟨"catse".toList,
      some [⟨none, "cats".toList⟩, ⟨some "(1:s*0es>)".toList, "catse".toList⟩]⟩ := by
    decide
  have hrun := RuleTable.answers_of_stem hanswer
  obtain ⟨hpasses, hanswers⟩ := (RuleTable.stems_wellFormed swellingTable ⟨some 5, .reject⟩
    "cats".toList).2 hl (by decide) (by decide)
  exact ⟨hl, by decide, by decide, hpass, hpasses 1 _ hpass, _, hrun, rfl,
    (hanswers true _ hrun).1 _ rfl⟩

end Lancaster

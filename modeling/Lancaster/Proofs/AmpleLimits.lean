import Lancaster.Proofs.Anchoring

/-!
Ample limits. A limit cuts what a rule makes of a stem to one of its beginnings, and a beginning is
acceptable only if the whole is, so under a limit no rule fires that would not fire without it. A
run that keeps within a limit is therefore the run under that limit. The bundled rules never
lengthen a stem, and all that a limit does to them is to cut the word.
-/
namespace Lancaster

variable {consult : Word → List Rule} {m : Option Int} {intact : Bool} {w u p : Word} {r : Rule}
  {rules : List Rule} {v : Win} {vs : List Win} {l : Limits} {t : RuleTable} {o : Overflow}
  {run : Run} {n : Int}

theorem isAcceptable_of_prefix (h : p <+: w) (hp : isAcceptable p = true) :
    isAcceptable w = true := by
  obtain ⟨rest, rfl⟩ := h
  cases p with
  | nil => cases hp
  | cons c p =>
    rw [isAcceptable] at hp
    rw [List.cons_append, isAcceptable]
    by_cases hc : isVowel c = true
    · rw [if_pos hc, decide_eq_true_iff] at hp ⊢
      rw [List.length_append]
      omega
    · rw [if_neg hc, Bool.and_eq_true, decide_eq_true_iff] at hp ⊢
      obtain ⟨hlen, hvowel⟩ := hp
      constructor
      · rw [List.length_append]
        omega
      · rw [← List.cons_append, List.any_append, hvowel, Bool.true_or]

theorem Rule.Fires.uncut (h : r.Fires m intact w u) : ∃ x, r.Fires none intact w x := by
  refine ⟨r.apply w, h.guard, h.ending, by rw [Rule.apply_eq]; rfl, ?_⟩
  have hacc := h.acceptable
  rw [h.result, ← Rule.apply_eq] at hacc
  obtain ⟨k, hk⟩ := exists_cut_eq_take m (r.apply w)
  rw [hk] at hacc
  exact isAcceptable_of_prefix (List.take_prefix k _) hacc

theorem Rule.Fires.within (h : r.Fires none intact w u)
    (hu : Within m u) : r.Fires m intact w u := by
  refine ⟨h.guard, h.ending, ?_, h.acceptable⟩
  have huncut : u = w.take (w.length - min r.removeCount w.length) ++ r.append := h.result
  rw [← huncut, hu.cut_eq]

theorem NoneFires.within (h : NoneFires rules none intact w) : NoneFires rules m intact w := by
  intro r hr u hu
  obtain ⟨x, hx⟩ := hu.uncut
  exact h r hr x hx

theorem WinsFirst.within (h : WinsFirst rules none intact w v) (hv : Within m v.stem) :
    WinsFirst rules m intact w v := by
  obtain ⟨hfires, before, after, hsplit, hbefore⟩ := h
  refine ⟨hfires.within hv, before, after, hsplit, ?_⟩
  intro r hr u hu
  obtain ⟨x, hx⟩ := hu.uncut
  exact hbefore r hr x hx

theorem RunEnds.within (h : RunEnds consult none intact w vs)
    (hvs : ∀ v ∈ vs, Within m v.stem) : RunEnds consult m intact w vs := by
  induction h with
  | rest hn => exact .rest hn.within
  | @stop b u v hv hc => exact .stop (hv.within (hvs v List.mem_cons_self)) hc
  | @more b u v vs hv hc _ ih =>
    have hrest := ih fun x hx => hvs x (List.mem_cons_of_mem v hx)
    exact .more (hv.within (hvs v List.mem_cons_self)) hc hrest

theorem ComesTo.within (h : ComesTo consult ⟨none, o⟩ w (.ok run)) (hw : Within m w)
    (hvs : ∀ v ∈ run.wins, Within m v.stem) (o' : Overflow) :
    ComesTo consult ⟨m, o'⟩ w (.ok run) := by
  have hfit : Limits.fit ⟨m, o'⟩ w = .ok w := Within.fit_eq hw
  cases h with
  | kept hf ha =>
    obtain rfl := Limits.eq_cut_of_fit hf
    exact .kept hfit ha
  | ended hf ha hr =>
    obtain rfl := Limits.eq_cut_of_fit hf
    exact .ended hfit ha (hr.within hvs)

theorem Limits.fit_truncate (m : Option Int) (w : Word) :
    Limits.fit ⟨m, .truncate⟩ w = .ok (cut m w) := by
  cases m with
  | none => rfl
  | some n =>
    by_cases hn : (w.length : Int) ≤ n
    · simp [Limits.fit, hn, (within_some.mpr hn).cut_eq]
    · simp [Limits.fit, hn, cut]

theorem Rule.Fires.length_le_of_replacesEnd (h : r.Fires m intact w u) (hr : r.ReplacesEnd) :
    u.length ≤ w.length := by
  rw [h.result, ← Rule.apply_eq]
  exact (length_cut_le m _).trans (hr.length_apply_le h.ending)

theorem bundled_stem_length_le (h : RunEnds bundledTable.rulesFor m intact w vs) :
    ∀ v ∈ vs, v.stem.length ≤ w.length := by
  apply h.stems_induction (P := fun u => u.length ≤ w.length) le_rfl
  intro u r hr b x hu hx
  exact (hx.length_le_of_replacesEnd (bundled_rulesFor_replaceEnd u r hr)).trans hu

theorem bundled_exists_comesTo_cut (n : Nat) (o : Overflow) (w : Word) :
    ∃ run, ComesTo bundledTable.rulesFor ⟨some n, .truncate⟩ w (.ok run) ∧
      ComesTo bundledTable.rulesFor ⟨none, o⟩ (w.take n) (.ok run) := by
  have hcut : cut (some (n : Int)) w = w.take n := by
    change cutTo n w = w.take n
    rw [cutTo, if_pos (Int.natCast_nonneg n), Int.toNat_natCast]
  have hfit : Limits.fit ⟨some (n : Int), .truncate⟩ w = .ok (w.take n) := by
    rw [Limits.fit_truncate, hcut]
  have hfree : Limits.fit ⟨none, o⟩ (w.take n) = .ok (w.take n) := rfl
  cases ha : isAcceptable (w.take n) with
  | false => exact ⟨⟨w.take n, []⟩, .kept hfit ha, .kept hfree ha⟩
  | true =>
    obtain ⟨vs, hr, -⟩ := bundled_exists_runEnds none (ne_nil_of_isAcceptable ha)
    have hvs : ∀ v ∈ vs, Within (some (n : Int)) v.stem := by
      intro v hv
      have hle := (bundled_stem_length_le hr v hv).trans (List.length_take_le n w)
      exact within_some.mpr (Int.ofNat_le.mpr hle)
    exact ⟨⟨w.take n, vs⟩, .ended hfit ha (hr.within hvs), .ended hfree ha hr⟩

/-- A limit that neither the word nor any stem of its run exceeds changes nothing, whatever is to be
done with words that are too long. With the bundled rules a limit that cuts the word gives what
stemming the cut word gives without a limit. -/
theorem RuleTable.answers_of_ample :
    (∀ (t : RuleTable) (n : Int) (o o' : Overflow) (w s : Word) (tr : Trace),
      t.Answers ⟨none, o⟩ true w (.ok ⟨s, some tr⟩) → (w.length : Int) ≤ n →
      (∀ step ∈ tr, (step.stem.length : Int) ≤ n) →
      t.Answers ⟨some n, o'⟩ true w (.ok ⟨s, some tr⟩) ∧
        t.Answers ⟨some n, o'⟩ false w (.ok ⟨s, none⟩)) ∧
    ∃ t, compile bundledText = .ok t ∧ ∀ (n : Nat) (o : Overflow) (w : Word), ∃ run : Run,
      ∀ traced, t.Answers ⟨some n, .truncate⟩ traced w (.ok (run.result traced)) ∧
        t.Answers ⟨none, o⟩ traced (w.take n) (.ok (run.result traced)) := by
  constructor
  · intro t n o o' w s tr hanswer hw htr
    obtain ⟨run, hc, rfl, rfl⟩ := hanswer.exists_run
    have hample : ComesTo t.rulesFor ⟨some n, o'⟩ w (.ok run) := by
      apply hc.within (within_some.mpr hw)
      intro v hv
      exact within_some.mpr (htr v.step (hc.step_mem_trace hv))
    exact ⟨hample.answers true, hample.answers false⟩
  · refine ⟨bundledTable, compile_bundledText, ?_⟩
    intro n o w
    obtain ⟨run, hcut, hfree⟩ := bundled_exists_comesTo_cut n o w
    exact ⟨run, fun traced => ⟨hcut.answers traced, hfree.answers traced⟩⟩

theorem RuleTable.answers_of_ample_swelling :
    swellingTable.Answers ⟨some 6, .reject⟩ true "cats".toList (.ok ⟨"cating".toList, some
      [⟨none, "cats".toList⟩, ⟨some "(1:s*0es>)".toList, "catses".toList⟩,
        ⟨some "(2:se2>)".toList, "cats".toList⟩, ⟨some "(3:s1>)".toList, "cat".toList⟩,
        ⟨some "(4:t0ing.)".toList, "cating".toList⟩]⟩) := by
  have hanswer : swellingTable.stem ⟨none, .truncate⟩ 5 true "cats".toList =
      .ok ⟨"cating".toList, some
        [⟨none, "cats".toList⟩, ⟨some "(1:s*0es>)".toList, "catses".toList⟩,
          ⟨some "(2:se2>)".toList, "cats".toList⟩, ⟨some "(3:s1>)".toList, "cat".toList⟩,
          ⟨some "(4:t0ing.)".toList, "cating".toList⟩]⟩ := by
    decide
  exact (RuleTable.answers_of_ample.1 swellingTable 6 .truncate .reject _ _ _
    (RuleTable.answers_of_stem hanswer) (by decide) (by decide)).1

end Lancaster

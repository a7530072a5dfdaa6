import Lancaster.Proofs.BundledRules

/-!
Dead rules. A rule never wins if another one stands before it that fires on every stem on which it
fires itself. One bundled rule is dead in this way. The ending `ier` is an ending `er` as well, the
rule for `er` stands first, and it leaves an `i` where the rule for `ier` would leave a `y`, so its
result is acceptable whenever the other one is. Each of the other bundled rules is applied to some
word.
-/
namespace Lancaster

/-- Stemming the word applies a rule with this label. -/
def RuleTable.Applies (t : RuleTable) (l : Limits) (w : Word) (label : Text) : Prop :=
  ∃ s tr, t.Answers l true w (.ok ⟨s, some tr⟩) ∧ ∃ step ∈ tr, step.label = some label

def isLoneVowel : Text → Bool
  | [c] => isStemVowel c
  | _ => false

/-- The rule `r` fits every stem that `s` fits, and both put a single vowel behind what `s`
keeps. -/
structure Rule.Outruns (r s : Rule) : Prop where
  guard : r.intactOnly = true → s.intactOnly = true
  ending : r.suffix <:+ s.suffix
  count_le : r.removeCount ≤ s.suffix.length ∧ s.removeCount ≤ s.suffix.length
  vowels : isLoneVowel (r.apply s.suffix) = true ∧ isLoneVowel (s.apply s.suffix) = true

instance (r s : Rule) : Decidable (r.Outruns s) :=
  decidable_of_iff
    ((r.intactOnly = true → s.intactOnly = true) ∧ r.suffix <:+ s.suffix ∧
      (r.removeCount ≤ s.suffix.length ∧ s.removeCount ≤ s.suffix.length) ∧
      isLoneVowel (r.apply s.suffix) = true ∧ isLoneVowel (s.apply s.suffix) = true)
    ⟨fun ⟨hg, he, hc, hv⟩ => ⟨hg, he, hc, hv⟩, fun ⟨hg, he, hc, hv⟩ => ⟨hg, he, hc, hv⟩⟩

def Rule.OutrunIn (s : Rule) (rules : List Rule) : Prop :=
  ∃ r ∈ rules.takeWhile (· ≠ s), r.Outruns s

instance (s : Rule) (rules : List Rule) : Decidable (s.OutrunIn rules) :=
  inferInstanceAs (Decidable (∃ r ∈ rules.takeWhile (· ≠ s), r.Outruns s))

variable {consult : Word → List Rule} {m : Option Int} {intact : Bool} {w u : Word} {r s : Rule}
  {v : Win} {vs : List Win} {rules : List Rule} {t : RuleTable} {l : Limits} {label : Text}

theorem Rule.apply_append {e : Text} (h : r.removeCount ≤ e.length) (p : Word) :
    r.apply (p ++ e) = p ++ r.apply e := by
  have hkept : (p ++ e).length - r.removeCount = p.length + (e.length - r.removeCount) := by
    rw [List.length_append]
    omega
  rw [Rule.apply, Rule.apply, hkept, List.take_length_add_append, List.append_assoc]

theorem exists_of_isLoneVowel {e : Text} (h : isLoneVowel e = true) :
    ∃ c, e = [c] ∧ isStemVowel c = true := by
  match e, h with
  | [c], h => exact ⟨c, rfl, h⟩

theorem isAcceptable_append_vowel {c d : Char} (hc : isStemVowel c = true)
    (hd : isStemVowel d = true) (p : Word) :
    isAcceptable (p ++ [c]) = isAcceptable (p ++ [d]) := by
  cases p with
  | nil => simp [isAcceptable]
  | cons x p => simp [isAcceptable, hc, hd]

/-- Under a limit, too: the limit cuts the vowel off from both stems or from neither. -/
theorem isAcceptable_cut_append_vowel {c d : Char} (hc : isStemVowel c = true)
    (hd : isStemVowel d = true) (m : Option Int) (p : Word) :
    isAcceptable (cut m (p ++ [c])) = isAcceptable (cut m (p ++ [d])) := by
  obtain ⟨k, hk⟩ := exists_cut_eq_take_of_length m (p.length + 1)
  rw [hk (p ++ [c]) (by simp), hk (p ++ [d]) (by simp)]
  by_cases hp : k ≤ p.length
  · rw [List.take_append_of_le_length hp, List.take_append_of_le_length hp]
  · have hlen : ∀ x : Char, (p ++ [x]).length ≤ k := by
      intro x
      rw [List.length_append, List.length_singleton]
      omega
    rw [List.take_of_length_le (hlen c), List.take_of_length_le (hlen d)]
    exact isAcceptable_append_vowel hc hd p

theorem Rule.Outruns.fires (h : r.Outruns s) (hs : s.Fires m intact w u) :
    ∃ x, r.Fires m intact w x := by
  obtain ⟨p, hp⟩ := hs.ending
  obtain ⟨c, hrc, hc⟩ := exists_of_isLoneVowel h.vowels.1
  obtain ⟨d, hsd, hd⟩ := exists_of_isLoneVowel h.vowels.2
  have hr : r.apply w = p ++ [c] := by rw [← hp, Rule.apply_append h.count_le.1, hrc]
  have hs' : s.apply w = p ++ [d] := by rw [← hp, Rule.apply_append h.count_le.2, hsd]
  refine ⟨cut m (r.apply w), ?_⟩
  constructor
  · intro hi
    exact hs.guard (h.guard hi)
  · exact h.ending.trans hs.ending
  · rw [Rule.apply_eq]
  · have hacc := hs.acceptable
    rw [hs.result, ← Rule.apply_eq, hs'] at hacc
    rw [hr, isAcceptable_cut_append_vowel hc hd, hacc]

theorem mem_of_mem_takeWhile_ne {before after : List Rule}
    (h : r ∈ (before ++ s :: after).takeWhile (· ≠ s)) : r ∈ before := by
  rw [List.takeWhile_append] at h
  split at h
  · simpa using h
  · exact (List.takeWhile_prefix _).subset h

theorem not_winsFirst_of_outrunIn (h : v.rule.OutrunIn rules) :
    ¬ WinsFirst rules m intact w v := by
  rintro ⟨hv, before, after, rfl, hn⟩
  obtain ⟨r, hr, hout⟩ := h
  obtain ⟨x, hx⟩ := hout.fires hv
  exact hn r (mem_of_mem_takeWhile_ne hr) x hx

theorem RuleTable.applies_iff :
    t.Applies l w label ↔
      ∃ run, ComesTo t.rulesFor l w (.ok run) ∧ ∃ v ∈ run.wins, v.rule.label = label := by
  constructor
  · rintro ⟨s, tr, hanswer, step, hstep, hlabel⟩
    obtain ⟨run, hc, -, rfl⟩ := hanswer.exists_run
    refine ⟨run, hc, ?_⟩
    rw [Run.trace] at hstep
    split at hstep
    · rcases List.mem_cons.mp hstep with rfl | hstep
      · cases hlabel
      · obtain ⟨v, hv, rfl⟩ := List.mem_map.mp hstep
        exact ⟨v, hv, Option.some.inj hlabel⟩
    · cases hstep
  · rintro ⟨run, hc, v, hv, rfl⟩
    exact ⟨run.stem, run.trace, hc.answers true, v.step, hc.step_mem_trace hv, rfl⟩

theorem not_applies_of_outrunIn (h : ∀ s ∈ rules, s.label = label → s.OutrunIn rules)
    (l : Limits) (w : Word) : ¬ (RuleTable.ofList rules).Applies l w label := by
  rw [RuleTable.applies_iff]
  rintro ⟨run, hc, v, hv, hlabel⟩
  cases hc with
  | kept => cases hv
  | ended _ _ hr =>
    obtain ⟨b, u, hwin⟩ := hr.exists_winsFirst hv
    rw [← firstWin_eq_some_iff, firstWin_rulesFor_ofList, firstWin_eq_some_iff] at hwin
    exact not_winsFirst_of_outrunIn (h v.rule hwin.mem hlabel) hwin

theorem RunEnds.exists_eq_cons (h : RunEnds consult m intact w vs)
    (hv : WinsFirst (consult w) m intact w v) : ∃ us, vs = v :: us := by
  have hfirst := firstWin_eq_some_iff.mpr hv
  cases h with
  | rest hn => cases (firstWin_eq_none_iff.mpr hn).symm.trans hfirst
  | stop hx _ =>
    obtain rfl := Option.some.inj ((firstWin_eq_some_iff.mpr hx).symm.trans hfirst)
    exact ⟨[], rfl⟩
  | @more _ _ x xs hx _ _ =>
    obtain rfl := Option.some.inj ((firstWin_eq_some_iff.mpr hx).symm.trans hfirst)
    exact ⟨xs, rfl⟩

theorem RuleTable.applies_of_firstWin (hf : l.fit w = .ok w) (ha : isAcceptable w = true)
    (hr : RunEnds t.rulesFor l.maxLength true w vs)
    (hv : firstWin (t.rulesFor w) l.maxLength true w = some v) : t.Applies l w v.rule.label := by
  obtain ⟨us, rfl⟩ := hr.exists_eq_cons (firstWin_eq_some_iff.mp hv)
  exact RuleTable.applies_iff.mpr ⟨⟨w, v :: us⟩, .ended hf ha hr, v, List.mem_cons_self, rfl⟩

def lateLabel : Text := "(68:rei3y>)".toList

/-- What to put before the ending of a rule for a word to which the rule is applied. -/
def wordBeginnings : List Word := ["aa".toList, "a".toList]

def Rule.WinsOnBeginning (r : Rule) (rules : List Rule) : Prop :=
  ∃ b ∈ wordBeginnings, b.IsLower ∧ (b ++ r.suffix).length ≤ 254 ∧
    isAcceptable (b ++ r.suffix) = true ∧
    (firstWin rules (some 254) true (b ++ r.suffix)).map (fun v => v.rule.label) = some r.label

instance (r : Rule) (rules : List Rule) : Decidable (r.WinsOnBeginning rules) :=
  inferInstanceAs (Decidable (∃ b ∈ wordBeginnings, _ ∧ _ ∧ _ ∧ _))

theorem bundledRules_late_or_win :
    (∃ r ∈ bundledRules, r.label = lateLabel) ∧ ∀ r ∈ bundledRules,
      if r.label = lateLabel then r.OutrunIn bundledRules else r.WinsOnBeginning bundledRules := by
  decide +kernel

theorem Rule.WinsOnBeginning.exists_applies (h : r.WinsOnBeginning bundledRules) :
    ∃ w : Word, w.IsLower ∧ bundledTable.Applies {} w r.label := by
  obtain ⟨b, -, hlower, hlen, ha, hfirst⟩ := h
  obtain ⟨v, hv, hlabel⟩ := Option.map_eq_some_iff.mp hfirst
  refine ⟨b ++ r.suffix, hlower.append r.suffix_lower, ?_⟩
  have hf : Limits.fit {} (b ++ r.suffix) = .ok (b ++ r.suffix) := by
    apply Within.fit_eq
    apply within_some.mpr
    omega
  obtain ⟨vs, hr, -⟩ := bundled_exists_runEnds (some 254) (ne_nil_of_isAcceptable ha)
  rw [← firstWin_rulesFor_ofList, ← bundledTable_eq] at hv
  rw [← hlabel]
  exact RuleTable.applies_of_firstWin hf ha hr hv

theorem mem_bundledTable_toList : r ∈ bundledTable.toList ↔ r ∈ bundledRules := by
  rw [bundledTable_eq]
  exact (RuleTable.toList_perm bundledRules).mem_iff

theorem bundled_not_applies_late (l : Limits) (w : Word) :
    ¬ bundledTable.Applies l w lateLabel := by
  rw [bundledTable_eq]
  apply not_applies_of_outrunIn
  intro s hs hlabel
  have hcase := bundledRules_late_or_win.2 s hs
  rwa [if_pos hlabel] at hcase

/-- A bundled rule is applied to some word of small letters unless it is the one that comes too
late, and that one is not applied to any word, whatever the limit. -/
theorem bundled_applied_iff (ht : compile bundledText = .ok t) (hr : r ∈ t.toList) :
    ((∃ w : Word, w.IsLower ∧ t.Applies {} w r.label) ↔ r.label ≠ lateLabel) ∧
      (r.label = lateLabel → ∀ l w, ¬ t.Applies l w r.label) := by
  obtain rfl := Except.ok.inj (compile_bundledText.symm.trans ht)
  refine ⟨⟨?_, ?_⟩, ?_⟩
  · rintro ⟨w, -, happlies⟩ hlabel
    rw [hlabel] at happlies
    exact bundled_not_applies_late {} w happlies
  · intro hlabel
    have hcase := bundledRules_late_or_win.2 r (mem_bundledTable_toList.mp hr)
    rw [if_neg hlabel] at hcase
    exact hcase.exists_applies
  · intro hlabel l w
    rw [hlabel]
    exact bundled_not_applies_late l w

theorem bundled_applied_iff_late :
    compile bundledText = .ok bundledTable ∧ ∃ r ∈ bundledTable.toList, r.label = lateLabel ∧
      ¬ ∃ w : Word, w.IsLower ∧ bundledTable.Applies {} w r.label := by
  obtain ⟨r, hr, hlabel⟩ := bundledRules_late_or_win.1
  have hmem := mem_bundledTable_toList.mpr hr
  refine ⟨compile_bundledText, r, hmem, hlabel, ?_⟩
  intro happlied
  exact (bundled_applied_iff compile_bundledText hmem).1.mp happlied hlabel

/-- So it is not true of every bundled rule that it is applied to some word. -/
theorem bundled_not_all_applied :
    ∃ t, compile bundledText = .ok t ∧
      ¬ ∀ r ∈ t.toList, ∃ w : Word, w.IsLower ∧ t.Applies {} w r.label := by
  refine ⟨bundledTable, compile_bundledText, ?_⟩
  intro hall
  obtain ⟨r, hr, hlabel⟩ := bundledRules_late_or_win.1
  obtain ⟨w, -, happlies⟩ := hall r (mem_bundledTable_toList.mpr hr)
  rw [hlabel] at happlies
  exact bundled_not_applies_late {} w happlies

end Lancaster

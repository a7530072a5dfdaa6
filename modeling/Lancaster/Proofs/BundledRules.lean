import Lancaster.Proofs.Descent
import Lancaster.Rule.Bundled

/-!
The bundled rules. They are compiled once and for all, and what later proofs need of each of them is
checked on the compiled list. Every rule among them that asks for another pass lowers the weight of
the stem, so stemming with them ends after few passes.
-/
namespace Lancaster

def asciiChars (s : String) : Text := s.toByteArray.data.toList.map fun b => Char.ofNat b.toNat

theorem toList_eq_asciiChars {s : String} (h : String.ofList (asciiChars s) = s) :
    s.toList = asciiChars s := by
  conv_lhs => rw [← h]
  exact String.toList_ofList

theorem ofList_asciiChars_bundledLines :
    ∀ s ∈ bundledLines, String.ofList (asciiChars s) = s := by
  decide +kernel

/-- The bundled text again, in a form that is quick to read. -/
def bundledChars : Text := bundledLines.flatMap fun s => asciiChars s ++ ['\n']

theorem bundledText_eq : bundledText = bundledChars := by
  unfold bundledText bundledChars
  refine List.flatMap_congr fun s hs => ?_
  rw [toList_eq_asciiChars (ofList_asciiChars_bundledLines s hs)]

def Outcome.rules : Outcome → List Rule
  | .ok c => c.rules
  | .error _ => []

def Outcome.isClosed : Outcome → Bool
  | .ok c => c.closed
  | .error _ => false

theorem Outcome.eq_ok_of_isClosed {o : Outcome} (h : o.isClosed = true) :
    o = .ok ⟨o.rules, true⟩ := by
  cases o with
  | error f => cases h
  | ok c =>
    obtain ⟨rules, closed⟩ := c
    obtain rfl : closed = true := h
    rfl

@[irreducible] def bundledRules : List Rule := Outcome.rules (compileText bundledChars)

theorem bundled_isClosed : Outcome.isClosed (compileText bundledChars) = true := by
  decide +kernel

theorem bundledRules_descend :
    ∀ r ∈ bundledRules, r.continues = true → r.Shortens ∨ r.TurnsLast := by
  decide +kernel

theorem bundledOutcome_eq : bundledOutcome = .ok ⟨bundledRules, true⟩ := by
  have h : bundledOutcome = compileText bundledChars := congrArg compileText bundledText_eq
  unfold bundledRules
  exact h.trans (Outcome.eq_ok_of_isClosed bundled_isClosed)

theorem bundledTable_eq : bundledTable = .ofList bundledRules := by
  rw [bundledTable, bundledOutcome_eq]
  rfl

theorem compile_bundledText : compile bundledText = .ok bundledTable := by
  have h : compileText bundledText = .ok ⟨bundledRules, true⟩ := bundledOutcome_eq
  rw [compile, h, bundledTable_eq]
  rfl

theorem mem_bundledRules {w : Word} {r : Rule} (h : r ∈ bundledTable.rulesFor w) :
    r ∈ bundledRules := by
  rw [bundledTable_eq, RuleTable.rulesFor_ofList] at h
  exact List.mem_of_mem_filter h

theorem bundled_lowersWeight (m : Option Int) (intact : Bool) :
    LowersWeight bundledTable.rulesFor m intact turnWeight := by
  intro u v hv hc
  rcases bundledRules_descend v.rule (mem_bundledRules hv.mem) hc with hs | ht
  · exact turnWeight_lt_of_length_lt hv.1.length_pos (hv.1.length_lt hs)
  · exact hv.1.turnWeight_lt_of_turnsLast ht

theorem bundled_exists_runEnds (m : Option Int) {w : Word} (hw : w ≠ []) :
    ∃ vs, RunEnds bundledTable.rulesFor m true w vs ∧ vs.length ≤ 2 * w.length := by
  obtain ⟨vs, hr, hvs⟩ := exists_runEnds_of_more
    (P := fun v us => us.length ≤ turnWeight v.stem + 1) fun v _ _ =>
      exists_runEnds_of_lowersWeight (bundled_lowersWeight m false) v.stem
  have hpos := List.length_pos_iff.mpr hw
  refine ⟨vs, hr, ?_⟩
  rcases hvs with h1 | ⟨v, us, rfl, hv, hc, hu⟩
  · omega
  · have hlt := bundled_lowersWeight m true w v hv hc
    have hle : turnWeight w ≤ 2 * (w.length - 1) + 1 := by unfold turnWeight; split <;> omega
    rw [List.length_cons]
    omega

theorem bundled_not_runsForEver (l : Limits) (traced : Bool) (w : Word) :
    ¬ bundledTable.RunsForEver l traced w := by
  rw [RuleTable.runsForEver_iff]
  rintro ⟨u, -, ha, hon⟩
  obtain ⟨vs, hr, -⟩ := bundled_exists_runEnds l.maxLength (ne_nil_of_isAcceptable ha)
  cases (runsOn_iff.mp hon (vs.length + 1)).symm.trans (hr.runWins_eq (Nat.lt_succ_self _))

/-- Stemming with the bundled rules ends on every word that is not refused, and applies at most
twice as many rules as the fitted word has letters. -/
theorem bundled_answers_of_fit {l : Limits} {w w₀ : Word} (h : l.fit w = .ok w₀) :
    ∃ (t : RuleTable) (run : Run), compile bundledText = .ok t ∧ run.start = w₀ ∧
      run.wins.length ≤ 2 * w₀.length ∧
      ∀ traced, t.Answers l traced w (.ok (run.result traced)) := by
  obtain ⟨vs, hc, hlen⟩ := ComesTo.exists_of_fit h (Nat.zero_le (2 * w₀.length)) fun ha =>
    bundled_exists_runEnds l.maxLength (ne_nil_of_isAcceptable ha)
  exact ⟨bundledTable, ⟨w₀, vs⟩, compile_bundledText, rfl, hlen, hc.answers⟩

theorem bundled_answers_of_fit_cut :
    Limits.fit ⟨some 5, .truncate⟩ ['m', 'a', 'x', 'i', 'm', 'i', 'z', 'e'] =
        .ok ['m', 'a', 'x', 'i', 'm'] ∧
      ∃ (t : RuleTable) (run : Run), compile bundledText = .ok t ∧
        run.start = ['m', 'a', 'x', 'i', 'm'] ∧ run.wins.length ≤ 2 * 5 ∧
        ∀ traced, t.Answers ⟨some 5, .truncate⟩ traced ['m', 'a', 'x', 'i', 'm', 'i', 'z', 'e']
          (.ok (run.result traced)) :=
  ⟨rfl, bundled_answers_of_fit rfl⟩

end Lancaster

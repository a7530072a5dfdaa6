import Lancaster.Proofs.Descent
import Lancaster.Rule.Bundled
import Mathlib.Data.Fintype.Pigeonhole
import Mathlib.Data.Set.Finite.List

/-!
Endless runs. What follows a pass depends on its stem alone, once a rule has changed the word, so
two such passes that start at one stem make a run go round for ever. Under a limit there are only
finitely many stems, so every run that never ends comes to that.
-/
namespace Lancaster

/-- The stem at which a pass starts, so many passes after the given stem; none when the run ends
before that pass. -/
def passStart (win : Bool → Word → Option Win) : Nat → Bool → Word → Option Word
  | 0, _, w => some w
  | k + 1, intact, w =>
    match win intact w with
    | none => none
    | some v => if v.rule.continues then passStart win k false v.stem else none

/-- The stem at which a pass of stemming starts. Passes are counted from zero, and a word that is
refused or unacceptable has none. -/
def RuleTable.passStem (t : RuleTable) (l : Limits) (w : Word) (k : Nat) : Option Word :=
  match l.fit w with
  | .ok u => if isAcceptable u then passStart (t.win l.maxLength) k true u else none
  | .error _ => none

variable {win : Bool → Word → Option Win} {intact : Bool} {w u : Word} {t : RuleTable} {l : Limits}
  {traced : Bool} {i j k n : Nat} {m : Option Int} {v : Win}

theorem passStart_succ_of_win (h : win intact w = some v) (hc : v.rule.continues = true) :
    passStart win (k + 1) intact w = passStart win k false v.stem := by
  simp [passStart, h, hc]

theorem exists_win_of_passStart (h : passStart win (k + 1) intact w = some u) :
    ∃ v, win intact w = some v ∧ v.rule.continues = true ∧
      passStart win k false v.stem = some u := by
  rw [passStart] at h
  split at h
  · cases h
  · rename_i v hv
    split at h
    · rename_i hc
      exact ⟨v, hv, hc, h⟩
    · cases h

theorem runWins_eq_none_iff :
    runWins win n intact w = none ↔ ∃ u, passStart win n intact w = some u := by
  induction n generalizing intact w with
  | zero => simp [runWins, passStart]
  | succ n ih =>
    rw [runWins, passStart]
    cases win intact w with
    | none => simp
    | some v =>
      cases hc : v.rule.continues with
      | false => simp [hc]
      | true => simpa [hc] using ih

theorem passStart_add (h : passStart win (i + 1) intact w = some u) :
    passStart win (i + 1 + n) intact w = passStart win n false u := by
  induction i generalizing intact w with
  | zero =>
    obtain ⟨v, hv, hc, hu⟩ := exists_win_of_passStart h
    obtain rfl := Option.some.inj hu
    rw [Nat.add_comm (0 + 1) n, passStart_succ_of_win hv hc]
  | succ i ih =>
    obtain ⟨v, hv, hc, hu⟩ := exists_win_of_passStart h
    have hindex : i + 1 + 1 + n = i + 1 + n + 1 := by omega
    rw [hindex, passStart_succ_of_win hv hc]
    exact ih hu

theorem exists_passStart_of_le (h : passStart win n intact w = some u) (hk : k ≤ n) :
    ∃ x, passStart win k intact w = some x := by
  induction k generalizing n intact w with
  | zero => exact ⟨w, rfl⟩
  | succ k ih =>
    cases n with
    | zero => omega
    | succ n =>
      obtain ⟨v, hv, hc, hu⟩ := exists_win_of_passStart h
      rw [passStart_succ_of_win hv hc]
      exact ih hu (Nat.le_of_succ_le_succ hk)

theorem passStart_repeats (hi : 0 < i) (hu : passStart win i intact w = some u)
    (hj : passStart win (i + k) intact w = some u) (n : Nat) :
    passStart win (i + n * k) intact w = some u := by
  obtain ⟨i, rfl⟩ := Nat.exists_eq_add_one_of_ne_zero hi.ne'
  have hround : passStart win k false u = some u := (passStart_add hu).symm.trans hj
  induction n with
  | zero => simpa using hu
  | succ n ih =>
    have hpast : i + 1 + n * k = i + n * k + 1 := by omega
    have hindex : i + 1 + (n + 1) * k = i + n * k + 1 + k := by rw [Nat.succ_mul]; omega
    rw [hpast] at ih
    rw [hindex, passStart_add ih, hround]

theorem exists_passStart_of_repeats (hi : 0 < i) (hij : i < j)
    (hu : passStart win i intact w = some u) (hj : passStart win j intact w = some u) (n : Nat) :
    ∃ x, passStart win n intact w = some x := by
  obtain ⟨k, rfl⟩ := Nat.exists_eq_add_of_lt hij
  have hround := passStart_repeats (k := k + 1) hi hu hj n
  refine exists_passStart_of_le hround ?_
  calc n = n * 1 := (Nat.mul_one n).symm
    _ ≤ n * (k + 1) := Nat.mul_le_mul_left n (by omega)
    _ ≤ i + n * (k + 1) := Nat.le_add_left _ i

theorem RuleTable.fires_of_win (h : t.win m intact w = some v) :
    v.rule.Fires m intact w v.stem := by
  unfold RuleTable.win at h
  split at h
  · exact (firstWin_eq_some_iff.mp h).1
  · cases h

/-- What holds of a word and is kept by every rule that fires holds wherever a pass starts, also in
a run that never ends. -/
theorem passStart_induction {P : Word → Prop} (h : passStart (t.win m) k intact w = some u)
    (hw : P w) (hstep : ∀ (r : Rule) b x y, P x → r.Fires m b x y → P y) : P u := by
  induction k generalizing intact w with
  | zero =>
    obtain rfl := Option.some.inj h
    exact hw
  | succ k ih =>
    obtain ⟨v, hv, -, hu⟩ := exists_win_of_passStart h
    have hkept : P v.stem := hstep v.rule intact w v.stem hw (RuleTable.fires_of_win hv)
    exact ih hu hkept

theorem RuleTable.length_le_of_win (h : t.win (some (n : Int)) intact w = some v) :
    v.stem.length ≤ n := by
  rw [(RuleTable.fires_of_win h).result]
  exact length_cut_le_of_some n _

theorem length_le_of_passStart
    (h : passStart (t.win (some (n : Int))) (k + 1) intact w = some u) : u.length ≤ n := by
  induction k generalizing intact w with
  | zero =>
    obtain ⟨v, hv, -, hu⟩ := exists_win_of_passStart h
    obtain rfl := Option.some.inj hu
    exact RuleTable.length_le_of_win hv
  | succ k ih =>
    obtain ⟨v, -, -, hu⟩ := exists_win_of_passStart h
    exact ih hu

instance finiteChar : Finite Char := Finite.of_injective Char.ordinal fun _ _ => Char.ordinal_inj.mp

instance finiteBoundedWord (n : Nat) : Finite { u : Word // u.length ≤ n } :=
  (List.finite_length_le Char n).to_subtype

/-- A run whose stems are of bounded length comes back to one of them, if it never ends. -/
theorem exists_repeat_of_bounded {stem : Nat → Word} (h : ∀ k, (stem k).length ≤ n) :
    ∃ i j, i < j ∧ stem i = stem j := by
  obtain ⟨i, j, hne, heq⟩ := Finite.exists_ne_map_eq_of_infinite
    fun k => (⟨stem k, h k⟩ : { u : Word // u.length ≤ n })
  have hstem : stem i = stem j := congrArg Subtype.val heq
  rcases lt_or_gt_of_ne hne with hij | hji
  · exact ⟨i, j, hij, hstem⟩
  · exact ⟨j, i, hji, hstem.symm⟩

theorem RuleTable.exists_fitted_of_passStem (h : t.passStem l w k = some u) :
    ∃ u₀, l.fit w = .ok u₀ ∧ isAcceptable u₀ = true ∧
      passStart (t.win l.maxLength) k true u₀ = some u := by
  rw [RuleTable.passStem] at h
  cases hf : l.fit w with
  | error f => simp [hf] at h
  | ok u₀ =>
    cases ha : isAcceptable u₀ with
    | false => simp [hf, ha] at h
    | true => exact ⟨u₀, rfl, ha, by simpa [hf, ha] using h⟩

theorem RuleTable.exists_passStem_eq (h : t.passStem l w k = some u) :
    ∃ u₀, ∀ k, t.passStem l w k = passStart (t.win l.maxLength) k true u₀ := by
  obtain ⟨u₀, hf, ha, -⟩ := RuleTable.exists_fitted_of_passStem h
  exact ⟨u₀, fun k => by simp [RuleTable.passStem, hf, ha]⟩

theorem RuleTable.runsForEver_iff_passStem :
    t.RunsForEver l traced w ↔ ∀ k, ∃ u, t.passStem l w k = some u := by
  refine forall_congr' fun k => ?_
  rw [RuleTable.stem, RuleTable.run, RuleTable.passStem]
  cases hf : l.fit w with
  | error f =>
    have hne := l.fit_ne_unfinished w
    rw [hf] at hne
    simpa [Except.bind, Except.map] using hne
  | ok u₀ =>
    cases ha : isAcceptable u₀ with
    | false => simp [Except.bind, Except.map, runFitted, ha]
    | true =>
      simp only [Except.bind, runFitted, ha, if_pos]
      rw [← runWins_eq_none_iff]
      cases runWins (t.win l.maxLength) k true u₀ <;> simp [Except.map]

theorem RuleTable.runsForEver_of_repeats (hi : 0 < i) (hij : i < j)
    (hu : t.passStem l w i = some u) (hj : t.passStem l w j = some u) :
    t.RunsForEver l traced w := by
  obtain ⟨u₀, hstart⟩ := RuleTable.exists_passStem_eq hu
  rw [hstart] at hu hj
  refine RuleTable.runsForEver_iff_passStem.mpr fun k => ?_
  rw [hstart]
  exact exists_passStart_of_repeats hi hij hu hj k

theorem RuleTable.exists_repeats_of_runsForEver {o : Overflow}
    (h : t.RunsForEver ⟨some n, o⟩ traced w) : ∃ i j u, 0 < i ∧ i < j ∧
      t.passStem ⟨some n, o⟩ w i = some u ∧ t.passStem ⟨some n, o⟩ w j = some u := by
  choose stem hstem using RuleTable.runsForEver_iff_passStem.mp h
  obtain ⟨u₀, hstart⟩ := RuleTable.exists_passStem_eq (hstem 0)
  have hlength : ∀ k, (stem (k + 1)).length ≤ n := fun k =>
    length_le_of_passStart ((hstart (k + 1)).symm.trans (hstem (k + 1)))
  obtain ⟨i, j, hij, heq⟩ := exists_repeat_of_bounded hlength
  refine ⟨i + 1, j + 1, stem (i + 1), by omega, by omega, hstem (i + 1), ?_⟩
  rw [heq]
  exact hstem (j + 1)

theorem RuleTable.not_runsForEver (passes : Nat)
    (h : t.stem l passes traced w ≠ .error .unfinished) : ¬ t.RunsForEver l traced w :=
  fun hr => h (hr passes)

/-- The first rule works on the word alone, and the second undoes it. -/
def backAndForth : RuleTable := (compileText "s*1>\nt0s>\n".toList).table

theorem backAndForth_ends : ¬ backAndForth.RunsForEver ⟨some 4, .truncate⟩ false "cats".toList :=
  RuleTable.not_runsForEver 4 (by decide)

/-- The second rule leaves the stem as it is, and stops. -/
def stoppedInPlace : RuleTable := (compileText "s1>\nt0.\n".toList).table

theorem stoppedInPlace_ends :
    ¬ stoppedInPlace.RunsForEver ⟨some 4, .truncate⟩ false "cats".toList :=
  RuleTable.not_runsForEver 4 (by decide)

theorem exists_stoppedInPlace_win : ∃ v, stoppedInPlace.win (some 4) false "cat".toList = some v ∧
    v.stem = "cat".toList ∧ v.rule.continues = false :=
  ⟨_, rfl, by decide, by decide⟩

/-- Under a limit, stemming runs for ever just when two different passes past the first start at
one stem. The word itself may come back once without that. So may a stem that is left by a rule
which asks for no other pass. -/
theorem RuleTable.runsForEver_iff_stem_repeats :
    (∀ (t : RuleTable) (n : Nat) (o : Overflow) (traced : Bool) (w : Word),
      t.RunsForEver ⟨some n, o⟩ traced w ↔ ∃ i j u, 0 < i ∧ i < j ∧
        t.passStem ⟨some n, o⟩ w i = some u ∧ t.passStem ⟨some n, o⟩ w j = some u) ∧
    (∃ (t : RuleTable) (n : Nat) (w : Word), ¬ t.RunsForEver ⟨some n, .truncate⟩ false w ∧
      ∃ i, 0 < i ∧ t.passStem ⟨some n, .truncate⟩ w 0 = some w ∧
        t.passStem ⟨some n, .truncate⟩ w i = some w) ∧
    (∃ (t : RuleTable) (n : Nat) (w : Word), ¬ t.RunsForEver ⟨some n, .truncate⟩ false w ∧
      ∃ i v, 0 < i ∧ t.passStem ⟨some n, .truncate⟩ w i = some v.stem ∧
        t.win (some n) false v.stem = some v ∧ v.rule.continues = false) := by
  refine ⟨fun t n o traced w => ?_, ?_, ?_⟩
  · constructor
    · exact RuleTable.exists_repeats_of_runsForEver
    · rintro ⟨i, j, u, hi, hij, hu, hj⟩
      exact RuleTable.runsForEver_of_repeats hi hij hu hj
  · exact ⟨backAndForth, 4, "cats".toList, backAndForth_ends, 2, by decide, by decide, by decide⟩
  · obtain ⟨v, hv, hstem, hc⟩ := exists_stoppedInPlace_win
    have hpass : stoppedInPlace.passStem ⟨some 4, .truncate⟩ "cats".toList 1 =
        some "cat".toList := by
      decide
    rw [← hstem] at hv hpass
    exact ⟨stoppedInPlace, 4, "cats".toList, stoppedInPlace_ends, 1, v, by decide, hpass, hv, hc⟩

end Lancaster

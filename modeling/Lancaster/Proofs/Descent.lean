import Lancaster.Proofs.Iteration
import Lancaster.Rule.Bundled

/-!
Descent. A run ends when a weight of the stem falls on every pass that asks for another one. Rules
that shorten the stem lower its length, whatever limit cuts the result, so stemming ends on every
word when all rules that may ask for another pass of a changed stem do. Rules that only turn the
last letter into one that is never turned lower a weight that counts such letters besides.
-/
namespace Lancaster

/-- No winner that asks for another pass keeps the weight or raises it. -/
def LowersWeight (consult : Word → List Rule) (m : Option Int) (intact : Bool)
    (weight : Word → Nat) : Prop :=
  ∀ u v, WinsFirst (consult u) m intact u v → v.rule.continues = true → weight v.stem < weight u

/-- The rule leaves fewer letters than it found. Removing more than the ending does not count, since
the stem may be no longer than the ending. -/
def Rule.Shortens (r : Rule) : Prop := r.append.length < min r.removeCount r.suffix.length

instance (r : Rule) : Decidable r.Shortens := inferInstanceAs (Decidable (_ < _))

def Within (m : Option Int) (w : Word) : Prop := ∀ n, m = some n → (w.length : Int) ≤ n

def isTurning (c : Char) : Bool := c == 'i' || c == 'c'

/-- The rule keeps the length and turns a final letter into one that is not turned again. -/
def Rule.TurnsLast (r : Rule) : Prop :=
  r.removeCount = r.append.length ∧ r.append.length ≤ r.suffix.length ∧
    isTurning r.lastChar = true ∧ r.append.getLast?.any (fun c => !isTurning c) = true

instance (r : Rule) : Decidable r.TurnsLast := inferInstanceAs (Decidable (_ ∧ _ ∧ _ ∧ _))

/-- A letter counts twice, so that turning the last one costs less than losing one. -/
def turnWeight (w : Word) : Nat :=
  2 * (w.length - 1) + if w.getLast?.any isTurning then 1 else 0

variable {consult : Word → List Rule} {m : Option Int} {intact : Bool} {w u : Word} {r : Rule}
  {weight : Word → Nat}

theorem exists_runEnds_of_more {P : Win → List Win → Prop}
    (h : ∀ v, WinsFirst (consult w) m intact w v → v.rule.continues = true →
      ∃ us, RunEnds consult m false v.stem us ∧ P v us) :
    ∃ vs, RunEnds consult m intact w vs ∧ (vs.length ≤ 1 ∨ ∃ v us, vs = v :: us ∧
      WinsFirst (consult w) m intact w v ∧ v.rule.continues = true ∧ P v us) := by
  cases hv : firstWin (consult w) m intact w with
  | none => exact ⟨[], .rest (firstWin_eq_none_iff.mp hv), .inl (Nat.zero_le 1)⟩
  | some v =>
    have hw := firstWin_eq_some_iff.mp hv
    cases hc : v.rule.continues with
    | false => exact ⟨[v], .stop hw hc, .inl le_rfl⟩
    | true =>
      obtain ⟨us, hr, hp⟩ := h v hw hc
      exact ⟨v :: us, .more hw hc hr, .inr ⟨v, us, rfl, hw, hc, hp⟩⟩

theorem exists_runEnds_of_lowersWeight (h : LowersWeight consult m false weight) (w : Word) :
    ∃ vs, RunEnds consult m false w vs ∧ vs.length ≤ weight w + 1 := by
  induction hn : weight w using Nat.strong_induction_on generalizing w with
  | h n ih =>
    subst hn
    obtain ⟨vs, hr, hvs⟩ := exists_runEnds_of_more (P := fun v us => us.length ≤ weight v.stem + 1)
      fun v hv hc => ih _ (h w v hv hc) v.stem rfl
    refine ⟨vs, hr, ?_⟩
    rcases hvs with h1 | ⟨v, us, rfl, hv, hc, hu⟩
    · omega
    · have := h w v hv hc
      rw [List.length_cons]
      omega

/-- How much a limit leaves of a stem depends on the length of the stem alone. -/
theorem exists_cut_eq_take_of_length (m : Option Int) (n : Nat) :
    ∃ k, ∀ w : Word, w.length = n → cut m w = w.take k := by
  cases m with
  | none =>
    refine ⟨n, fun w hw => ?_⟩
    rw [← hw, List.take_length]
    rfl
  | some b =>
    by_cases hb : 0 ≤ b
    · refine ⟨b.toNat, fun w _ => ?_⟩
      change cutTo b w = _
      rw [cutTo, if_pos hb]
    · refine ⟨n - b.natAbs, fun w hw => ?_⟩
      change cutTo b w = _
      rw [cutTo, if_neg hb, hw]

theorem exists_cut_eq_take (m : Option Int) (w : Word) : ∃ k, cut m w = w.take k := by
  obtain ⟨k, hk⟩ := exists_cut_eq_take_of_length m w.length
  exact ⟨k, hk w rfl⟩

theorem length_cut_le (m : Option Int) (w : Word) : (cut m w).length ≤ w.length := by
  obtain ⟨k, hk⟩ := exists_cut_eq_take m w
  rw [hk, List.length_take]
  exact Nat.min_le_right k w.length

theorem length_cut_le_of_some (n : Nat) (w : Word) : (cut (some (n : Int)) w).length ≤ n := by
  change (cutTo n w).length ≤ n
  rw [cutTo, if_pos (Int.natCast_nonneg n), Int.toNat_natCast, List.length_take]
  exact Nat.min_le_left n w.length

theorem length_cut_le_of_positive {n : Int} (hn : 0 ≤ n) (w : Word) :
    ((cut (some n) w).length : Int) ≤ n := by
  obtain ⟨k, rfl⟩ := Int.eq_ofNat_of_zero_le hn
  exact Int.ofNat_le.mpr (length_cut_le_of_some k w)

theorem cut_eq_self_of_length_le {n : Nat} (hn : ∀ b, m = some b → (n : Int) ≤ b)
    (h : w.length ≤ n) : cut m w = w := by
  cases m with
  | none => rfl
  | some b =>
    have hb := hn b rfl
    change cutTo b w = w
    rw [cutTo, if_pos (by omega), List.take_of_length_le (by omega)]

theorem within_some {n : Int} : Within (some n) w ↔ (w.length : Int) ≤ n := by
  simp [Within]

theorem Within.cut_eq (h : Within m w) : cut m w = w := cut_eq_self_of_length_le h le_rfl

theorem Within.fit_eq {l : Limits} (h : Within l.maxLength w) : l.fit w = .ok w := by
  rw [Limits.fit]
  split
  · rfl
  · rename_i n hn
    rw [if_pos (h n hn)]

theorem Limits.eq_cut_of_fit {l : Limits} (h : l.fit w = .ok u) : u = cut l.maxLength w := by
  unfold Limits.fit at h
  split at h
  · rename_i hm
    obtain rfl := Except.ok.inj h
    rw [hm]
    rfl
  · rename_i n hm
    rw [hm]
    split at h
    · rename_i hle
      obtain rfl := Except.ok.inj h
      refine (cut_eq_self_of_length_le ?_ le_rfl).symm
      intro b hb
      obtain rfl := Option.some.inj hb
      exact hle
    · split at h
      · cases h
      · cases h
      · obtain rfl := Except.ok.inj h
        rfl

theorem cut_eq_or_length_lt (m : Option Int) (w : Word) :
    cut m w = w ∨ (cut m w).length < w.length := by
  obtain ⟨k, hk⟩ := exists_cut_eq_take m w
  rw [hk, List.length_take]
  by_cases h : w.length ≤ k
  · exact .inl (List.take_of_length_le h)
  · exact .inr (by omega)

theorem Rule.Fires.length_suffix_le (h : r.Fires m intact w u) : r.suffix.length ≤ w.length :=
  h.ending.length_le

theorem Rule.Fires.length_pos (h : r.Fires m intact w u) : 0 < u.length :=
  List.length_pos_iff.mpr (ne_nil_of_isAcceptable h.acceptable)

theorem length_result (r : Rule) (w : Word) :
    (w.take (w.length - min r.removeCount w.length) ++ r.append).length =
      w.length - min r.removeCount w.length + r.append.length := by
  rw [List.length_append, List.length_take, Nat.min_eq_left (Nat.sub_le _ _)]

theorem Rule.Fires.length_lt (h : r.Fires m intact w u) (hs : r.Shortens) :
    u.length < w.length := by
  have hc := length_cut_le m (w.take (w.length - min r.removeCount w.length) ++ r.append)
  rw [← h.result, length_result] at hc
  have := h.length_suffix_le
  unfold Rule.Shortens at hs
  omega

theorem turnWeight_lt_of_length_lt (hu : 0 < u.length) (h : u.length < w.length) :
    turnWeight u < turnWeight w := by
  unfold turnWeight
  split <;> omega

theorem Rule.Fires.turnWeight_lt_of_turnsLast (h : r.Fires m intact w u) (ht : r.TurnsLast) :
    turnWeight u < turnWeight w := by
  obtain ⟨hcount, happend, hfound, hleft⟩ := ht
  have hlen := length_result r w
  have hw := h.length_suffix_le
  rcases cut_eq_or_length_lt m (w.take (w.length - min r.removeCount w.length) ++ r.append) with
    heq | hlt
  · -- The result is not cut, so its last letter is the last one appended.
    rw [← h.result] at heq
    rw [← heq] at hlen
    have hlast : u.getLast? = r.append.getLast? := by
      rw [heq, List.getLast?_append]
      cases ha : r.append.getLast? with
      | none => simp [ha] at hleft
      | some c => rfl
    have hu : ¬ u.getLast?.any isTurning = true := by
      rw [hlast]
      cases ha : r.append.getLast? with
      | none => simp
      | some c => simpa [ha] using hleft
    have hwt : w.getLast?.any isTurning = true := by
      rw [h.getLast?_eq]
      exact hfound
    unfold turnWeight
    rw [if_neg hu, if_pos hwt]
    omega
  · rw [← h.result] at hlt
    exact turnWeight_lt_of_length_lt h.length_pos (by omega)

/-- Every rule that may ask for another pass of a changed stem shortens the stem. -/
def RuleTable.Shortening (t : RuleTable) : Prop :=
  ∀ r ∈ t.toList, r.continues = true → r.intactOnly = false → r.Shortens

theorem two_le_length_of_isAcceptable (h : isAcceptable w = true) : 2 ≤ w.length := by
  cases w with
  | nil => cases h
  | cons c w =>
    rw [isAcceptable] at h
    split at h
    · exact Nat.succ_le_succ (of_decide_eq_true h)
    · have hlen : 2 ≤ w.length := of_decide_eq_true (Bool.and_eq_true_iff.mp h).1
      rw [List.length_cons]
      omega

/-- On a changed stem no rule for intact words fires, so every winner that goes on shortens it. -/
theorem RuleTable.Shortening.lowersWeight {t : RuleTable} (h : t.Shortening) (m : Option Int) :
    LowersWeight t.rulesFor m false fun u => u.length - 2 := by
  intro u v hv hc
  have hguard : v.rule.intactOnly = false := by
    cases hi : v.rule.intactOnly with
    | false => rfl
    | true => cases hv.1.guard hi
  have hmem : v.rule ∈ t.toList := RuleTable.mem_toList_of_mem_rulesFor hv.mem
  have hlt : v.stem.length < u.length := hv.1.length_lt (h v.rule hmem hc hguard)
  have htwo : 2 ≤ v.stem.length := two_le_length_of_isAcceptable hv.1.acceptable
  change v.stem.length - 2 < u.length - 2
  omega

theorem RuleTable.Shortening.exists_runEnds {t : RuleTable} (h : t.Shortening) (m : Option Int)
    (w : Word) : ∃ vs, RunEnds t.rulesFor m true w vs ∧
      ∀ v us, vs = v :: us → vs.length ≤ v.stem.length := by
  obtain ⟨vs, hr, hvs⟩ := exists_runEnds_of_more
    (P := fun v us => us.length ≤ v.stem.length - 2 + 1) fun v _ _ =>
      exists_runEnds_of_lowersWeight (h.lowersWeight m) v.stem
  refine ⟨vs, hr, ?_⟩
  rintro v us rfl
  obtain ⟨b, u, hv⟩ := hr.exists_winsFirst List.mem_cons_self
  have htwo := two_le_length_of_isAcceptable hv.1.acceptable
  rcases hvs with hone | ⟨v', us', heq, -, -, hlen⟩
  · omega
  · obtain ⟨rfl, rfl⟩ := List.cons.inj heq
    rw [List.length_cons]
    omega

/-- With such rules stemming ends on every word, under every limit, and no more rules are applied
than the stem has letters after the first of them. Rules for intact words and rules that ask for no
other pass may lengthen the stem as they like. -/
theorem RuleTable.answers_of_shortening {t : RuleTable}
    (h : ∀ r ∈ t.toList, r.continues = true → r.intactOnly = false →
      r.append.length < min r.removeCount r.suffix.length) (l : Limits) (w : Word) :
    (∀ traced, ∃ o, t.Answers l traced w o) ∧
      ∀ s seed first steps, t.Answers l true w (.ok ⟨s, some (seed :: first :: steps)⟩) →
        (first :: steps).length ≤ first.stem.length := by
  have hshort : t.Shortening := h
  constructor
  · intro traced
    cases hf : l.fit w with
    | error f => exact ⟨.error f, RuleTable.answers_iff.mpr ⟨.error f, .refused hf, rfl⟩⟩
    | ok u =>
      obtain ⟨vs, hc, -⟩ := ComesTo.exists_of_fit hf (by nofun) fun _ =>
        hshort.exists_runEnds l.maxLength u
      exact ⟨_, hc.answers traced⟩
  · intro s seed first steps hanswer
    obtain ⟨run, hc, -, htrace⟩ := hanswer.exists_run
    cases hc with
    | kept _ ha => simp [Run.trace, ha] at htrace
    | @ended u vs _ ha hr =>
      rw [Run.trace_eq_cons ha] at htrace
      obtain ⟨v, us, rfl, rfl, rfl⟩ := List.map_eq_cons_iff.mp (List.cons.inj htrace).2.symm
      obtain ⟨vs, hends, hlen⟩ := hshort.exists_runEnds l.maxLength u
      obtain rfl := hends.unique hr
      rw [List.length_cons, List.length_map, ← List.length_cons]
      exact hlen v us rfl

/-- A rule for intact words that lengthens them, two rules that shorten, and one that lengthens the
stem at last. -/
def swellingTable : RuleTable := (compileText "s*0es>\nse2>\ns1>\nt0ing.\n".toList).table

theorem RuleTable.answers_of_shortening_swelling :
    (∀ r ∈ swellingTable.toList, r.continues = true → r.intactOnly = false →
      r.append.length < min r.removeCount r.suffix.length) ∧
    (∀ traced, ∃ o, swellingTable.Answers {} traced "cats".toList o) ∧
    ∃ seed first steps,
      swellingTable.Answers {} true "cats".toList
        (.ok ⟨"cating".toList, some (seed :: first :: steps)⟩) ∧
      first.stem = "catses".toList ∧ (first :: steps).length ≤ 6 := by
  have h : ∀ r ∈ swellingTable.toList, r.continues = true → r.intactOnly = false →
      r.append.length < min r.removeCount r.suffix.length := by
    intro r hr
    rw [RuleTable.mem_toList] at hr
    revert r
    decide
  have hanswer : swellingTable.stem {} 5 true "cats".toList = .ok ⟨"cating".toList, some
      [⟨none, "cats".toList⟩, ⟨some "(1:s*0es>)".toList, "catses".toList⟩,
        ⟨some "(2:se2>)".toList, "cats".toList⟩, ⟨some "(3:s1>)".toList, "cat".toList⟩,
        ⟨some "(4:t0ing.)".toList, "cating".toList⟩]⟩ := by
    decide
  obtain ⟨hends, hbound⟩ := RuleTable.answers_of_shortening h {} "cats".toList
  have hrun := RuleTable.answers_of_stem hanswer
  exact ⟨h, hends, _, _, _, hrun, rfl, hbound _ _ _ _ hrun⟩

end Lancaster

import Lancaster.Proofs.BundledRules

/-!
Anchored stems. A rule that removes no more than its ending, and appends no more than it removes,
only replaces the end of a stem. Under such rules no stem is longer than the word, and a stem less
its last few characters is a beginning of the word. The bundled rules are all of that kind.
-/
namespace Lancaster

/-- A non-empty beginning of the word with at most `k` characters behind it, no longer than the
word in all. -/
structure Anchored (k : Nat) (w u : Word) : Prop where
  parts : ∃ p a, p ≠ [] ∧ p <+: w ∧ a.length ≤ k ∧ u = p ++ a
  length_le : u.length ≤ w.length

/-- The stems at which the passes of a run start: the word, and what each rule leaves that asks for
another pass. -/
def Run.passStems (r : Run) : List Word :=
  r.start :: (r.wins.filter fun v => v.rule.continues).map Win.stem

/-- All stems of a run hang on the word, and the limit never cuts what a rule makes of them. -/
structure RuleTable.AnchoredRun (t : RuleTable) (m : Option Int) (w : Word) (r : Run) : Prop where
  stem : Anchored 2 r.start r.stem
  restemmed : ∀ u ∈ r.passStems, Anchored 1 r.start u
  uncut : ∀ u ∈ r.passStems, ∀ rule ∈ t.rulesFor u, ∀ intact, rule.matches u intact = true →
    cut m (rule.apply u) = rule.apply u
  first : ∀ u ∈ r.stem :: r.passStems, u.head? = w.head?

/-- How many characters the rule may leave behind the part that it keeps. -/
def Rule.reach (r : Rule) : Nat := if r.continues then 1 else 2

/-- The rule replaces characters of its own ending by no more others, and the others alone are no
acceptable stem when it removes the whole ending. -/
structure Rule.ReplacesEnd (r : Rule) : Prop where
  append_le : r.append.length ≤ r.removeCount
  count_le : r.removeCount ≤ r.suffix.length
  short : r.append.length ≤ r.reach
  keeps : isAcceptable r.append = true → r.removeCount < r.suffix.length

instance (r : Rule) : Decidable r.ReplacesEnd :=
  decidable_of_iff
    (r.append.length ≤ r.removeCount ∧ r.removeCount ≤ r.suffix.length ∧
      r.append.length ≤ r.reach ∧
      (isAcceptable r.append = true → r.removeCount < r.suffix.length))
    ⟨fun ⟨ha, hc, hs, hk⟩ => ⟨ha, hc, hs, hk⟩, fun ⟨ha, hc, hs, hk⟩ => ⟨ha, hc, hs, hk⟩⟩

variable {consult : Word → List Rule} {m : Option Int} {intact : Bool} {k k' : Nat} {w u : Word}
  {r : Rule} {v : Win} {vs : List Win} {l : Limits}

theorem Anchored.self (h : w ≠ []) (k : Nat) : Anchored k w w :=
  ⟨⟨w, [], h, List.prefix_rfl, Nat.zero_le k, (List.append_nil w).symm⟩, le_rfl⟩

theorem Anchored.mono (h : Anchored k w u) (hk : k ≤ k') : Anchored k' w u := by
  obtain ⟨⟨p, a, hp, hpw, ha, hu⟩, hlen⟩ := h
  exact ⟨⟨p, a, hp, hpw, ha.trans hk, hu⟩, hlen⟩

theorem Anchored.head?_eq (h : Anchored k w u) : u.head? = w.head? := by
  obtain ⟨⟨p, a, hp, ⟨rest, rfl⟩, -, rfl⟩, -⟩ := h
  rw [List.head?_append_of_ne_nil p hp, List.head?_append_of_ne_nil p hp]

theorem take_append_of_length_le {p a : Word} {n : Nat} (h : a.length ≤ n) :
    (p ++ a).take ((p ++ a).length - n) = p.take (p.length + a.length - n) := by
  rw [List.length_append, List.take_append_of_le_length (by omega)]

theorem Limits.length_le_of_fit {w₀ : Word} (hl : ∀ b, l.maxLength = some b → 0 ≤ b)
    (h : l.fit w = .ok w₀) : ∀ b, l.maxLength = some b → (w₀.length : Int) ≤ b := by
  intro b hb
  obtain ⟨n, rfl⟩ := Int.eq_ofNat_of_zero_le (hl b hb)
  rw [Limits.eq_cut_of_fit h, hb]
  exact Int.ofNat_le.mpr (length_cut_le_of_some n w)

theorem Limits.prefix_of_fit {w₀ : Word} (h : l.fit w = .ok w₀) : w₀ <+: w := by
  obtain ⟨k, hk⟩ := exists_cut_eq_take l.maxLength w
  rw [Limits.eq_cut_of_fit h, hk]
  exact List.take_prefix k w

theorem Rule.ReplacesEnd.length_apply_le (h : r.ReplacesEnd) (hu : r.suffix <:+ u) :
    (r.apply u).length ≤ u.length := by
  have hsuffix := hu.length_le
  have hcount := h.count_le
  have happend := h.append_le
  rw [Rule.apply_eq, length_result]
  omega

theorem Rule.Fires.anchored {w₀ : Word} (hf : r.Fires m intact u w) (hr : r.ReplacesEnd)
    (hu : Anchored 1 w₀ u) (hm : ∀ b, m = some b → (w₀.length : Int) ≤ b) :
    Anchored r.reach w₀ w := by
  have hlen := (hr.length_apply_le hf.ending).trans hu.length_le
  have hw : w = r.apply u := by
    rw [hf.result, ← Rule.apply_eq, cut_eq_self_of_length_le hm hlen]
  refine ⟨?_, hw ▸ hlen⟩
  have hreach : 1 ≤ r.reach := by unfold Rule.reach; split <;> omega
  have happend := hr.append_le
  obtain ⟨p, a, hp, hpw, ha, rfl⟩ := hu.parts
  by_cases hc : r.removeCount = 0
  · -- Nothing is removed, so nothing is appended.
    have hnil : r.append = [] := List.length_eq_zero_iff.mp (by omega)
    refine ⟨p, a, hp, hpw, ha.trans hreach, ?_⟩
    rw [hw, Rule.apply, hc, hnil, Nat.sub_zero, List.take_length, List.append_nil]
  · have hkept : w = p.take (p.length + a.length - r.removeCount) ++ r.append := by
      rw [hw, Rule.apply, take_append_of_length_le (by omega)]
    refine ⟨_, r.append, ?_, (List.take_prefix _ p).trans hpw, hr.short, hkept⟩
    -- If nothing of the beginning were kept, what is appended would be acceptable by itself.
    intro hnone
    have hacc : isAcceptable r.append = true := by
      have := hf.acceptable
      rwa [hkept, hnone, List.nil_append] at this
    have hlt := hr.keeps hacc
    have hsuffix := hf.length_suffix_le
    rw [List.length_append] at hsuffix
    have hplen := List.length_pos_iff.mpr hp
    rw [List.take_eq_nil_iff] at hnone
    rcases hnone with hzero | hpnil
    · omega
    · exact hp hpnil

theorem Run.passStems_cons (hc : v.rule.continues = true) :
    (Run.mk w (v :: vs)).passStems = w :: (Run.mk v.stem vs).passStems := by
  simp [Run.passStems, hc]

theorem RunEnds.anchored {w₀ : Word} (h : RunEnds consult m intact u vs)
    (hrules : ∀ x, ∀ r ∈ consult x, r.ReplacesEnd) (hu : Anchored 1 w₀ u)
    (hm : ∀ b, m = some b → (w₀.length : Int) ≤ b) :
    Anchored 2 w₀ (Run.mk u vs).stem ∧ ∀ x ∈ (Run.mk u vs).passStems, Anchored 1 w₀ x := by
  induction h with
  | rest _ =>
    refine ⟨hu.mono (by omega), fun x hx => ?_⟩
    obtain rfl : x = _ := by simpa [Run.passStems] using hx
    exact hu
  | @stop intact u v hv hc =>
    have hstep := hv.1.anchored (hrules u v.rule hv.mem) hu hm
    rw [Rule.reach, hc] at hstep
    refine ⟨hstep, fun x hx => ?_⟩
    obtain rfl : x = u := by simpa [Run.passStems, hc] using hx
    exact hu
  | @more intact u v vs hv hc _ ih =>
    have hstep := hv.1.anchored (hrules u v.rule hv.mem) hu hm
    rw [Rule.reach, hc] at hstep
    obtain ⟨hstem, hpasses⟩ := ih hstep
    rw [Run.stem_cons, Run.passStems_cons hc]
    refine ⟨hstem, fun x hx => ?_⟩
    rcases List.mem_cons.mp hx with rfl | hx
    · exact hu
    · exact hpasses x hx

theorem bundledRules_replaceEnd : ∀ r ∈ bundledRules, r.ReplacesEnd := by
  decide +kernel

theorem bundled_rulesFor_replaceEnd (w : Word) : ∀ r ∈ bundledTable.rulesFor w, r.ReplacesEnd :=
  fun r hr => bundledRules_replaceEnd r (mem_bundledRules hr)

/-- With the bundled rules every stem of an acceptable word is a beginning of the word with at most
two characters behind it, one if stemming goes on from there. The limit takes no part in this but
by cutting the word. -/
theorem bundled_anchored {w₀ : Word} (hl : ∀ b, l.maxLength = some b → 0 ≤ b)
    (hfit : l.fit w = .ok w₀) (ha : isAcceptable w₀ = true) :
    ∃ (t : RuleTable) (run : Run), compile bundledText = .ok t ∧ run.start = w₀ ∧
      (∃ enough, ∀ passes, enough ≤ passes → t.run l passes w = .ok run) ∧
      t.AnchoredRun l.maxLength w run := by
  have hne := ne_nil_of_isAcceptable ha
  have hm := Limits.length_le_of_fit hl hfit
  obtain ⟨vs, hr, -⟩ := bundled_exists_runEnds l.maxLength hne
  obtain ⟨hstem, hpasses⟩ := hr.anchored bundled_rulesFor_replaceEnd (Anchored.self hne 1) hm
  obtain ⟨enough, henough⟩ := (ComesTo.ended hfit ha hr).consultedRun_eq
  refine ⟨bundledTable, ⟨w₀, vs⟩, compile_bundledText, rfl, ⟨enough, fun passes hp => ?_⟩, ?_⟩
  · rw [RuleTable.run_eq, henough passes hp]
  · refine ⟨hstem, hpasses, ?_, ?_⟩
    · intro u hu r hmem intact hmatch
      have hending := (Rule.matches_iff.mp hmatch).2
      have hreplace := bundled_rulesFor_replaceEnd u r hmem
      have hlen := (hreplace.length_apply_le hending).trans (hpasses u hu).length_le
      exact cut_eq_self_of_length_le hm hlen
    · have hhead : w₀.head? = w.head? := by
        obtain ⟨rest, rfl⟩ := Limits.prefix_of_fit hfit
        rw [List.head?_append_of_ne_nil w₀ hne]
      intro u hu
      rcases List.mem_cons.mp hu with rfl | hu
      · exact hstem.head?_eq.trans hhead
      · exact (hpasses u hu).head?_eq.trans hhead

theorem bundled_anchored_cut :
    (∀ b, (some 12 : Option Int) = some b → 0 ≤ b) ∧
      Limits.fit ⟨some 12, .truncate⟩ "conditionings".toList = .ok "conditioning".toList ∧
      isAcceptable "conditioning".toList = true ∧
      ∃ (t : RuleTable) (run : Run), compile bundledText = .ok t ∧
        run.start = "conditioning".toList ∧
        (∃ enough, ∀ passes, enough ≤ passes →
          t.run ⟨some 12, .truncate⟩ passes "conditionings".toList = .ok run) ∧
        t.AnchoredRun (some 12) "conditionings".toList run := by
  have hl : ∀ b, (some 12 : Option Int) = some b → 0 ≤ b := by
    intro b hb
    obtain rfl := Option.some.inj hb
    decide
  have hfit : Limits.fit ⟨some 12, .truncate⟩ "conditionings".toList =
      .ok "conditioning".toList := by
    decide
  have ha : isAcceptable "conditioning".toList = true := by decide
  exact ⟨hl, hfit, ha, bundled_anchored hl hfit ha⟩

end Lancaster

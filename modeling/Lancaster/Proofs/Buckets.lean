import Lancaster.Proofs.Passes

/-!
Buckets. The bucket for a stem holds just the rules whose ending has the last letter of the stem, in
the order of the list, so stemming with buckets is stemming by a scan of the whole list.
-/
namespace Lancaster

/-- The outcome of an engine without buckets: every pass scans the whole list, in its order, for the
first rule that fires. -/
def ScanAnswers (rules : List Rule) (l : Limits) (traced : Bool) (w : Word)
    (o : Except StemFault StemResult) : Prop :=
  ∃ run, ComesTo (fun _ => rules) l w run ∧ o = run.map fun r => r.result traced

def ScanRunsForEver (rules : List Rule) (l : Limits) (w : Word) : Prop :=
  NeverEnds (fun _ => rules) l w

variable {m : Option Int} {intact : Bool} {w u : Word} {r : Rule} {rules : List Rule}

theorem isLower_of_ofChar? {c : Char} {x : Letter} (h : Letter.ofChar? c = some x) :
    ∃ hc : c.isLower = true, x = Letter.ofLower c hc := by
  unfold Letter.ofChar? at h
  split at h
  · rename_i hc
    have hl : c.isLower = true := isLower_iff.mpr (by omega)
    exact ⟨hl, (Option.some.inj h).symm⟩
  · cases h

theorem Letter.ofLower_inj {c d : Char} {hc : c.isLower = true} {hd : d.isLower = true} :
    Letter.ofLower c hc = Letter.ofLower d hd ↔ c = d := by
  constructor
  · intro h
    have hv := congrArg Fin.val h
    simp only [Letter.ofLower] at hv
    have hcn := isLower_iff.mp hc
    have hdn := isLower_iff.mp hd
    exact Char.toNat_inj.mp (by omega)
  · rintro rfl
    rfl

def Rule.lastChar (r : Rule) : Char := r.suffix.getLast r.suffix_ne_nil

theorem Rule.lastChar_isLower (r : Rule) : r.lastChar.isLower = true :=
  r.suffix_lower _ (List.getLast_mem r.suffix_ne_nil)

theorem Rule.Fires.getLast?_eq (h : r.Fires m intact w u) : w.getLast? = some r.lastChar := by
  obtain ⟨rest, rfl⟩ := h.ending
  rw [List.getLast?_append, List.getLast?_eq_getLast_of_ne_nil r.suffix_ne_nil]
  rfl

theorem RuleTable.bucket_ofList_eq (rules : List Rule) (c : Char) :
    (RuleTable.ofList rules).bucket c = rules.filter fun r => r.lastChar = c := by
  cases hx : Letter.ofChar? c with
  | some x =>
    obtain ⟨hc, rfl⟩ := isLower_of_ofChar? hx
    rw [RuleTable.bucket_ofList hx]
    refine List.filter_congr fun r _ => ?_
    rw [decide_eq_decide]
    exact Letter.ofLower_inj
  | none =>
    have hn : ∀ r ∈ rules, ¬ r.lastChar = c := by
      rintro r _ rfl
      rw [Letter.ofChar?_of_isLower r.lastChar_isLower] at hx
      cases hx
    rw [List.filter_eq_nil_iff.mpr fun r hr => by simpa using hn r hr]
    simp [RuleTable.bucket, hx]

theorem RuleTable.rulesFor_ofList (rules : List Rule) (w : Word) :
    (RuleTable.ofList rules).rulesFor w = rules.filter fun r => w.getLast? = some r.lastChar := by
  unfold RuleTable.rulesFor
  cases hw : w.getLast? with
  | none => simp
  | some c =>
    change (RuleTable.ofList rules).bucket c = _
    rw [RuleTable.bucket_ofList_eq]
    refine List.filter_congr fun r _ => ?_
    rw [decide_eq_decide, Option.some.injEq]
    exact eq_comm

/-- A pass over the bucket and a pass over the whole list have the same winner. -/
theorem firstWin_rulesFor_ofList (rules : List Rule) (m : Option Int) (intact : Bool) (w : Word) :
    firstWin ((RuleTable.ofList rules).rulesFor w) m intact w = firstWin rules m intact w := by
  rw [RuleTable.rulesFor_ofList]
  exact firstWin_filter fun r _ u h => by simpa using h.getLast?_eq

theorem consultedRun_ofList (rules : List Rule) (l : Limits) (passes : Nat) (w : Word) :
    consultedRun (RuleTable.ofList rules).rulesFor l passes w =
      consultedRun (fun _ => rules) l passes w := by
  have h : consultedWin (RuleTable.ofList rules).rulesFor l.maxLength =
      consultedWin (fun _ => rules) l.maxLength := by
    funext intact u
    exact firstWin_rulesFor_ofList rules l.maxLength intact u
  rw [consultedRun, consultedRun, h]

/-- Buckets change neither outcomes nor traces, and they make no run end or go on. -/
theorem RuleTable.answers_ofList_iff_scan (rules : List Rule) (l : Limits) (traced : Bool)
    (w : Word) :
    (∀ o, (RuleTable.ofList rules).Answers l traced w o ↔ ScanAnswers rules l traced w o) ∧
      ((RuleTable.ofList rules).RunsForEver l traced w ↔ ScanRunsForEver rules l w) := by
  have h : ∀ passes, consultedRun (RuleTable.ofList rules).rulesFor l passes w =
      consultedRun (fun _ => rules) l passes w := fun passes => consultedRun_ofList rules l passes w
  constructor
  · intro o
    rw [RuleTable.answers_iff]
    constructor
    · rintro ⟨run, hr, ho⟩
      exact ⟨run, hr.congr h, ho⟩
    · rintro ⟨run, hr, ho⟩
      exact ⟨run, hr.congr fun passes => (h passes).symm, ho⟩
  · rw [RuleTable.runsForEver_iff, ScanRunsForEver, neverEnds_iff, neverEnds_iff]
    exact forall_congr' fun passes => by rw [h]

end Lancaster

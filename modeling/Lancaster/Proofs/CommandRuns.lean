import Lancaster.Command.Run
import Lancaster.Proofs.BundledRules
import Lancaster.Proofs.Confinement
import Lancaster.Proofs.Interleavings

/-!
Runs of the command. Settings and rules come first and depend on neither the trace nor the words,
then the words are stemmed, all at once or one by one. Every way in which a run can go is listed
once, with what it printed and what it wrote, and what a command does is read off that list.
-/
namespace Lancaster

/-- The settings that a command stems under: those of the data directory, or the usual ones where
there are none, with the options over them. -/
def Session.effective (s : Session) (o : Options) : Except ConfigFault Settings :=
  match (s.loadSettings none).answer with
  | .ok settings => .ok (o.over settings)
  | .error f => if f.absent then .ok (o.over {}) else .error f

structure Session.Uses (s : Session) (o : Options) (settings : Settings) (table : RuleTable) :
    Prop where
  effective : s.effective o = .ok settings
  compiled : (s.rules settings.rulesFile).answer = .ok table

/-- The command ends with a fault that no line reports. Too few passes are no such fault. -/
def Ending.Escapes (e : Ending) : Prop := ∃ f, e = .unreported f ∧ f ≠ .stem .unfinished

def Session.setup (s : Session) (o : Options) (passes : Nat) : Except CommandFault Stemmer :=
  match s.effective o with
  | .error f => .error (.config f)
  | .ok settings => match (s.rules settings.rulesFile).answer with
    | .error f => .error (.setup (.rules f))
    | .ok t =>
      if settings.memoFits then .ok (.new t settings passes) else .error (.setup .memoTooLarge)

def Session.setupLines (s : Session) (o : Options) : List Line :=
  (s.loadSettings none).lines ++
    match s.effective o with
    | .error _ => []
    | .ok settings =>
      let r := s.rules settings.rulesFile
      r.lines ++ match r.answer with
        | .error _ => []
        | .ok t => if settings.memoFits then [o.readyLine settings t] else []

def Session.report (s : Session) (o : Options) (input : Text) (passes : Nat)
    (turns : Nat → List Nat) : Report :=
  match s.setup o passes with
  | .error f => .fail o.debug [] (s.setupLines o) f
  | .ok m =>
    let source := o.source s.host input
    if o.trace then o.runTraced m source (s.setupLines o)
    else o.runPlain m s.topics source turns (s.setupLines o)

inductive Options.PlainRun (o : Options) (m : Stemmer) (topics : Topics) (source : WordSource)
    (turns : Nat → List Nat) (lines : List Line) : Report → Prop where
  | unread {f} (h : source.fault = some f) :
      PlainRun o m topics source turns lines (.fail o.debug [] lines (.words f))
  | blankWorkers (h : source.fault = none) (hb : o.workers = some .blank) :
      PlainRun o m topics source turns lines (.fail o.debug [] lines (.blank .workers))
  | blankLimit (h : source.fault = none) (hb : o.limitFails source.words = true) :
      PlainRun o m topics source turns lines (.fail o.debug [] lines (.blank .maxLength))
  | failed {r f} (h : source.fault = none) (hb : o.limitFails source.words = false)
      (hr : m.stemMany topics source.words (o.workers.bind Count.number?) turns = r)
      (hf : r.answer = .error f) :
      PlainRun o m topics source turns lines (.fail o.debug [] (lines ++ r.lines) (.stem f))
  | printed {r stems} (h : source.fault = none) (hb : o.limitFails source.words = false)
      (hr : m.stemMany topics source.words (o.workers.bind Count.number?) turns = r)
      (hs : r.answer = .ok stems) :
      PlainRun o m topics source turns lines ⟨.exit 0, stems, lines ++ r.lines, o.debug⟩

inductive Options.TracedRun (o : Options) (m : Stemmer) (source : WordSource)
    (lines : List Line) : Report → Prop where
  | blankLimit (hb : o.limitFails source.words = true) :
      TracedRun o m source lines (.fail o.debug [] lines (.blank .maxLength))
  | failed {p f} (hb : o.limitFails source.words = false) (hp : m.printEach source.words = p)
      (hf : p.fault = some f) :
      TracedRun o m source lines (.fail o.debug p.stems (lines ++ p.lines) (.stem f))
  | unread {p f} (hb : o.limitFails source.words = false) (hp : m.printEach source.words = p)
      (hf : p.fault = none) (h : source.fault = some f) :
      TracedRun o m source lines (.fail o.debug p.stems (lines ++ p.lines) (.words f))
  | printed {p} (hb : o.limitFails source.words = false) (hp : m.printEach source.words = p)
      (hf : p.fault = none) (h : source.fault = none) :
      TracedRun o m source lines ⟨.exit 0, p.stems, lines ++ p.lines, o.debug⟩

/-- What is printed one by one: the stems of a beginning of the words, up to the first that
fails. -/
structure Printed.Prints (p : Printed) (answer : Word → Except StemFault Word)
    (words : List Word) : Prop where
  stems : ∃ before, before <+: words ∧ before.mapM answer = .ok p.stems
  all : p.fault = none → words.mapM answer = .ok p.stems
  failed : ∀ f, p.fault = some f → words.mapM answer = .error f

variable {s : Session} {o : Options} {m : Stemmer} {topics : Topics} {source : WordSource}
  {turns : Nat → List Nat} {lines : List Line} {r : Report} {words : List Word} {w : Word}
  {input : Text} {passes : Nat} {f : CommandFault}

theorem Report.fail_cases (verbose : Bool) (stems : List Word) (lines : List Line)
    (f : CommandFault) :
    (∃ l, f.line? = some l ∧
      Report.fail verbose stems lines f = ⟨.exit 1, stems, lines ++ [l], verbose⟩) ∨
    (f.line? = none ∧
      Report.fail verbose stems lines f = ⟨.unreported f, stems, lines, verbose⟩) := by
  unfold Report.fail
  cases hl : f.line? with
  | some l => exact .inl ⟨l, rfl, rfl⟩
  | none => exact .inr ⟨rfl, rfl⟩

theorem Report.fail_stems (verbose : Bool) (stems : List Word) (lines : List Line)
    (f : CommandFault) : (Report.fail verbose stems lines f).stems = stems := by
  rcases Report.fail_cases verbose stems lines f with ⟨l, -, h⟩ | ⟨-, h⟩ <;> rw [h]

theorem Report.fail_ending_ne_zero (verbose : Bool) (stems : List Word) (lines : List Line)
    (f : CommandFault) : (Report.fail verbose stems lines f).ending ≠ .exit 0 := by
  rcases Report.fail_cases verbose stems lines f with ⟨l, -, h⟩ | ⟨-, h⟩ <;> rw [h] <;> simp

theorem Report.fail_ending_eq_one {verbose : Bool} {stems : List Word}
    (h : ¬ (Report.fail verbose stems lines f).ending.Escapes) (hf : f ≠ .stem .unfinished) :
    (Report.fail verbose stems lines f).ending = .exit 1 := by
  rcases Report.fail_cases verbose stems lines f with ⟨l, -, hl⟩ | ⟨-, hl⟩
  · rw [hl]
  · exact absurd ⟨f, by rw [hl], hf⟩ h

theorem Session.rulesOnce_congr (s s' : Session) (hready : s'.bundledReady = s.bundledReady)
    (o : Outcome) : (s'.rulesOnce o).answer = (s.rulesOnce o).answer ∧
      (s'.rulesOnce o).lines = (s.rulesOnce o).lines := by
  unfold Session.rulesOnce
  rw [hready]
  cases o with
  | ok c => exact ⟨rfl, rfl⟩
  | error f => exact ⟨rfl, rfl⟩

/-- The rules depend on the files and on whether the bundled rules were reported already. -/
theorem Session.rules_congr (s s' : Session) (hhost : s'.host = s.host)
    (hready : s'.bundledReady = s.bundledReady) (rulesFile : Option Codes) :
    (s'.rules rulesFile).answer = (s.rules rulesFile).answer ∧
      (s'.rules rulesFile).lines = (s.rules rulesFile).lines := by
  have hbundled := Session.rulesOnce_congr s s' hready bundledOutcome
  unfold Session.rules
  split
  · exact hbundled
  · exact hbundled
  · rw [hhost]
    exact ⟨rfl, rfl⟩

theorem Session.stemWords_report {settings : Settings}
    (h : s.effective o = .ok (o.over settings)) :
    ((s.loadSettings none).next.stemWords o settings input passes turns
      (s.loadSettings none).lines).1 = s.report o input passes turns := by
  obtain ⟨hanswer, hlines⟩ :=
    Session.rules_congr s (s.loadSettings none).next rfl rfl (o.over settings).rulesFile
  unfold Session.stemWords Session.stemmer Session.report Session.setup Session.setupLines
  simp only [h, hanswer, hlines]
  cases (s.rules (o.over settings).rulesFile).answer with
  | error f => simp
  | ok t =>
    cases (o.over settings).memoFits with
    | false => simp
    | true =>
      simp only [reduceIte, List.append_assoc]
      rfl

theorem Session.run_report (s : Session) (o : Options) (input : Text) (passes : Nat)
    (turns : Nat → List Nat) :
    (s.run o input passes turns).1 = s.report o input passes turns := by
  unfold Session.run
  cases hload : (s.loadSettings none).answer with
  | ok settings =>
    simp only [hload]
    exact Session.stemWords_report (by rw [Session.effective, hload])
  | error f =>
    simp only [hload]
    split
    · rename_i hf
      exact Session.stemWords_report (by rw [Session.effective, hload]; exact if_pos hf)
    · rename_i hf
      have heffective : s.effective o = .error f := by
        rw [Session.effective, hload]
        exact if_neg hf
      simp [Session.report, Session.setup, Session.setupLines, heffective]

theorem Session.setup_ok (h : s.setup o passes = .ok m) :
    ∃ settings table, s.Uses o settings table ∧ settings.memoFits = true ∧
      m = .new table settings passes := by
  unfold Session.setup at h
  split at h
  · cases h
  · rename_i settings heffective
    split at h
    · cases h
    · rename_i table hrules
      split at h
      · rename_i hfits
        obtain rfl := Except.ok.inj h
        exact ⟨settings, table, ⟨heffective, hrules⟩, hfits, rfl⟩
      · cases h

theorem Session.setup_right (h : s.setup o passes = .ok m) : m.Right := by
  obtain ⟨settings, table, -, -, rfl⟩ := Session.setup_ok h
  exact Stemmer.right_of_recent_nil fun _ hm => Stemmer.recent_of_new hm

theorem Session.setup_error_ne_stem (h : s.setup o passes = .error f) (g : StemFault) :
    f ≠ .stem g := by
  unfold Session.setup at h
  rintro rfl
  split at h
  · cases h
  · split at h
    · cases h
    · split at h <;> cases h

/-- Passes enough for all words that a command may stem. -/
theorem Session.exists_enough
    (hends : ∀ settings table, s.Uses o settings table →
      ∀ w ∈ words, ¬ table.RunsForEver settings.limits false w) :
    ∃ enough, ∀ passes, enough ≤ passes → ∀ m, s.setup o passes = .ok m →
      ∀ w ∈ words, ComesTo m.table.rulesFor m.limits w (m.run w) := by
  by_cases huses : ∃ settings table, s.Uses o settings table
  · obtain ⟨settings, table, huses⟩ := huses
    obtain ⟨enough, henough⟩ := RuleTable.exists_enough_of_forall (hends settings table huses)
    refine ⟨enough, fun passes hp m hm w hw => ?_⟩
    obtain ⟨settings', table', huses', -, rfl⟩ := Session.setup_ok hm
    obtain rfl : settings = settings' :=
      Except.ok.inj (huses.effective.symm.trans huses'.effective)
    obtain rfl : table = table' := Except.ok.inj (huses.compiled.symm.trans huses'.compiled)
    exact henough passes hp w hw
  · refine ⟨0, fun passes _ m hm => ?_⟩
    obtain ⟨settings, table, huses', -, -⟩ := Session.setup_ok hm
    exact absurd ⟨settings, table, huses'⟩ huses

theorem Options.plainRun (o : Options) (m : Stemmer) (topics : Topics) (source : WordSource)
    (turns : Nat → List Nat) (lines : List Line) :
    o.PlainRun m topics source turns lines (o.runPlain m topics source turns lines) := by
  unfold Options.runPlain WordSource.all
  cases hsource : source.fault with
  | some f => exact .unread hsource
  | none =>
    simp only
    split
    · rename_i hb
      exact .blankWorkers hsource hb
    · split
      · rename_i hb
        exact .blankLimit hsource hb
      · rename_i hb
        rw [Bool.not_eq_true] at hb
        split
        · rename_i f hf
          exact .failed hsource hb rfl hf
        · rename_i stems hs
          exact .printed hsource hb rfl hs

theorem Options.tracedRun (o : Options) (m : Stemmer) (source : WordSource) (lines : List Line) :
    o.TracedRun m source lines (o.runTraced m source lines) := by
  unfold Options.runTraced
  split
  · rename_i hb
    exact .blankLimit hb
  · rename_i hb
    rw [Bool.not_eq_true] at hb
    simp only
    split
    · rename_i f _ hf
      exact .failed hb rfl hf
    · rename_i f hf hsource
      exact .unread hb rfl hf hsource
    · rename_i hf hsource
      exact .printed hb rfl hf hsource

theorem Stemmer.printEach_cons_error {f : StemFault} (h : m.run w = .error f) :
    m.printEach (w :: words) = ⟨[], [], some f⟩ := by
  simp only [Stemmer.printEach, Stemmer.trace, h]

theorem Stemmer.printEach_cons_ok {run : Run} (h : m.run w = .ok run) :
    m.printEach (w :: words) =
      ⟨run.stem :: (m.printEach words).stems,
        run.lines ++ tracedLine (run.result true) :: (m.printEach words).lines,
        (m.printEach words).fault⟩ := by
  simp only [Stemmer.printEach, Stemmer.trace, h]
  rfl

theorem Stemmer.fresh_of_error {f : StemFault} (h : m.run w = .error f) : m.fresh w = .error f := by
  rw [Stemmer.fresh, h]
  rfl

theorem Stemmer.fresh_of_ok {run : Run} (h : m.run w = .ok run) : m.fresh w = .ok run.stem := by
  rw [Stemmer.fresh, h]
  rfl

theorem Stemmer.run_eq_error {f : StemFault} (h : m.fresh w = .error f) : m.run w = .error f := by
  cases hrun : m.run w with
  | ok run => cases h.symm.trans (Stemmer.fresh_of_ok hrun)
  | error g =>
    obtain rfl := Except.error.inj (h.symm.trans (Stemmer.fresh_of_error hrun))
    rfl

theorem Stemmer.printEach_prints (m : Stemmer) (words : List Word) :
    (m.printEach words).Prints m.fresh words := by
  induction words with
  | nil => exact ⟨⟨[], List.prefix_rfl, rfl⟩, fun _ => rfl, nofun⟩
  | cons w words ih =>
    cases hrun : m.run w with
    | error f =>
      rw [Stemmer.printEach_cons_error hrun]
      refine ⟨⟨[], List.nil_prefix, rfl⟩, nofun, fun g hg => ?_⟩
      obtain rfl := Option.some.inj hg
      exact mapM_cons_of_error (Stemmer.fresh_of_error hrun) words
    | ok run =>
      have hw := Stemmer.fresh_of_ok hrun
      rw [Stemmer.printEach_cons_ok hrun]
      obtain ⟨⟨before, hbefore, hstems⟩, hall, hfailed⟩ := ih
      refine ⟨⟨w :: before, List.cons_prefix_cons.mpr ⟨rfl, hbefore⟩, ?_⟩, ?_, ?_⟩
      · rw [mapM_cons_of_ok hw, hstems]
        rfl
      · intro hf
        rw [mapM_cons_of_ok hw, hall hf]
        rfl
      · intro f hf
        rw [mapM_cons_of_ok hw, hfailed f hf]
        rfl

theorem Options.TracedRun.stems (h : o.TracedRun m source lines r) :
    ∃ before, before <+: source.words ∧ before.mapM m.fresh = .ok r.stems := by
  cases h with
  | blankLimit => exact ⟨[], List.nil_prefix, rfl⟩
  | failed _ hp _ | unread _ hp _ _ =>
    rw [Report.fail_stems, ← hp]
    exact (m.printEach_prints source.words).stems
  | printed _ hp _ _ =>
    subst hp
    exact (m.printEach_prints source.words).stems

theorem Options.PlainRun.stems (h : o.PlainRun m topics source turns lines r) (hm : m.Right) :
    r.stems = [] ∨ source.words.mapM m.fresh = .ok r.stems := by
  cases h with
  | unread | blankWorkers | blankLimit | failed => exact .inl (Report.fail_stems _ _ _ _)
  | printed _ _ hmany hstems =>
    subst hmany
    exact .inr (Stemmer.mapM_of_stemMany hm hstems)

theorem Session.report_unset (hf : s.setup o passes = .error f) :
    s.report o input passes turns = .fail o.debug [] (s.setupLines o) f := by
  unfold Session.report
  rw [hf]

theorem Session.report_plain (input : Text) (turns : Nat → List Nat) (ho : o.trace = false)
    (hm : s.setup o passes = .ok m) :
    o.PlainRun m s.topics (o.source s.host input) turns (s.setupLines o)
      (s.report o input passes turns) := by
  unfold Session.report
  rw [hm]
  simp only [ho]
  exact o.plainRun m s.topics (o.source s.host input) turns (s.setupLines o)

theorem Session.report_traced (input : Text) (turns : Nat → List Nat) (ho : o.trace = true)
    (hm : s.setup o passes = .ok m) :
    o.TracedRun m (o.source s.host input) (s.setupLines o) (s.report o input passes turns) := by
  unfold Session.report
  rw [hm]
  simp only [ho]
  exact o.tracedRun m (o.source s.host input) (s.setupLines o)

theorem Session.report_stems (hr : (s.report o input passes turns).stems ≠ []) :
    ∃ m, s.setup o passes = .ok m ∧ ∃ before, before <+: (o.source s.host input).words ∧
      before.mapM m.fresh = .ok (s.report o input passes turns).stems := by
  cases hm : s.setup o passes with
  | error f =>
    rw [Session.report_unset hm, Report.fail_stems] at hr
    exact absurd rfl hr
  | ok m =>
    refine ⟨m, rfl, ?_⟩
    cases ho : o.trace with
    | true => exact (Session.report_traced input turns ho hm).stems
    | false =>
      rcases (Session.report_plain input turns ho hm).stems (Session.setup_right hm) with h | h
      · exact absurd h hr
      · exact ⟨_, List.prefix_rfl, h⟩

/-- A blank number of workers is put to a comparison where there is a trace, before all else. -/
theorem Session.command_cases {arguments : List Text} (h : parseArguments arguments = .ok (some o))
    (input : Text) (passes : Nat) (turns : Nat → List Nat) :
    (s.command arguments input passes turns).1 = s.report o input passes turns ∨
      (o.trace = true ∧ o.workers = some .blank ∧
        (s.command arguments input passes turns).1 =
          ⟨.unreported (.blank .tracedWorkers), [], [], o.debug⟩) := by
  rw [← Session.run_report]
  unfold Session.command
  simp only [h]
  split
  · rename_i hb
    obtain ⟨ht, hw⟩ := Bool.and_eq_true_iff.mp hb
    exact .inr ⟨ht, of_decide_eq_true hw, rfl⟩
  · exact .inl rfl

theorem Session.rules_none (s : Session) : (s.rules none).answer = .ok bundledTable := by
  change (s.rulesOnce bundledOutcome).answer = .ok bundledOutcome.table
  rw [bundledOutcome_eq]
  rfl

theorem Session.effective_bare (o : Options) :
    (Session.start bareHost).effective o = .ok (o.over {}) := rfl

theorem Session.setup_bare (ho : o.rules = none) (passes : Nat) :
    (Session.start bareHost).setup o passes = .ok (.new bundledTable (o.over {}) passes) := by
  have hrules : (o.over {}).rulesFile = none := by
    unfold Options.over
    rw [ho]
  have hfits : (o.over {}).memoFits = true := rfl
  unfold Session.setup
  rw [Session.effective_bare]
  simp only [hrules, Session.rules_none, hfits]
  rfl

theorem Session.command_bare {arguments : List Text} (h : parseArguments arguments = .ok (some o))
    (ho : o.rules = none) (hblank : o.trace = true → o.workers ≠ some .blank) (input : Text)
    (passes : Nat) (turns : Nat → List Nat) :
    ((Session.start bareHost).command arguments input passes turns).1 =
      let m := Stemmer.new bundledTable (o.over {}) passes
      let lines := (Session.start bareHost).setupLines o
      if o.trace then o.runTraced m (o.source bareHost input) lines
      else o.runPlain m .none (o.source bareHost input) turns lines := by
  rcases Session.command_cases h input passes turns with hreport | ⟨htrace, hworkers, -⟩
  · rw [hreport, Session.report, Session.setup_bare ho]
    rfl
  · exact absurd hworkers (hblank htrace)

end Lancaster

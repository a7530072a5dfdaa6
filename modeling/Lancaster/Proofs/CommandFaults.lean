import Lancaster.Proofs.CommandLimits
import Lancaster.Proofs.FaultLines
import Lancaster.Proofs.Recognition
import Lancaster.Proofs.RuleFiles

/-!
Faults of a command. Rule texts are refused as ungrammatical, but for a number of more digits than
are ever read, which no line reports. Nor does a line report names that are no paths, settings that
their parser gives up on, a memo that is too large, or numbers left blank. Where none of these is
met, a command ends with zero and no report, or with one and a single report.
-/
namespace Lancaster

/-- An entry that reading comes to has a number of too many digits. -/
def OverlongNumber (t : Text) : Prop :=
  ∃ (lines : List EntryLine) (l : EntryLine) (rest : Text),
    t = linesText lines ++ l.text ++ rest ∧ maxDigits < (l.entry.filter Char.isDigit).length

/-- A command that succeeds writes no report, and one that fails writes a single one. -/
inductive Report.ReportsOnce (r : Report) : Prop where
  | succeeded (h : r.ending = .exit 0)
      (hlines : ∀ stamp, r.lines.countP (Line.reportsFault stamp) = 0) : ReportsOnce r
  | failed (h : r.ending = .exit 1)
      (hlines : ∀ stamp, r.lines.countP (Line.reportsFault stamp) = 1) : ReportsOnce r

/-- The parser does not give up on the text that stands at a place. -/
def Host.ParsesAt (h : Host) (place : Location) : Prop :=
  ∀ content t reason, h.files.content place = .ok content →
    h.decodeAs defaultEncoding content = .ok ⟨t, false⟩ → h.parser t ≠ .error (.gaveUp reason)

/-- Nothing is met that ends a command without a report. -/
structure Session.Guarded (s : Session) (o : Options) (input : Text) : Prop where
  dataDir : ∀ f, s.host.dataDir none = .error f → f.absent = true
  settingsText : ∀ k, s.host.configKey settingsFile none defaultEncoding (some settingsValidator) =
    .ok k → s.host.ParsesAt k.path
  rulesPath : ∀ settings path, s.effective o = .ok settings → settings.rulesFile = some path →
    path.unwritable? = none ∧ path.text.isPath = true
  numbers : ∀ settings path d, s.effective o = .ok settings → settings.rulesFile = some path →
    s.host.readNamed path defaultEncoding = .ok d → ¬ OverlongNumber d.text
  memo : ∀ settings, s.effective o = .ok settings → settings.memoFits = true
  wordFile : ∀ path, o.wordFile = some path → path.isPath = true
  workers : o.workers ≠ some .blank
  limit : o.maxLength = some .blank → (o.source s.host input).words = []

variable {s : Session} {o : Options} {m : Stemmer} {source : WordSource} {words : List Word}
  {lines : List Line} {input : Text} {passes : Nat} {turns : Nat → List Nat} {t : Text}
  {h : Host} {r : Report}

theorem compileText_tooManyDigits_iff :
    (∃ count, compileText t = .error (.tooManyDigits count)) ↔ OverlongNumber t := by
  constructor
  · rintro ⟨count, h⟩
    rcases compileStream_cases t with ⟨k, -, hs⟩ |
      ⟨s₁, c, k, o, rest, rfl, ⟨-, lines, u, rfl, hopen, -⟩, hstop, hs⟩
    · rw [compileText, hs] at h
      cases hφ : k.phase <;> simp [Compiler.finish, hφ] at h
    · rw [compileText, hs] at h
      cases hstop with
      | @tooManyDigits p n rules φ d c hφ b hc hend hd =>
        obtain ⟨w, hw, heq, hspells⟩ := hopen.exists_entry hφ b
        rw [← hc] at heq
        refine ⟨lines, ⟨w, (d.entry b).text, [], hw, hspells.isEntry, hend, by simp⟩, rest, ?_, ?_⟩
        · rw [EntryLine.text, List.append_nil, ← heq]
          simp
        · rwa [hspells.filter_isDigit]
      | closed | start | terminator => cases h
  · rintro ⟨lines, l, rest, rfl, hd⟩
    by_cases hlines : ∃ l' ∈ lines, maxDigits < (l'.entry.filter Char.isDigit).length
    · obtain ⟨count, left, hstop⟩ := read_overlong_lines hlines .start 0 [] (l.text ++ rest)
      rw [← List.append_assoc] at hstop
      exact ⟨count, compileText_of_stopped hstop⟩
    · have hfit : ∀ l' ∈ lines, (l'.entry.filter Char.isDigit).length ≤ maxDigits := by
        intro l' hl'
        by_contra hlong
        exact hlines ⟨l', hl', by omega⟩
      obtain ⟨e, he, hlong⟩ := l.exists_spells_overlong hd
      obtain ⟨rs, -, hread⟩ := read_lines hfit .start 0 []
      refine ⟨e.digits.length, ?_⟩
      rw [List.append_assoc]
      exact compileText_of_stopped ((hread _).trans (read_overlong_line he hlong _ _))

theorem compile_or_grammar_iff (t : Text) :
    ((∃ table, compile t = .ok table) ∨ ∃ f, compile t = .error (.grammar f)) ↔
      ¬ OverlongNumber t := by
  rw [← compileText_tooManyDigits_iff, compile]
  cases compileText t with
  | ok c => simp [Except.map]
  | error f => cases f <;> simp [Except.map]

theorem compileText_of_compileDecoded {d : Decoded} {o : Outcome}
    (h : compileDecoded d = .ok o) : compileText d.text = o := by
  unfold compileDecoded at h
  rw [compileText, compileStream]
  split at h
  · rename_i hstop
    rw [hstop]
    exact Except.ok.inj h
  · rename_i hread
    split at h
    · cases h
    · rw [hread]
      exact Except.ok.inj h

theorem ConfigFault.reported_of_absent {f : ConfigFault} (hf : f.absent = true) :
    ¬ (CommandFault.config f).Unreported := by
  rintro ⟨⟩ <;> cases hf

theorem Host.configKey_error {e : Text} {v : Option Validator} {f : ConfigFault}
    (hdir : ∀ f, h.dataDir none = .error f → f.absent = true)
    (hk : h.configKey settingsFile none e v = .error f) : f.absent = true := by
  cases hd : h.dataDir none with
  | error g =>
    rw [Host.configKey, hd] at hk
    obtain rfl := Except.error.inj hk
    exact hdir g hd
  | ok dir =>
    rw [Host.configKey_eq hd (by decide)] at hk
    split at hk
    · split at hk
      · obtain rfl := Except.error.inj hk
        rfl
      · cases hk
    · obtain rfl := Except.error.inj hk
      rfl

theorem settingsValidator_check (object : ConfigObject) :
    settingsValidator.check object = match Settings.ofObject object with
      | .ok _ => .ok object
      | .error f => .error (.refused f.message) := rfl

theorem settingsValidator_ne_missingKey (object : ConfigObject) (key : Text) :
    settingsValidator.check object ≠ .error (.missingKey key) := by
  rw [settingsValidator_check]
  split
  · simp
  · simp

theorem Host.readConfig_reported {path : Location} {f : ConfigFault} (htext : h.ParsesAt path)
    (hf : h.readConfig path defaultEncoding (some settingsValidator) = .error f) :
    ¬ (CommandFault.config f).Unreported := by
  rcases Host.readConfig_error hf with hunread | hcheck
  · cases hunread with
    | malformed | unreadable => nofun
    | unknownEncoding hd =>
      cases (h.decodeAs_default _).symm.trans hd
    | gaveUp hc hd hp => exact absurd hp (htext _ _ _ hc hd)
  · cases hcheck with
    | notObject | refused => nofun
    | missingKey hv hkey =>
      obtain rfl := Option.some.inj hv
      exact absurd hkey (settingsValidator_ne_missingKey _ _)

theorem Host.settingsOf_reported {object : ConfigObject} {f : ConfigFault}
    (hdir : ∀ f, h.dataDir none = .error f → f.absent = true)
    (hf : h.settingsOf none object = .error f) : ¬ (CommandFault.config f).Unreported := by
  unfold Host.settingsOf at hf
  split at hf
  · simp only [pure_bind] at hf
    split at hf
    · cases hf
    · cases hd : h.dataDir none with
      | error g =>
        rw [hd] at hf
        obtain rfl := Except.error.inj hf
        exact ConfigFault.reported_of_absent (hdir g hd)
      | ok dir =>
        rw [hd] at hf
        cases hf
  · obtain rfl := Except.error.inj hf
    nofun

theorem Session.Guarded.loadSettings_reported {f : ConfigFault} (hg : s.Guarded o input)
    (hf : (s.loadSettings none).answer = .error f) : ¬ (CommandFault.config f).Unreported := by
  change (s.host.loadConfig s.configs settingsFile none defaultEncoding
    (some settingsValidator)).answer.bind (fun l => s.host.settingsOf none l.object) =
      .error f at hf
  cases hload : (s.host.loadConfig s.configs settingsFile none defaultEncoding
      (some settingsValidator)).answer with
  | ok l =>
    rw [hload] at hf
    exact Host.settingsOf_reported hg.dataDir hf
  | error g =>
    rw [hload] at hf
    obtain rfl := Except.error.inj hf
    unfold Host.loadConfig at hload
    split at hload
    · rename_i hkey
      obtain rfl := Except.error.inj hload
      exact ConfigFault.reported_of_absent (Host.configKey_error hg.dataDir hkey)
    · rename_i k hkey
      split at hload
      · cases hload
      · split at hload
        · rename_i hread
          obtain rfl := Except.error.inj hload
          exact Host.readConfig_reported (hg.settingsText k hkey) hread
        · cases hload

theorem Session.Guarded.effective_reported {f : ConfigFault} (hg : s.Guarded o input)
    (hf : s.effective o = .error f) : ¬ (CommandFault.config f).Unreported := by
  unfold Session.effective at hf
  split at hf
  · cases hf
  · rename_i hload
    split at hf
    · cases hf
    · obtain rfl := Except.error.inj hf
      exact hg.loadSettings_reported hload

theorem Host.readText_error {path : Text} {f : ReadFault} (hpath : path.isPath = true)
    (hf : h.readText path defaultEncoding = .error f) : ∃ g, f = .file g := by
  unfold Host.readText at hf
  rw [Encoding.contains_of_named? named?_defaultEncoding, hpath] at hf
  simp only [Bool.not_true, Bool.false_eq_true, if_false] at hf
  split at hf
  · rename_i g _
    exact ⟨g, (Except.error.inj hf).symm⟩
  · cases (h.decodeAs_default _).symm.trans hf

theorem Host.loadRules_reported {path : Codes} {f : RuleFileFault}
    (hpath : path.unwritable? = none ∧ path.text.isPath = true)
    (hnumbers : ∀ d, h.readNamed path defaultEncoding = .ok d → ¬ OverlongNumber d.text)
    (hf : (h.loadRules path defaultEncoding).1 = .error f) :
    ¬ (CommandFault.setup (.rules f)).Unreported := by
  have hcompile : h.compileFile path defaultEncoding = .error f := by
    unfold Host.loadRules at hf
    split at hf
    · rename_i hcompile
      rw [hcompile, Except.error.inj hf]
    · cases hf
  unfold Host.compileFile at hcompile
  split at hcompile
  · rename_i g hread
    obtain rfl := Except.error.inj hcompile
    unfold Host.readNamed at hread
    rw [hpath.1] at hread
    obtain ⟨k, rfl⟩ := Host.readText_error hpath.2 hread
    nofun
  · rename_i d hread
    split at hcompile
    · rename_i g hdecoded
      obtain rfl := Except.error.inj hcompile
      unfold compileDecoded at hdecoded
      split at hdecoded
      · cases hdecoded
      · split at hdecoded
        · obtain rfl := Except.error.inj hdecoded
          nofun
        · cases hdecoded
    · rename_i g hdecoded
      obtain rfl := Except.error.inj hcompile
      rintro ⟨⟩
      exact hnumbers d hread (compileText_tooManyDigits_iff.mp
        ⟨_, compileText_of_compileDecoded hdecoded⟩)
    · cases hcompile

theorem Session.Guarded.setup_reported {f : CommandFault} (hg : s.Guarded o input)
    (hf : s.setup o passes = .error f) : ¬ f.Unreported := by
  unfold Session.setup at hf
  split at hf
  · rename_i heffective
    obtain rfl := Except.error.inj hf
    exact hg.effective_reported heffective
  · rename_i settings heffective
    split at hf
    · rename_i g hrules
      obtain rfl := Except.error.inj hf
      unfold Session.rules at hrules
      split at hrules
      · cases hrules.symm.trans s.rules_none
      · cases hrules.symm.trans s.rules_none
      · rename_i path _ hfile
        exact Host.loadRules_reported (hg.rulesPath settings path heffective hfile)
          (fun d => hg.numbers settings path d heffective hfile) hrules
    · rw [hg.memo settings heffective] at hf
      cases hf

theorem Session.Guarded.source_reported {f : WordFileFault} (hg : s.Guarded o input)
    (hf : (o.source s.host input).fault = some f) : ¬ (CommandFault.words f).Unreported := by
  unfold Options.source at hf
  split at hf
  · cases hf
  · cases hf
  · rename_i path _ hfile
    unfold Host.fileWords at hf
    split at hf
    · rename_i hread
      obtain rfl := Option.some.inj hf
      obtain ⟨g, rfl⟩ := Host.readText_error (hg.wordFile path hfile) hread
      nofun
    · split at hf
      · obtain rfl := Option.some.inj hf
        nofun
      · cases hf

theorem Session.stems_reported {f : StemFault} (hm : s.setup o passes = .ok m)
    (hends : ∀ w ∈ words, ComesTo m.table.rulesFor m.limits w (m.run w))
    (hf : words.mapM m.fresh = .error f) : ¬ (CommandFault.stem f).Unreported := by
  obtain ⟨settings, table, huses, -, rfl⟩ := Session.setup_ok hm
  obtain ⟨base, hbase, rfl⟩ := Session.exists_valid_of_effective huses.effective
  obtain ⟨w, hw, hfault⟩ := exists_of_mapM_error hf
  have hcomes := hends w hw
  rw [Stemmer.run_eq_error hfault] at hcomes
  cases hcomes with
  | refused hfit =>
    have hoverflow : ∀ name, (o.over base).overflow ≠ .unknown name := by
      intro name
      unfold Options.over
      simp only
      split
      · nofun
      · rcases hbase.overflow with h | h <;> rw [h] <;> nofun
    unfold Limits.fit at hfit
    split at hfit
    · cases hfit
    · split at hfit
      · cases hfit
      · split at hfit
        · obtain rfl := Except.error.inj hfit
          nofun
        · rename_i name hname
          exact absurd hname (hoverflow name)
        · cases hfit

theorem QuietLines.countP_eq_zero (hl : QuietLines lines) (stamp : Text) :
    lines.countP (Line.reportsFault stamp) = 0 := by
  rw [List.countP_eq_zero]
  intro l hmem
  rw [hl l hmem stamp]
  exact Bool.false_ne_true

theorem Report.fail_reportsOnce {f : CommandFault} (verbose : Bool) (stems : List Word)
    (hl : QuietLines lines) (hf : ¬ f.Unreported) :
    (Report.fail verbose stems lines f).ReportsOnce := by
  rcases f.unreported_or_reported with h | ⟨l, hline, hreports⟩
  · exact absurd h hf
  · have hfail : Report.fail verbose stems lines f = ⟨.exit 1, stems, lines ++ [l], verbose⟩ := by
      rw [Report.fail, hline]
    rw [hfail]
    refine .failed rfl fun stamp => ?_
    rw [List.countP_append, hl.countP_eq_zero, List.countP_singleton, hreports stamp]
    rfl

theorem Options.limitFails_eq_false (hl : o.maxLength = some .blank → words = []) :
    o.limitFails words = false := by
  unfold Options.limitFails
  by_cases hb : o.maxLength = some .blank
  · rw [hl hb]
    simp
  · simp [hb]

theorem Options.PlainRun.reportsOnce {topics : Topics}
    (hrun : o.PlainRun m topics source turns lines r) (hl : QuietLines lines) (hm : m.Right)
    (hturns : CompleteTurns source.words.length (turns source.words.length))
    (hworkers : o.workers ≠ some .blank) (hlimit : o.limitFails source.words = false)
    (hsource : ∀ f, source.fault = some f → ¬ (CommandFault.words f).Unreported)
    (hstems : ∀ f, source.words.mapM m.fresh = .error f → ¬ (CommandFault.stem f).Unreported) :
    r.ReportsOnce := by
  have hquiet := m.stemMany_quiet topics source.words (o.workers.bind Count.number?) turns
  have hanswer := Stemmer.stemMany_answer hm topics (o.workers.bind Count.number?) hturns
  cases hrun with
  | @unread f hf => exact Report.fail_reportsOnce _ _ hl (hsource f hf)
  | blankWorkers _ hb => exact absurd hb hworkers
  | blankLimit _ hb => cases hb.symm.trans hlimit
  | @failed reply f _ _ hr hf =>
    subst hr
    exact Report.fail_reportsOnce _ _ (hl.append hquiet) (hstems f (hanswer.symm.trans hf))
  | printed _ _ hr =>
    subst hr
    exact .succeeded rfl (hl.append hquiet).countP_eq_zero

theorem Options.TracedRun.reportsOnce (hrun : o.TracedRun m source lines r)
    (hl : QuietLines lines) (hlower : ∀ w ∈ source.words, w.IsLower)
    (hlimit : o.limitFails source.words = false)
    (hsource : ∀ f, source.fault = some f → ¬ (CommandFault.words f).Unreported)
    (hstems : ∀ f, source.words.mapM m.fresh = .error f → ¬ (CommandFault.stem f).Unreported) :
    r.ReportsOnce := by
  have hquiet := m.printEach_quiet hlower
  have hprints := m.printEach_prints source.words
  cases hrun with
  | blankLimit hb => cases hb.symm.trans hlimit
  | @failed p f _ hp hf =>
    subst hp
    exact Report.fail_reportsOnce _ _ (hl.append hquiet) (hstems f (hprints.failed f hf))
  | @unread p f _ hp _ hf =>
    subst hp
    exact Report.fail_reportsOnce _ _ (hl.append hquiet) (hsource f hf)
  | printed _ hp =>
    subst hp
    exact .succeeded rfl (hl.append hquiet).countP_eq_zero

theorem Session.Guarded.reportsOnce (hg : s.Guarded o input)
    (hends : ∀ m, s.setup o passes = .ok m → ∀ w ∈ (o.source s.host input).words,
      ComesTo m.table.rulesFor m.limits w (m.run w))
    (hturns : CompleteTurns (o.source s.host input).words.length
      (turns (o.source s.host input).words.length)) :
    (s.report o input passes turns).ReportsOnce := by
  have hl := s.setupLines_quiet o
  have hlimit := Options.limitFails_eq_false hg.limit
  cases hm : s.setup o passes with
  | error f =>
    rw [Session.report_unset hm]
    exact Report.fail_reportsOnce _ _ hl (hg.setup_reported hm)
  | ok m =>
    have hsource := fun f => hg.source_reported (f := f)
    have hstems := fun f => Session.stems_reported (f := f) hm (hends m hm)
    cases ho : o.trace with
    | true =>
      exact (Session.report_traced input turns ho hm).reportsOnce hl
        (fun w hw => (Options.mem_source_words hw).2) hlimit hsource hstems
    | false =>
      exact (Session.report_plain input turns ho hm).reportsOnce hl (Session.setup_right hm) hturns
        hg.workers hlimit hsource hstems

/-- Where nothing is met that no line reports, a command ends with zero, or with one after a single
report. Rule texts are refused as ungrammatical unless a number in them is too long. -/
theorem Session.command_reportsOnce {arguments : List Text}
    (hargs : parseArguments arguments = .ok (some o)) (hg : s.Guarded o input)
    (hends : ∀ settings table, s.Uses o settings table →
      ∀ w ∈ (o.source s.host input).words, ¬ table.RunsForEver settings.limits false w) :
    (∀ t, ((∃ table, compile t = .ok table) ∨ ∃ f, compile t = .error (.grammar f)) ↔
        ¬ OverlongNumber t) ∧
      ∃ enough, ∀ passes, enough ≤ passes → ∀ turns,
        CompleteTurns (o.source s.host input).words.length
          (turns (o.source s.host input).words.length) →
        (s.command arguments input passes turns).1.ReportsOnce := by
  refine ⟨compile_or_grammar_iff, ?_⟩
  obtain ⟨enough, henough⟩ := Session.exists_enough hends
  refine ⟨enough, fun passes hp turns hturns => ?_⟩
  rcases Session.command_cases hargs input passes turns with h | ⟨-, hb, -⟩
  · rw [h]
    exact hg.reportsOnce (henough passes hp) hturns
  · exact absurd hb hg.workers

def missingRules : Options := { rules := some "r.txt".toList }

theorem Session.command_reportsOnce_missing :
    parseArguments ["--rules".toList, "r.txt".toList] = .ok (some missingRules) ∧
      (Session.start bareHost).Guarded missingRules "Cats".toList ∧
      (∀ settings table, (Session.start bareHost).Uses missingRules settings table →
        ∀ w ∈ (missingRules.source bareHost "Cats".toList).words,
          ¬ table.RunsForEver settings.limits false w) ∧
      (∀ t, ((∃ table, compile t = .ok table) ∨ ∃ f, compile t = .error (.grammar f)) ↔
        ¬ OverlongNumber t) ∧
      ∃ enough, ∀ passes, enough ≤ passes → ∀ turns,
        CompleteTurns (missingRules.source bareHost "Cats".toList).words.length
          (turns (missingRules.source bareHost "Cats".toList).words.length) →
        ((Session.start bareHost).command ["--rules".toList, "r.txt".toList] "Cats".toList passes
          turns).1.ReportsOnce := by
  have hargs : parseArguments ["--rules".toList, "r.txt".toList] = .ok (some missingRules) := by
    decide
  have hsettings : ∀ settings, (Session.start bareHost).effective missingRules = .ok settings →
      settings = missingRules.over {} := by
    intro settings h
    exact (Except.ok.inj ((Session.effective_bare missingRules).symm.trans h)).symm
  have hfile : (missingRules.over {}).rulesFile = some (Text.codes "r.txt".toList) := by decide
  have hread : bareHost.readNamed (Text.codes "r.txt".toList) defaultEncoding =
      .error (.file .missing) := by
    decide
  have hdir : (Session.start bareHost).host.dataDir none = .error (.noDataDir []) := by decide
  have hguard : (Session.start bareHost).Guarded missingRules "Cats".toList := by
    constructor
    · intro f hf
      obtain rfl := Except.error.inj (hdir.symm.trans hf)
      rfl
    · intro k hk
      rw [Host.configKey, hdir] at hk
      cases hk
    · intro settings path h hp
      rw [hsettings settings h, hfile] at hp
      obtain rfl := Option.some.inj hp
      decide
    · intro settings path d h hp hd
      rw [hsettings settings h, hfile] at hp
      obtain rfl := Option.some.inj hp
      cases hread.symm.trans hd
    · intro settings h
      rw [hsettings settings h]
      decide
    · intro path hp
      cases hp
    · decide
    · intro hb
      cases hb
  have hends : ∀ settings table, (Session.start bareHost).Uses missingRules settings table →
      ∀ w ∈ (missingRules.source bareHost "Cats".toList).words,
        ¬ table.RunsForEver settings.limits false w := by
    rintro settings table ⟨heffective, hcompiled⟩
    rw [hsettings settings heffective, hfile] at hcompiled
    have hrules : ((Session.start bareHost).rules (some (Text.codes "r.txt".toList))).answer =
        .error (.unreadable (Text.codes "r.txt".toList) (.file .missing)) := by
      decide
    cases hrules.symm.trans hcompiled
  exact ⟨hargs, hguard, hends, Session.command_reportsOnce hargs hguard hends⟩

def overlongRule : Text := 'a' :: List.replicate (maxDigits + 1) '1' ++ ['.']

theorem overlongRule_overlong : OverlongNumber overlongRule := by
  have hdigits : ∀ c ∈ List.replicate (maxDigits + 1) '1', c.isDigit = true := by
    intro c hc
    rw [List.eq_of_mem_replicate hc]
    decide
  have hentry : IsEntry overlongRule :=
    ⟨['a'], [], List.replicate (maxDigits + 1) '1', [], ['.'], by simp, by decide, .inl rfl,
      hdigits, by decide, .inr rfl, by simp [overlongRule]⟩
  have hend : overlongRule ≠ endText := by
    intro h
    cases (List.cons.inj h).1
  refine ⟨[], ⟨[], overlongRule, [], by simp, hentry, hend, by simp⟩, [], ?_, ?_⟩
  · simp [linesText, EntryLine.text]
  · have hfilter : overlongRule.filter Char.isDigit = List.replicate (maxDigits + 1) '1' := by
      unfold overlongRule
      rw [List.filter_append, List.filter_cons_of_neg (by decide),
        List.filter_eq_self.mpr hdigits]
      exact List.append_nil _
    change maxDigits < (overlongRule.filter Char.isDigit).length
    rw [hfilter, List.length_replicate]
    exact Nat.lt_succ_self maxDigits

theorem Session.command_unreported {arguments : List Text} {f : CommandFault}
    (hargs : parseArguments arguments = .ok (some o)) (hworkers : o.workers ≠ some .blank)
    (hf : s.setup o passes = .error f) (hline : f.line? = none) :
    (s.command arguments input passes turns).1.ending = .unreported f := by
  rcases Session.command_cases hargs input passes turns with h | ⟨-, hb, -⟩
  · rw [h, Session.report_unset hf, Report.fail, hline]
  · exact absurd hb hworkers

theorem Session.setup_gaveUp {k : ConfigKey} {content : Bytes} {reason : Text}
    (hk : s.host.configKey settingsFile none defaultEncoding (some settingsValidator) = .ok k)
    (hnew : s.configs.lookup k = none) (hc : s.host.files.content k.path = .ok content)
    (hd : s.host.decodeAs defaultEncoding content = .ok ⟨t, false⟩)
    (hp : s.host.parser t = .error (.gaveUp reason)) :
    s.setup o passes = .error (.config (.gaveUp reason)) := by
  have hvalue : s.host.readValue k.path defaultEncoding = .error (.gaveUp reason) := by
    rw [Host.readValue, Encoding.contains_of_named? named?_defaultEncoding, hc]
    simp only [Bool.false_eq_true, if_false, hd, Host.parseDecoded, hp]
  have hload : (s.loadSettings none).answer = .error (.gaveUp reason) := by
    change (s.host.loadConfig s.configs settingsFile none defaultEncoding
      (some settingsValidator)).answer.bind _ = _
    rw [Host.loadConfig, hk]
    simp only [hnew, Host.readConfig, hvalue]
    rfl
  rw [Session.setup, Session.effective, hload]
  rfl

theorem Session.setup_tooManyDigits {path : Codes} {content : Bytes}
    (heffective : s.effective o = .ok (o.over {})) (hrules : (o.over {}).rulesFile = some path)
    (hpath : path ≠ []) (hf : s.host.HoldsFile path content) (ht : Encoding.Encodes .utf8 t content)
    (hlong : OverlongNumber t.unifyLineEnds) :
    ∃ count, s.setup o passes = .error (.setup (.rules (.compile (.tooManyDigits count)))) := by
  obtain ⟨count, hcount⟩ := compileText_tooManyDigits_iff.mpr hlong
  refine ⟨count, ?_⟩
  have hload : s.host.loadRules path defaultEncoding =
      loadedRules path (compileText t.unifyLineEnds) := by
    apply hf.loadRules named?_defaultEncoding
    rw [decodeFile_of_encodes ht, compileDecoded_whole]
  have hanswer : (s.rules (some path)).answer = .error (.compile (.tooManyDigits count)) := by
    rw [Session.rules]
    · rw [hload, hcount]
      rfl
    · simpa using hpath
  rw [Session.setup, heffective]
  simp only [hrules, hanswer]

theorem overlongRule_unified : overlongRule.unifyLineEnds = overlongRule := by
  apply Text.unifyLineEnds_eq_self
  intro hr
  rw [overlongRule, List.cons_append, List.mem_cons, List.mem_append] at hr
  rcases hr with hr | hr | hr
  · cases hr
  · cases List.eq_of_mem_replicate hr
  · exact absurd hr (by decide)

def nestedText : Text := List.replicate 1000 '['

/-- It recurs for each bracket before a value, and for fewer than a thousand. -/
def shallowParser : ConfigParser := fun t =>
  if (t.takeWhile fun c => c == '[').length < 1000 then Json5.parser t
  else .error (.gaveUp "maximum recursion depth exceeded".toList)

theorem shallowParser_nestedText :
    shallowParser nestedText = .error (.gaveUp "maximum recursion depth exceeded".toList) := by
  have hdepth : ¬ (nestedText.takeWhile fun c => c == '[').length < 1000 := by
    rw [nestedText, List.takeWhile_replicate, if_pos (by decide), List.length_replicate]
    exact Nat.lt_irrefl 1000
  rw [shallowParser, if_neg hdepth]

def settingsHost (content : Bytes) (parser : ConfigParser) : Host :=
  { bareHost with
    files := ⟨[([['d']], .directory 0),
      (configLocation [['d']] settingsFile, .file content 0)]⟩
    environment := [(dataDirVariable, "/d".toList)]
    parser }

theorem settingsHost_configKey (content : Bytes) (parser : ConfigParser) :
    ∃ k, (settingsHost content parser).configKey settingsFile none defaultEncoding
        (some settingsValidator) = .ok k ∧
      (settingsHost content parser).files.content k.path = .ok content :=
  ⟨_, rfl, rfl⟩

def nestedHost : Host := settingsHost (nestedText.flatMap String.utf8EncodeChar) shallowParser

theorem nestedHost_decodeAs :
    nestedHost.decodeAs defaultEncoding (nestedText.flatMap String.utf8EncodeChar) =
      .ok ⟨nestedText, false⟩ := by
  rw [Host.decodeAs_default, decodeFile_of_encodes (.utf8 nestedText), Text.unifyLineEnds_eq_self]
  intro hr
  cases List.eq_of_mem_replicate hr

theorem nestedHost_setup (o : Options) (passes : Nat) :
    (Session.start nestedHost).setup o passes =
      .error (.config (.gaveUp "maximum recursion depth exceeded".toList)) := by
  obtain ⟨k, hk, hc⟩ := settingsHost_configKey (nestedText.flatMap String.utf8EncodeChar)
    shallowParser
  have hparser : (Session.start nestedHost).host.parser = shallowParser := rfl
  exact Session.setup_gaveUp hk rfl hc nestedHost_decodeAs
    ((congrFun hparser nestedText).trans shallowParser_nestedText)

def overlongHost : Host := ruleHost (overlongRule.flatMap String.utf8EncodeChar)

theorem overlongHost_setup (passes : Nat) : ∃ count,
    (Session.start overlongHost).setup { rules := some "/r".toList } passes =
      .error (.setup (.rules (.compile (.tooManyDigits count)))) := by
  apply Session.setup_tooManyDigits rfl rfl (by decide) (ruleHost_holdsFile _) (.utf8 overlongRule)
  rw [overlongRule_unified]
  exact overlongRule_overlong

/-- A rule text that neither compiles nor is ungrammatical, and commands that end without a report:
one of that rule file, one of a settings file with a thousand brackets, and one of its arguments. -/
theorem Session.escapes_overlong_nested_blank :
    (¬ ∃ table, compile overlongRule = .ok table) ∧
      (¬ ∃ f, compile overlongRule = .error (.grammar f)) ∧
      (∃ count, ((Session.start overlongHost).command ["--rules".toList, "/r".toList]
        "cats".toList 0).1.ending =
          .unreported (.setup (.rules (.compile (.tooManyDigits count))))) ∧
      ((Session.start nestedHost).command [] "cats".toList 0).1.ending =
        .unreported (.config (.gaveUp "maximum recursion depth exceeded".toList)) ∧
      ((Session.start bareHost).command ["--workers=--".toList] "cats".toList 0).1.ending =
        .unreported (.blank .workers) := by
  obtain ⟨count, hcount⟩ := compileText_tooManyDigits_iff.mpr overlongRule_overlong
  have hcompile : compile overlongRule = .error (.tooManyDigits count) := by
    rw [compile, hcount]
    rfl
  have hrules : parseArguments ["--rules".toList, "/r".toList] =
      .ok (some { rules := some "/r".toList }) := by
    decide
  have hblank : parseArguments ["--workers=--".toList] =
      .ok (some { workers := some .blank }) := by
    decide
  refine ⟨?_, ?_, ?_, ?_, ?_⟩
  · rintro ⟨table, h⟩
    cases hcompile.symm.trans h
  · rintro ⟨f, h⟩
    cases hcompile.symm.trans h
  · obtain ⟨c, hc⟩ := overlongHost_setup 0
    exact ⟨c, Session.command_unreported hrules (by decide) hc rfl⟩
  · exact Session.command_unreported rfl (by decide) (nestedHost_setup {} 0) rfl
  · rw [Session.command_bare hblank rfl (by intro htrace; cases htrace)]
    generalize bundledTable = table
    rfl

end Lancaster

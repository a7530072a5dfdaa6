import Lancaster.Proofs.CommandRuns

/-!
Plain commands and traced commands. Both set up the same stemmer. A plain run prints nothing before
every word has its stem; a traced run asks no memo and prints up to the first fault. So both print
the same where the plain run succeeds, and where it fails the traced run prints the stems of some of
the first words.
-/
namespace Lancaster

/-- The stem of a word under the settings and the rules of a command. -/
def Session.Stems (s : Session) (o : Options) (w v : Word) : Prop :=
  ∃ settings table, s.Uses o settings table ∧
    table.Answers settings.limits false w (.ok ⟨v, none⟩)

/-- How a plain report agrees with a traced one on the words of a source. Only the traced run prints
anything where both fail. -/
structure Report.AgreesWith (plain traced : Report) (source : WordSource)
    (stem : Word → Word → Prop) : Prop where
  succeeds : plain.ending = .exit 0 → traced.ending = .exit 0 ∧ traced.stems = plain.stems ∧
    ∃ words, source.all = .ok words ∧ List.Forall₂ stem words plain.stems
  fails : plain.ending = .exit 1 → plain.stems = [] ∧ traced.ending = .exit 1 ∧
    ∃ before, before <+: source.words ∧ List.Forall₂ stem before traced.stems

structure Options.Succeeds (o : Options) (m : Stemmer) (source : WordSource)
    (stems : List Word) : Prop where
  read : source.fault = none
  limit : o.limitFails source.words = false
  stems : source.words.mapM m.fresh = .ok stems

variable {s : Session} {o : Options} {m : Stemmer} {topics : Topics} {source : WordSource}
  {turns : Nat → List Nat} {lines : List Line} {r : Report} {words : List Word} {input : Text}
  {passes : Nat} {f : CommandFault}

theorem Session.forall₂_stems {stems : List Word} (hm : s.setup o passes = .ok m)
    (hends : ∀ w ∈ words, ComesTo m.table.rulesFor m.limits w (m.run w))
    (h : words.mapM m.fresh = .ok stems) : List.Forall₂ (s.Stems o) words stems := by
  obtain ⟨settings, table, huses, -, rfl⟩ := Session.setup_ok hm
  have hall := Stemmer.stemsOf_fresh fun w hw => hends w (List.takeWhile_subset _ hw)
  rw [h] at hall
  cases hall with
  | all hstems => exact hstems.imp fun w v hv => ⟨settings, table, huses, hv⟩

theorem Options.PlainRun.succeeds (h : o.PlainRun m topics source turns lines r) (hm : m.Right)
    (hr : r.ending = .exit 0) : o.Succeeds m source r.stems := by
  cases h with
  | unread | blankWorkers | blankLimit | failed =>
    exact absurd hr (Report.fail_ending_ne_zero _ _ _ _)
  | printed hsource hb hmany hstems =>
    subst hmany
    exact ⟨hsource, hb, Stemmer.mapM_of_stemMany hm hstems⟩

theorem Options.PlainRun.of_succeeds {stems : List Word}
    (h : o.PlainRun m topics source turns lines r) (hs : o.Succeeds m source stems)
    (hworkers : o.workers ≠ some .blank)
    (hanswer : (m.stemMany topics source.words (o.workers.bind Count.number?) turns).answer =
      source.words.mapM m.fresh) : r.ending = .exit 0 := by
  cases h with
  | unread hsource => cases hsource.symm.trans hs.read
  | blankWorkers _ hb => exact absurd hb hworkers
  | blankLimit _ hb => cases hb.symm.trans hs.limit
  | failed _ _ hmany hf =>
    subst hmany
    cases hf.symm.trans (hanswer.trans hs.stems)
  | printed => rfl

theorem Options.PlainRun.fails (h : o.PlainRun m topics source turns lines r) (hm : m.Right)
    (hr : r.ending = .exit 1) : r.stems = [] ∧ ∀ stems, ¬ o.Succeeds m source stems := by
  cases h with
  | @unread f hsource =>
    refine ⟨Report.fail_stems _ _ _ _, fun stems hs => ?_⟩
    cases hsource.symm.trans hs.read
  | blankWorkers => cases hr
  | blankLimit => cases hr
  | printed => cases hr
  | @failed reply f hsource hb hmany hf =>
    refine ⟨Report.fail_stems _ _ _ _, fun stems hs => ?_⟩
    subst hmany
    rcases Stemmer.stemMany_answer_or_unfinished hm topics source.words
      (o.workers.bind Count.number?) turns with hanswer | hanswer
    · cases hf.symm.trans (hanswer.trans hs.stems)
    · obtain rfl : f = .unfinished := Except.error.inj (hf.symm.trans hanswer)
      cases hr

theorem Options.TracedRun.of_succeeds {stems : List Word} (h : o.TracedRun m source lines r)
    (hs : o.Succeeds m source stems) : r.ending = .exit 0 ∧ r.stems = stems := by
  have hprints := m.printEach_prints source.words
  cases h with
  | blankLimit hb => cases hb.symm.trans hs.limit
  | failed _ hp hf =>
    subst hp
    cases (hprints.failed _ hf).symm.trans hs.stems
  | unread _ _ _ hsource => cases hsource.symm.trans hs.read
  | printed _ hp hf _ =>
    subst hp
    exact ⟨rfl, Except.ok.inj ((hprints.all hf).symm.trans hs.stems)⟩

theorem Options.TracedRun.fails (h : o.TracedRun m source lines r)
    (hends : ∀ w ∈ source.words, ComesTo m.table.rulesFor m.limits w (m.run w))
    (hescapes : ¬ r.ending.Escapes) (hs : ∀ stems, ¬ o.Succeeds m source stems) :
    r.ending = .exit 1 := by
  have hprints := m.printEach_prints source.words
  cases h with
  | blankLimit => exact Report.fail_ending_eq_one hescapes nofun
  | unread => exact Report.fail_ending_eq_one hescapes nofun
  | failed _ hp hf =>
    subst hp
    refine Report.fail_ending_eq_one hescapes fun hunfinished => ?_
    have hmap := hprints.failed _ hf
    rw [CommandFault.stem.inj hunfinished] at hmap
    obtain ⟨w, hw, hrun⟩ := exists_of_mapM_error hmap
    exact (hends w hw).ne_unfinished (Stemmer.run_eq_error hrun)
  | printed hb hp hf hsource =>
    subst hp
    exact absurd ⟨hsource, hb, hprints.all hf⟩ (hs _)

theorem Report.fail_agreesWith {verbose verbose' : Bool} {lines' : List Line}
    {stem : Word → Word → Prop} (hf : f ≠ .stem .unfinished)
    (hescapes : ¬ (Report.fail verbose' [] lines' f).ending.Escapes) :
    (Report.fail verbose [] lines f).AgreesWith (.fail verbose' [] lines' f) source stem := by
  refine ⟨fun h => absurd h (Report.fail_ending_ne_zero _ _ _ _), fun _ => ?_⟩
  rw [Report.fail_stems, Report.fail_stems]
  exact ⟨rfl, Report.fail_ending_eq_one hescapes hf, [], List.nil_prefix, .nil⟩

theorem Options.PlainRun.agreesWith {o' : Options} {lines' : List Line} {t : Report}
    {stem : Word → Word → Prop} (h : o.PlainRun m topics source turns lines r)
    (ht : o'.TracedRun m source lines' t) (hm : m.Right) (hlimit : o'.maxLength = o.maxLength)
    (hends : ∀ w ∈ source.words, ComesTo m.table.rulesFor m.limits w (m.run w))
    (hstem : ∀ before stems, before <+: source.words → before.mapM m.fresh = .ok stems →
      List.Forall₂ stem before stems)
    (hescapes : ¬ t.ending.Escapes) : r.AgreesWith t source stem := by
  -- The limit is the same option in both runs, so both succeed in the same cases.
  have hsame : ∀ stems, o'.Succeeds m source stems ↔ o.Succeeds m source stems := by
    intro stems
    have hfails : o'.limitFails source.words = o.limitFails source.words := by
      rw [Options.limitFails, Options.limitFails, hlimit]
    constructor
    · rintro ⟨hread, hl, hs⟩
      exact ⟨hread, hfails.symm.trans hl, hs⟩
    · rintro ⟨hread, hl, hs⟩
      exact ⟨hread, hfails.trans hl, hs⟩
  constructor
  · intro hzero
    have hs := h.succeeds hm hzero
    obtain ⟨hending, hstems⟩ := ht.of_succeeds ((hsame _).mpr hs)
    refine ⟨hending, hstems, source.words, ?_, hstem _ _ List.prefix_rfl hs.stems⟩
    rw [WordSource.all, hs.read]
  · intro hone
    obtain ⟨hnone, hfails⟩ := h.fails hm hone
    obtain ⟨before, hbefore, hstems⟩ := ht.stems
    have hending := ht.fails hends hescapes fun stems hs => hfails stems ((hsame stems).mp hs)
    exact ⟨hnone, hending, before, hbefore, hstem before _ hbefore hstems⟩

/-- A plain run and a traced run of the same command agree. Where the plain run succeeds, both print
the stems of all words of the source, in order. Where it fails it prints nothing, and the traced run
fails too, with the stems of some of the first words. -/
theorem Session.plain_agreesWith_traced {plain traced : List Text} {o o' : Options}
    (hplain : parseArguments plain = .ok (some o)) (ho : o.trace = false)
    (htraced : parseArguments traced = .ok (some o'))
    (ho' : o' = { o with trace := true, workers := o'.workers })
    (hends : ∀ settings table, s.Uses o settings table →
      ∀ w ∈ (o.source s.host input).words, ¬ table.RunsForEver settings.limits false w) :
    ∃ enough, ∀ passes, enough ≤ passes → ∀ turns,
      ¬ (s.command traced input passes turns).1.ending.Escapes →
        (s.command plain input passes turns).1.AgreesWith
          (s.command traced input passes turns).1 (o.source s.host input) (s.Stems o) := by
  obtain ⟨enough, henough⟩ := Session.exists_enough hends
  refine ⟨enough, fun passes hp turns hescapes => ?_⟩
  have ht : o'.trace = true := by rw [ho']
  have hplainReport : (s.command plain input passes turns).1 = s.report o input passes turns := by
    rcases Session.command_cases hplain input passes turns with h | ⟨h, -⟩
    · exact h
    · cases ho.symm.trans h
  have htracedReport : (s.command traced input passes turns).1 =
      s.report o' input passes turns := by
    rcases Session.command_cases htraced input passes turns with h | ⟨-, -, h⟩
    · exact h
    · exact absurd ⟨.blank .tracedWorkers, by rw [h], nofun⟩ hescapes
  rw [htracedReport] at hescapes ⊢
  rw [hplainReport]
  -- Neither the trace nor the workers have a part in the setup or in the source.
  have hsetup : s.setup o' passes = s.setup o passes := by
    rw [ho']
    rfl
  have hsource : o'.source s.host input = o.source s.host input := by
    rw [ho']
    rfl
  cases hm : s.setup o passes with
  | error f =>
    rw [Session.report_unset (hsetup.trans hm)] at hescapes ⊢
    rw [Session.report_unset hm]
    exact Report.fail_agreesWith (Session.setup_error_ne_stem hm _) hescapes
  | ok m =>
    have hends := henough passes hp m hm
    have htracedRun := Session.report_traced input turns ht (hsetup.trans hm)
    rw [hsource] at htracedRun
    refine (Session.report_plain input turns ho hm).agreesWith htracedRun (Session.setup_right hm)
      (by rw [ho']) hends (fun before stems hbefore hstems => ?_) hescapes
    exact Session.forall₂_stems hm (fun w hw => hends w (hbefore.subset hw)) hstems

def petsText : Text := "Cats, dogs".toList

theorem Stemmer.exists_fresh_eq {t : RuleTable} {settings : Settings} {w v : Word}
    (h : (t.run settings.limits passes w).map Run.stem = .ok v) :
    ∃ enough, ∀ passes, enough ≤ passes → (Stemmer.new t settings passes).fresh w = .ok v := by
  cases hrun : t.run settings.limits passes w with
  | error f =>
    rw [hrun] at h
    cases h
  | ok run =>
    rw [hrun] at h
    obtain ⟨enough, henough⟩ := (RuleTable.comesTo_of_run hrun).consultedRun_eq
    refine ⟨enough, fun passes hp => ?_⟩
    have hsame : (Stemmer.new t settings passes).run w = .ok run :=
      (t.run_eq settings.limits passes w).trans (henough passes hp)
    exact (Stemmer.fresh_of_ok hsame).trans h

theorem bundled_stems_pets :
    (bundledTable.run ({} : Settings).limits 3 "cats".toList).map Run.stem = .ok "cat".toList ∧
      (bundledTable.run ({} : Settings).limits 3 "dogs".toList).map Run.stem =
        .ok "dog".toList := by
  rw [bundledTable_eq]
  decide +kernel

/-- Both words lose their last letter, and no rule applies to what is left. -/
theorem bundled_succeeds_pets : ∃ enough, ∀ passes, enough ≤ passes →
    Options.Succeeds {} (.new bundledTable {} passes) (Options.source {} bareHost petsText)
      ["cat".toList, "dog".toList] := by
  obtain ⟨n, hcats⟩ := Stemmer.exists_fresh_eq bundled_stems_pets.1
  obtain ⟨k, hdogs⟩ := Stemmer.exists_fresh_eq bundled_stems_pets.2
  refine ⟨max n k, fun passes hp => ⟨rfl, by decide, ?_⟩⟩
  have hwords : (Options.source {} bareHost petsText).words = ["cats".toList, "dogs".toList] := by
    decide
  rw [hwords, mapM_cons_of_ok (hcats passes (le_of_max_le_left hp)),
    mapM_cons_of_ok (hdogs passes (le_of_max_le_right hp))]
  rfl

theorem Session.plain_agreesWith_traced_bare :
    parseArguments [] = .ok (some {}) ∧
      parseArguments ["--trace".toList] = .ok (some { trace := true }) ∧
      (∀ settings table, (Session.start bareHost).Uses {} settings table →
        ∀ w ∈ (Options.source {} bareHost petsText).words,
          ¬ table.RunsForEver settings.limits false w) ∧
      ∃ enough, ∀ passes, enough ≤ passes → ∀ turns,
        ((Session.start bareHost).command [] petsText passes turns).1.ending = .exit 0 ∧
        ((Session.start bareHost).command [] petsText passes turns).1.AgreesWith
          ((Session.start bareHost).command ["--trace".toList] petsText passes turns).1
          (Options.source {} bareHost petsText) ((Session.start bareHost).Stems {}) := by
  have hargs : parseArguments [] = .ok (some {}) := rfl
  have htrace : parseArguments ["--trace".toList] = .ok (some { trace := true }) := by decide
  have hends : ∀ settings table, (Session.start bareHost).Uses {} settings table →
      ∀ w ∈ (Options.source {} bareHost petsText).words,
        ¬ table.RunsForEver settings.limits false w := by
    rintro settings table ⟨heffective, hcompiled⟩ w -
    obtain rfl : ({} : Settings) = settings :=
      Except.ok.inj ((Session.effective_bare {}).symm.trans heffective)
    obtain rfl : bundledTable = table :=
      Except.ok.inj ((Session.rules_none _).symm.trans hcompiled)
    exact bundled_not_runsForEver _ false w
  obtain ⟨enough, henough⟩ := Session.plain_agreesWith_traced hargs rfl htrace rfl hends
  obtain ⟨n, hsucceeds⟩ := bundled_succeeds_pets
  refine ⟨hargs, htrace, hends, max enough n, fun passes hp turns => ?_⟩
  have hs := hsucceeds passes (le_of_max_le_right hp)
  have hplain : ((Session.start bareHost).command [] petsText passes turns).1.ending = .exit 0 := by
    rw [Session.command_bare hargs rfl nofun]
    refine (Options.plainRun _ _ _ _ _ _).of_succeeds hs nofun ?_
    have hright := Session.setup_right (Session.setup_bare (o := {}) rfl passes)
    exact (Stemmer.stemEach_gives hright _ _).answer
  refine ⟨hplain, henough passes (le_of_max_le_left hp) turns ?_⟩
  rintro ⟨f, hf, -⟩
  rw [Session.command_bare htrace rfl fun _ => nofun] at hf
  cases ((Options.tracedRun _ _ _ _).of_succeeds hs).1.symm.trans hf

end Lancaster

import Lancaster.Proofs.CommandRuns
import Lancaster.Proofs.SpelledSettings
import Lancaster.Proofs.StemLetters

/-!
Limits of a command. Settings of a file are checked, and the usual settings pass the same check, but
options go over them unchecked. Under a limit of at least one letter every line that is printed is a
word of small letters within the limit. An option that sets the limit to zero is not turned down,
and then empty lines are printed.
-/
namespace Lancaster

/-- What the check of a settings file asks of its settings. -/
structure Settings.Valid (s : Settings) : Prop where
  limit : s.limits.Positive
  overflow : s.overflow = .truncate ∨ s.overflow = .reject
  cacheSize : 0 ≤ s.cacheSize
  workers : 1 ≤ s.workers

variable {s : Session} {o : Options} {settings : Settings} {object : ConfigObject} {m : Stemmer}
  {words stems : List Word} {w v : Word} {input : Text} {passes : Nat} {turns : Nat → List Nat}

theorem Settings.valid_usual : ({} : Settings).Valid where
  limit := by
    intro n hn
    obtain rfl := Option.some.inj hn
    decide
  overflow := .inl rfl
  cacheSize := by decide
  workers := by decide

theorem Settings.SpelledBy.valid (h : settings.SpelledBy object) : settings.Valid where
  limit := by
    apply h.maxLength.of (P := fun limit => ∀ n, limit = some n → 1 ≤ n)
    · intro n hn
      obtain rfl := Option.some.inj hn
      decide
    · intro v limit hv n hn
      cases hv with
      | null => cases hn
      | value hv =>
        obtain rfl := Option.some.inj hn
        exact hv.le
  overflow := by
    apply h.overflow.of (P := fun p => p = .truncate ∨ p = .reject)
    · exact .inl rfl
    · intro v p hp
      cases hp with
      | truncate => exact .inl rfl
      | reject => exact .inr rfl
  cacheSize := h.cacheSize.of (P := fun n => 0 ≤ n) (by decide) fun _ _ hn => hn.le
  workers := h.workers.of (P := fun n => 1 ≤ n) (by decide) fun _ _ hn => hn.le

theorem Settings.valid_of_ofObject (h : Settings.ofObject object = .ok settings) :
    settings.Valid :=
  (Settings.ofObject_eq_ok_iff.mp h).valid

theorem Host.valid_of_settingsOf {h : Host} {base : Option Text}
    (hs : h.settingsOf base object = .ok settings) : settings.Valid := by
  unfold Host.settingsOf at hs
  split at hs
  · rename_i found hobject
    have hvalid := Settings.valid_of_ofObject hobject
    simp only [pure_bind] at hs
    split at hs
    · obtain rfl := Except.ok.inj hs
      exact hvalid
    · obtain ⟨dir, -, hs⟩ := exists_of_bind_eq_ok hs
      obtain rfl := Except.ok.inj hs
      exact ⟨hvalid.limit, hvalid.overflow, hvalid.cacheSize, hvalid.workers⟩
  · cases hs

theorem Session.exists_valid_of_effective (h : s.effective o = .ok settings) :
    ∃ base : Settings, base.Valid ∧ settings = o.over base := by
  unfold Session.effective at h
  split at h
  · rename_i base hload
    obtain ⟨loaded, -, hbase⟩ := exists_of_bind_eq_ok (show _ >>= _ = Except.ok base from hload)
    exact ⟨base, Host.valid_of_settingsOf hbase, (Except.ok.inj h).symm⟩
  · split at h
    · exact ⟨{}, Settings.valid_usual, (Except.ok.inj h).symm⟩
    · cases h

/-- Only a limit that is given as an option may leave no letter. -/
theorem Options.over_positive_iff (h : settings.Valid) :
    (o.over settings).limits.Positive ↔ ∀ n, o.maxLength = some (.number n) → 1 ≤ n := by
  constructor
  · intro hpositive n hn
    apply hpositive
    change (o.over settings).maxLength = some n
    unfold Options.over
    simp only [hn]
  · intro hlimit n hn
    change (o.over settings).maxLength = some n at hn
    unfold Options.over at hn
    simp only at hn
    split at hn
    · rename_i k hk
      obtain rfl := Option.some.inj hn
      exact hlimit k hk
    · exact h.limit n hn

theorem Options.mem_source_words {h : Host} (hw : w ∈ (o.source h input).words) :
    w ≠ [] ∧ w.IsLower := by
  unfold Options.source at hw
  split at hw
  · exact mem_lineWords hw
  · exact mem_lineWords hw
  · exact Host.mem_fileWords hw

theorem exists_mem_of_forall₂ {α β : Type} {R : α → β → Prop} {xs : List α} {ys : List β} {y : β}
    (h : List.Forall₂ R xs ys) (hy : y ∈ ys) : ∃ x ∈ xs, R x y := by
  induction h with
  | nil => cases hy
  | @cons x z xs ys hx _ ih =>
    rcases List.mem_cons.mp hy with rfl | hy
    · exact ⟨x, List.mem_cons_self, hx⟩
    · obtain ⟨u, hu, huy⟩ := ih hy
      exact ⟨u, List.mem_cons_of_mem x hu, huy⟩

theorem Stemmer.exists_run_of_mapM (h : words.mapM m.fresh = .ok stems) (hv : v ∈ stems) :
    ∃ w ∈ words, ∃ run, ComesTo m.table.rulesFor m.limits w (.ok run) ∧ v = run.stem := by
  obtain ⟨w, hw, hfresh⟩ := exists_mem_of_forall₂ (forall₂_of_mapM h) hv
  refine ⟨w, hw, ?_⟩
  cases hrun : m.run w with
  | error f => cases hfresh.symm.trans (Stemmer.fresh_of_error hrun)
  | ok run =>
    refine ⟨run, RuleTable.comesTo_of_run hrun, ?_⟩
    exact Except.ok.inj (hfresh.symm.trans (Stemmer.fresh_of_ok hrun))

/-- A command whose options give no limit below one letter prints words of small letters within the
effective limit. That limit is null or at least one. -/
theorem Session.printed_admitted {arguments : List Text}
    (hargs : parseArguments arguments = .ok (some o))
    (hlimit : ∀ n, o.maxLength = some (.number n) → 1 ≤ n) (input : Text) (passes : Nat)
    (turns : Nat → List Nat)
    (hprinted : (s.command arguments input passes turns).1.stems ≠ []) :
    ∃ settings, s.effective o = .ok settings ∧ settings.limits.Positive ∧
      ∀ v ∈ (s.command arguments input passes turns).1.stems, settings.limits.Admits v := by
  have hreport : (s.command arguments input passes turns).1.stems =
      (s.report o input passes turns).stems := by
    rcases Session.command_cases hargs input passes turns with h | ⟨-, -, h⟩
    · rw [h]
    · exact absurd (by rw [h]) hprinted
  rw [hreport] at hprinted ⊢
  obtain ⟨m, hm, before, hbefore, hstems⟩ := Session.report_stems hprinted
  obtain ⟨settings, table, huses, -, rfl⟩ := Session.setup_ok hm
  obtain ⟨base, hbase, rfl⟩ := Session.exists_valid_of_effective huses.effective
  have hpositive := (Options.over_positive_iff hbase).mpr hlimit
  refine ⟨o.over base, huses.effective, hpositive, fun v hv => ?_⟩
  obtain ⟨w, hw, run, hcomes, rfl⟩ := Stemmer.exists_run_of_mapM hstems hv
  obtain ⟨hne, hlower⟩ := Options.mem_source_words (hbefore.subset hw)
  exact hcomes.admits hpositive hne hlower

def limitArguments (n : Text) : List Text := ["--max-length".toList, n]

theorem Session.printed_admitted_two :
    parseArguments (limitArguments ['2']) = .ok (some { maxLength := some (.number 2) }) ∧
      (∀ n, some (Count.number 2) = some (.number n) → 1 ≤ n) ∧
      ((Session.start bareHost).command (limitArguments ['2']) "Cats, dogs".toList 0).1.stems ≠ [] ∧
      ∃ settings, (Session.start bareHost).effective { maxLength := some (.number 2) } =
          .ok settings ∧
        settings.limits.Positive ∧
        ∀ v ∈ ((Session.start bareHost).command (limitArguments ['2']) "Cats, dogs".toList
          0).1.stems, settings.limits.Admits v := by
  have hargs : parseArguments (limitArguments ['2']) =
      .ok (some { maxLength := some (.number 2) }) := by
    decide
  have hlimit : ∀ n, some (Count.number 2) = some (.number n) → 1 ≤ n := by
    rintro n ⟨⟩
    decide
  have hprinted : ((Session.start bareHost).command (limitArguments ['2']) "Cats, dogs".toList
      0).1.stems = ["ca".toList, "do".toList] := by
    rw [Session.command_bare hargs rfl nofun]
    generalize bundledTable = table
    rfl
  have hne : ((Session.start bareHost).command (limitArguments ['2']) "Cats, dogs".toList
      0).1.stems ≠ [] := by
    rw [hprinted]
    decide
  exact ⟨hargs, hlimit, hne, Session.printed_admitted hargs hlimit "Cats, dogs".toList 0 inTurn hne⟩

/-- A limit of zero is taken from the options, and an empty line is printed for a word. -/
theorem Session.zero_limit_printed :
    parseArguments (limitArguments ['0']) = .ok (some { maxLength := some (.number 0) }) ∧
      ((Session.start bareHost).command (limitArguments ['0']) "cats".toList 0).1.stems = [[]] ∧
      ∀ settings,
        (Session.start bareHost).effective { maxLength := some (.number 0) } = .ok settings →
        ¬ settings.limits.Positive := by
  have hargs : parseArguments (limitArguments ['0']) =
      .ok (some { maxLength := some (.number 0) }) := by
    decide
  refine ⟨hargs, ?_, fun settings hsettings hpositive => ?_⟩
  · rw [Session.command_bare hargs rfl nofun]
    generalize bundledTable = table
    rfl
  · rw [Session.effective_bare] at hsettings
    obtain rfl := Except.ok.inj hsettings
    have hlimit := (Options.over_positive_iff Settings.valid_usual).mp hpositive 0 rfl
    exact absurd hlimit (by decide)

end Lancaster

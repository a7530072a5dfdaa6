import Lancaster.Proofs.CommandRuns
import Lancaster.Proofs.StemLetters

/-!
Lines that report faults. They begin with `Error:` or `Config error:`, and no other line that a
command writes begins so: log lines begin with their severity, topic lines with a bracket, and lines
of a trace with a stem in small letters.
-/
namespace Lancaster

/-- The line is shown with the beginning of a report, whatever time it is stamped with. -/
def Line.reportsFault (stamp : Text) (l : Line) : Bool :=
  (Text.codes "Error: ".toList).isPrefixOf (l.codes stamp) ||
    (Text.codes "Config error: ".toList).isPrefixOf (l.codes stamp)

def Line.Quiet (l : Line) : Prop := ∀ stamp, l.reportsFault stamp = false

def QuietLines (lines : List Line) : Prop := ∀ l ∈ lines, l.Quiet

inductive CommandFault.Unreported : CommandFault → Prop where
  | noPlace : Unreported (.config .notPath)
  | unsearchable {f} : Unreported (.config (.unsearchable f))
  | configEncoding {name} : Unreported (.config (.unknownEncoding name))
  | gaveUp {reason} : Unreported (.config (.gaveUp reason))
  | missingKey {key} : Unreported (.config (.missingKey key))
  | memo : Unreported (.setup .memoTooLarge)
  | longNumber {count} : Unreported (.setup (.rules (.compile (.tooManyDigits count))))
  | rulesNoPath {path} : Unreported (.setup (.rules (.unreadable path .notPath)))
  | rulesNoEncoding {path} : Unreported (.setup (.rules (.unreadable path .notEncoding)))
  | rulesUnwritable {path halves first} :
      Unreported (.setup (.rules (.unreadable path (.unwritablePath halves first))))
  | rulesEncoding {path name} :
      Unreported (.setup (.rules (.unreadable path (.unknownEncoding name))))
  | wordsNoPath {path} : Unreported (.words ⟨path, .notPath⟩)
  | wordsNoEncoding {path} : Unreported (.words ⟨path, .notEncoding⟩)
  | wordsUnwritable {path halves first} : Unreported (.words ⟨path, .unwritablePath halves first⟩)
  | wordsEncoding {path name} : Unreported (.words ⟨path, .unknownEncoding name⟩)
  | overflow {name} : Unreported (.stem (.unknownOverflow name))
  | unfinished : Unreported (.stem .unfinished)
  | blank {use} : Unreported (.blank use)

variable {s : Session} {o : Options} {m : Stemmer} {topics : Topics} {words : List Word} {w : Word}
  {lines lines' : List Line} {l : Line} {c : Codes}

/-- Reports begin with a capital `E` or `C`. -/
theorem Line.quiet_of_head (h : ∀ stamp, ∃ n ∈ (l.codes stamp).head?, n ≠ 69 ∧ n ≠ 67) :
    l.Quiet := by
  intro stamp
  obtain ⟨n, hn, hE, hC⟩ := h stamp
  unfold Line.reportsFault
  cases hl : l.codes stamp with
  | nil =>
    rw [hl] at hn
    cases hn
  | cons k codes =>
    rw [hl] at hn
    obtain rfl := Option.some.inj hn
    have herror : Text.codes "Error: ".toList = 69 :: Text.codes "rror: ".toList := by decide
    have hconfig : Text.codes "Config error: ".toList =
        67 :: Text.codes "onfig error: ".toList := by
      decide
    rw [herror, hconfig]
    simp [List.isPrefixOf, Ne.symm hE, Ne.symm hC]

theorem Line.quiet_log (severity : Severity) (message : Codes) :
    (Line.log severity message).Quiet := by
  apply Line.quiet_of_head
  intro stamp
  cases severity with
  | debug => exact ⟨68, rfl, by decide, by decide⟩
  | info => exact ⟨73, rfl, by decide, by decide⟩

theorem Line.quiet_topic (key level message : Text) : (Line.topic key level message).Quiet := by
  apply Line.quiet_of_head
  intro stamp
  exact ⟨91, rfl, by decide, by decide⟩

/-- A stem in small letters, or the bracket behind an empty one, begins no report. -/
theorem tracedLine_quiet {r : StemResult} (h : r.stem.IsLower) : (tracedLine r).Quiet := by
  apply Line.quiet_of_head
  intro stamp
  unfold tracedLine
  cases hstem : r.stem with
  | nil => exact ⟨32, rfl, by decide, by decide⟩
  | cons x stem =>
    have hx : x.isLower = true := h x (by rw [hstem]; exact List.mem_cons_self)
    have := isLower_iff.mp hx
    exact ⟨x.toNat, rfl, by omega, by omega⟩

theorem errorLine_reports (message : Codes) (stamp : Text) :
    (errorLine message).reportsFault stamp = true := by
  have h : (Text.codes "Error: ".toList).isPrefixOf ((errorLine message).codes stamp) = true :=
    List.isPrefixOf_iff_prefix.mpr (List.prefix_append _ _)
  rw [Line.reportsFault, h]
  rfl

theorem configErrorLine_reports (message : Codes) (stamp : Text) :
    (configErrorLine message).reportsFault stamp = true := by
  have h : (Text.codes "Config error: ".toList).isPrefixOf
      ((configErrorLine message).codes stamp) = true :=
    List.isPrefixOf_iff_prefix.mpr (List.prefix_append _ _)
  rw [Line.reportsFault, h, Bool.or_true]

theorem CommandFault.unreported_or_reported (f : CommandFault) :
    f.Unreported ∨ ∃ l, f.line? = some l ∧ ∀ stamp, l.reportsFault stamp = true := by
  cases f with
  | config f =>
    cases f with
    | notPath => exact .inl .noPlace
    | unsearchable f => exact .inl .unsearchable
    | unknownEncoding name => exact .inl .configEncoding
    | gaveUp reason => exact .inl .gaveUp
    | missingKey key => exact .inl .missingKey
    | noDataDir | outside | missing | unreadable | malformed | notObject | refused =>
      exact .inr ⟨_, rfl, configErrorLine_reports _⟩
  | setup f =>
    cases f with
    | memoTooLarge => exact .inl .memo
    | rules f =>
      cases f with
      | compile f =>
        cases f with
        | tooManyDigits count => exact .inl .longNumber
        | grammar f => exact .inr ⟨_, rfl, errorLine_reports _⟩
      | unreadable path f =>
        cases f with
        | notPath => exact .inl .rulesNoPath
        | notEncoding => exact .inl .rulesNoEncoding
        | unwritablePath halves first => exact .inl .rulesUnwritable
        | unknownEncoding name => exact .inl .rulesEncoding
        | file | undecodable => exact .inr ⟨_, rfl, errorLine_reports _⟩
  | words f =>
    obtain ⟨path, f⟩ := f
    cases f with
    | notPath => exact .inl .wordsNoPath
    | notEncoding => exact .inl .wordsNoEncoding
    | unwritablePath halves first => exact .inl .wordsUnwritable
    | unknownEncoding name => exact .inl .wordsEncoding
    | file | undecodable => exact .inr ⟨_, rfl, errorLine_reports _⟩
  | stem f =>
    cases f with
    | tooLong length max => exact .inr ⟨_, rfl, errorLine_reports _⟩
    | unknownOverflow name => exact .inl .overflow
    | unfinished => exact .inl .unfinished
  | blank use => exact .inl .blank

theorem QuietLines.nil : QuietLines [] := nofun

theorem QuietLines.append (h : QuietLines lines) (h' : QuietLines lines') :
    QuietLines (lines ++ lines') := by
  intro l hl
  rcases List.mem_append.mp hl with hl | hl
  · exact h l hl
  · exact h' l hl

theorem QuietLines.cons (h : l.Quiet) (h' : QuietLines lines) : QuietLines (l :: lines) := by
  intro k hk
  rcases List.mem_cons.mp hk with rfl | hk
  · exact h
  · exact h' k hk

theorem QuietLines.single (h : l.Quiet) : QuietLines [l] := .cons h .nil

theorem winLines_quiet (w : Word) (wins : List Win) : QuietLines (winLines w wins) := by
  induction wins generalizing w with
  | nil => exact .nil
  | cons v wins ih => exact .cons (Line.quiet_log _ _) (ih v.stem)

theorem Topics.line?_quiet (t : Topics) (topic level message : Text) :
    QuietLines (t.line? topic level message).toList := by
  unfold Topics.line?
  split
  · exact .single (Line.quiet_topic _ _ _)
  · exact .nil

theorem Stemmer.stemFresh_quiet (m : Stemmer) (w : Word) : QuietLines (m.stemFresh w).lines := by
  unfold Stemmer.stemFresh
  split
  · exact winLines_quiet _ _
  · exact .nil

theorem Stemmer.stemShown_quiet (m : Stemmer) (topics : Topics) (w : Word) :
    QuietLines (m.stemShown topics w).lines := by
  unfold Stemmer.stemShown
  split
  · exact (winLines_quiet _ _).append (topics.line?_quiet _ _ _)
  · exact .nil

theorem Stemmer.stem_quiet (m : Stemmer) (topics : Topics) (w : Word) :
    QuietLines (m.stem topics w).lines := by
  unfold Stemmer.stem
  split
  · exact m.stemShown_quiet topics w
  · split
    · unfold Stemmer.stemRecalled
      split
      · exact .nil
      · split
        · exact winLines_quiet _ _
        · exact .nil
    · exact m.stemFresh_quiet w

theorem Stemmer.stemEach_quiet (m : Stemmer) (topics : Topics) (words : List Word) :
    QuietLines (m.stemEach topics words).lines := by
  induction words generalizing m with
  | nil => exact .nil
  | cons w words ih =>
    have hfirst := m.stem_quiet topics w
    cases h : (m.stem topics w).answer with
    | error f =>
      rw [Stemmer.stemEach_cons_error h]
      exact hfirst
    | ok v =>
      rw [Stemmer.stemEach_cons_ok h]
      exact hfirst.append (ih _)

theorem Job.Takes.quiet {j : Job} {r : Job × List Line × Stemmer} (h : Job.Takes m topics j r) :
    QuietLines r.2.1 := by
  cases h with
  | shown => exact m.stemShown_quiet topics _
  | alone | run => exact m.stemFresh_quiet _
  | hit | miss | store | fail | rest => exact .nil

theorem Pool.run_quiet {p : Pool} (h : QuietLines p.lines) (topics : Topics)
    (schedule : List Nat) : QuietLines (p.run topics schedule).lines := by
  induction schedule generalizing p with
  | nil => exact h
  | cons i schedule ih =>
    apply ih
    cases hj : p.jobs[i]? with
    | none => rwa [Pool.step_none hj]
    | some j =>
      rw [Pool.step_some hj]
      exact h.append (j.advance_takes p.stemmer topics).quiet

theorem Stemmer.stemMany_quiet (m : Stemmer) (topics : Topics) (words : List Word)
    (workers : Option Int) (turns : Nat → List Nat) :
    QuietLines (m.stemMany topics words workers turns).lines := by
  unfold Stemmer.stemMany
  split
  · exact m.stemEach_quiet topics words
  · exact Pool.run_quiet .nil topics _

theorem Stemmer.printEach_quiet (m : Stemmer) (h : ∀ w ∈ words, w.IsLower) :
    QuietLines (m.printEach words).lines := by
  induction words with
  | nil => exact .nil
  | cons w words ih =>
    have hothers := ih fun u hu => h u (List.mem_cons_of_mem w hu)
    cases hrun : m.run w with
    | error f =>
      rw [Stemmer.printEach_cons_error hrun]
      exact .nil
    | ok run =>
      have hstem := (RuleTable.comesTo_of_run hrun).isLower (h w List.mem_cons_self)
      rw [Stemmer.printEach_cons_ok hrun]
      exact (winLines_quiet _ _).append (.cons (tracedLine_quiet hstem) hothers)

theorem Host.loadConfig_quiet (h : Host) (cache : ConfigCache) (file : Text) (base : Option Text)
    (encoding : Text) (v : Option Validator) :
    QuietLines (h.loadConfig cache file base encoding v).lines := by
  unfold Host.loadConfig
  split
  · exact .nil
  · split
    · exact .single (Line.quiet_log _ _)
    · split
      · exact .nil
      · exact .single (Line.quiet_log _ _)

theorem Session.rules_quiet (s : Session) (rulesFile : Option Codes) :
    QuietLines (s.rules rulesFile).lines := by
  have hbundled : ∀ o, QuietLines (s.rulesOnce o).lines := by
    intro o
    unfold Session.rulesOnce
    split
    · split
      · exact .nil
      · exact .single (Line.quiet_log _ _)
    · exact .nil
  unfold Session.rules
  split
  · exact hbundled bundledOutcome
  · exact hbundled bundledOutcome
  · unfold Host.loadRules
    split
    · exact .nil
    · exact .cons (Line.quiet_log _ _) (.single (Line.quiet_log _ _))

theorem Session.setupLines_quiet (s : Session) (o : Options) : QuietLines (s.setupLines o) := by
  unfold Session.setupLines
  refine QuietLines.append (s.host.loadConfig_quiet _ _ _ _ _) ?_
  split
  · exact .nil
  · refine (s.rules_quiet _).append ?_
    split
    · exact .nil
    · split
      · exact .single (Line.quiet_log _ _)
      · exact .nil

end Lancaster

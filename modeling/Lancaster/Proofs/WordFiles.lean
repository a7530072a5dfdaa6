import Lancaster.Command.Run
import Lancaster.Config.Json5
import Lancaster.Proofs.LetterRuns
import Lancaster.Proofs.TextFiles

/-!
Words line by line. A line feed is no letter, so the words of the lines of a text are the words of
the whole text, and line ends of another kind make no difference. A text gives the same words from a
word file, from the standard input and in one piece.
-/
namespace Lancaster

/-- A text cut behind each of its line feeds. Only the last line may lack one. -/
inductive LinesOf : Text → List Text → Prop where
  | none : LinesOf [] []
  | last {line : Text} (h : '\n' ∉ line) (hne : line ≠ []) : LinesOf line [line]
  | more {line t : Text} {lines : List Text} (h : '\n' ∉ line) (rest : LinesOf t lines) :
      LinesOf (line ++ '\n' :: t) ((line ++ ['\n']) :: lines)

structure Host.HoldsText (h : Host) (path encoding t : Text) : Prop where
  isPath : path.isPath = true
  spelled : ∃ content e, h.files.readPath h.working path = .ok content ∧
    Encoding.named? encoding = some e ∧ e.Encodes t content

variable {h : Host} {path encoding line t u input : Text} {lines : List Text} {o : Options}

theorem linesOf_linesFrom (h : '\n' ∉ line) : LinesOf (line.reverse ++ t) (linesFrom line t) := by
  induction t generalizing line with
  | nil =>
    rw [linesFrom, List.append_nil]
    by_cases hline : line = []
    · subst hline
      exact .none
    · rw [if_neg (by simpa using hline)]
      exact .last (by simpa using h) (by simpa using hline)
  | cons c t ih =>
    rw [linesFrom]
    by_cases hc : c = '\n'
    · subst hc
      have hrest : LinesOf t (linesFrom [] t) := ih List.not_mem_nil
      rw [if_pos (by decide), List.reverse_cons]
      exact .more (by simpa using h) hrest
    · have hopen : '\n' ∉ c :: line := by simp [h, Ne.symm hc]
      have hrest := ih hopen
      rw [List.reverse_cons, List.append_assoc] at hrest
      rwa [if_neg (by simpa using hc)]

theorem Text.linesOf_lines (t : Text) : LinesOf t t.lines := linesOf_linesFrom List.not_mem_nil

theorem LinesOf.lineWords_eq (h : LinesOf t lines) : lineWords lines = t.words := by
  induction h with
  | none => rfl
  | @last line => exact List.append_nil line.words
  | @more line t lines _ _ ih =>
    have hline : Text.words (line ++ ['\n']) = line.words :=
      (Text.words_append_cons (by decide) line []).trans (List.append_nil _)
    calc lineWords ((line ++ ['\n']) :: lines)
        = Text.words (line ++ ['\n']) ++ lineWords lines := List.flatMap_cons
      _ = line.words ++ t.words := by rw [hline, ih]
      _ = Text.words (line ++ '\n' :: t) := (Text.words_append_cons (by decide) line t).symm

/-- Neither half of a line end is a letter. -/
theorem wordsFrom_unifyLineEnds (letters t : Text) :
    wordsFrom letters t.unifyLineEnds = wordsFrom letters t := by
  have hapart : ∀ (c : Char) (letters u : Text), ¬ IsLetter c →
      wordsFrom letters (c :: u) = closeWord letters ++ u.words :=
    fun c letters u hc => wordsFrom_append_cons hc [] u
  induction t using Text.unifyLineEnds.induct generalizing letters with
  | case1 => rfl
  | case2 t ih =>
    have hclosed : Text.words ('\n' :: t) = Text.words t := hapart '\n' [] t (by decide)
    rw [Text.unifyLineEnds, hapart _ _ _ (by decide), hapart _ _ _ (by decide), hclosed]
    exact congrArg _ (ih [])
  | case3 t hno ih =>
    rw [Text.unifyLineEnds, hapart _ _ _ (by decide), hapart _ _ _ (by decide)]
    · exact congrArg _ (ih [])
    · exact hno
  | case4 c t hpair hreturn ih =>
    rw [Text.unifyLineEnds, wordsFrom, wordsFrom, ih, ih]
    · exact hpair
    · exact hreturn

theorem Text.words_unifyLineEnds (t : Text) : t.unifyLineEnds.words = t.words :=
  wordsFrom_unifyLineEnds [] t

theorem inputWords_eq (t : Text) : inputWords t = ⟨t.words, none⟩ :=
  congrArg (WordSource.mk · none) (Text.linesOf_lines t).lineWords_eq

theorem Host.fileWords_of_readText (h : Host) (hread : h.readText path encoding = .ok ⟨t, false⟩) :
    h.fileWords path encoding = ⟨t.words, none⟩ := by
  rw [Host.fileWords, hread]
  exact inputWords_eq t

theorem Host.HoldsText.readText (hf : h.HoldsText path encoding t) :
    h.readText path encoding = .ok ⟨t.unifyLineEnds, false⟩ := by
  obtain ⟨content, e, hcontent, hname, hencodes⟩ := hf.spelled
  rw [Host.readText_of_named? hname hf.isPath hcontent, decodeFile_of_encodes hencodes]

theorem Host.HoldsText.fileWords (hf : h.HoldsText path encoding t) :
    h.fileWords path encoding = ⟨t.words, none⟩ := by
  rw [h.fileWords_of_readText hf.readText, Text.words_unifyLineEnds]

theorem Host.HoldsText.path_ne_nil (hf : h.HoldsText path encoding t) : path ≠ [] := by
  rintro rfl
  obtain ⟨content, e, hcontent, -⟩ := hf.spelled
  cases hcontent

theorem Host.HoldsText.source (hf : h.HoldsText path defaultEncoding t)
    (hpath : o.wordFile = some path) : o.source h input = ⟨t.words, none⟩ := by
  obtain ⟨c, rest, rfl⟩ := List.exists_cons_of_ne_nil hf.path_ne_nil
  rw [Options.source, hpath]
  exact hf.fileWords

theorem Session.run_wordFile {s : Session} {file file' : Option Text} {input' : Text}
    (h : ({ o with wordFile := file } : Options).source s.host input =
      ({ o with wordFile := file' } : Options).source s.host input')
    (passes : Nat) (turns : Nat → List Nat) :
    s.run { o with wordFile := file } input passes turns =
      s.run { o with wordFile := file' } input' passes turns := by
  have hstem : ∀ settings lines,
      (s.loadSettings none).next.stemWords { o with wordFile := file } settings input passes turns
        lines =
      (s.loadSettings none).next.stemWords { o with wordFile := file' } settings input' passes turns
        lines := by
    intro settings lines
    have hhost : (s.loadSettings none).next.host = s.host := rfl
    unfold Session.stemWords
    rw [hhost, h]
    rfl
  unfold Session.run
  simp only [hstem]

/-- The words of a text are those of its lines, whatever the line ends, and every character that is
no letter parts them. So a word file, the standard input and the text as a whole give the same
words, and a run of the command on a word file is its run on the text of the file. -/
theorem Text.words_linewise (t : Text) :
    LinesOf t t.lines ∧ lineWords t.lines = t.words ∧ lineWords t.unifyLineEnds.lines = t.words ∧
      (∀ a c b, ¬ IsLetter c → Text.words (a ++ c :: b) = Text.words a ++ Text.words b) ∧
      (∀ (h : Host) path encoding, h.readText path encoding = .ok ⟨t, false⟩ →
        h.fileWords path encoding = ⟨t.words, none⟩) ∧
      ∀ (h : Host) path encoding, h.HoldsText path encoding t →
        h.fileWords path encoding = ⟨t.words, none⟩ ∧
        (∀ (m : Stemmer) topics,
          m.stemText topics t = m.stemEach topics (h.fileWords path encoding).words) ∧
        (encoding = defaultEncoding → ∀ (s : Session) (o : Options) input given passes turns,
          s.host = h → given = t ∨ given = t.unifyLineEnds →
          s.run { o with wordFile := some path } input passes turns =
            s.run { o with wordFile := none } given passes turns) := by
  have hwhole : ∀ u : Text, lineWords u.lines = u.words := fun u => (linesOf_lines u).lineWords_eq
  refine ⟨t.linesOf_lines, hwhole t, ?_, fun a c b hc => words_append_cons hc a b,
    fun h path encoding hread => h.fileWords_of_readText hread, ?_⟩
  · rw [hwhole, words_unifyLineEnds]
  · intro h path encoding hf
    refine ⟨hf.fileWords, fun m topics => ?_, ?_⟩
    · rw [hf.fileWords]
      rfl
    · rintro rfl s o input given passes turns rfl hgiven
      have hwords : inputWords given = ⟨t.words, none⟩ := by
        rcases hgiven with rfl | rfl
        · exact inputWords_eq given
        · rw [inputWords_eq, words_unifyLineEnds]
      apply Session.run_wordFile
      exact (hf.source rfl).trans hwords.symm

def returnedText : Text := "Don't\r\nstop\ré".toList

def wordHost : Host :=
  { bareHost with
    files := ⟨[(["w".toList], .file (returnedText.flatMap String.utf8EncodeChar) 0)]⟩ }

/-- A text that is cut at other places in a file than from the standard input. -/
theorem Text.words_linewise_returns :
    wordHost.HoldsText "/w".toList defaultEncoding returnedText ∧
      returnedText.lines.length = 2 ∧ returnedText.unifyLineEnds.lines.length = 3 ∧
      wordHost.fileWords "/w".toList defaultEncoding =
        ⟨["don".toList, "t".toList, "stop".toList], none⟩ ∧
      ∀ (o : Options) passes turns,
        (Session.start wordHost).run { o with wordFile := some "/w".toList } [] passes turns =
          (Session.start wordHost).run { o with wordFile := none } returnedText passes turns := by
  have hf : wordHost.HoldsText "/w".toList defaultEncoding returnedText :=
    ⟨by decide, _, .utf8, rfl, by decide, .utf8 returnedText⟩
  obtain ⟨-, -, -, -, -, hfile⟩ := Text.words_linewise returnedText
  obtain ⟨hwords, -, hrun⟩ := hfile wordHost "/w".toList defaultEncoding hf
  refine ⟨hf, by decide, by decide, hwords, fun o passes turns => ?_⟩
  exact hrun rfl (Session.start wordHost) o [] returnedText passes turns rfl (.inl rfl)

end Lancaster

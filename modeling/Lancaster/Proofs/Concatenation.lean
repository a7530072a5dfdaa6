import Lancaster.Proofs.FaultPlaces
import Lancaster.Proofs.Labels

/-!
Texts behind texts. A compiler that has read whole lines goes on as a new one would, but for the
lines, the entries and the rules that it has counted and collected. So a text behind whole lines
gives what it gives by itself, with its entries and lines counted on, and as much of it stays
unread.
-/
namespace Lancaster

/-- The text is empty or its last line has its line feed. -/
def EndsLine (s : Text) : Prop := s = [] ∨ s.getLast? = some '\n'

def raisedLabel (n : Nat) (label : Text) : Text :=
  '(' :: decimalText (Text.decimalValue ((label.drop 1).takeWhile Char.isDigit) + n)
    ++ (label.drop 1).dropWhile Char.isDigit

def Rule.raised (n : Nat) (r : Rule) : Rule :=
  { r with ordinal := r.ordinal + n, label := raisedLabel n r.label }

/-- The rules of one table and then those of another, counted on, in the whole and in each
bucket. -/
structure RuleTable.Continues (t first second : RuleTable) : Prop where
  rules : t.toList = first.toList ++ second.toList.map (Rule.raised first.size)
  buckets : ∀ c, t.bucket c = first.bucket c ++ (second.bucket c).map (Rule.raised first.size)

/-- The fault behind so many entries and lines. Columns are counted anew in each line. -/
def GrammarFault.behind (f : GrammarFault) (entries lines : Nat) : GrammarFault :=
  { f with entry := f.entry + entries, line := f.line + lines }

def CompileFault.behind : CompileFault → Nat → Nat → CompileFault
  | .grammar f, entries, lines => .grammar (f.behind entries lines)
  | .tooManyDigits count, _, _ => .tooManyDigits count

def Place.behind (p : Place) (lines : Nat) : Place := ⟨p.line + lines, p.column⟩

/-- What the compiler would be had it read these rules, in so many lines, before all else. -/
def Compiler.behind (k : Compiler) (first : List Rule) (lines : Nat) : Compiler :=
  ⟨k.place.behind lines, k.entries + first.length,
    k.rules.map (Rule.raised first.length) ++ first.reverse, k.phase⟩

def Outcome.behind (o : Outcome) (first : List Rule) (lines : Nat) : Outcome :=
  match o with
  | .ok c => .ok ⟨first ++ c.rules.map (Rule.raised first.length), c.closed⟩
  | .error f => .error (f.behind first.length lines)

def Progress.behind (q : Progress) (first : List Rule) (lines : Nat) : Progress :=
  match q with
  | .reading k => .reading (k.behind first lines)
  | .stopped o => .stopped (o.behind first lines)

variable {s t : Text} {r : Compiled}

theorem raisedLabel_entryLabel (n number : Nat) (e : Text) :
    raisedLabel n (entryLabel number e) = entryLabel (number + n) e := by
  have hlabel : (entryLabel number e).drop 1 = decimalText number ++ (':' :: e ++ [')']) := by
    simp [entryLabel]
  have hdigits : ∀ x ∈ decimalText number, x.isDigit = true :=
    fun x hx => isDigit_of_mem_decimalText hx
  have hcolon : ∀ x, (':' :: e ++ [')']).head? = some x → x.isDigit = false := by
    intro x hx
    obtain rfl := Option.some.inj hx
    rfl
  rw [raisedLabel, hlabel, takeWhile_run hdigits hcolon, dropWhile_run hdigits hcolon,
    decimalValue_decimalText]
  simp [entryLabel]

theorem Entry.raised_rule (e : Entry) (n number : Nat) :
    (e.rule number).raised n = e.rule (number + n) := by
  simp [Entry.rule, Rule.raised, raisedLabel_entryLabel]

theorem Place.behind_after (p : Place) (lines : Nat) (c : Char) :
    (p.behind lines).after c = (p.after c).behind lines := by
  by_cases hc : c = '\n'
  · simp [Place.after, Place.behind, hc]
    omega
  · simp [Place.after, Place.behind, hc]

theorem Compiler.behind_goOn (k : Compiler) (first : List Rule) (lines : Nat) (c : Char)
    (φ : Phase) : (k.behind first lines).goOn c φ = (k.goOn c φ).behind first lines := by
  simp [Compiler.goOn, Progress.behind, Compiler.behind, Place.behind_after]

theorem Compiler.behind_refuse (k : Compiler) (first : List Rule) (lines : Nat)
    (reason : GrammarReason) (c : Char) :
    (k.behind first lines).refuse reason c = (k.refuse reason c).behind first lines := by
  simp [Compiler.refuse, Progress.behind, Outcome.behind, CompileFault.behind,
    GrammarFault.behind, Compiler.behind, Place.behind]

theorem Compiler.behind_terminate (k : Compiler) (first : List Rule) (lines : Nat) (c : Char)
    (e : Entry) : (k.behind first lines).terminate c e = (k.terminate c e).behind first lines := by
  rw [Compiler.terminate, Compiler.terminate]
  by_cases hend : e.text = endText
  · rw [if_pos hend, if_pos hend]
    simp [Progress.behind, Outcome.behind, Compiler.behind, List.map_reverse]
  · rw [if_neg hend, if_neg hend]
    by_cases hd : maxDigits < e.digits.length
    · rw [if_pos hd, if_pos hd]
      rfl
    · rw [if_neg hd, if_neg hd]
      simp [Progress.behind, Compiler.behind, Place.behind_after, Entry.raised_rule]

theorem Compiler.behind_finishEntry (k : Compiler) (first : List Rule) (lines : Nat) (d : Draft)
    (c : Char) :
    (k.behind first lines).finishEntry d c = (k.finishEntry d c).behind first lines := by
  rw [Compiler.finishEntry, Compiler.finishEntry, Compiler.behind_terminate,
    Compiler.behind_terminate, Compiler.behind_refuse]
  split_ifs <;> rfl

/-- Nothing that a compiler does with a character depends on what it has counted. -/
theorem Compiler.behind_feed (k : Compiler) (first : List Rule) (lines : Nat) (c : Char) :
    (k.behind first lines).feed c = (k.feed c).behind first lines := by
  have hphase : (k.behind first lines).phase = k.phase := rfl
  rw [Compiler.feed, Compiler.feed, hphase]
  cases k.phase with
  | between =>
    -- An entry may begin here, and it is counted at once.
    have hcount : Compiler.mk (k.behind first lines).place ((k.behind first lines).entries + 1)
        (k.behind first lines).rules .between =
          Compiler.behind ⟨k.place, k.entries + 1, k.rules, .between⟩ first lines := by
      simp only [Compiler.behind, Nat.add_right_comm]
    simp only [hcount, Compiler.behind_goOn, Compiler.behind_refuse]
    split_ifs <;> rfl
  | suffix d | digits d | append d =>
    simp only [Compiler.behind_goOn, Compiler.behind_finishEntry]
    split_ifs <;> rfl
  | comment => exact Compiler.behind_goOn k first lines c _

theorem Compiler.behind_read (k : Compiler) (first : List Rule) (lines : Nat) (t : Text) :
    (k.behind first lines).read t = ((k.read t).1.behind first lines, (k.read t).2) := by
  induction t generalizing k with
  | nil => rfl
  | cons c t ih =>
    rw [Compiler.read, Compiler.read, Compiler.behind_feed]
    cases k.feed c with
    | reading k' => exact ih k'
    | stopped o => rfl

theorem Progress.behind_outcome (q : Progress) (first : List Rule) (lines : Nat) :
    (q.behind first lines).outcome = q.outcome.behind first lines := by
  cases q with
  | stopped o => rfl
  | reading k =>
    obtain ⟨p, n, rules, φ⟩ := k
    cases φ with
    | between | comment =>
      simp [Progress.behind, Progress.outcome, Compiler.behind, Compiler.finish, Outcome.behind,
        List.map_reverse]
    | suffix | digits | append => rfl

theorem EndsLine.lastLine_eq (h : EndsLine s) : s.lastLine = [] := by
  rcases h with rfl | hlast
  · rfl
  · obtain ⟨q, rfl⟩ := List.getLast?_eq_some_iff.mp hlast
    rw [Text.lastLine_append_singleton, if_pos rfl]

theorem EntryLine.not_endsLine (l : EntryLine) (s : Text) : ¬ EndsLine (s ++ l.text) := by
  have hne : l.entry ++ l.comment ≠ [] := by
    obtain ⟨body, c, hbody, -⟩ := l.isEntry.exists_body
    simp [hbody]
  have htext : s ++ l.text = s ++ l.blanks ++ (l.entry ++ l.comment) := by
    simp [EntryLine.text]
  rw [htext]
  rintro (hnil | hlast)
  · exact hne (List.append_eq_nil_iff.mp hnil).2
  · rw [List.getLast?_append_of_ne_nil _ hne] at hlast
    rcases List.mem_append.mp (List.mem_of_getLast? hlast) with hentry | hcomment
    · exact l.isEntry.newline_not_mem hentry
    · exact l.comment_inLine hcomment

theorem exists_lines_of_endsLine (h : compileText s = .ok r) (hopen : r.closed = false)
    (hs : EndsLine s) :
    ∃ lines w, (∀ c ∈ w, isBlank c = true) ∧ s = linesText lines ++ w := by
  rcases compileStream_cases s with ⟨⟨p, n, rules, φ⟩, ⟨-, lines, t, rfl, ho, -⟩, hread⟩ |
    ⟨s₁, c, k, o, rest, rfl, -, hstop, hread⟩
  · rw [compileText, hread] at h
    cases ho with
    | between hw => exact ⟨lines, t, hw, rfl⟩
    | comment l => exact absurd hs (l.not_endsLine _)
    | suffix | digits | append => cases h
  · rw [compileText, hread] at h
    cases hstop with
    | closed =>
      cases h
      cases hopen
    | tooManyDigits | start | terminator => cases h

theorem length_digits_le_of_compileText {lines : List EntryLine} {w : Text}
    (hw : ∀ c ∈ w, isBlank c = true) (h : compileText (linesText lines ++ w) = .ok r) :
    ∀ l ∈ lines, (l.entry.filter Char.isDigit).length ≤ maxDigits := by
  let x : SourceLayout := ⟨lines, .blanks w hw⟩
  rcases x.fits_or_tooManyDigits with hfits | ⟨count, hcount⟩
  · intro l hl
    exact hfits l.entry (List.mem_append_left _ (List.mem_map_of_mem hl))
  · cases h.symm.trans hcount

theorem read_lines_blanks {lines : List EntryLine} {w : Text} (hw : ∀ c ∈ w, isBlank c = true)
    (h : compileText (linesText lines ++ w) = .ok r) :
    lines.length = r.rules.length ∧ ∀ u, Compiler.start.read (linesText lines ++ w ++ u) =
      Compiler.read ⟨Place.start.afterText (linesText lines ++ w), lines.length, r.rules.reverse,
        .between⟩ u := by
  obtain ⟨rs, hrs, hlines⟩ := read_lines (length_digits_le_of_compileText hw h) .start 0 []
  have hread : ∀ u, Compiler.start.read (linesText lines ++ w ++ u) =
      Compiler.read ⟨Place.start.afterText (linesText lines ++ w), lines.length, rs.reverse,
        .between⟩ u := by
    intro u
    rw [List.append_assoc, Compiler.start, hlines, read_blanks hw, ← Place.afterText_append,
      Nat.zero_add, List.append_nil]
  have hcount := hrs.length_eq
  rw [List.length_zipIdx, List.length_map] at hcount
  -- With no text behind them, the lines give their own rules.
  have hend := hread []
  rw [List.append_nil] at hend
  rw [compileText, compileStream, hend] at h
  obtain rfl := Except.ok.inj h
  simp only [List.reverse_reverse]
  exact ⟨hcount, hread⟩

/-- Reading goes on behind whole lines as if it began there, but for what it has counted. -/
theorem read_behind_lines (h : compileText s = .ok r) (hopen : r.closed = false) (hs : EndsLine s)
    (t : Text) :
    Compiler.start.read (s ++ t) = (Compiler.start.behind r.rules (s.count '\n')).read t := by
  obtain ⟨lines, w, hw, rfl⟩ := exists_lines_of_endsLine h hopen hs
  obtain ⟨hlength, hread⟩ := read_lines_blanks hw h
  have hplace : Place.start.afterText (linesText lines ++ w) =
      Place.start.behind ((linesText lines ++ w).count '\n') := by
    rw [Place.afterText_start, hs.lastLine_eq]
    rfl
  rw [hread, hplace, hlength]
  simp [Compiler.behind, Compiler.start]

theorem compileStream_behind_lines (h : compileText s = .ok r) (hopen : r.closed = false)
    (hs : EndsLine s) (t : Text) :
    compileStream (s ++ t) =
      ((compileStream t).1.behind r.rules (s.count '\n'), (compileStream t).2) := by
  rw [compileStream, read_behind_lines h hopen hs, Compiler.behind_read, Progress.behind_outcome]
  rfl

theorem RuleTable.bucket_append (first second : List Rule) (n : Nat) (c : Char) :
    (RuleTable.ofList (first ++ second.map (Rule.raised n))).bucket c =
      (RuleTable.ofList first).bucket c ++ ((RuleTable.ofList second).bucket c).map
        (Rule.raised n) := by
  rw [RuleTable.bucket_ofList_eq, RuleTable.bucket_ofList_eq, RuleTable.bucket_ofList_eq,
    List.filter_append, List.filter_map]
  rfl

theorem Compiled.continues {r₁ r₂ : Compiled} {s₂ : Text} {closed : Bool}
    (h₁ : compileText s = .ok r₁) (h₂ : compileText s₂ = .ok r₂)
    (h : compileText t = .ok ⟨r₁.rules ++ r₂.rules.map (Rule.raised r₁.rules.length), closed⟩) :
    (RuleTable.ofList (r₁.rules ++ r₂.rules.map (Rule.raised r₁.rules.length))).Continues
      r₁.table r₂.table := by
  have hsize : r₁.table.size = r₁.rules.length := RuleTable.size_ofList r₁.rules
  have hlist := Compiled.toList_table h
  constructor
  · rw [Compiled.toList_table h₁, Compiled.toList_table h₂, hsize]
    exact hlist
  · intro c
    rw [hsize]
    exact RuleTable.bucket_append r₁.rules r₂.rules r₁.rules.length c

/-- Behind whole lines that compile to their end, a text compiles to its own rules, counted on from
those of the lines, or it fails as it fails by itself, in an entry and a line that are counted on.
As much of it stays unread. -/
theorem compileText_behind_lines (h : compileText s = .ok r) (hopen : r.closed = false)
    (hs : EndsLine s) (t : Text) :
    (∀ r', compileText t = .ok r' → ∃ c, compileText (s ++ t) = .ok c ∧ c.closed = r'.closed ∧
      c.table.Continues r.table r'.table) ∧
    (∀ f, compileText t = .error (.grammar f) → compileText (s ++ t) = .error (.grammar
      { f with entry := f.entry + r.table.size, line := f.line + s.count '\n' })) ∧
    (∀ f, (∀ g, f ≠ .grammar g) → compileText t = .error f → compileText (s ++ t) = .error f) ∧
    (compileStream (s ++ t)).2 = (compileStream t).2 := by
  have hsize : r.table.size = r.rules.length := RuleTable.size_ofList r.rules
  have hstream := compileStream_behind_lines h hopen hs t
  have hboth : compileText (s ++ t) = (compileText t).behind r.rules (s.count '\n') := by
    rw [compileText, hstream]
    rfl
  refine ⟨?_, ?_, ?_, ?_⟩
  · intro r' ht
    rw [ht] at hboth
    exact ⟨_, hboth, rfl, Compiled.continues h ht hboth⟩
  · intro f ht
    rw [hboth, ht, hsize]
    rfl
  · intro f hf ht
    cases f with
    | grammar g => exact absurd rfl (hf g)
    | tooManyDigits count =>
      rw [hboth, ht]
      rfl
  · rw [hstream]

/-- A fault in the second entry behind two lines with entries and one without. -/
theorem compileText_behind_lines_two :
    ∃ r, compileText "ai*2. of\n\nsei3y>\n".toList = .ok r ∧ r.closed = false ∧
      EndsLine "ai*2. of\n\nsei3y>\n".toList ∧
      compileText " s1>\ngni;".toList = .error (.grammar ⟨.terminator, 2, 2, 4, some ';'⟩) ∧
      compileText ("ai*2. of\n\nsei3y>\n".toList ++ " s1>\ngni;".toList) =
        .error (.grammar ⟨.terminator, 4, 5, 4, some ';'⟩) ∧
      ∃ c, compileText ("ai*2. of\n\nsei3y>\n".toList ++ " s1>\nend0.gni;".toList) = .ok c ∧
        c.table.toList.map Rule.label =
          ["(1:ai*2.)".toList, "(2:sei3y>)".toList, "(3:s1>)".toList] ∧
        (compileStream ("ai*2. of\n\nsei3y>\n".toList ++ " s1>\nend0.gni;".toList)).2 =
          "gni;".toList := by
  obtain ⟨r, h, hopen, hsize, hlabels⟩ : ∃ r, compileText "ai*2. of\n\nsei3y>\n".toList = .ok r ∧
      r.closed = false ∧ r.rules.length = 2 ∧
      r.rules.map Rule.label = ["(1:ai*2.)".toList, "(2:sei3y>)".toList] :=
    ⟨_, rfl, rfl, rfl, by decide⟩
  obtain ⟨r', h', hlabels'⟩ : ∃ r', compileText " s1>\nend0.gni;".toList = .ok r' ∧
      (r'.rules.map (Rule.raised 2)).map Rule.label = ["(3:s1>)".toList] :=
    ⟨_, rfl, by decide⟩
  have hs : EndsLine "ai*2. of\n\nsei3y>\n".toList := .inr rfl
  have htable : r.table.size = 2 := (RuleTable.size_ofList r.rules).trans hsize
  have hfault : compileText " s1>\ngni;".toList =
      .error (.grammar ⟨.terminator, 2, 2, 4, some ';'⟩) := rfl
  have hbehind := (compileText_behind_lines h hopen hs " s1>\ngni;".toList).2.1 _ hfault
  obtain ⟨hok, -, -, hrest⟩ := compileText_behind_lines h hopen hs " s1>\nend0.gni;".toList
  obtain ⟨c, hc, -, hcontinues⟩ := hok r' h'
  rw [htable] at hbehind
  refine ⟨r, h, hopen, hs, hfault, hbehind, c, hc, ?_, hrest⟩
  rw [hcontinues.rules, htable, Compiled.toList_table h, Compiled.toList_table h', List.map_append,
    hlabels, hlabels']
  rfl

end Lancaster

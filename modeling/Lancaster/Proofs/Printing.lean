import Lancaster.Proofs.Recognition

/-!
Printing rules. A rule is printed as an entry with its count in full, and rules printed one to a
line, between any blanks and comments, come back from the compiler as they were, numbered anew.
-/
namespace Lancaster

/-- A line that prints a rule between blanks and a comment. -/
structure RuleLine where
  blanks : Text
  rule : Rule
  comment : Text
  blanks_isBlank : ∀ c ∈ blanks, isBlank c = true
  comment_inLine : '\n' ∉ comment
  count_fits : (decimalText rule.removeCount).length ≤ maxDigits
  entry_ne_end : rule.entry.text ≠ endText

def RuleLine.text (x : RuleLine) : Text := x.blanks ++ x.rule.entry.text ++ x.comment ++ ['\n']

def printedRules (xs : List RuleLine) : Text := xs.flatMap RuleLine.text

def Rule.numbered (r : Rule) (number : Nat) : Rule :=
  { r with
    label := '(' :: decimalText number ++ ':' :: r.entry.text ++ [')']
    ordinal := number }

variable {r r' : Rule} {n m : Nat} {e e' : Text} {rules rules' : List Rule} {entries : List Text}

theorem isDigit_of_mem_decimalText {c : Char} (h : c ∈ decimalText n) : c.isDigit = true :=
  Nat.isDigit_of_mem_toDigits (by decide) (by decide) h

theorem decimalText_ne_nil (n : Nat) : decimalText n ≠ [] := Nat.toDigits_ne_nil

theorem decimalValue_decimalText (n : Nat) : (decimalText n).decimalValue = n :=
  Nat.ofDigitChars_ten_toDigits

theorem decimalText_injective : Function.Injective decimalText :=
  Function.LeftInverse.injective decimalValue_decimalText

theorem Rule.Reads.unique (h : r.Reads n e) (h' : r'.Reads n e) : r = r' := by
  have hsuffix : r.suffix = r'.suffix := h.suffix.trans h'.suffix.symm
  have hintact : r.intactOnly = r'.intactOnly :=
    Bool.eq_iff_iff.mpr (h.intactOnly.trans h'.intactOnly.symm)
  have hcount : r.removeCount = r'.removeCount := h.removeCount.trans h'.removeCount.symm
  have happend : r.append = r'.append := h.append.trans h'.append.symm
  have hcontinues : r.continues = r'.continues :=
    Bool.eq_iff_iff.mpr (h.continues.trans h'.continues.symm)
  have hlabel : r.label = r'.label := h.label.trans h'.label.symm
  have hordinal : r.ordinal = r'.ordinal := h.ordinal.trans h'.ordinal.symm
  cases r
  cases r'
  simp_all

theorem RulesRead.unique (h : RulesRead n entries rules) (h' : RulesRead n entries rules') :
    rules = rules' := by
  have hunique : Relator.RightUnique fun (e : Text × Nat) (r : Rule) => r.Reads e.2 e.1 :=
    fun _ _ _ hr hr' => hr.unique hr'
  exact List.right_unique_forall₂' hunique h h'

theorem SourceLayout.compile_eq (x : SourceLayout)
    (hfits : ∀ t ∈ x.entries, (t.filter Char.isDigit).length ≤ maxDigits)
    (hread : RulesRead 1 x.entries rules) : compile x.text = .ok (.ofList rules) := by
  obtain ⟨c, hc, hread'⟩ := x.exists_compileText_eq hfits
  rw [compile_eq_ok hc, hread'.unique hread]

theorem Rule.spells_entry (r : Rule) : Spells r.entry.text r.entry := by
  apply Spells.intro
  · intro c hc
    exact isDigit_of_mem_decimalText hc
  · intro _
    exact .inr (decimalText_ne_nil r.removeCount)

theorem Rule.entry_rule (r : Rule) (n : Nat) : r.entry.rule n = r.numbered n := by
  have hcount : (decimalText r.removeCount).decimalValue = r.removeCount :=
    decimalValue_decimalText r.removeCount
  cases r
  simp only [Entry.rule, Rule.entry, Rule.numbered, entryLabel] at hcount ⊢
  rw [hcount]

theorem Rule.reads_numbered (r : Rule) (n : Nat) : (r.numbered n).Reads n r.entry.text := by
  rw [← r.entry_rule]
  exact r.spells_entry.reads n

def RuleLine.line (x : RuleLine) : EntryLine :=
  ⟨x.blanks, x.rule.entry.text, x.comment, x.blanks_isBlank, x.rule.spells_entry.isEntry,
    x.entry_ne_end, x.comment_inLine⟩

theorem linesText_map_line (xs : List RuleLine) :
    linesText (xs.map RuleLine.line) = printedRules xs := by
  rw [linesText, List.flatMap_map]
  rfl

def numberedRules (n : Nat) (xs : List RuleLine) : List Rule :=
  (xs.zipIdx n).map fun x => x.1.rule.numbered x.2

theorem rulesRead_numberedRules (n : Nat) (xs : List RuleLine) :
    RulesRead n (xs.map fun x => x.line.entry) (numberedRules n xs) := by
  induction xs generalizing n with
  | nil => exact .nil
  | cons x xs ih => exact .cons (x.rule.reads_numbered n) (ih (n + 1))

theorem compile_printedRules_append (xs : List RuleLine) (ending : SourceEnd)
    (hending : ending.entries = []) :
    compile (printedRules xs ++ ending.text) = .ok (.ofList (numberedRules 1 xs)) := by
  let x : SourceLayout := ⟨xs.map RuleLine.line, ending⟩
  have hentries : x.entries = xs.map fun y => y.line.entry := by
    simp [x, SourceLayout.entries, hending, Function.comp_def]
  have hfits : ∀ t ∈ x.entries, (t.filter Char.isDigit).length ≤ maxDigits := by
    intro t ht
    rw [hentries] at ht
    obtain ⟨y, -, rfl⟩ := List.mem_map.mp ht
    have hdigits : y.line.entry.filter Char.isDigit = decimalText y.rule.removeCount :=
      y.rule.spells_entry.filter_isDigit
    rw [hdigits]
    exact y.count_fits
  have hread : RulesRead 1 x.entries (numberedRules 1 xs) := by
    rw [hentries]
    exact rulesRead_numberedRules 1 xs
  have htext : x.text = printedRules xs ++ ending.text := by
    rw [SourceLayout.text, linesText_map_line]
  rw [← htext]
  exact x.compile_eq hfits hread

/-- Printed rules compile to themselves, numbered in order, and neither a closing entry nor what
stands behind it changes the table. -/
theorem compile_printedRules (xs : List RuleLine) (rest : Text) :
    ∃ t, compile (printedRules xs) = .ok t ∧ t.size = xs.length ∧
      t.toList = (xs.zipIdx 1).map (fun x => x.1.rule.numbered x.2) ∧
      compile (printedRules xs ++ endText ++ rest) = .ok t := by
  have hplain := compile_printedRules_append xs (.blanks [] (by simp)) rfl
  have hclosed := compile_printedRules_append xs (.closed [] rest (by simp)) rfl
  rw [SourceEnd.text, List.append_nil] at hplain
  rw [SourceEnd.text, List.nil_append, ← List.append_assoc] at hclosed
  have hlist : (RuleTable.ofList (numberedRules 1 xs)).toList = numberedRules 1 xs :=
    RuleTable.toList_ofList (rulesRead_numberedRules 1 xs).pairwise_ordinal
  refine ⟨_, hplain, ?_, hlist, hclosed⟩
  have hsize := (RuleTable.flatten_buckets_perm (numberedRules 1 xs)).length_eq
  rw [RuleTable.size, hsize]
  simp [numberedRules]

def intactRule : Rule :=
  ⟨"ai".toList, true, 2, "us".toList, false, [], 0, by decide, by decide, by decide⟩

def restartRule : Rule :=
  ⟨"ies".toList, false, 3, "ey".toList, true, [], 0, by decide, by decide, by decide⟩

/-- The comments look like entries, the first of them like the closing one. -/
def commentedRules : List RuleLine :=
  [⟨"\n \t".toList, intactRule, " end0.".toList, List.all_eq_true.mp rfl, by decide, by decide,
      by decide⟩,
    ⟨" ".toList, restartRule, "s1*>".toList, List.all_eq_true.mp rfl, by decide, by decide,
      by decide⟩]

theorem compile_printedRules_commented :
    ∃ t, compile "\n \tia*2us. end0.\n sei3ey>s1*>\n".toList = .ok t ∧ t.size = 2 ∧
      t.toList = [{ intactRule with label := "(1:ia*2us.)".toList, ordinal := 1 },
        { restartRule with label := "(2:sei3ey>)".toList, ordinal := 2 }] ∧
      compile "\n \tia*2us. end0.\n sei3ey>s1*>\nend0.p2.".toList = .ok t :=
  compile_printedRules commentedRules "p2.".toList

end Lancaster

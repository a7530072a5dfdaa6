import Lancaster.Proofs.SourceLayout
import Mathlib.Data.List.Forall2

/-!
Reading rule texts. A compiler that reads a laid-out text takes its blanks, entries and comments one
after the other and collects the rules of the entries, so every laid-out text compiles.
-/
namespace Lancaster

def Place.afterText (p : Place) (s : Text) : Place := s.foldl Place.after p

/-- The rules of entries that are numbered from `n` on. -/
def RulesRead (n : Nat) (entries : List Text) (rules : List Rule) : Prop :=
  List.Forall₂ (fun e r => Rule.Reads r e.2 e.1) (entries.zipIdx n) rules

/-- The runs of an unfinished entry: the letters latest first, the others as they are spelled. -/
structure Draft.Has (d : Draft) (suffix : Text) (star : Bool) (digits append : Text) : Prop where
  suffix : d.suffix = suffix
  star : d.intactOnly = star
  digits : d.digits = digits.reverse
  append : d.append = append.reverse

def signs (star : Bool) (digits append : Text) : Text :=
  (if star then ['*'] else []) ++ digits ++ append

inductive Phase.Drafts : Phase → Draft → Prop where
  | suffix (d : Draft) : (Phase.suffix d).Drafts d
  | digits (d : Draft) : (Phase.digits d).Drafts d
  | append (d : Draft) : (Phase.append d).Drafts d

variable {k k' : Compiler} {s t u w : Text} {n : Nat} {rules : List Rule} {d : Draft}
  {first digits append : Text} {star : Bool} {e : Entry} {φ : Phase}

theorem Draft.Has.entry_eq (h : d.Has e.suffix e.intactOnly e.digits e.append) :
    d.entry e.continues = e := by
  obtain ⟨hs, hi, hd, ha⟩ := h
  simp [Draft.entry, hs, hi, hd, ha]

/-- A run of characters of one class. `P u φ` says which phase a run `u` leads to. -/
theorem read_run (P : Text → Phase → Prop)
    (step : ∀ c ∈ s, ∀ u φ, P u φ → ∃ φ', P (u ++ [c]) φ' ∧ ∀ p n rules,
      Compiler.feed ⟨p, n, rules, φ⟩ c = .reading ⟨p.after c, n, rules, φ'⟩)
    (h : P u φ) :
    ∃ φ', P (u ++ s) φ' ∧ ∀ p n rules t,
      Compiler.read ⟨p, n, rules, φ⟩ (s ++ t) = Compiler.read ⟨p.afterText s, n, rules, φ'⟩ t := by
  induction s generalizing u φ with
  | nil => exact ⟨φ, by rwa [List.append_nil], fun p n rules t => rfl⟩
  | cons c s ih =>
    obtain ⟨φ₁, h₁, hf⟩ := step c List.mem_cons_self u φ h
    obtain ⟨φ₂, h₂, hr⟩ := ih (fun x hx => step x (List.mem_cons_of_mem c hx)) h₁
    refine ⟨φ₂, by rwa [List.append_assoc] at h₂, fun p n rules t => ?_⟩
    rw [List.cons_append, Compiler.read, hf]
    exact hr (p.after c) n rules t

theorem read_blanks (hw : ∀ c ∈ w, isBlank c = true) (p : Place) (n : Nat) (rules : List Rule)
    (t : Text) :
    Compiler.read ⟨p, n, rules, .between⟩ (w ++ t) =
      Compiler.read ⟨p.afterText w, n, rules, .between⟩ t := by
  obtain ⟨φ, rfl, hr⟩ := read_run (s := w) (u := [])
    (fun _ φ => φ = Phase.between) (by
      rintro c hc - φ rfl
      refine ⟨.between, rfl, fun p n rules => ?_⟩
      rw [Compiler.feed]
      simp only [hw c hc, if_true, Compiler.goOn]) rfl
  exact hr p n rules t

theorem read_comment (hs : '\n' ∉ s) (p : Place) (n : Nat) (rules : List Rule) (t : Text) :
    Compiler.read ⟨p, n, rules, .comment⟩ (s ++ t) =
      Compiler.read ⟨p.afterText s, n, rules, .comment⟩ t := by
  obtain ⟨φ, rfl, hr⟩ := read_run (s := s) (u := [])
    (fun _ φ => φ = Phase.comment) (by
      rintro c hc - φ rfl
      have hn : c ≠ '\n' := by
        rintro rfl
        exact hs hc
      refine ⟨.comment, rfl, fun p n rules => ?_⟩
      rw [Compiler.feed]
      simp only [hn, if_false, Compiler.goOn]) rfl
  exact hr p n rules t

theorem read_letters (h : d.Has first false [] []) (hs : s.IsLower) :
    ∃ d' : Draft, d'.Has (s.reverse ++ first) false [] [] ∧ ∀ p n rules t,
      Compiler.read ⟨p, n, rules, .suffix d⟩ (s ++ t) =
        Compiler.read ⟨p.afterText s, n, rules, .suffix d'⟩ t := by
  obtain ⟨φ, ⟨d', rfl, hd⟩, hr⟩ := read_run (s := s) (u := [])
    (fun u φ => ∃ d' : Draft, φ = .suffix d' ∧ d'.Has (u.reverse ++ first) false [] []) (by
      rintro c hc u φ ⟨d', rfl, h'⟩
      refine ⟨.suffix (d'.pushSuffix c (hs c hc)), ⟨_, rfl, ?_, h'.star, h'.digits, h'.append⟩,
        fun p n rules => ?_⟩
      · simp [Draft.pushSuffix, h'.suffix]
      · rw [Compiler.feed]
        simp only [hs c hc, dif_pos, Compiler.goOn]) ⟨d, rfl, h⟩
  exact ⟨d', hd, hr⟩

theorem read_digits (h : d.Has first star digits []) (hs : ∀ c ∈ s, c.isDigit = true) :
    ∃ d' : Draft, d'.Has first star (digits ++ s) [] ∧ ∀ p n rules t,
      Compiler.read ⟨p, n, rules, .digits d⟩ (s ++ t) =
        Compiler.read ⟨p.afterText s, n, rules, .digits d'⟩ t := by
  obtain ⟨φ, ⟨d', rfl, hd⟩, hr⟩ := read_run (s := s) (u := [])
    (fun u φ => ∃ d' : Draft, φ = .digits d' ∧ d'.Has first star (digits ++ u) []) (by
      rintro c hc u φ ⟨d', rfl, h'⟩
      refine ⟨.digits (d'.pushDigit c), ⟨_, rfl, h'.suffix, h'.star, ?_, h'.append⟩,
        fun p n rules => ?_⟩
      · simp [Draft.pushDigit, h'.digits]
      · rw [Compiler.feed]
        simp only [hs c hc, if_true, Compiler.goOn]) ⟨d, rfl, by rwa [List.append_nil]⟩
  exact ⟨d', hd, hr⟩

theorem read_appended (h : d.Has first star digits []) (hs : s.IsLower) :
    ∃ φ d', Phase.Drafts φ d' ∧ d'.Has first star digits s ∧ ∀ p n rules t,
      Compiler.read ⟨p, n, rules, .digits d⟩ (s ++ t) =
        Compiler.read ⟨p.afterText s, n, rules, φ⟩ t := by
  obtain ⟨φ, ⟨d', hd, h', -⟩, hr⟩ := read_run (s := s) (u := [])
    (fun u φ => ∃ d' : Draft, φ.Drafts d' ∧ d'.Has first star digits u ∧ ∀ d'', φ ≠ .suffix d'') (by
      rintro c hc u φ ⟨d', hd, h', hn⟩
      have hp : (d'.pushAppend c (hs c hc)).Has first star digits (u ++ [c]) :=
        ⟨h'.suffix, h'.star, h'.digits, by simp [Draft.pushAppend, h'.append]⟩
      refine ⟨.append (d'.pushAppend c (hs c hc)), ⟨_, .append _, hp, by simp⟩, fun p n rules => ?_⟩
      cases hd with
      | suffix => exact absurd rfl (hn d')
      | digits =>
        rw [Compiler.feed]
        simp only [hs c hc, isDigit_eq_false_of_isLower, dif_pos, Bool.false_eq_true, if_false,
          Compiler.goOn]
      | append =>
        rw [Compiler.feed]
        simp only [hs c hc, dif_pos, Compiler.goOn]) ⟨d, .digits d, h, by simp⟩
  exact ⟨φ, d', hd, h', hr⟩

theorem Compiler.read_cons {c : Char} (h : k.feed c = .reading k') (t : Text) :
    k.read (c :: t) = k'.read t := by
  rw [Compiler.read, h]

theorem Place.afterText_append (p : Place) (s t : Text) :
    p.afterText (s ++ t) = (p.afterText s).afterText t := List.foldl_append

theorem read_signs (h : d.Has first false [] []) (hd : ∀ c ∈ digits, c.isDigit = true)
    (ha : append.IsLower) (hs : append ≠ [] → star = true ∨ digits ≠ []) :
    ∃ φ d', Phase.Drafts φ d' ∧ d'.Has first star digits append ∧ ∀ p n rules t,
      Compiler.read ⟨p, n, rules, .suffix d⟩ (signs star digits append ++ t) =
        Compiler.read ⟨p.afterText (signs star digits append), n, rules, φ⟩ t := by
  cases star with
  | true =>
    have hstar : d.star.Has first true [] [] := ⟨h.suffix, rfl, h.digits, h.append⟩
    obtain ⟨d₁, h₁, hr₁⟩ := read_digits hstar hd
    obtain ⟨φ, d₂, hφ, h₂, hr₂⟩ := read_appended h₁ ha
    refine ⟨φ, d₂, hφ, h₂, fun p n rules t => ?_⟩
    have hf : Compiler.feed ⟨p, n, rules, .suffix d⟩ '*' =
        .reading ⟨p.after '*', n, rules, .digits d.star⟩ := rfl
    rw [signs, if_pos rfl, List.append_assoc, List.append_assoc, List.singleton_append,
      Compiler.read_cons hf, hr₁, hr₂, ← Place.afterText_append, List.append_assoc]
    rfl
  | false =>
    cases digits with
    | cons c digits =>
      have hc : c.isDigit = true := hd c List.mem_cons_self
      have hpush : (d.pushDigit c).Has first false [c] [] :=
        ⟨h.suffix, h.star, by simp [Draft.pushDigit, h.digits], h.append⟩
      obtain ⟨d₁, h₁, hr₁⟩ := read_digits hpush
        fun x hx => hd x (List.mem_cons_of_mem c hx)
      obtain ⟨φ, d₂, hφ, h₂, hr₂⟩ := read_appended h₁ ha
      refine ⟨φ, d₂, hφ, h₂, fun p n rules t => ?_⟩
      have hf : Compiler.feed ⟨p, n, rules, .suffix d⟩ c =
          .reading ⟨p.after c, n, rules, .digits (d.pushDigit c)⟩ := by
        have hstar : c ≠ '*' := by
          rintro rfl
          cases hc
        rw [Compiler.feed]
        simp only [isLower_eq_false_of_isDigit hc, hstar, hc, Bool.false_eq_true, dif_neg,
          not_false_eq_true, if_false, if_true, Compiler.goOn]
      rw [signs, if_neg Bool.false_ne_true, List.nil_append, List.append_assoc, List.cons_append,
        Compiler.read_cons hf, hr₁, hr₂, ← Place.afterText_append]
      rfl
    | nil =>
      obtain rfl : append = [] := by
        by_contra hne
        simpa using hs hne
      exact ⟨.suffix d, d, .suffix d, h, fun p n rules t => rfl⟩

theorem feed_terminator (h : φ.Drafts d) (continues : Bool) (p : Place) :
    Compiler.feed ⟨p, n, rules, φ⟩ (if continues then '>' else '.') =
      Compiler.terminate ⟨p, n, rules, φ⟩ (if continues then '>' else '.') (d.entry continues) := by
  cases h <;> cases continues <;> rfl

/-- Reading an entry closes the text, exceeds the digits that a number may have, or adds a rule. -/
theorem read_entry (h : Spells s e) (p : Place) (t : Text) :
    Compiler.read ⟨p, n, rules, .between⟩ (s ++ t) =
      if s = endText then (.stopped (.ok ⟨rules.reverse, true⟩), t)
      else if maxDigits < e.digits.length then
        (.stopped (.error (.tooManyDigits e.digits.length)), t)
      else Compiler.read ⟨p.afterText s, n + 1, e.rule (n + 1) :: rules, .comment⟩ t := by
  obtain ⟨e, hd, hs⟩ := h
  obtain ⟨c, cs, hcs⟩ := List.exists_cons_of_ne_nil (List.reverse_ne_nil_iff.mpr e.suffix_ne_nil)
  have hlow := e.suffix_lower.reverse
  rw [hcs] at hlow
  have hc : c.isLower = true := hlow c List.mem_cons_self
  have hsuffix : cs.reverse ++ [c] = e.suffix := by
    rw [← List.reverse_cons, ← hcs, List.reverse_reverse]
  have hf : ∀ p : Place, Compiler.feed ⟨p, n, rules, .between⟩ c =
      .reading ⟨p.after c, n + 1, rules, .suffix (.first c hc)⟩ := by
    intro p
    rw [Compiler.feed]
    simp only [isBlank_eq_false_of_isLower hc, hc, Bool.false_eq_true, if_false, dif_pos,
      Compiler.goOn]
  have hfirst : (Draft.first c hc).Has [c] false [] [] := ⟨rfl, rfl, rfl, rfl⟩
  obtain ⟨d₁, h₁, hr₁⟩ := read_letters hfirst
    fun x hx => hlow x (List.mem_cons_of_mem c hx)
  rw [hsuffix] at h₁
  obtain ⟨φ, d₂, hφ, h₂, hr₂⟩ := read_signs h₁ hd e.append_lower hs
  have htext : e.text = c :: (cs ++
      (signs e.intactOnly e.digits e.append ++ [if e.continues then '>' else '.'])) := by
    simp [Entry.text, signs, hcs]
  have hplace : p.afterText e.text = (((p.after c).afterText cs).afterText
      (signs e.intactOnly e.digits e.append)).after (if e.continues then '>' else '.') := by
    rw [htext, ← List.singleton_append, Place.afterText_append, Place.afterText_append,
      Place.afterText_append]
    rfl
  rw [hplace]
  conv_lhs => rw [htext, List.cons_append, List.append_assoc, List.append_assoc,
    List.singleton_append, Compiler.read_cons (hf p), hr₁, hr₂, Compiler.read,
    feed_terminator hφ, h₂.entry_eq, Compiler.terminate]
  split_ifs <;> rfl

theorem read_line {l : EntryLine} (h : Spells l.entry e) (hd : e.digits.length ≤ maxDigits)
    (p : Place) (t : Text) :
    Compiler.read ⟨p, n, rules, .between⟩ (l.text ++ t) =
      Compiler.read ⟨p.afterText l.text, n + 1, e.rule (n + 1) :: rules, .comment⟩ t := by
  rw [EntryLine.text, List.append_assoc, List.append_assoc, read_blanks l.blanks_isBlank,
    read_entry h, if_neg l.entry_ne_end, if_neg (by omega), read_comment l.comment_inLine,
    Place.afterText_append, Place.afterText_append]

theorem Spells.filter_isDigit (h : Spells s e) : s.filter Char.isDigit = e.digits := by
  obtain ⟨e, hd, -⟩ := h
  exact filter_isDigit_text hd

theorem IsEntry.exists_spells_of_fits (h : IsEntry s)
    (hd : (s.filter Char.isDigit).length ≤ maxDigits) :
    ∃ e, Spells s e ∧ e.digits.length ≤ maxDigits := by
  obtain ⟨e, he⟩ := h.exists_spells
  rw [he.filter_isDigit] at hd
  exact ⟨e, he, hd⟩

theorem read_lines {lines : List EntryLine}
    (hd : ∀ l ∈ lines, (l.entry.filter Char.isDigit).length ≤ maxDigits) (p : Place) (n : Nat)
    (rules : List Rule) :
    ∃ rs, RulesRead (n + 1) (lines.map EntryLine.entry) rs ∧ ∀ t,
      Compiler.read ⟨p, n, rules, .between⟩ (linesText lines ++ t) =
        Compiler.read ⟨p.afterText (linesText lines), n + lines.length, rs.reverse ++ rules,
          .between⟩ t := by
  induction lines generalizing p n rules with
  | nil => exact ⟨[], .nil, fun t => rfl⟩
  | cons l ls ih =>
    obtain ⟨e, he, hf⟩ := l.isEntry.exists_spells_of_fits (hd l List.mem_cons_self)
    obtain ⟨rs, hrs, hr⟩ := ih (fun x hx => hd x (List.mem_cons_of_mem l hx))
      ((p.afterText l.text).after '\n') (n + 1) (e.rule (n + 1) :: rules)
    refine ⟨e.rule (n + 1) :: rs, .cons (he.reads (n + 1)) hrs, fun t => ?_⟩
    have hnewline : Compiler.feed ⟨p.afterText l.text, n + 1, e.rule (n + 1) :: rules, .comment⟩
        '\n' = .reading ⟨(p.afterText l.text).after '\n', n + 1, e.rule (n + 1) :: rules,
          .between⟩ := rfl
    have hplace : p.afterText (linesText (l :: ls)) =
        ((p.afterText l.text).after '\n').afterText (linesText ls) := by
      rw [linesText, List.flatMap_cons, Place.afterText_append, Place.afterText_append]
      rfl
    rw [hplace, List.reverse_cons, List.append_assoc, List.singleton_append, List.length_cons,
      Nat.add_comm ls.length, ← Nat.add_assoc, ← hr, linesText, List.flatMap_cons,
      List.append_assoc, List.append_assoc, read_line he hf, List.singleton_append,
      Compiler.read_cons hnewline,
      linesText]

theorem read_ending (x : SourceEnd)
    (hd : ∀ t ∈ x.entries, (t.filter Char.isDigit).length ≤ maxDigits) (p : Place) (n : Nat)
    (rules : List Rule) :
    ∃ rs closed, RulesRead (n + 1) x.entries rs ∧
      (Compiler.read ⟨p, n, rules, .between⟩ x.text).1.outcome =
        .ok ⟨rules.reverse ++ rs, closed⟩ := by
  cases x with
  | blanks w hw =>
    refine ⟨[], false, .nil, ?_⟩
    rw [SourceEnd.text, ← List.append_nil w, read_blanks hw, List.append_nil]
    rfl
  | line l =>
    obtain ⟨e, he, hf⟩ := l.isEntry.exists_spells_of_fits (hd l.entry List.mem_cons_self)
    refine ⟨[e.rule (n + 1)], false, .cons (he.reads (n + 1)) .nil, ?_⟩
    rw [SourceEnd.text, ← List.append_nil l.text, read_line he hf, ← List.reverse_cons]
    rfl
  | closed w rest hw =>
    obtain ⟨e, he⟩ := isEntry_endText.exists_spells
    refine ⟨[], true, .nil, ?_⟩
    rw [SourceEnd.text, List.append_assoc, read_blanks hw, read_entry he, if_pos rfl,
      List.append_nil]
    rfl

theorem rulesRead_append {xs ys : List Text} {rs qs : List Rule} (h : RulesRead n xs rs)
    (h' : RulesRead (n + xs.length) ys qs) : RulesRead n (xs ++ ys) (rs ++ qs) := by
  unfold RulesRead
  rw [List.zipIdx_append]
  exact List.rel_append h h'

theorem SourceLayout.exists_compileText_eq (x : SourceLayout)
    (hd : ∀ t ∈ x.entries, (t.filter Char.isDigit).length ≤ maxDigits) :
    ∃ c, compileText x.text = .ok c ∧ RulesRead 1 x.entries c.rules := by
  obtain ⟨lines, ending⟩ := x
  obtain ⟨rs, hrs, hr⟩ := read_lines (fun l hl =>
    hd l.entry (List.mem_append_left _ (List.mem_map_of_mem hl))) .start 0 []
  obtain ⟨qs, closed, hqs, ho⟩ := read_ending ending
    (fun t ht => hd t (List.mem_append_right _ ht)) (Place.start.afterText (linesText lines))
    (0 + lines.length) rs.reverse
  refine ⟨⟨rs ++ qs, closed⟩, ?_, rulesRead_append hrs ?_⟩
  · have hread := hr ending.text
    rw [List.append_nil] at hread
    rw [List.reverse_reverse, ← hread] at ho
    exact ho
  · rw [Nat.zero_add] at hqs
    rwa [List.length_map, Nat.add_comm]

theorem read_overlong_line {l : EntryLine} (h : Spells l.entry e)
    (hd : maxDigits < e.digits.length) (p : Place) (t : Text) :
    Compiler.read ⟨p, n, rules, .between⟩ (l.text ++ t) =
      (.stopped (.error (.tooManyDigits e.digits.length)), l.comment ++ t) := by
  rw [EntryLine.text, List.append_assoc, List.append_assoc, read_blanks l.blanks_isBlank,
    read_entry h, if_neg l.entry_ne_end, if_pos hd]

theorem EntryLine.exists_spells_overlong {l : EntryLine}
    (hd : maxDigits < (l.entry.filter Char.isDigit).length) :
    ∃ e, Spells l.entry e ∧ maxDigits < e.digits.length := by
  obtain ⟨e, he⟩ := l.isEntry.exists_spells
  have hdigits := he.filter_isDigit
  rw [hdigits] at hd
  exact ⟨e, he, hd⟩

theorem compileText_of_stopped {o : Outcome} {rest : Text}
    (h : Compiler.start.read s = (.stopped o, rest)) : compileText s = o := by
  rw [compileText, compileStream, h]
  rfl

theorem read_overlong_lines {lines : List EntryLine}
    (h : ∃ l ∈ lines, maxDigits < (l.entry.filter Char.isDigit).length) (p : Place) (n : Nat)
    (rules : List Rule) (t : Text) :
    ∃ count rest, Compiler.read ⟨p, n, rules, .between⟩ (linesText lines ++ t) =
      (.stopped (.error (.tooManyDigits count)), rest) := by
  induction lines generalizing p n rules with
  | nil =>
    obtain ⟨l, hl, -⟩ := h
    cases hl
  | cons l ls ih =>
    have htext : linesText (l :: ls) ++ t = l.text ++ ('\n' :: (linesText ls ++ t)) := by
      simp [linesText]
    by_cases hfits : (l.entry.filter Char.isDigit).length ≤ maxDigits
    · -- This line is read to its end, and the long number is in one of the others.
      have hlater : ∃ l' ∈ ls, maxDigits < (l'.entry.filter Char.isDigit).length := by
        obtain ⟨l', hl', hd⟩ := h
        rcases List.mem_cons.mp hl' with rfl | hmem
        · omega
        · exact ⟨l', hmem, hd⟩
      have hone : ∀ l' ∈ [l], (l'.entry.filter Char.isDigit).length ≤ maxDigits := by
        intro l' hl'
        rwa [List.mem_singleton.mp hl']
      obtain ⟨rs, -, hread⟩ := read_lines hone p n rules
      obtain ⟨count, rest, hstop⟩ := ih hlater (p.afterText (linesText [l])) (n + [l].length)
        (rs.reverse ++ rules)
      refine ⟨count, rest, ?_⟩
      rw [← hstop, ← hread, htext]
      simp [linesText]
    · obtain ⟨e, he, hd⟩ := l.exists_spells_overlong (by omega)
      refine ⟨e.digits.length, l.comment ++ '\n' :: (linesText ls ++ t), ?_⟩
      rw [htext, read_overlong_line he hd]

theorem SourceLayout.fits_or_tooManyDigits (x : SourceLayout) :
    (∀ t ∈ x.entries, (t.filter Char.isDigit).length ≤ maxDigits) ∨
      ∃ count, compileText x.text = .error (.tooManyDigits count) := by
  obtain ⟨lines, ending⟩ := x
  by_cases hlines : ∃ l ∈ lines, maxDigits < (l.entry.filter Char.isDigit).length
  · right
    obtain ⟨count, rest, hstop⟩ := read_overlong_lines hlines .start 0 [] ending.text
    exact ⟨count, compileText_of_stopped hstop⟩
  have hfit : ∀ l ∈ lines, (l.entry.filter Char.isDigit).length ≤ maxDigits := by
    intro l hl
    by_contra hlong
    exact hlines ⟨l, hl, by omega⟩
  by_cases hending : ∀ t ∈ ending.entries, (t.filter Char.isDigit).length ≤ maxDigits
  · left
    intro t ht
    rcases List.mem_append.mp ht with ht | ht
    · obtain ⟨l, hl, rfl⟩ := List.mem_map.mp ht
      exact hfit l hl
    · exact hending t ht
  · right
    cases ending with
    | blanks | closed => exact absurd (fun t ht => by cases ht) hending
    | line l =>
      have hlong : maxDigits < (l.entry.filter Char.isDigit).length := by
        by_contra hshort
        apply hending
        intro t ht
        rw [List.mem_singleton.mp ht]
        omega
      obtain ⟨e, he, hd⟩ := l.exists_spells_overlong hlong
      obtain ⟨rs, -, hread⟩ := read_lines hfit .start 0 []
      refine ⟨e.digits.length, ?_⟩
      rw [SourceLayout.text, SourceEnd.text, ← List.append_nil l.text]
      exact compileText_of_stopped ((hread _).trans (read_overlong_line he hd _ _))

end Lancaster

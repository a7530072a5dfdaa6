import Lancaster.Proofs.Recognition
import Mathlib.Data.List.DropRight

/-!
Places of faults. What was read before a fault can still be completed to a rule text, and together
with the character at fault it no longer can. Lines, columns and entries are counted in what was
read before.
-/
namespace Lancaster

/-- The beginning of a rule text, up to a place between two entries or inside one. An entry that has
begun lacks its terminator, so a full stop would complete it. -/
structure SourceStart where
  lines : List EntryLine
  blanks : Text
  begun : Text
  blanks_isBlank : ∀ c ∈ blanks, isBlank c = true
  begun_isBegun : begun = [] ∨ IsEntry (begun ++ ['.'])

def SourceStart.text (x : SourceStart) : Text := linesText x.lines ++ x.blanks ++ x.begun

def EndsInsideEntry (s : Text) : Prop := ∃ x : SourceStart, x.text = s ∧ x.begun ≠ []

def Ungrammatical (s : Text) : Prop := ∃ f, compile s = .error (.grammar f)

/-- Some text that begins like this is not ungrammatical. -/
def Viable (p : Text) : Prop := ∃ u, ¬ Ungrammatical (p ++ u)

def Text.lastLine (t : Text) : Text := t.rtakeWhile (· != '\n')

/-- A fault in `s` that is found right behind `p`. At the end of `s` no character is found, and the
column is that of the last character. -/
structure GrammarFault.FoundBehind (f : GrammarFault) (s p : Text) : Prop where
  splits : ∃ t, s = p ++ f.found.toList ++ t
  viable : Viable p
  hopeless : ∀ c, f.found = some c → ∀ u, Ungrammatical (p ++ [c] ++ u)
  none_iff : f.found = none ↔ EndsInsideEntry s
  whole : f.found = none → p = s
  line : f.line = 1 + p.count '\n'
  column : ∀ c, f.found = some c → f.column = 1 + p.lastLine.length
  lastColumn : f.found = none →
    ∃ (q : Text) (c : Char), p = q ++ [c] ∧ f.column = 1 + q.lastLine.length
  begins : ∃ x : SourceStart, x.text = p
  entry : ∀ x : SourceStart, x.text = p → f.entry = 1 + x.lines.length

variable {s t p : Text} {c : Char} {k : Compiler} {f : GrammarFault} {d : Draft}

theorem Text.lastLine_append_singleton (t : Text) (c : Char) :
    Text.lastLine (t ++ [c]) = if c = '\n' then [] else t.lastLine ++ [c] := by
  unfold Text.lastLine
  rw [List.rtakeWhile_concat]
  by_cases hc : c = '\n'
  · rw [if_pos hc, if_neg (by simp [hc])]
  · rw [if_neg hc, if_pos (by simp [hc])]

theorem Place.afterText_start (s : Text) :
    Place.start.afterText s = ⟨1 + s.count '\n', s.lastLine.length⟩ := by
  induction s using List.reverseRecOn with
  | nil => rfl
  | append_singleton s c ih =>
    rw [Place.afterText_append, ih, Text.lastLine_append_singleton]
    by_cases hc : c = '\n'
    · subst hc
      simp [Place.afterText, Place.after, Nat.add_assoc]
    · simp [Place.afterText, Place.after, hc, List.count_eq_zero_of_not_mem, Ne.symm hc]

theorem IsEntry.newline_not_mem (h : IsEntry t) : '\n' ∉ t := by
  obtain ⟨letters, star, digits, append, terminator, -, hl, hs, hd, ha, ht, rfl⟩ := h
  intro hm
  simp only [List.mem_append] at hm
  rcases hm with (((hm | hm) | hm) | hm) | hm
  · exact absurd (hl _ hm) (by decide)
  · rcases hs with rfl | rfl <;> simp at hm
  · exact absurd (hd _ hm) (by decide)
  · exact absurd (ha _ hm) (by decide)
  · rcases ht with rfl | rfl <;> simp at hm

theorem IsEntry.of_begun (h : t = [] ∨ IsEntry (t ++ ['.'])) : IsEntry (t ++ ['a', '.']) := by
  -- Letters may follow wherever an entry is not yet terminated.
  rcases h with rfl | h
  · exact ⟨['a'], [], [], [], ['.'], by decide, by decide, .inl rfl, by simp, by decide, .inr rfl,
      rfl⟩
  · obtain ⟨letters, star, digits, append, terminator, hne, hl, hs, hd, ha, ht, heq⟩ := h
    have hlast : ∃ c, terminator = [c] := by
      rcases ht with rfl | rfl
      · exact ⟨'>', rfl⟩
      · exact ⟨'.', rfl⟩
    obtain ⟨c, rfl⟩ := hlast
    obtain ⟨rfl, -⟩ := List.append_inj' heq rfl
    refine ⟨letters, star, digits, append ++ ['a'], ['.'], hne, hl, hs, hd, ?_, .inr rfl, by simp⟩
    exact forall_mem_append_singleton ha rfl

theorem append_a_stop_ne_endText (t : Text) : t ++ ['a', '.'] ≠ endText := by
  intro h
  have ha : 'a' ∈ endText := by
    rw [← h]
    simp
  exact absurd ha (by decide)

def SourceStart.completed (x : SourceStart) : SourceLayout :=
  ⟨x.lines, .line ⟨x.blanks, x.begun ++ ['a', '.'], [], x.blanks_isBlank,
    .of_begun x.begun_isBegun, append_a_stop_ne_endText x.begun, by simp⟩⟩

theorem SourceStart.completed_text (x : SourceStart) : x.completed.text = x.text ++ ['a', '.'] := by
  simp [SourceStart.completed, SourceLayout.text, SourceEnd.text, EntryLine.text, SourceStart.text]

/-- A text is the beginning of a rule text in one way at most. -/
theorem SourceStart.lines_eq_of_text_eq {x y : SourceStart} (h : x.text = y.text) :
    x.lines = y.lines := by
  have htext : x.completed.text = y.completed.text := by
    rw [x.completed_text, y.completed_text, h]
  exact congrArg SourceLayout.lines (SourceLayout.text_injective htext)

theorem SourceLayout.not_ungrammatical (x : SourceLayout) : ¬ Ungrammatical x.text := by
  rintro ⟨f, hf⟩
  rcases x.fits_or_tooManyDigits with hfits | ⟨count, hcount⟩
  · obtain ⟨r, hr, -⟩ := x.exists_compileText_eq hfits
    rw [compile, hr] at hf
    cases hf
  · rw [compile, hcount] at hf
    cases hf

theorem SourceStart.viable (x : SourceStart) : Viable x.text := by
  refine ⟨['a', '.'], ?_⟩
  rw [← x.completed_text]
  exact x.completed.not_ungrammatical

theorem Phase.Drafts.begun_eq {φ : Phase} (h : φ.Drafts d) : φ.begun = 1 := by
  cases h <;> rfl

theorem Compiler.HasRead.exists_start_between (h : k.HasRead s) (hk : k.phase = .between) :
    ∃ x : SourceStart, x.text = s ∧ k.entries = x.lines.length := by
  obtain ⟨-, lines, w, rfl, ho, hn⟩ := h
  rw [hk] at ho hn
  cases ho with
  | between hw => exact ⟨⟨lines, w, [], hw, .inl rfl⟩, by simp [SourceStart.text], hn⟩

theorem Compiler.HasRead.exists_start_inside (h : k.HasRead s) (hk : k.phase.Drafts d) :
    ∃ x : SourceStart, x.text = s ∧ x.begun ≠ [] ∧ k.entries = x.lines.length + 1 := by
  obtain ⟨-, lines, t, rfl, ho, hn⟩ := h
  -- A full stop would complete the entry, so what it would complete is the entry without it.
  obtain ⟨w, hw, heq, he⟩ := ho.exists_entry hk false
  have hbegun : (d.entry false).text =
      ((d.entry false).suffix.reverse ++ signs (d.entry false).intactOnly (d.entry false).digits
        (d.entry false).append) ++ ['.'] := by
    simp [Entry.text, signs, Draft.entry]
  have hentry := he.isEntry
  rw [hbegun] at heq hentry
  rw [← List.append_assoc] at heq
  obtain ⟨ht, -⟩ := List.append_inj' heq rfl
  refine ⟨⟨lines, w, _, hw, .inr hentry⟩, ?_, ?_, ?_⟩
  · rw [SourceStart.text, ht, List.append_assoc]
  · simp [(d.entry false).suffix_ne_nil]
  · rw [hn, hk.begun_eq]

theorem SourceStart.last_ne_newline {x : SourceStart} {q : Text} (hx : x.begun ≠ [])
    (h : x.text = q ++ [c]) : c ≠ '\n' := by
  have hentry : IsEntry (x.begun ++ ['.']) := by
    rcases x.begun_isBegun with hnil | hentry
    · exact absurd hnil hx
    · exact hentry
  have hc : c ∈ x.begun := by
    have hlast : x.begun.getLast? = some c := by
      have htext := congrArg List.getLast? h
      rwa [SourceStart.text, List.getLast?_append_of_ne_nil _ hx, List.getLast?_concat] at htext
    exact List.mem_of_getLast? hlast
  rintro rfl
  exact hentry.newline_not_mem (List.mem_append_left _ hc)

theorem Compiler.exists_drafts_of_finish {e : CompileFault} (h : k.finish = .error e) :
    (∃ d, k.phase.Drafts d) ∧
      e = .grammar ⟨.terminator, k.entries, k.place.line, k.place.column, none⟩ := by
  obtain ⟨p, n, rules, φ⟩ := k
  cases φ with
  | between | comment => cases h
  | suffix d => exact ⟨⟨d, .suffix d⟩, (Except.error.inj h).symm⟩
  | digits d => exact ⟨⟨d, .digits d⟩, (Except.error.inj h).symm⟩
  | append d => exact ⟨⟨d, .append d⟩, (Except.error.inj h).symm⟩

theorem compile_eq_error_iff {e : CompileFault} :
    compile s = .error e ↔ compileText s = .error e := by
  rw [compile]
  cases compileText s <;> simp [Except.map]

theorem GrammarFault.foundBehind_all {x : SourceStart} (hx : x.begun ≠ []) (hk : k.HasRead x.text)
    (hentries : k.entries = x.lines.length + 1) :
    GrammarFault.FoundBehind ⟨.terminator, k.entries, k.place.line, k.place.column, none⟩
      x.text x.text := by
  have hplace : k.place = ⟨1 + x.text.count '\n', x.text.lastLine.length⟩ := by
    rw [hk.place, Place.afterText_start]
  have hlast : ∃ (q : Text) (c : Char), x.text = q ++ [c] ∧
      k.place.column = 1 + q.lastLine.length := by
    have hne : x.text ≠ [] := by simp [SourceStart.text, hx]
    obtain ⟨q, c, hq⟩ := (List.eq_nil_or_concat' x.text).resolve_left hne
    refine ⟨q, c, hq, ?_⟩
    rw [hplace, hq, Text.lastLine_append_singleton, if_neg (x.last_ne_newline hx hq)]
    simp [Nat.add_comm]
  exact {
    splits := ⟨[], by simp⟩
    viable := x.viable
    hopeless := by simp
    none_iff := ⟨fun _ => ⟨x, rfl, hx⟩, fun _ => rfl⟩
    whole := fun _ => rfl
    line := by rw [hplace]
    column := by simp
    lastColumn := fun _ => hlast
    begins := ⟨x, rfl⟩
    entry := fun y hy => by rw [hentries, SourceStart.lines_eq_of_text_eq hy, Nat.add_comm] }

theorem GrammarFault.foundBehind_of_stop {x : SourceStart} (hk : k.HasRead x.text)
    (hfound : f.found = some c) (hentry : f.entry = x.lines.length + 1)
    (hline : f.line = k.place.line) (hcolumn : f.column = k.place.column + 1)
    (hstop : ∀ u, Ungrammatical (x.text ++ c :: u)) (rest : Text) :
    f.FoundBehind (x.text ++ c :: rest) x.text := by
  have hplace : k.place = ⟨1 + x.text.count '\n', x.text.lastLine.length⟩ := by
    rw [hk.place, Place.afterText_start]
  have hinside : ¬ EndsInsideEntry (x.text ++ c :: rest) := by
    -- A text that ends inside an entry can be completed, and this one cannot.
    rintro ⟨y, hy, -⟩
    obtain ⟨u, hu⟩ := y.viable
    rw [hy, List.append_assoc, List.cons_append] at hu
    exact hu (hstop (rest ++ u))
  have hhopeless : ∀ c', f.found = some c' → ∀ u, Ungrammatical (x.text ++ [c'] ++ u) := by
    intro c' hc' u
    obtain rfl := Option.some.inj (hfound.symm.trans hc')
    rw [List.append_assoc, List.singleton_append]
    exact hstop u
  exact {
    splits := ⟨rest, by simp [hfound]⟩
    viable := x.viable
    hopeless := hhopeless
    none_iff := by simp [hfound, hinside]
    whole := by simp [hfound]
    line := by rw [hline, hplace]
    column := fun _ _ => by rw [hcolumn, hplace, Nat.add_comm]
    lastColumn := by simp [hfound]
    begins := ⟨x, rfl⟩
    entry := fun y hy => by rw [hentry, SourceStart.lines_eq_of_text_eq hy, Nat.add_comm] }

/-- Every ungrammatical text has its fault right behind the longest part that can be completed. -/
theorem compile_fault_foundBehind (h : compile s = .error (.grammar f)) :
    ∃ p, f.FoundBehind s p := by
  rw [compile_eq_error_iff] at h
  rcases compileStream_cases s with ⟨k, hk, hs⟩ | ⟨p, c, k, o, rest, rfl, hk, hstop, hs⟩
  · rw [compileText, hs] at h
    obtain ⟨⟨d, hd⟩, hf⟩ := Compiler.exists_drafts_of_finish h
    obtain ⟨x, rfl, hx, hentries⟩ := hk.exists_start_inside hd
    rw [CompileFault.grammar.inj hf]
    exact ⟨x.text, GrammarFault.foundBehind_all hx hk hentries⟩
  · have hall : ∀ u, compile (p ++ c :: u) = .error (.grammar f) := by
      intro u
      rw [compileText, hs] at h
      rw [compile_eq_error_iff, compileText, hs]
      exact h
    rw [compileText, hs] at h
    cases hstop with
    | closed | tooManyDigits => cases h
    | start hb hl =>
      obtain ⟨x, rfl, hn⟩ := hk.exists_start_between rfl
      cases h
      refine ⟨x.text,
        GrammarFault.foundBehind_of_stop hk rfl ?_ rfl rfl (fun u => ⟨_, hall u⟩) rest⟩
      exact congrArg (· + 1) hn
    | terminator hd hl =>
      obtain ⟨x, rfl, -, hn⟩ := hk.exists_start_inside hd
      cases h
      exact ⟨x.text, GrammarFault.foundBehind_of_stop hk rfl hn rfl rfl (fun u => ⟨_, hall u⟩) rest⟩

theorem compile_fault_foundBehind_comma :
    compile "sei3y. of\n\n  ai*2,".toList = .error (.grammar ⟨.terminator, 2, 3, 7, some ','⟩) ∧
      ∃ p, GrammarFault.FoundBehind ⟨.terminator, 2, 3, 7, some ','⟩
        "sei3y. of\n\n  ai*2,".toList p :=
  ⟨rfl, compile_fault_foundBehind rfl⟩

end Lancaster

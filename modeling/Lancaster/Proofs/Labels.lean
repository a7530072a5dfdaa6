import Lancaster.Proofs.Printing

/-!
Labels of compiled rules. A label quotes its entry as the text spells it, so the entries that the
labels of a table quote, one to a line, compile to the same table, and no two rules that differ
share a label.
-/
namespace Lancaster

def entryLines (entries : List Text) : Text := entries.flatMap fun e => e ++ ['\n']

/-- The labels of a table quote these entries, which stand in the text `s` as they are quoted. The
table can be built of them again, and a label is that of one rule only, in whatever table. -/
structure RuleTable.QuotesEntries (t : RuleTable) (entries : List Text) (s : Text) : Prop where
  labels : t.toList.map Rule.label =
    (entries.zipIdx 1).map fun e => '(' :: decimalText e.2 ++ ':' :: e.1 ++ [')']
  verbatim : ∀ e ∈ entries, e <:+: s
  rebuilt : compile (entryLines entries) = .ok t
  nodup : (t.toList.map Rule.label).Nodup
  determined : ∀ s' t', compile s' = .ok t' → ∀ r ∈ t.toList, ∀ r' ∈ t'.toList,
    r.label = r'.label → r = r'

variable {s e e' : Text} {n m : Nat} {r r' : Rule} {t : RuleTable} {rules : List Rule}
  {entries : List Text}

/-- The colon ends the number, since it is no digit. -/
theorem label_injective
    (h : '(' :: decimalText n ++ ':' :: e ++ [')'] = '(' :: decimalText m ++ ':' :: e' ++ [')']) :
    n = m ∧ e = e' := by
  simp only [List.cons_append, List.append_assoc, List.cons.injEq, true_and] at h
  have hdigits : ∀ k, ∀ c ∈ decimalText k, c.isDigit = true :=
    fun _ _ hc => isDigit_of_mem_decimalText hc
  obtain ⟨hnumber, hrest⟩ := run_append_inj (hdigits n) (hdigits m) (by simp) (by simp) h
  have htext := List.append_cancel_right (List.cons.inj hrest).2
  exact ⟨decimalText_injective hnumber, htext⟩

theorem Rule.Reads.eq_of_label_eq (h : r.Reads n e) (h' : r'.Reads m e')
    (hlabel : r.label = r'.label) : r = r' := by
  rw [h.label, h'.label] at hlabel
  obtain ⟨rfl, rfl⟩ := label_injective hlabel
  exact h.unique h'

theorem RulesRead.exists_reads (h : RulesRead n entries rules) (hr : r ∈ rules) :
    ∃ m e, r.Reads m e := by
  obtain ⟨i, hi, rfl⟩ := List.mem_iff_getElem.mp hr
  have hlength : (entries.zipIdx n).length = rules.length := h.length_eq
  exact ⟨_, _, h.get (by rwa [hlength]) hi⟩

theorem exists_layout_of_compileText_ok {c : Compiled} (h : compileText s = .ok c) :
    ∃ x : SourceLayout, x.text = s ∧
      (∀ e ∈ x.entries, (e.filter Char.isDigit).length ≤ maxDigits) ∧
      RulesRead 1 x.entries c.rules := by
  obtain ⟨x, rfl⟩ := exists_layout_of_compileText h
  have hfits : ∀ e ∈ x.entries, (e.filter Char.isDigit).length ≤ maxDigits := by
    rcases x.fits_or_tooManyDigits with hfits | ⟨count, hcount⟩
    · exact hfits
    · rw [hcount] at h
      cases h
  obtain ⟨c', hc', hread⟩ := x.exists_compileText_eq hfits
  obtain rfl := Except.ok.inj (h.symm.trans hc')
  exact ⟨x, rfl, hfits, hread⟩

theorem Compiled.toList_table {c : Compiled} (h : compileText s = .ok c) :
    c.table.toList = c.rules := by
  obtain ⟨x, -, -, hread⟩ := exists_layout_of_compileText_ok h
  exact RuleTable.toList_ofList hread.pairwise_ordinal

theorem exists_layout_of_compile (h : compile s = .ok t) :
    ∃ x : SourceLayout, x.text = s ∧
      (∀ e ∈ x.entries, (e.filter Char.isDigit).length ≤ maxDigits) ∧
      RulesRead 1 x.entries t.toList ∧ t = .ofList t.toList := by
  rw [compile] at h
  cases hs : compileText s with
  | error f =>
    rw [hs] at h
    cases h
  | ok c =>
    rw [hs] at h
    obtain rfl := Except.ok.inj h
    obtain ⟨x, htext, hfits, hread⟩ := exists_layout_of_compileText_ok hs
    have hlist : c.table.toList = c.rules := Compiled.toList_table hs
    exact ⟨x, htext, hfits, by rwa [hlist], by rw [hlist]; rfl⟩

theorem RulesRead.eq_of_label_eq (h : RulesRead n entries rules) {es : List Text}
    {rs : List Rule} (h' : RulesRead m es rs) (hr : r ∈ rules) (hr' : r' ∈ rs)
    (hlabel : r.label = r'.label) : r = r' := by
  obtain ⟨_, _, hreads⟩ := h.exists_reads hr
  obtain ⟨_, _, hreads'⟩ := h'.exists_reads hr'
  exact hreads.eq_of_label_eq hreads' hlabel

theorem RulesRead.nodup_label (h : RulesRead n entries rules) : (rules.map Rule.label).Nodup := by
  have hnodup : rules.Nodup := h.pairwise_ordinal.imp fun hlt heq => by
    rw [heq] at hlt
    exact absurd hlt (lt_irrefl _)
  exact hnodup.map_on fun _ hr _ hr' => h.eq_of_label_eq h hr hr'

theorem exists_lines_of_entries (h : ∀ e ∈ entries, IsEntry e ∧ e ≠ endText) :
    ∃ lines : List EntryLine, lines.map EntryLine.entry = entries ∧
      linesText lines = entryLines entries := by
  induction entries with
  | nil => exact ⟨[], rfl, rfl⟩
  | cons e es ih =>
    obtain ⟨lines, hentries, htext⟩ := ih fun e' he' => h e' (List.mem_cons_of_mem e he')
    obtain ⟨he, hne⟩ := h e List.mem_cons_self
    let l : EntryLine := ⟨[], e, [], by simp, he, hne, by simp⟩
    refine ⟨l :: lines, by rw [List.map_cons, hentries], ?_⟩
    rw [linesText_cons, htext]
    simp [l, entryLines]

theorem compile_entryLines (h : ∀ e ∈ entries, IsEntry e ∧ e ≠ endText)
    (hfits : ∀ e ∈ entries, (e.filter Char.isDigit).length ≤ maxDigits)
    (hread : RulesRead 1 entries rules) : compile (entryLines entries) = .ok (.ofList rules) := by
  obtain ⟨lines, hentries, htext⟩ := exists_lines_of_entries h
  let x : SourceLayout := ⟨lines, .blanks [] (by simp)⟩
  have hx : x.entries = entries := by simp [x, SourceLayout.entries, SourceEnd.entries, hentries]
  have hxtext : x.text = entryLines entries := by
    simp [x, SourceLayout.text, SourceEnd.text, htext]
  rw [← hx] at hfits hread
  rw [← hxtext]
  exact x.compile_eq hfits hread

/-- The labels of a compiled table quote the entries of its text. -/
theorem compile_quotesEntries (h : compile s = .ok t) :
    ∃ x : SourceLayout, x.text = s ∧ t.QuotesEntries x.entries s := by
  obtain ⟨x, rfl, hfits, hread, ht⟩ := exists_layout_of_compile h
  have hentries : ∀ e ∈ x.entries, IsEntry e ∧ e ≠ endText :=
    fun e he => ⟨SourceLayout.isEntry_of_mem he, SourceLayout.ne_endText_of_mem he⟩
  have hagain : compile (entryLines x.entries) = .ok t := by
    rw [ht]
    exact compile_entryLines hentries hfits hread
  have hdetermined : ∀ s' t', compile s' = .ok t' → ∀ r ∈ t.toList, ∀ r' ∈ t'.toList,
      r.label = r'.label → r = r' := by
    intro s' t' h' r hr r' hr' hlabel
    obtain ⟨_, -, -, hread', -⟩ := exists_layout_of_compile h'
    exact hread.eq_of_label_eq hread' hr hr' hlabel
  exact ⟨x, rfl, hread.map_eq fun _ _ _ hr => hr.label, fun e he => SourceLayout.infix_of_mem he,
    hagain, hread.nodup_label, hdetermined⟩

theorem compile_quotesEntries_zeros :
    ∃ t, compile " ai*02y> if\n s. s1.\nend0. s1.".toList = .ok t ∧
      ∃ x : SourceLayout, x.text = " ai*02y> if\n s. s1.\nend0. s1.".toList ∧
        t.QuotesEntries x.entries " ai*02y> if\n s. s1.\nend0. s1.".toList :=
  ⟨_, rfl, compile_quotesEntries rfl⟩

end Lancaster

import Lancaster.Proofs.Labels
import Lancaster.Proofs.MemoAccounts
import Lancaster.Proofs.StemLetters

/-!
Trace lines. Neither the labels of compiled rules nor the stems of words of small letters hold a
space, so the spaces of a trace line part its steps, and the trace can be read back from its line.
Only the trace of an unacceptable word has an empty line.
-/
namespace Lancaster

def Win.pieces (v : Win) : List Text := ['=' :: v.rule.label ++ "=>".toList, v.stem]

/-- The steps behind the first, each read from an arrow around its label and a stem. -/
def stepsOfPieces : List Text → Trace
  | arrow :: stem :: pieces => ⟨some (arrow.drop 1).dropLast.dropLast, stem⟩ :: stepsOfPieces pieces
  | _ => []

def Trace.ofText (line : Text) : Trace :=
  match cutAt ' ' line with
  | [] => []
  | start :: pieces => if start = [] then [] else ⟨none, start⟩ :: stepsOfPieces pieces

structure Win.Unspaced (v : Win) : Prop where
  label : ' ' ∉ v.rule.label
  stem : ' ' ∉ v.stem

variable {consult : Word → List Rule} {l : Limits} {w u : Word} {t : RuleTable} {r : Rule}
  {run : Run} {s e : Text} {wins : List Win}

theorem Text.IsLower.space_not_mem (h : w.IsLower) : ' ' ∉ w :=
  fun hm => absurd (h ' ' hm) (by decide)

theorem IsEntry.space_not_mem (h : IsEntry e) : ' ' ∉ e := by
  obtain ⟨letters, star, digits, append, terminator, -, hl, hs, hd, ha, ht, rfl⟩ := h
  intro hm
  simp only [List.mem_append] at hm
  rcases hm with (((hm | hm) | hm) | hm) | hm
  · exact hl.space_not_mem hm
  · rcases hs with rfl | rfl <;> simp at hm
  · exact absurd (hd _ hm) (by decide)
  · exact ha.space_not_mem hm
  · rcases ht with rfl | rfl <;> simp at hm

theorem space_not_mem_label (h : compile s = .ok t) (hr : r ∈ t.toList) : ' ' ∉ r.label := by
  obtain ⟨x, -, -, hread, -⟩ := exists_layout_of_compile h
  have hlabels : t.toList.map Rule.label =
      (x.entries.zipIdx 1).map fun e => '(' :: decimalText e.2 ++ ':' :: e.1 ++ [')'] :=
    hread.map_eq fun _ _ _ hr => hr.label
  have hmem : r.label ∈ t.toList.map Rule.label := List.mem_map_of_mem hr
  rw [hlabels] at hmem
  obtain ⟨⟨e, n⟩, he, hlabel⟩ := List.mem_map.mp hmem
  have hentry : ' ' ∉ e :=
    (SourceLayout.isEntry_of_mem (List.fst_mem_of_mem_zipIdx he)).space_not_mem
  have hnumber : ' ' ∉ decimalText n := fun hc => absurd (isDigit_of_mem_decimalText hc) (by decide)
  rw [← hlabel]
  simp [hentry, hnumber]

theorem RunEnds.unspaced {m : Option Int} {intact : Bool} (h : RunEnds t.rulesFor m intact w wins)
    (ht : compile s = .ok t) (hw : w.IsLower) : ∀ v ∈ wins, v.Unspaced := by
  have hstems := h.stems_induction hw fun u r _ b x hu hf => hf.isLower hu
  intro v hv
  obtain ⟨b, u, hwin⟩ := h.exists_winsFirst hv
  have hrule : v.rule ∈ t.toList := RuleTable.mem_toList_of_mem_rulesFor hwin.mem
  exact ⟨space_not_mem_label ht hrule, (hstems v hv).space_not_mem⟩

theorem flatMap_pieces_cons (v : Win) (wins : List Win) :
    (v :: wins).flatMap Win.pieces =
      ('=' :: v.rule.label ++ "=>".toList) :: v.stem :: wins.flatMap Win.pieces := rfl

theorem traceLine_eq_joinWith (w : Word) (wins : List Win) :
    Trace.text (⟨none, w⟩ :: wins.map Win.step) =
      joinWith [' '] (w :: wins.flatMap Win.pieces) := by
  induction wins generalizing w with
  | nil => exact List.append_nil w
  | cons v wins ih =>
    have hrest : v.stem ++ (wins.map Win.step).flatMap TraceStep.text =
        joinWith [' '] (v.stem :: wins.flatMap Win.pieces) := ih v.stem
    rw [flatMap_pieces_cons, joinWith, joinWith, ← hrest]
    · simp [Trace.text, TraceStep.text, Win.step]
    · simp
    · simp

theorem stepsOfPieces_flatMap (wins : List Win) :
    stepsOfPieces (wins.flatMap Win.pieces) = wins.map Win.step := by
  induction wins with
  | nil => rfl
  | cons v wins ih =>
    have harrow : ('=' :: v.rule.label ++ "=>".toList).drop 1 =
        (v.rule.label ++ ['=']) ++ ['>'] := by
      simp
    rw [flatMap_pieces_cons, stepsOfPieces, ih, harrow, List.dropLast_concat, List.dropLast_concat]
    rfl

theorem Trace.ofText_text (hne : w ≠ []) (hw : ' ' ∉ w) (hwins : ∀ v ∈ wins, v.Unspaced) :
    Trace.ofText (Trace.text (⟨none, w⟩ :: wins.map Win.step)) =
      ⟨none, w⟩ :: wins.map Win.step := by
  have hpieces : ∀ p ∈ w :: wins.flatMap Win.pieces, ' ' ∉ p := by
    intro p hp
    rcases List.mem_cons.mp hp with rfl | hp
    · exact hw
    · obtain ⟨v, hv, hp⟩ := List.mem_flatMap.mp hp
      have hlabel := (hwins v hv).label
      rcases List.mem_pair.mp hp with rfl | rfl
      · simp [hlabel]
      · exact (hwins v hv).stem
  rw [traceLine_eq_joinWith, Trace.ofText, cutAt_joinWith (by simp) hpieces]
  simp [hne, stepsOfPieces_flatMap]

theorem ComesTo.unique {o o' : Except StemFault Run} (h : ComesTo consult l w o)
    (h' : ComesTo consult l w o') : o = o' := by
  obtain ⟨n, hn⟩ := h.consultedRun_eq
  obtain ⟨n', hn'⟩ := h'.consultedRun_eq
  exact (hn _ (le_max_left n n')).symm.trans (hn' _ (le_max_right n n'))

theorem ComesTo.ofText_text (h : ComesTo t.rulesFor l w (.ok run)) (ht : compile s = .ok t)
    (hw : w.IsLower) : Trace.ofText run.trace.text = run.trace := by
  have hstart : run.start.IsLower := by
    rw [Limits.eq_cut_of_fit h.fit_eq]
    exact isLower_cut l.maxLength hw
  cases h with
  | kept _ ha =>
    rw [Run.trace, ha]
    rfl
  | ended _ ha hr =>
    rw [Run.trace_eq_cons ha]
    exact Trace.ofText_text (ne_nil_of_isAcceptable ha) hstart.space_not_mem
      (hr.unspaced ht hstart)

theorem Run.text_trace_eq_nil_iff (r : Run) :
    r.trace.text = [] ↔ isAcceptable r.start = false := by
  cases ha : isAcceptable r.start with
  | false =>
    rw [Run.trace, ha]
    simp [Trace.text]
  | true =>
    have hne : r.start ≠ [] := ne_nil_of_isAcceptable ha
    rw [Run.trace_eq_cons ha, Trace.text]
    simp [hne]

theorem Run.trace_eq_nil_iff (r : Run) : r.trace = [] ↔ isAcceptable r.start = false := by
  cases ha : isAcceptable r.start with
  | false => simp [Run.trace, ha]
  | true => simp [Run.trace_eq_cons ha]

theorem Stemmer.lines_stem_of_enabled {m : Stemmer} {topics : Topics}
    (hon : topics.enabled stemTopic = true) (hr : m.run w = .ok run) :
    (m.stem topics w).lines = run.lines ++ [.topic stemTopic "DEBUG".toList (run.summary w)] := by
  have hline : topics.line? stemTopic "DEBUG".toList (run.summary w) =
      some (.topic stemTopic "DEBUG".toList (run.summary w)) := if_pos hon
  rw [Stemmer.stem, if_pos hon, Stemmer.stemShown, hr]
  simp only [hline, Option.toList_some]

/-- Traces of words of small letters under compiled tables are equal when their lines are, for the
trace can be read back from its line. The line is empty for the trace of an unacceptable word only,
and then a debug reader sees the word instead. -/
theorem Trace.text_losesNothing {s s' : Text} {t t' : RuleTable} {l l' : Limits} {w w' v v' : Word}
    {tr tr' : Trace} (ht : compile s = .ok t) (hw : w.IsLower)
    (h : t.Answers l true w (.ok ⟨v, some tr⟩)) (ht' : compile s' = .ok t') (hw' : w'.IsLower)
    (h' : t'.Answers l' true w' (.ok ⟨v', some tr'⟩)) :
    (tr.text = tr'.text → tr = tr') ∧ Trace.ofText tr.text = tr ∧
      ∃ u, l.fit w = .ok u ∧ (tr.text = [] ↔ tr = []) ∧ (tr = [] ↔ isAcceptable u = false) ∧
        ∀ (m : Stemmer) (topics : Topics) (run : Run), m.table = t → m.limits = l →
          topics.enabled stemTopic = true → m.run w = .ok run →
          (m.stem topics w).lines = run.lines ++ [.topic stemTopic "DEBUG".toList
            (if tr = [] then w ++ " (unacceptable)".toList else tr.text)] := by
  obtain ⟨run, hrun, -, rfl⟩ := h.exists_run
  obtain ⟨run', hrun', -, rfl⟩ := h'.exists_run
  have hback := hrun.ofText_text ht hw
  have hback' := hrun'.ofText_text ht' hw'
  refine ⟨fun htext => ?_, hback, run.start, hrun.fit_eq, ?_, run.trace_eq_nil_iff, ?_⟩
  · rw [← hback, htext, hback']
  · rw [run.text_trace_eq_nil_iff, run.trace_eq_nil_iff]
  · rintro m topics r rfl rfl hon hr
    obtain rfl := Except.ok.inj (hrun.unique (RuleTable.comesTo_of_run hr))
    rw [Stemmer.lines_stem_of_enabled hon hr, Run.summary_eq]

/-- A label that ends in the sign of an arrow, and a word that its limit makes unacceptable. -/
theorem Trace.text_losesNothing_arrows :
    ∃ t t' v v' tr tr',
      compile "s1>\nta2e.".toList = .ok t ∧ compile "s1.".toList = .ok t' ∧
      Text.IsLower "goats".toList ∧ t.Answers {} true "goats".toList (.ok ⟨v, some tr⟩) ∧
      t'.Answers ⟨some 2, .truncate⟩ true "goats".toList (.ok ⟨v', some tr'⟩) ∧
      Trace.text tr = "goats =(1:s1>)=> goat =(2:ta2e.)=> goe".toList ∧ tr' = [] ∧
      Trace.ofText (Trace.text tr) = tr ∧ (Trace.text tr = Trace.text tr' → tr = tr') := by
  obtain ⟨t, ht⟩ : ∃ t, compile "s1>\nta2e.".toList = .ok t := ⟨_, rfl⟩
  obtain ⟨t', ht'⟩ : ∃ t, compile "s1.".toList = .ok t := ⟨_, rfl⟩
  have hw : Text.IsLower "goats".toList := by decide
  have hstem : t.stem {} 3 true "goats".toList = .ok ⟨"goe".toList, some [⟨none, "goats".toList⟩,
      ⟨some "(1:s1>)".toList, "goat".toList⟩, ⟨some "(2:ta2e.)".toList, "goe".toList⟩]⟩ := by
    obtain rfl := Except.ok.inj ht
    rfl
  have hstem' : t'.stem ⟨some 2, .truncate⟩ 1 true "goats".toList =
      .ok ⟨"go".toList, some []⟩ := by
    obtain rfl := Except.ok.inj ht'
    rfl
  have h := RuleTable.answers_of_stem hstem
  have h' := RuleTable.answers_of_stem hstem'
  obtain ⟨hinj, hback, -⟩ := Trace.text_losesNothing ht hw h ht' hw h'
  exact ⟨t, t', _, _, _, _, ht, ht', hw, h, h', rfl, rfl, hback, hinj⟩

end Lancaster

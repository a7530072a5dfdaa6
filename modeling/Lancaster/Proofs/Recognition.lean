import Lancaster.Proofs.Reading
import Lancaster.Proofs.Iteration

/-!
Recognizing rule texts. A compiler always knows how the text that it has read so far is laid out, so
it accepts laid-out texts only.
-/
namespace Lancaster

inductive Compiler.Takes : Compiler → Char → Compiler → Prop where
  | blank {p n rules c} (h : isBlank c = true) :
    Takes ⟨p, n, rules, .between⟩ c ⟨p.after c, n, rules, .between⟩
  | first {p n rules c} (h : c.isLower = true) :
    Takes ⟨p, n, rules, .between⟩ c ⟨p.after c, n + 1, rules, .suffix (.first c h)⟩
  | letter {p n rules d c} (h : c.isLower = true) :
    Takes ⟨p, n, rules, .suffix d⟩ c ⟨p.after c, n, rules, .suffix (d.pushSuffix c h)⟩
  | star {p n rules d} :
    Takes ⟨p, n, rules, .suffix d⟩ '*' ⟨p.after '*', n, rules, .digits d.star⟩
  | firstDigit {p n rules d c} (h : c.isDigit = true) :
    Takes ⟨p, n, rules, .suffix d⟩ c ⟨p.after c, n, rules, .digits (d.pushDigit c)⟩
  | digit {p n rules d c} (h : c.isDigit = true) :
    Takes ⟨p, n, rules, .digits d⟩ c ⟨p.after c, n, rules, .digits (d.pushDigit c)⟩
  | firstAppend {p n rules d c} (h : c.isLower = true) :
    Takes ⟨p, n, rules, .digits d⟩ c ⟨p.after c, n, rules, .append (d.pushAppend c h)⟩
  | append {p n rules d c} (h : c.isLower = true) :
    Takes ⟨p, n, rules, .append d⟩ c ⟨p.after c, n, rules, .append (d.pushAppend c h)⟩
  | rule {p n rules φ d c} (h : Phase.Drafts φ d) (b : Bool) (hc : c = if b then '>' else '.')
      (hend : (d.entry b).text ≠ endText) (hd : (d.entry b).digits.length ≤ maxDigits) :
    Takes ⟨p, n, rules, φ⟩ c ⟨p.after c, n, (d.entry b).rule n :: rules, .comment⟩
  | comment {p n rules c} (h : c ≠ '\n') :
    Takes ⟨p, n, rules, .comment⟩ c ⟨p.after c, n, rules, .comment⟩
  | newline {p n rules} :
    Takes ⟨p, n, rules, .comment⟩ '\n' ⟨p.after '\n', n, rules, .between⟩

inductive Compiler.StopsAt : Compiler → Char → Outcome → Prop where
  | closed {p n rules φ d c} (h : Phase.Drafts φ d) (b : Bool) (hc : c = if b then '>' else '.')
      (hend : (d.entry b).text = endText) :
    StopsAt ⟨p, n, rules, φ⟩ c (.ok ⟨rules.reverse, true⟩)
  | tooManyDigits {p n rules φ d c} (h : Phase.Drafts φ d) (b : Bool)
      (hc : c = if b then '>' else '.') (hend : (d.entry b).text ≠ endText)
      (hd : maxDigits < (d.entry b).digits.length) :
    StopsAt ⟨p, n, rules, φ⟩ c (.error (.tooManyDigits (d.entry b).digits.length))
  | start {p n rules c} (hb : isBlank c = false) (hl : c.isLower = false) :
    StopsAt ⟨p, n, rules, .between⟩ c
      (.error (.grammar ⟨.start, n + 1, p.line, p.column + 1, some c⟩))
  | terminator {p n rules φ d c} (h : Phase.Drafts φ d) (hl : c.isLower = false) :
    StopsAt ⟨p, n, rules, φ⟩ c
      (.error (.grammar ⟨.terminator, n, p.line, p.column + 1, some c⟩))

/-- What a text looks like that is read up to this phase, from the beginning of its last line. -/
inductive Phase.Opened : Phase → Text → Prop where
  | between {w} (hw : ∀ c ∈ w, isBlank c = true) : Opened .between w
  | suffix {w d first} (hw : ∀ c ∈ w, isBlank c = true) (h : d.Has first false [] []) :
    Opened (.suffix d) (w ++ first.reverse)
  | digits {w d first star digits} (hw : ∀ c ∈ w, isBlank c = true)
      (h : d.Has first star digits []) (hd : ∀ c ∈ digits, c.isDigit = true)
      (hs : star = true ∨ digits ≠ []) :
    Opened (.digits d) (w ++ first.reverse ++ signs star digits [])
  | append {w d first star digits append} (hw : ∀ c ∈ w, isBlank c = true)
      (h : d.Has first star digits append) (hd : ∀ c ∈ digits, c.isDigit = true)
      (hs : star = true ∨ digits ≠ []) :
    Opened (.append d) (w ++ first.reverse ++ signs star digits append)
  | comment (l : EntryLine) : Opened .comment l.text

def Phase.begun : Phase → Nat
  | .between => 0
  | _ => 1

structure Compiler.HasRead (k : Compiler) (s : Text) : Prop where
  place : k.place = Place.start.afterText s
  layout : ∃ lines t, s = linesText lines ++ t ∧ k.phase.Opened t ∧
    k.entries = lines.length + k.phase.begun

variable {k k' : Compiler} {s t : Text} {c : Char} {q : Progress} {o : Outcome} {d : Draft}
  {rest : Text} {φ : Phase}

theorem Compiler.finishEntry_cases (k : Compiler) (d : Draft) (c : Char) :
    (∃ b, (c = if b then '>' else '.') ∧ k.finishEntry d c = k.terminate c (d.entry b)) ∨
      k.finishEntry d c = k.refuse .terminator c := by
  unfold Compiler.finishEntry
  split_ifs with hmore hstop
  · exact .inl ⟨true, hmore, rfl⟩
  · exact .inl ⟨false, hstop, rfl⟩
  · exact .inr rfl

theorem Compiler.finishEntry_spec {p : Place} {n : Nat} {rules : List Rule} (h : φ.Drafts d)
    (hl : c.isLower = false) (hf : Compiler.finishEntry ⟨p, n, rules, φ⟩ d c = q) :
    (∃ k', q = .reading k' ∧ Compiler.Takes ⟨p, n, rules, φ⟩ c k') ∨
      ∃ o, q = .stopped o ∧ Compiler.StopsAt ⟨p, n, rules, φ⟩ c o := by
  rcases Compiler.finishEntry_cases ⟨p, n, rules, φ⟩ d c with ⟨b, hc, he⟩ | he
  · rw [he, Compiler.terminate] at hf
    split_ifs at hf with hend hd
    · exact .inr ⟨_, hf.symm, .closed h b hc hend⟩
    · exact .inr ⟨_, hf.symm, .tooManyDigits h b hc hend hd⟩
    · exact .inl ⟨_, hf.symm, .rule h b hc hend (by omega)⟩
  · rw [he] at hf
    exact .inr ⟨_, hf.symm, .terminator h hl⟩

theorem Compiler.feed_spec (k : Compiler) (c : Char) :
    (∃ k', k.feed c = .reading k' ∧ k.Takes c k') ∨ ∃ o, k.feed c = .stopped o ∧ k.StopsAt c o := by
  obtain ⟨p, n, rules, φ⟩ := k
  cases φ with
  | between =>
    cases hb : isBlank c with
    | true => exact .inl ⟨_, by simp only [Compiler.feed, hb, if_true]; rfl, .blank hb⟩
    | false =>
      cases hl : c.isLower with
      | true => exact .inl ⟨_, by simp only [Compiler.feed, hb, hl]; rfl, .first hl⟩
      | false => exact .inr ⟨_, by simp only [Compiler.feed, hb, hl]; rfl, .start hb hl⟩
  | suffix d =>
    cases hl : c.isLower with
    | true => exact .inl ⟨_, by simp only [Compiler.feed, hl]; rfl, .letter hl⟩
    | false =>
      by_cases hs : c = '*'
      · subst hs
        exact .inl ⟨_, rfl, .star⟩
      cases hd : c.isDigit with
      | true => exact .inl ⟨_, by simp only [Compiler.feed, hl, hs, hd]; rfl, .firstDigit hd⟩
      | false =>
        have hf : Compiler.feed ⟨p, n, rules, .suffix d⟩ c =
            Compiler.finishEntry ⟨p, n, rules, .suffix d⟩ d c := by
          simp [Compiler.feed, hl, hs, hd]
        exact Compiler.finishEntry_spec (.suffix d) hl hf.symm
  | digits d =>
    cases hd : c.isDigit with
    | true => exact .inl ⟨_, by simp only [Compiler.feed, hd]; rfl, .digit hd⟩
    | false =>
      cases hl : c.isLower with
      | true => exact .inl ⟨_, by simp only [Compiler.feed, hd, hl]; rfl, .firstAppend hl⟩
      | false =>
        have hf : Compiler.feed ⟨p, n, rules, .digits d⟩ c =
            Compiler.finishEntry ⟨p, n, rules, .digits d⟩ d c := by
          simp [Compiler.feed, hl, hd]
        exact Compiler.finishEntry_spec (.digits d) hl hf.symm
  | append d =>
    cases hl : c.isLower with
    | true => exact .inl ⟨_, by simp only [Compiler.feed, hl]; rfl, .append hl⟩
    | false =>
      have hf : Compiler.feed ⟨p, n, rules, .append d⟩ c =
          Compiler.finishEntry ⟨p, n, rules, .append d⟩ d c := by
        simp [Compiler.feed, hl]
      exact Compiler.finishEntry_spec (.append d) hl hf.symm
  | comment =>
    by_cases hn : c = '\n'
    · subst hn
      exact .inl ⟨_, rfl, .newline⟩
    · exact .inl ⟨_, by simp only [Compiler.feed, hn]; rfl, .comment hn⟩

theorem Compiler.takes_of_feed (h : k.feed c = .reading k') : k.Takes c k' := by
  rcases k.feed_spec c with ⟨k₁, hf, ht⟩ | ⟨o, hf, -⟩
  · rw [hf] at h
    obtain rfl := Progress.reading.inj h
    exact ht
  · rw [hf] at h
    cases h

theorem Compiler.stopsAt_of_feed (h : k.feed c = .stopped o) : k.StopsAt c o := by
  rcases k.feed_spec c with ⟨k₁, hf, -⟩ | ⟨o', hf, hs⟩
  · rw [hf] at h
    cases h
  · rw [hf] at h
    obtain rfl := Progress.stopped.inj h
    exact hs

theorem Draft.Has.entry_text {first digits append : Text} {star : Bool}
    (h : d.Has first star digits append) (b : Bool) :
    (d.entry b).text = first.reverse ++ signs star digits append ++ [if b then '>' else '.'] := by
  obtain ⟨hs, hi, hd, ha⟩ := h
  simp [Entry.text, Draft.entry, signs, hs, hi, hd, ha]

theorem Phase.Opened.exists_entry (h : φ.Opened t) (hφ : φ.Drafts d) (b : Bool) :
    ∃ w, (∀ c ∈ w, isBlank c = true) ∧ t ++ [if b then '>' else '.'] = w ++ (d.entry b).text ∧
      Spells (d.entry b).text (d.entry b) := by
  cases hφ with
  | suffix =>
    cases h with
    | @suffix w _ first hw h =>
      refine ⟨w, hw, by simp [h.entry_text, signs], .intro _ ?_ ?_⟩
      · simp [Draft.entry, h.digits]
      · simp [Draft.entry, h.append]
  | digits =>
    cases h with
    | @digits w _ first star digits hw h hd hs =>
      refine ⟨w, hw, by simp [h.entry_text], .intro _ ?_ ?_⟩
      · simpa [Draft.entry, h.digits] using hd
      · simp [Draft.entry, h.append]
  | append =>
    cases h with
    | @append w _ first star digits append hw h hd hs =>
      refine ⟨w, hw, by simp [h.entry_text], .intro _ ?_ fun _ => ?_⟩
      · simpa [Draft.entry, h.digits] using hd
      · simpa [Draft.entry, h.digits, h.star] using hs

theorem forall_mem_append_singleton {P : Char → Prop} (hs : ∀ x ∈ s, P x) (hc : P c) :
    ∀ x ∈ s ++ [c], P x := by
  intro x hx
  rcases List.mem_append.mp hx with hx | hx
  · exact hs x hx
  · rwa [List.mem_singleton.mp hx]

theorem Compiler.HasRead.start : Compiler.start.HasRead [] :=
  ⟨rfl, [], [], rfl, .between (by simp), rfl⟩

theorem Compiler.HasRead.takes (h : k.HasRead s) (ht : k.Takes c k') : k'.HasRead (s ++ [c]) := by
  obtain ⟨hp, lines, t, rfl, ho, hn⟩ := h
  constructor
  · rw [Place.afterText_append, ← hp]
    cases ht <;> rfl
  rw [List.append_assoc]
  cases ht with
  | blank hb =>
    cases ho with
    | between hw => exact ⟨lines, _, rfl, .between (forall_mem_append_singleton hw hb), hn⟩
  | @first p n rules c hl =>
    cases ho with
    | between hw =>
      have hf : (Draft.first c hl).Has [c] false [] [] := ⟨rfl, rfl, rfl, rfl⟩
      exact ⟨lines, _, rfl, .suffix hw hf, by simpa [Phase.begun] using hn⟩
  | @letter p n rules d c hl =>
    cases ho with
    | @suffix w _ first hw h =>
      have hf : (d.pushSuffix c hl).Has (c :: first) false [] [] :=
        ⟨by rw [← h.suffix]; rfl, h.star, h.digits, h.append⟩
      exact ⟨lines, w ++ (c :: first).reverse, by simp, .suffix hw hf, hn⟩
  | @star p n rules d =>
    cases ho with
    | @suffix w _ first hw h =>
      have hf : d.star.Has first true [] [] := ⟨h.suffix, rfl, h.digits, h.append⟩
      exact ⟨lines, _, by simp [signs], .digits hw hf (by simp) (.inl rfl), hn⟩
  | @firstDigit p n rules d c hd =>
    cases ho with
    | @suffix w _ first hw h =>
      have hf : (d.pushDigit c).Has first false [c] [] :=
        ⟨h.suffix, h.star, by simp [Draft.pushDigit, h.digits], h.append⟩
      exact ⟨lines, _, by simp [signs], .digits hw hf (by simpa using hd) (.inr (by simp)), hn⟩
  | @digit p n rules d c hd =>
    cases ho with
    | @digits w _ first star digits hw h hds hs =>
      have hf : (d.pushDigit c).Has first star (digits ++ [c]) [] :=
        ⟨h.suffix, h.star, by simp [Draft.pushDigit, h.digits], h.append⟩
      exact ⟨lines, _, by simp [signs], .digits hw hf (forall_mem_append_singleton hds hd)
        (.inr (by simp)), hn⟩
  | @firstAppend p n rules d c hl =>
    cases ho with
    | @digits w _ first star digits hw h hds hs =>
      have hf : (d.pushAppend c hl).Has first star digits [c] :=
        ⟨h.suffix, h.star, h.digits, by simp [Draft.pushAppend, h.append]⟩
      exact ⟨lines, _, by simp [signs], .append hw hf hds hs, hn⟩
  | @append p n rules d c hl =>
    cases ho with
    | @append w _ first star digits append hw h hds hs =>
      have hf : (d.pushAppend c hl).Has first star digits (append ++ [c]) :=
        ⟨h.suffix, h.star, h.digits, by simp [Draft.pushAppend, h.append]⟩
      exact ⟨lines, _, by simp [signs], .append hw hf hds hs, hn⟩
  | @rule p n rules φ d c hφ b hc hend hd =>
    obtain ⟨w, hw, heq, hspells⟩ := ho.exists_entry hφ b
    rw [← hc] at heq
    refine ⟨lines, _, ?_,
      .comment ⟨w, (d.entry b).text, [], hw, hspells.isEntry, hend, by simp⟩, ?_⟩
    · rw [heq, EntryLine.text, List.append_nil]
    · cases hφ <;> exact hn
  | @comment p n rules c hc =>
    cases ho with
    | comment l =>
      exact ⟨lines, _, by simp [EntryLine.text], .comment { l with
        comment := l.comment ++ [c]
        comment_inLine := by simp [l.comment_inLine, hc.symm] }, hn⟩
  | newline =>
    cases ho with
    | comment l =>
      exact ⟨lines ++ [l], [], by simp [linesText], .between (by simp),
        by simpa [Phase.begun] using hn⟩

theorem Compiler.HasRead.read (h : k.HasRead s) (hr : k.read t = (.reading k', rest)) :
    rest = [] ∧ k'.HasRead (s ++ t) := by
  induction t generalizing k s with
  | nil =>
    obtain ⟨hk, rfl⟩ := Prod.mk.inj hr
    obtain rfl := Progress.reading.inj hk
    exact ⟨rfl, by rwa [List.append_nil]⟩
  | cons c t ih =>
    rw [Compiler.read] at hr
    cases hf : k.feed c with
    | reading k₁ =>
      rw [hf] at hr
      obtain ⟨hrest, hk⟩ := ih (h.takes (Compiler.takes_of_feed hf)) hr
      exact ⟨hrest, by rwa [List.append_assoc] at hk⟩
    | stopped o =>
      rw [hf] at hr
      cases (Prod.mk.inj hr).1

theorem Compiler.exists_of_read_stopped (h : k.read s = (.stopped o, rest)) :
    ∃ s₁ c k₁, s = s₁ ++ c :: rest ∧ k.read s₁ = (.reading k₁, []) ∧ k₁.feed c = .stopped o := by
  induction s generalizing k with
  | nil => cases (Prod.mk.inj h).1
  | cons c s ih =>
    rw [Compiler.read] at h
    cases hf : k.feed c with
    | reading k₁ =>
      rw [hf] at h
      obtain ⟨s₁, c₁, k₂, rfl, hr, hs⟩ := ih h
      exact ⟨c :: s₁, c₁, k₂, rfl, by rw [Compiler.read, hf]; exact hr, hs⟩
    | stopped o₁ =>
      rw [hf] at h
      obtain ⟨ho, rfl⟩ := Prod.mk.inj h
      obtain rfl := Progress.stopped.inj ho
      exact ⟨[], c, k, rfl, rfl, hf⟩

theorem Compiler.read_append (h : k.read s = (.reading k', [])) (t : Text) :
    k.read (s ++ t) = k'.read t := by
  induction s generalizing k with
  | nil =>
    obtain rfl := Progress.reading.inj (Prod.mk.inj h).1
    rfl
  | cons c s ih =>
    rw [Compiler.read] at h
    cases hf : k.feed c with
    | reading k₁ =>
      rw [hf] at h
      rw [List.cons_append, Compiler.read_cons hf]
      exact ih h
    | stopped o =>
      rw [hf] at h
      cases (Prod.mk.inj h).1

/-- Compiling comes to the end of the text, or it stops at a character, whatever follows. -/
theorem compileStream_cases (s : Text) :
    (∃ k : Compiler, k.HasRead s ∧ compileStream s = (k.finish, [])) ∨
      ∃ s₁ c k o rest, s = s₁ ++ c :: rest ∧ Compiler.HasRead k s₁ ∧ k.StopsAt c o ∧
        ∀ u, compileStream (s₁ ++ c :: u) = (o, u) := by
  rcases hr : Compiler.start.read s with ⟨q, rest⟩
  cases q with
  | reading k =>
    obtain ⟨rfl, hk⟩ := Compiler.HasRead.start.read hr
    exact .inl ⟨k, hk, by rw [compileStream, hr]; rfl⟩
  | stopped o =>
    obtain ⟨s₁, c, k, rfl, hr₁, hf⟩ := Compiler.exists_of_read_stopped hr
    obtain ⟨-, hk⟩ := Compiler.HasRead.start.read hr₁
    refine .inr ⟨s₁, c, k, o, rest, rfl, hk, Compiler.stopsAt_of_feed hf, fun u => ?_⟩
    rw [compileStream, Compiler.read_append hr₁, Compiler.read, hf]
    rfl

theorem exists_layout_of_compileText {r : Compiled} (h : compileText s = .ok r) :
    ∃ x : SourceLayout, x.text = s := by
  rcases compileStream_cases s with ⟨⟨p, n, rules, φ⟩, ⟨-, lines, t, rfl, ho, -⟩, hs⟩ |
    ⟨s₁, c, k, o, rest, rfl, ⟨-, lines, t, rfl, ho, -⟩, hstop, hs⟩
  · rw [compileText, hs] at h
    cases ho with
    | between hw => exact ⟨⟨lines, .blanks t hw⟩, rfl⟩
    | comment l => exact ⟨⟨lines, .line l⟩, rfl⟩
    | suffix | digits | append => cases h
  · rw [compileText, hs] at h
    cases hstop with
    | closed hφ b hc hend =>
      obtain ⟨w, hw, heq, -⟩ := ho.exists_entry hφ b
      rw [← hc, hend] at heq
      refine ⟨⟨lines, .closed w rest hw⟩, ?_⟩
      rw [SourceLayout.text, SourceEnd.text, ← heq, List.append_assoc, List.append_assoc,
        List.singleton_append]
    | tooManyDigits | start | terminator => cases h

theorem Spells.digits_isDigit {e : Entry} (h : Spells s e) : ∀ c ∈ e.digits, c.isDigit = true := by
  obtain ⟨e, hd, -⟩ := h
  exact hd

theorem Entry.digits_infix (e : Entry) : e.digits <:+: e.text :=
  ⟨e.suffix.reverse ++ (if e.intactOnly then ['*'] else []),
    e.append ++ [if e.continues then '>' else '.'], by simp [Entry.text]⟩

/-- No run of digits is longer than a number may be. -/
def ShortNumbers (s : Text) : Prop :=
  ∀ run, run <:+: s → (∀ c ∈ run, c.isDigit = true) → run.length ≤ maxDigits

theorem compileText_ne_tooManyDigits (h : ShortNumbers s) (count : Nat) :
    compileText s ≠ .error (.tooManyDigits count) := by
  intro ho
  rcases compileStream_cases s with ⟨k, -, hs⟩ |
    ⟨s₁, c, k, o, rest, rfl, ⟨-, lines, t, rfl, hopen, -⟩, hstop, hs⟩
  · rw [compileText, hs] at ho
    cases hφ : k.phase <;> simp [Compiler.finish, hφ] at ho
  · rw [compileText, hs] at ho
    cases hstop with
    | @tooManyDigits p n rules φ d c hφ b hc hend hd =>
      obtain ⟨w, -, heq, he⟩ := hopen.exists_entry hφ b
      have hin : (d.entry b).digits <:+: linesText lines ++ t ++ c :: rest := by
        rw [← List.singleton_append, ← List.append_assoc, List.append_assoc (linesText lines), hc,
          heq]
        exact (Entry.digits_infix _).trans ⟨linesText lines ++ w, rest, by simp⟩
      have := h _ hin he.digits_isDigit
      omega
    | closed | start | terminator => cases ho

/-- The rules of a table, by their ordinals, are those of the entries in turn, each in the bucket of
the first character of its entry. -/
structure RuleTable.HoldsEntries (t : RuleTable) (entries : List Text) : Prop where
  rules : RulesRead 1 entries t.toList
  buckets : ∀ e r, (e, r) ∈ entries.zip t.toList → ∃ c, e.head? = some c ∧ r ∈ t.bucket c

theorem SourceLayout.exists_line_of_mem {x : SourceLayout} (h : t ∈ x.entries) :
    ∃ l : EntryLine, l.entry = t ∧ l.text <:+: x.text := by
  obtain ⟨lines, ending⟩ := x
  rcases List.mem_append.mp h with h | h
  · obtain ⟨l, hl, rfl⟩ := List.mem_map.mp h
    obtain ⟨before, after, rfl⟩ := List.append_of_mem hl
    refine ⟨l, rfl, linesText before, '\n' :: (linesText after ++ ending.text), ?_⟩
    simp [SourceLayout.text, linesText]
  · cases ending with
    | line l =>
      obtain rfl := List.mem_singleton.mp h
      exact ⟨l, rfl, (List.suffix_append _ _).isInfix⟩
    | blanks | closed => cases h

theorem SourceLayout.isEntry_of_mem {x : SourceLayout} (h : t ∈ x.entries) : IsEntry t := by
  obtain ⟨l, rfl, -⟩ := SourceLayout.exists_line_of_mem h
  exact l.isEntry

theorem SourceLayout.ne_endText_of_mem {x : SourceLayout} (h : t ∈ x.entries) : t ≠ endText := by
  obtain ⟨l, rfl, -⟩ := SourceLayout.exists_line_of_mem h
  exact l.entry_ne_end

theorem SourceLayout.infix_of_mem {x : SourceLayout} (h : t ∈ x.entries) : t <:+: x.text := by
  obtain ⟨l, rfl, hl⟩ := SourceLayout.exists_line_of_mem h
  have hentry : l.entry <:+: l.text := ⟨l.blanks, l.comment, rfl⟩
  exact hentry.trans hl

theorem ShortNumbers.filter_length_le (h : ShortNumbers s) {x : SourceLayout} (hx : x.text = s) :
    ∀ t ∈ x.entries, (t.filter Char.isDigit).length ≤ maxDigits := by
  intro t ht
  have hin := SourceLayout.infix_of_mem ht
  obtain ⟨e, he⟩ := (SourceLayout.isEntry_of_mem ht).exists_spells
  have hd := he.digits_isDigit
  rw [hx] at hin
  cases he
  rw [filter_isDigit_text hd]
  exact h _ (e.digits_infix.trans hin) hd

theorem RulesRead.map_eq {α : Type} {n : Nat} {entries : List Text} {rules : List Rule}
    (h : RulesRead n entries rules) {field : Rule → α} {ofEntry : Text × Nat → α}
    (hfield : ∀ r m e, Rule.Reads r m e → field r = ofEntry (e, m)) :
    rules.map field = (entries.zipIdx n).map ofEntry := by
  have hall : List.Forall₂ Eq ((entries.zipIdx n).map ofEntry) (rules.map field) := by
    rw [List.forall₂_map_left_iff, List.forall₂_map_right_iff]
    exact h.imp fun e r hr => (hfield r e.2 e.1 hr).symm
  rw [List.forall₂_eq_eq_eq] at hall
  exact hall.symm

theorem RulesRead.map_ordinal {n : Nat} {entries : List Text} {rules : List Rule}
    (h : RulesRead n entries rules) :
    rules.map Rule.ordinal = (List.range' n entries.length).map Int.ofNat := by
  have hnumbers : rules.map Rule.ordinal = (entries.zipIdx n).map fun e => Int.ofNat e.2 :=
    h.map_eq fun _ _ _ hr => hr.ordinal
  rw [hnumbers, ← List.zipIdx_map_snd n entries, List.map_map]
  rfl

theorem RulesRead.pairwise_ordinal {n : Nat} {entries : List Text} {rules : List Rule}
    (h : RulesRead n entries rules) : rules.Pairwise fun r s => r.ordinal < s.ordinal := by
  rw [← List.pairwise_map, h.map_ordinal, List.pairwise_map]
  exact (List.pairwise_lt_range' ..).imp fun hlt => Int.ofNat_lt.mpr hlt

theorem Rule.Reads.head?_eq {r : Rule} {n : Nat} (h : r.Reads n t) (ht : IsEntry t) :
    t.head? = some r.lastChar := by
  obtain ⟨_, _, _, _, _, hl⟩ := ht.exists_body
  have hlast : r.suffix.getLast? = some r.lastChar :=
    List.getLast?_eq_getLast_of_ne_nil r.suffix_ne_nil
  rw [h.suffix, List.getLast?_reverse] at hlast
  cases t with
  | nil => cases hlast
  | cons c t =>
    rw [List.takeWhile_cons_of_pos (hl c rfl)] at hlast
    exact hlast

theorem RulesRead.reads_of_mem_zip {n : Nat} {entries : List Text} {rules : List Rule} {r : Rule}
    (h : RulesRead n entries rules) (hr : (t, r) ∈ entries.zip rules) : ∃ m, r.Reads m t := by
  induction entries generalizing n rules with
  | nil => cases hr
  | cons e es ih =>
    cases h with
    | cons he hes =>
      rcases List.mem_cons.mp hr with heq | hr
      · obtain ⟨rfl, rfl⟩ := Prod.mk.inj heq
        exact ⟨n, he⟩
      · exact ih hes hr

theorem RulesRead.holdsEntries {entries : List Text} {rules : List Rule}
    (h : RulesRead 1 entries rules) (hentries : ∀ t ∈ entries, IsEntry t) :
    (RuleTable.ofList rules).HoldsEntries entries := by
  have hlist := RuleTable.toList_ofList h.pairwise_ordinal
  constructor
  · rwa [hlist]
  · intro e r hr
    rw [hlist] at hr
    obtain ⟨he, hmem⟩ := List.of_mem_zip hr
    obtain ⟨n, hreads⟩ := h.reads_of_mem_zip hr
    refine ⟨r.lastChar, hreads.head?_eq (hentries e he), ?_⟩
    rw [RuleTable.bucket_ofList_eq]
    exact List.mem_filter.mpr ⟨hmem, by simp⟩

theorem compile_eq_ok {r : Compiled} (h : compileText s = .ok r) :
    compile s = .ok (RuleTable.ofList r.rules) := by
  rw [compile, h]
  rfl

/-- Just the laid-out texts compile, each to the rules of its entries, and a text has one layout at
most. All other texts are refused as ungrammatical. -/
theorem compile_ok_iff_laidOut (s : Text) (hd : ShortNumbers s) :
    ((∃ t, compile s = .ok t) ↔ ∃ x : SourceLayout, x.text = s) ∧
      (∀ x y : SourceLayout, x.text = s → y.text = s → x = y) ∧
      (∀ x : SourceLayout, x.text = s → ∃ t, compile s = .ok t ∧ t.HoldsEntries x.entries) ∧
      ((¬ ∃ x : SourceLayout, x.text = s) → ∃ f, compile s = .error (.grammar f)) := by
  have accepted : ∀ x : SourceLayout, x.text = s →
      ∃ t, compile s = .ok t ∧ t.HoldsEntries x.entries := by
    rintro x rfl
    obtain ⟨r, hr, hrules⟩ := x.exists_compileText_eq (hd.filter_length_le rfl)
    exact ⟨_, compile_eq_ok hr, hrules.holdsEntries fun t => SourceLayout.isEntry_of_mem⟩
  refine ⟨⟨?_, ?_⟩, ?_, accepted, ?_⟩
  · rintro ⟨t, ht⟩
    cases ho : compileText s with
    | ok r => exact exists_layout_of_compileText ho
    | error f =>
      rw [compile, ho] at ht
      cases ht
  · rintro ⟨x, hx⟩
    obtain ⟨t, ht, -⟩ := accepted x hx
    exact ⟨t, ht⟩
  · intro x y hx hy
    exact SourceLayout.text_injective (hx.trans hy.symm)
  · intro hno
    cases ho : compileText s with
    | ok r => exact absurd (exists_layout_of_compileText ho) hno
    | error f =>
      cases f with
      | grammar f =>
        refine ⟨f, ?_⟩
        rw [compile, ho]
        rfl
      | tooManyDigits count => exact absurd ho (compileText_ne_tooManyDigits hd count)

theorem compile_ok_iff_laidOut_line :
    ShortNumbers " ai*2y> i.\nend0.".toList ∧ ∃ t, compile " ai*2y> i.\nend0.".toList = .ok t ∧
      t.HoldsEntries ["ai*2y>".toList] := by
  have hd : ShortNumbers " ai*2y> i.\nend0.".toList := by
    intro run hr _
    exact hr.length_le.trans (by decide)
  have he : IsEntry "ai*2y>".toList :=
    ⟨['a', 'i'], ['*'], ['2'], ['y'], ['>'], by decide, by decide, .inr rfl, by simp, by decide,
      .inl rfl, rfl⟩
  have hw : ∀ c ∈ [' '], isBlank c = true := List.forall_mem_singleton.mpr rfl
  let l : EntryLine := ⟨[' '], _, [' ', 'i', '.'], hw, he, by decide, by decide⟩
  exact ⟨hd, (compile_ok_iff_laidOut _ hd).2.2.1 ⟨[l], .closed [] [] (by simp)⟩ rfl⟩

end Lancaster

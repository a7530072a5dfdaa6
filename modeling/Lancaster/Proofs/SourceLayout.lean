import Lancaster.Rule.Compile
import Mathlib.Data.List.Induction
import Mathlib.Data.Nat.Digits.Defs

/-!
The grammar of rule texts. An entry is spelled run by run. A rule text is laid out in lines, each an
entry after blanks and before a comment, and it ends in blanks, in a line without its line feed, or
in the closing entry with any text behind it. No text has two layouts.
-/
namespace Lancaster

/-- Letters, at most one star, digits, letters, and a terminator. -/
def IsEntry (e : Text) : Prop :=
  ∃ letters star digits append terminator : Text,
    letters ≠ [] ∧ letters.IsLower ∧ (star = [] ∨ star = ['*']) ∧
    (∀ c ∈ digits, c.isDigit = true) ∧ append.IsLower ∧
    (terminator = ['>'] ∨ terminator = ['.']) ∧
    e = letters ++ star ++ digits ++ append ++ terminator

/-- A line without its line feed. -/
@[ext] structure EntryLine where
  blanks : Text
  entry : Text
  comment : Text
  blanks_isBlank : ∀ c ∈ blanks, isBlank c = true
  isEntry : IsEntry entry
  entry_ne_end : entry ≠ endText
  comment_inLine : '\n' ∉ comment

def EntryLine.text (l : EntryLine) : Text := l.blanks ++ l.entry ++ l.comment

inductive SourceEnd where
  | blanks (w : Text) (h : ∀ c ∈ w, isBlank c = true)
  | line (l : EntryLine)
  | closed (w rest : Text) (h : ∀ c ∈ w, isBlank c = true)

def SourceEnd.text : SourceEnd → Text
  | .blanks w _ => w
  | .line l => l.text
  | .closed w rest _ => w ++ endText ++ rest

def SourceEnd.entries : SourceEnd → List Text
  | .line l => [l.entry]
  | _ => []

structure SourceLayout where
  lines : List EntryLine
  ending : SourceEnd

def linesText (lines : List EntryLine) : Text := lines.flatMap fun l => l.text ++ ['\n']

def SourceLayout.text (x : SourceLayout) : Text := linesText x.lines ++ x.ending.text

def SourceLayout.entries (x : SourceLayout) : List Text :=
  x.lines.map EntryLine.entry ++ x.ending.entries

/-- What the spelling of an entry says of the rule with this number. -/
structure Rule.Reads (r : Rule) (number : Nat) (e : Text) : Prop where
  ordinal : r.ordinal = number
  label : r.label = '(' :: decimalText number ++ ':' :: e ++ [')']
  suffix : r.suffix = (e.takeWhile Char.isLower).reverse
  intactOnly : r.intactOnly = true ↔ '*' ∈ e
  removeCount : r.removeCount = Nat.ofDigits 10 ((e.filter Char.isDigit).reverse.map digitValue)
  append : r.append = (e.dropWhile Char.isLower).filter Char.isLower
  continues : r.continues = true ↔ e.getLast? = some '>'

variable {p : Char → Bool} {s t u : Text} {e : Entry} {c : Char}

theorem isDigit_iff : c.isDigit = true ↔ 48 ≤ c.toNat ∧ c.toNat ≤ 57 := by
  change (decide (c.val ≥ 48) && decide (c.val ≤ 57)) = true ↔ _
  rw [Bool.and_eq_true, decide_eq_true_iff, decide_eq_true_iff, ge_iff_le,
    UInt32.le_iff_toNat_le, UInt32.le_iff_toNat_le]
  exact Iff.rfl

theorem isLower_eq_false_of_isDigit (h : c.isDigit = true) : c.isLower = false := by
  rw [Bool.eq_false_iff, ne_eq, isLower_iff]
  have := isDigit_iff.mp h
  omega

theorem isDigit_eq_false_of_isLower (h : c.isLower = true) : c.isDigit = false := by
  rw [Bool.eq_false_iff, ne_eq, isDigit_iff]
  have := isLower_iff.mp h
  omega

theorem isBlank_eq_false_of_visible (hfrom : 0x20 < c.toNat) (hto : c.toNat < 0x7F) :
    isBlank c = false := by
  simp only [isBlank, inRanges, blankRanges, CodeRange.holds, List.any_cons, List.any_nil,
    Bool.or_eq_false_iff, Bool.and_eq_false_iff, decide_eq_false_iff_not, and_true]
  omega

theorem isBlank_eq_false_of_isLower (h : c.isLower = true) : isBlank c = false := by
  have := isLower_iff.mp h
  exact isBlank_eq_false_of_visible (by omega) (by omega)

theorem not_isBlank_head (h : ∀ c, t.head? = some c → c.isLower = true) :
    ∀ c, t.head? = some c → isBlank c = false :=
  fun c hc => isBlank_eq_false_of_isLower (h c hc)

theorem takeWhile_run (hs : ∀ c ∈ s, p c = true) (ht : ∀ c, t.head? = some c → p c = false) :
    (s ++ t).takeWhile p = s := by
  rw [List.takeWhile_append_of_pos hs]
  cases t with
  | nil => simp
  | cons c t => simp [ht c rfl]

theorem dropWhile_run (hs : ∀ c ∈ s, p c = true) (ht : ∀ c, t.head? = some c → p c = false) :
    (s ++ t).dropWhile p = t := by
  rw [List.dropWhile_append_of_pos hs]
  cases t with
  | nil => simp
  | cons c t => simp [ht c rfl]

theorem run_append_inj {s' t' : Text} (hs : ∀ c ∈ s, p c = true) (hs' : ∀ c ∈ s', p c = true)
    (ht : ∀ c, t.head? = some c → p c = false) (ht' : ∀ c, t'.head? = some c → p c = false)
    (h : s ++ t = s' ++ t') : s = s' ∧ t = t' := by
  have hh := congrArg (List.takeWhile p) h
  have hr := congrArg (List.dropWhile p) h
  rw [takeWhile_run hs ht, takeWhile_run hs' ht'] at hh
  rw [dropWhile_run hs ht, dropWhile_run hs' ht'] at hr
  exact ⟨hh, hr⟩

def isTerminator (c : Char) : Bool := c == '>' || c == '.'

theorem IsEntry.exists_body (h : IsEntry t) :
    ∃ body c, t = body ++ [c] ∧ isTerminator c = true ∧ (∀ d ∈ body, isTerminator d = false) ∧
      ∀ d, t.head? = some d → d.isLower = true := by
  obtain ⟨letters, star, digits, append, terminator, hne, hl, hs, hd, ha, ht, rfl⟩ := h
  have lower : ∀ d : Char, d.isLower = true → isTerminator d = false := by
    intro d hd
    have := isLower_iff.mp hd
    rw [isTerminator, Bool.or_eq_false_iff, beq_eq_false_iff_ne, beq_eq_false_iff_ne]
    constructor <;> rintro rfl <;> simp at this
  have digit : ∀ d : Char, d.isDigit = true → isTerminator d = false := by
    intro d hd
    have := isDigit_iff.mp hd
    rw [isTerminator, Bool.or_eq_false_iff, beq_eq_false_iff_ne, beq_eq_false_iff_ne]
    constructor <;> rintro rfl <;> simp at this
  obtain ⟨c, hc, rfl⟩ : ∃ c, isTerminator c = true ∧ terminator = [c] := by
    rcases ht with rfl | rfl
    · exact ⟨'>', rfl, rfl⟩
    · exact ⟨'.', rfl, rfl⟩
  refine ⟨letters ++ star ++ digits ++ append, c, rfl, hc, ?_, ?_⟩
  · intro d hm
    simp only [List.mem_append] at hm
    rcases hm with ((hm | hm) | hm) | hm
    · exact lower d (hl d hm)
    · rcases hs with rfl | rfl
      · simp at hm
      · obtain rfl : d = '*' := by simpa using hm
        rfl
    · exact digit d (hd d hm)
    · exact lower d (ha d hm)
  · intro d hm
    obtain ⟨x, xs, rfl⟩ := List.exists_cons_of_ne_nil hne
    obtain rfl : x = d := by simpa using hm
    exact hl x List.mem_cons_self

/-- No entry begins another one. -/
theorem IsEntry.append_inj {t' u' : Text} (h : IsEntry t) (h' : IsEntry t')
    (heq : t ++ u = t' ++ u') : t = t' ∧ u = u' := by
  obtain ⟨b, c, rfl, hc, hb, -⟩ := h.exists_body
  obtain ⟨b', c', rfl, hc', hb', -⟩ := h'.exists_body
  rw [List.append_assoc, List.append_assoc] at heq
  obtain ⟨rfl, hr⟩ := run_append_inj (p := fun d => !isTerminator d) (by simpa using hb)
    (by simpa using hb') (by simp [hc]) (by simp [hc']) heq
  obtain ⟨rfl, rfl⟩ := List.cons.inj hr
  exact ⟨rfl, rfl⟩

theorem isEntry_endText : IsEntry endText :=
  ⟨['e', 'n', 'd'], [], ['0'], [], ['.'], by simp, by decide, .inl rfl, by simp, by decide,
    .inr rfl, rfl⟩

theorem linesText_cons (l : EntryLine) (ls : List EntryLine) :
    linesText (l :: ls) = l.blanks ++ (l.entry ++ (l.comment ++ '\n' :: linesText ls)) := by
  simp [linesText, EntryLine.text]

def SourceLayout.opening : SourceLayout → Text × Option (Text × Text)
  | ⟨l :: ls, x⟩ => (l.blanks, some (l.entry, l.comment ++ '\n' :: (linesText ls ++ x.text)))
  | ⟨[], .blanks w _⟩ => (w, none)
  | ⟨[], .line l⟩ => (l.blanks, some (l.entry, l.comment))
  | ⟨[], .closed w rest _⟩ => (w, some (endText, rest))

def openingText : Option (Text × Text) → Text
  | none => []
  | some (e, rest) => e ++ rest

theorem SourceLayout.text_eq_opening (x : SourceLayout) :
    x.text = x.opening.1 ++ openingText x.opening.2 := by
  obtain ⟨ls, f⟩ := x
  cases ls with
  | cons l ls => simp [SourceLayout.text, SourceLayout.opening, openingText, linesText_cons]
  | nil =>
    cases f <;> simp [SourceLayout.text, SourceLayout.opening, openingText, linesText,
      SourceEnd.text, EntryLine.text]

theorem SourceLayout.opening_isBlank (x : SourceLayout) : ∀ c ∈ x.opening.1, isBlank c = true := by
  obtain ⟨ls, f⟩ := x
  cases ls with
  | cons l ls => exact l.blanks_isBlank
  | nil =>
    cases f with
    | blanks w h => exact h
    | line l => exact l.blanks_isBlank
    | closed w rest h => exact h

theorem SourceLayout.opening_isEntry {x : SourceLayout} (h : x.opening.2 = some (s, t)) :
    IsEntry s := by
  obtain ⟨ls, f⟩ := x
  cases ls with
  | cons l ls =>
    obtain ⟨rfl, -⟩ := Prod.mk.inj (Option.some.inj h)
    exact l.isEntry
  | nil =>
    cases f with
    | blanks w h' => cases h
    | line l =>
      obtain ⟨rfl, -⟩ := Prod.mk.inj (Option.some.inj h)
      exact l.isEntry
    | closed w rest h' =>
      obtain ⟨rfl, -⟩ := Prod.mk.inj (Option.some.inj h)
      exact isEntry_endText

theorem SourceLayout.openingText_head (x : SourceLayout) :
    ∀ c, (openingText x.opening.2).head? = some c → isBlank c = false := by
  cases h : x.opening.2 with
  | none => simp [openingText]
  | some er =>
    obtain ⟨e, rest⟩ := er
    obtain ⟨body, d, rfl, -, -, hd⟩ := (SourceLayout.opening_isEntry h).exists_body
    refine not_isBlank_head fun c hc => hd c ?_
    cases body <;> simpa [openingText] using hc

theorem SourceLayout.opening_eq_of_text_eq {x y : SourceLayout} (h : x.text = y.text) :
    x.opening = y.opening := by
  rw [x.text_eq_opening, y.text_eq_opening] at h
  obtain ⟨hw, hr⟩ := run_append_inj x.opening_isBlank y.opening_isBlank x.openingText_head
    y.openingText_head h
  refine Prod.ext hw ?_
  have ne_nil : ∀ {e rest : Text}, IsEntry e → e ++ rest ≠ [] := by
    intro e rest he hn
    obtain ⟨body, d, rfl, -⟩ := he.exists_body
    simp at hn
  cases hx : x.opening.2 with
  | none =>
    cases hy : y.opening.2 with
    | none => rfl
    | some er =>
      rw [hx, hy] at hr
      exact absurd hr.symm (ne_nil (SourceLayout.opening_isEntry hy))
  | some er =>
    cases hy : y.opening.2 with
    | none =>
      rw [hx, hy] at hr
      exact absurd hr (ne_nil (SourceLayout.opening_isEntry hx))
    | some er' =>
      rw [hx, hy] at hr
      obtain ⟨he, hrest⟩ := (SourceLayout.opening_isEntry hx).append_inj
        (SourceLayout.opening_isEntry hy) hr
      exact congrArg some (Prod.ext he hrest)

theorem comment_append_inj {s' t' : Text} (hs : '\n' ∉ s) (hs' : '\n' ∉ s')
    (h : s ++ '\n' :: t = s' ++ '\n' :: t') : s = s' ∧ t = t' := by
  have inLine : ∀ {x : Text}, '\n' ∉ x → ∀ c ∈ x, (c != '\n') = true := by
    intro x hx c hc
    rw [bne_iff_ne]
    rintro rfl
    exact hx hc
  obtain ⟨rfl, hr⟩ := run_append_inj (inLine hs) (inLine hs') (by simp) (by simp) h
  exact ⟨rfl, (List.cons.inj hr).2⟩

theorem SourceLayout.opening_cons_ne_nil (l : EntryLine) (ls : List EntryLine) (f f' : SourceEnd) :
    SourceLayout.opening ⟨l :: ls, f⟩ ≠ SourceLayout.opening ⟨[], f'⟩ := by
  intro h
  cases f' with
  | blanks w hw => cases (Prod.mk.inj h).2
  | line l' =>
    obtain ⟨-, hc⟩ := Prod.mk.inj (Option.some.inj (Prod.mk.inj h).2)
    apply l'.comment_inLine
    rw [← hc]
    simp
  | closed w rest hw =>
    obtain ⟨he, -⟩ := Prod.mk.inj (Option.some.inj (Prod.mk.inj h).2)
    exact l.entry_ne_end he

theorem SourceEnd.eq_of_opening_eq {f f' : SourceEnd}
    (h : SourceLayout.opening ⟨[], f⟩ = SourceLayout.opening ⟨[], f'⟩) : f = f' := by
  cases f with
  | blanks w hw =>
    cases f' with
    | blanks w' hw' =>
      obtain rfl := (Prod.mk.inj h).1
      rfl
    | line l' => cases (Prod.mk.inj h).2
    | closed w' rest' hw' => cases (Prod.mk.inj h).2
  | line l =>
    cases f' with
    | blanks w' hw' => cases (Prod.mk.inj h).2
    | line l' =>
      obtain ⟨hb, ho⟩ := Prod.mk.inj h
      obtain ⟨he, hc⟩ := Prod.mk.inj (Option.some.inj ho)
      exact congrArg SourceEnd.line (EntryLine.ext hb he hc)
    | closed w' rest' hw' =>
      obtain ⟨he, -⟩ := Prod.mk.inj (Option.some.inj (Prod.mk.inj h).2)
      exact absurd he l.entry_ne_end
  | closed w rest hw =>
    cases f' with
    | blanks w' hw' => cases (Prod.mk.inj h).2
    | line l' =>
      obtain ⟨he, -⟩ := Prod.mk.inj (Option.some.inj (Prod.mk.inj h).2)
      exact absurd he.symm l'.entry_ne_end
    | closed w' rest' hw' =>
      obtain ⟨rfl, ho⟩ := Prod.mk.inj h
      obtain ⟨-, rfl⟩ := Prod.mk.inj (Option.some.inj ho)
      rfl

theorem SourceLayout.text_injective : Function.Injective SourceLayout.text := by
  rintro ⟨ls, f⟩ ⟨ls', f'⟩ h
  induction ls generalizing ls' with
  | nil =>
    have ho := SourceLayout.opening_eq_of_text_eq h
    cases ls' with
    | nil => rw [SourceEnd.eq_of_opening_eq ho]
    | cons l' ls' => exact absurd ho.symm (SourceLayout.opening_cons_ne_nil l' ls' f' f)
  | cons l ls ih =>
    have ho := SourceLayout.opening_eq_of_text_eq h
    cases ls' with
    | nil => exact absurd ho (SourceLayout.opening_cons_ne_nil l ls f f')
    | cons l' ls' =>
      obtain ⟨hb, her⟩ := Prod.mk.inj ho
      obtain ⟨he, hr⟩ := Prod.mk.inj (Option.some.inj her)
      obtain ⟨hc, ht⟩ := comment_append_inj l.comment_inLine l'.comment_inLine hr
      obtain ⟨hls, hf⟩ := SourceLayout.mk.inj (ih ls' ht)
      rw [EntryLine.ext hb he hc, hls, hf]

theorem Spells.isEntry (h : Spells t e) : IsEntry t := by
  obtain ⟨e, hd, -⟩ := h
  refine ⟨e.suffix.reverse, if e.intactOnly then ['*'] else [], e.digits, e.append,
    [if e.continues then '>' else '.'], by simpa using e.suffix_ne_nil, e.suffix_lower.reverse, ?_,
    hd, e.append_lower, ?_, rfl⟩
  · cases e.intactOnly <;> simp
  · cases e.continues <;> simp

/-- The letters behind a run of letters belong to that run, unless a star or a digit parts them. -/
theorem IsEntry.exists_spells (h : IsEntry t) : ∃ e, Spells t e := by
  obtain ⟨letters, star, digits, append, terminator, hne, hl, hs, hd, ha, ht, rfl⟩ := h
  obtain ⟨continues, rfl⟩ : ∃ b : Bool, terminator = [if b then '>' else '.'] := by
    rcases ht with rfl | rfl
    · exact ⟨true, rfl⟩
    · exact ⟨false, rfl⟩
  obtain ⟨intactOnly, rfl⟩ : ∃ b : Bool, star = if b then ['*'] else [] := by
    rcases hs with rfl | rfl
    · exact ⟨false, rfl⟩
    · exact ⟨true, rfl⟩
  by_cases hp : intactOnly = true ∨ digits ≠ []
  · refine ⟨⟨letters.reverse, intactOnly, digits, append, continues, by simpa using hne, hl.reverse,
      ha⟩, ?_⟩
    have := Spells.intro ⟨letters.reverse, intactOnly, digits, append, continues,
      by simpa using hne, hl.reverse, ha⟩ hd fun _ => hp
    simpa [Entry.text] using this
  · obtain ⟨hi, hdn⟩ := not_or.mp hp
    obtain rfl : digits = [] := not_not.mp hdn
    obtain rfl : intactOnly = false := Bool.eq_false_iff.mpr hi
    have hla : Text.IsLower (letters ++ append) := by
      intro c hc
      rcases List.mem_append.mp hc with hc | hc
      · exact hl c hc
      · exact ha c hc
    have hnil : Text.IsLower [] := by
      intro c hc
      cases hc
    refine ⟨⟨(letters ++ append).reverse, false, [], [], continues, by simp [hne], hla.reverse,
      hnil⟩, ?_⟩
    have := Spells.intro ⟨(letters ++ append).reverse, false, [], [], continues, by simp [hne],
      hla.reverse, hnil⟩ (by simp) (by simp)
    simpa [Entry.text] using this

theorem decimalValue_eq_ofDigits (t : Text) :
    Text.decimalValue t = Nat.ofDigits 10 (t.reverse.map digitValue) := by
  induction t using List.reverseRecOn with
  | nil => rfl
  | append_singleton t c ih =>
    rw [List.reverse_append, List.reverse_singleton, List.singleton_append, List.map_cons,
      Nat.ofDigits_cons, ← ih, Text.decimalValue, List.foldl_append, Text.decimalValue]
    simp [Nat.add_comm]

theorem filter_isDigit_eq_nil (h : t.IsLower) : t.filter Char.isDigit = [] :=
  List.filter_eq_nil_iff.mpr fun c hc => by simp [isDigit_eq_false_of_isLower (h c hc)]

theorem filter_isLower_eq_nil (h : ∀ c ∈ t, c.isDigit = true) : t.filter Char.isLower = [] :=
  List.filter_eq_nil_iff.mpr fun c hc => by simp [isLower_eq_false_of_isDigit (h c hc)]

def Entry.rest (e : Entry) : Text :=
  (if e.intactOnly then ['*'] else []) ++ e.digits ++ e.append ++ [if e.continues then '>' else '.']

theorem Spells.text_eq (h : Spells t e) : t = e.suffix.reverse ++ e.rest := by
  cases h
  simp [Entry.text, Entry.rest]

theorem Spells.rest_head (h : Spells t e) : ∀ c, e.rest.head? = some c → c.isLower = false := by
  obtain ⟨e, hd, hs⟩ := h
  intro c hc
  unfold Entry.rest at hc
  cases hi : e.intactOnly with
  | true =>
    obtain rfl : '*' = c := by simpa [hi] using hc
    rfl
  | false =>
    cases hg : e.digits with
    | cons x xs =>
      obtain rfl : x = c := by simpa [hi, hg] using hc
      exact isLower_eq_false_of_isDigit (hd x (by simp [hg]))
    | nil =>
      have ha : e.append = [] := by
        by_contra hne
        simpa [hi, hg] using hs hne
      cases hco : e.continues <;> simp [hi, hg, ha, hco] at hc <;> subst hc <;> rfl

theorem filter_isDigit_text (hd : ∀ c ∈ e.digits, c.isDigit = true) :
    e.text.filter Char.isDigit = e.digits := by
  have hs : (if e.intactOnly then ['*'] else []).filter Char.isDigit = [] := by
    cases e.intactOnly <;> rfl
  have ht : [if e.continues then '>' else '.'].filter Char.isDigit = [] := by
    cases e.continues <;> rfl
  rw [Entry.text, List.filter_append, List.filter_append, List.filter_append, List.filter_append,
    filter_isDigit_eq_nil e.suffix_lower.reverse, hs, List.filter_eq_self.mpr hd,
    filter_isDigit_eq_nil e.append_lower, ht]
  simp

theorem filter_isLower_rest (hd : ∀ c ∈ e.digits, c.isDigit = true) :
    e.rest.filter Char.isLower = e.append := by
  have hs : (if e.intactOnly then ['*'] else []).filter Char.isLower = [] := by
    cases e.intactOnly <;> rfl
  have ht : [if e.continues then '>' else '.'].filter Char.isLower = [] := by
    cases e.continues <;> rfl
  rw [Entry.rest, List.filter_append, List.filter_append, List.filter_append, hs,
    filter_isLower_eq_nil hd, List.filter_eq_self.mpr e.append_lower, ht]
  simp

theorem star_mem_text (hd : ∀ c ∈ e.digits, c.isDigit = true) :
    '*' ∈ e.text ↔ e.intactOnly = true := by
  have hsuffix : '*' ∉ e.suffix := fun h => by simpa using e.suffix_lower _ h
  have happend : '*' ∉ e.append := fun h => by simpa using e.append_lower _ h
  have hdigits : '*' ∉ e.digits := fun h => by simpa using hd _ h
  cases hi : e.intactOnly <;> cases hc : e.continues <;>
    simp [Entry.text, hi, hc, hsuffix, happend, hdigits]

theorem Spells.reads (h : Spells t e) (number : Nat) : (e.rule number).Reads number t := by
  have hrun := h.text_eq
  have hhead := h.rest_head
  have hlow := e.suffix_lower.reverse
  obtain ⟨e, hd, hs⟩ := h
  constructor
  · rfl
  · rfl
  · rw [hrun, takeWhile_run hlow hhead, List.reverse_reverse]
    rfl
  · exact (star_mem_text hd).symm
  · rw [filter_isDigit_text hd, ← decimalValue_eq_ofDigits]
    rfl
  · rw [hrun, dropWhile_run hlow hhead, filter_isLower_rest hd]
    rfl
  · rw [Entry.text, List.getLast?_append]
    cases hc : e.continues <;> simp [Entry.rule, hc]

end Lancaster

import Lancaster.Proofs.SourceLayout
import Lancaster.Proofs.StemLetters

/-!
Words as runs of letters. Every text is laid out in runs of ASCII letters with gaps around them, in
one way only, and its words are these runs in small letters. So no letter is lost or moved, every
other character separates, and words that are joined by spaces are found again.
-/
namespace Lancaster

def IsLetter (c : Char) : Prop := 65 ≤ c.toNat ∧ c.toNat ≤ 90 ∨ 97 ≤ c.toNat ∧ c.toNat ≤ 122

instance (c : Char) : Decidable (IsLetter c) :=
  inferInstanceAs (Decidable ((_ ∧ _) ∨ (_ ∧ _)))

@[ext] structure LetterRun where
  letters : Text
  gap : Text
  letters_ne_nil : letters ≠ []
  letters_isLetter : ∀ c ∈ letters, IsLetter c
  gap_separates : ∀ c ∈ gap, ¬ IsLetter c

def LetterRun.text (r : LetterRun) : Text := r.letters ++ r.gap

def LetterRun.word (r : LetterRun) : Word := r.letters.map Char.toLower

/-- Two runs never touch; only the gaps at both ends of a text may be empty. -/
def Parted (runs : List LetterRun) : Prop := ∀ r ∈ runs.dropLast, r.gap ≠ []

def runsText (runs : List LetterRun) : Text := runs.flatMap LetterRun.text

@[ext] structure RunLayout where
  opening : Text
  runs : List LetterRun
  opening_separates : ∀ c ∈ opening, ¬ IsLetter c
  parted : Parted runs

def RunLayout.text (x : RunLayout) : Text := x.opening ++ runsText x.runs

variable {c : Char} {s t g letters : Text} {w : Word} {r : LetterRun} {runs runs' : List LetterRun}

theorem isAlpha_iff : c.isAlpha = true ↔ IsLetter c := by
  have hupper : c.isUpper = true ↔ 65 ≤ c.toNat ∧ c.toNat ≤ 90 := by
    change decide (65 ≤ c.val ∧ c.val ≤ 90) = true ↔ _
    rw [decide_eq_true_iff, UInt32.le_iff_toNat_le, UInt32.le_iff_toNat_le]
    exact Iff.rfl
  change (c.isUpper || c.isLower) = true ↔ _
  rw [Bool.or_eq_true, hupper, isLower_iff, IsLetter]

theorem toLower_of_isLower (h : c.isLower = true) : c.toLower = c := by
  have hc := isLower_iff.mp h
  unfold Char.toLower
  split
  · rename_i hupper
    have hto : c.toNat ≤ 90 := UInt32.le_iff_toNat_le.mp hupper.2
    omega
  · rfl

theorem wordsFrom_letters (hs : ∀ c ∈ s, IsLetter c) :
    wordsFrom letters (s ++ t) = wordsFrom ((s.map Char.toLower).reverse ++ letters) t := by
  induction s generalizing letters with
  | nil => rfl
  | cons c s ih =>
    have hc : c.isAlpha = true := isAlpha_iff.mpr (hs c List.mem_cons_self)
    rw [List.cons_append, wordsFrom, if_pos hc, ih fun d hd => hs d (List.mem_cons_of_mem c hd)]
    simp

/-- What is no letter closes the open word, and the scan starts anew behind it. -/
theorem wordsFrom_append_cons (hc : ¬ IsLetter c) (s t : Text) :
    wordsFrom letters (s ++ c :: t) = wordsFrom letters s ++ t.words := by
  induction s generalizing letters with
  | nil =>
    have hclosed : wordsFrom letters (c :: t) = closeWord letters ++ wordsFrom [] t := by
      rw [wordsFrom, if_neg (mt isAlpha_iff.mp hc)]
    exact hclosed
  | cons d s ih =>
    rw [List.cons_append, wordsFrom, wordsFrom]
    by_cases hd : d.isAlpha = true
    · rw [if_pos hd, if_pos hd, ih]
    · rw [if_neg hd, if_neg hd, ih, List.append_assoc]

theorem Text.words_append_cons (hc : ¬ IsLetter c) (s t : Text) :
    Text.words (s ++ c :: t) = s.words ++ t.words :=
  wordsFrom_append_cons hc s t

theorem Text.words_gap_append (hg : ∀ c ∈ g, ¬ IsLetter c) (t : Text) :
    Text.words (g ++ t) = t.words := by
  induction g with
  | nil => rfl
  | cons c g ih =>
    have hrest := ih fun d hd => hg d (List.mem_cons_of_mem c hd)
    have hc := Text.words_append_cons (hg c List.mem_cons_self) [] (g ++ t)
    rw [List.nil_append] at hc
    rw [List.cons_append, hc, hrest]
    rfl

theorem Text.words_of_letters (hne : s ≠ []) (hs : ∀ c ∈ s, IsLetter c) :
    s.words = [s.map Char.toLower] := by
  have hscan : wordsFrom [] (s ++ []) = wordsFrom ((s.map Char.toLower).reverse ++ []) [] :=
    wordsFrom_letters hs
  rw [List.append_nil, List.append_nil] at hscan
  rw [Text.words, hscan, wordsFrom, closeWord, if_neg (by simpa using hne), List.reverse_reverse]

theorem flatten_wordsFrom (letters t : Text) :
    (wordsFrom letters t).flatten =
      letters.reverse ++ (t.filter fun c => decide (IsLetter c)).map Char.toLower := by
  have hclose : ∀ letters : Text, (closeWord letters).flatten = letters.reverse := by
    intro letters
    cases letters <;> simp [closeWord]
  induction t generalizing letters with
  | nil => simp [wordsFrom, hclose]
  | cons c t ih =>
    rw [wordsFrom]
    by_cases hc : IsLetter c
    · rw [if_pos (isAlpha_iff.mpr hc), ih]
      simp [hc]
    · rw [if_neg (mt isAlpha_iff.mp hc), List.flatten_append, hclose, ih]
      simp [hc]

theorem Parted.tail (h : Parted (r :: runs)) : Parted runs := by
  cases runs with
  | nil => nofun
  | cons s runs =>
    intro u hu
    exact h u (List.mem_cons_of_mem r hu)

theorem Parted.eq_nil_of_gap (h : Parted (r :: runs)) (hg : r.gap = []) : runs = [] := by
  cases runs with
  | nil => rfl
  | cons s runs => exact absurd hg (h r List.mem_cons_self)

theorem runsText_cons (r : LetterRun) (runs : List LetterRun) :
    runsText (r :: runs) = r.letters ++ (r.gap ++ runsText runs) := by
  simp [runsText, LetterRun.text]

theorem isLetter_of_head_runsText (h : (runsText runs).head? = some c) : IsLetter c := by
  cases runs with
  | nil => cases h
  | cons r runs =>
    obtain ⟨d, ds, hd⟩ := List.exists_cons_of_ne_nil r.letters_ne_nil
    rw [runsText_cons, hd] at h
    obtain rfl := Option.some.inj h
    exact r.letters_isLetter d (hd ▸ List.mem_cons_self)

theorem Parted.not_isLetter_behind (h : Parted (r :: runs))
    (hc : (r.gap ++ runsText runs).head? = some c) : ¬ IsLetter c := by
  by_cases hg : r.gap = []
  · rw [hg, h.eq_nil_of_gap hg] at hc
    cases hc
  · obtain ⟨d, ds, hd⟩ := List.exists_cons_of_ne_nil hg
    rw [hd] at hc
    obtain rfl := Option.some.inj hc
    exact r.gap_separates d (hd ▸ List.mem_cons_self)

theorem words_runsText (h : Parted runs) : (runsText runs).words = runs.map LetterRun.word := by
  induction runs with
  | nil => rfl
  | cons r runs ih =>
    have hrun : r.letters.words = [r.word] :=
      Text.words_of_letters r.letters_ne_nil r.letters_isLetter
    rw [runsText_cons, List.map_cons]
    by_cases hg : r.gap = []
    · obtain rfl := h.eq_nil_of_gap hg
      rw [hg]
      simpa [runsText] using hrun
    · obtain ⟨c, g, hcg⟩ := List.exists_cons_of_ne_nil hg
      have hgap : ∀ d ∈ c :: g, ¬ IsLetter d := hcg ▸ r.gap_separates
      rw [hcg, List.cons_append, Text.words_append_cons (hgap c List.mem_cons_self), hrun,
        Text.words_gap_append fun d hd => hgap d (List.mem_cons_of_mem c hd), ih h.tail]
      rfl

theorem RunLayout.words_text (x : RunLayout) : x.text.words = x.runs.map LetterRun.word := by
  rw [RunLayout.text, Text.words_gap_append x.opening_separates, words_runsText x.parted]

theorem runsText_injective (h : Parted runs) (h' : Parted runs')
    (htext : runsText runs = runsText runs') : runs = runs' := by
  have hempty : ∀ (r : LetterRun) (rs : List LetterRun), runsText (r :: rs) ≠ [] := by
    intro r rs
    simp [runsText_cons, r.letters_ne_nil]
  induction runs generalizing runs' with
  | nil =>
    cases runs' with
    | nil => rfl
    | cons r' runs' => exact absurd htext.symm (hempty r' runs')
  | cons r runs ih =>
    cases runs' with
    | nil => exact absurd htext (hempty r runs)
    | cons r' runs' =>
      rw [runsText_cons, runsText_cons] at htext
      obtain ⟨hletters, hbehind⟩ := run_append_inj (p := fun c => decide (IsLetter c))
        (by simpa using r.letters_isLetter) (by simpa using r'.letters_isLetter)
        (fun c hc => by simpa using h.not_isLetter_behind hc)
        (fun c hc => by simpa using h'.not_isLetter_behind hc) htext
      obtain ⟨hgap, hruns⟩ := run_append_inj (p := fun c => !decide (IsLetter c))
        (by simpa using r.gap_separates) (by simpa using r'.gap_separates)
        (fun c hc => by simpa using isLetter_of_head_runsText hc)
        (fun c hc => by simpa using isLetter_of_head_runsText hc) hbehind
      rw [LetterRun.ext hletters hgap, ih h.tail h'.tail hruns]

theorem RunLayout.text_injective {x y : RunLayout} (h : x.text = y.text) : x = y := by
  obtain ⟨hopening, hruns⟩ := run_append_inj (p := fun c => !decide (IsLetter c))
    (by simpa using x.opening_separates) (by simpa using y.opening_separates)
    (fun c hc => by simpa using isLetter_of_head_runsText hc)
    (fun c hc => by simpa using isLetter_of_head_runsText hc) h
  exact RunLayout.ext hopening (runsText_injective x.parted y.parted hruns)

theorem Parted.cons (h : Parted runs) (hr : runs ≠ [] → r.gap ≠ []) : Parted (r :: runs) := by
  cases runs with
  | nil => nofun
  | cons s runs =>
    intro u hu
    rcases List.mem_cons.mp hu with rfl | hu
    · exact hr (by simp)
    · exact h u hu

/-- One character in front of a layout: it widens the opening, lengthens the first run, or is a run
of its own before the opening. -/
theorem RunLayout.exists_text_eq_cons (c : Char) (x : RunLayout) :
    ∃ y : RunLayout, y.text = c :: x.text := by
  obtain ⟨g, runs, hg, hparted⟩ := x
  by_cases hc : IsLetter c
  · have alone : ∀ d ∈ [c], IsLetter d := by simpa using hc
    by_cases hopen : g = []
    · subst hopen
      cases runs with
      | nil => exact ⟨⟨[], [⟨[c], [], by simp, alone, nofun⟩], nofun, nofun⟩, rfl⟩
      | cons r runs =>
        have hletters : ∀ d ∈ c :: r.letters, IsLetter d := by simpa [hc] using r.letters_isLetter
        refine ⟨⟨[], ⟨c :: r.letters, r.gap, by simp, hletters, r.gap_separates⟩ :: runs, nofun,
          hparted.tail.cons fun hne hgap => ?_⟩, ?_⟩
        · exact hne (hparted.eq_nil_of_gap hgap)
        · simp [RunLayout.text, runsText_cons]
    · exact ⟨⟨[], ⟨[c], g, by simp, alone, hg⟩ :: runs, nofun, hparted.cons fun _ => hopen⟩,
        by simp [RunLayout.text, runsText_cons]⟩
  · have hwide : ∀ d ∈ c :: g, ¬ IsLetter d := by simpa [hc] using hg
    exact ⟨⟨c :: g, runs, hwide, hparted⟩, rfl⟩

theorem RunLayout.exists_text_eq (t : Text) : ∃ x : RunLayout, x.text = t := by
  induction t with
  | nil => exact ⟨⟨[], [], nofun, nofun⟩, rfl⟩
  | cons c t ih =>
    obtain ⟨x, rfl⟩ := ih
    exact x.exists_text_eq_cons c

theorem words_joinWith_space {words : List Word} (h : ∀ w ∈ words, w ≠ [] ∧ w.IsLower) :
    Text.words (joinWith [' '] words) = words := by
  have hword : ∀ w ∈ words, Text.words w = [w] := by
    intro w hw
    obtain ⟨hne, hlower⟩ := h w hw
    have hletters : ∀ c ∈ w, IsLetter c := fun c hc => .inr (isLower_iff.mp (hlower c hc))
    have hsame : w.map Char.toLower = w := by
      rw [List.map_congr_left fun c hc => toLower_of_isLower (hlower c hc), List.map_id']
    rw [Text.words_of_letters hne hletters, hsame]
  induction words with
  | nil => rfl
  | cons w words ih =>
    have hw := hword w List.mem_cons_self
    cases words with
    | nil => exact hw
    | cons v words =>
      have hrest := ih (fun u hu => h u (List.mem_cons_of_mem w hu))
        fun u hu => hword u (List.mem_cons_of_mem w hu)
      rw [joinWith, List.append_assoc, List.singleton_append,
        Text.words_append_cons (by decide), hw, hrest, List.singleton_append]
      simp

/-- A text has one layout, and its words are the runs of this layout in small letters. They are
written with small letters, hold all letters in order, and are the words of the text that joins them
by spaces. Every character that is no letter of ASCII only separates. -/
theorem Text.words_laidOut (t : Text) :
    ∃ x : RunLayout, x.text = t ∧ (∀ y : RunLayout, y.text = t → y = x) ∧
      t.words = x.runs.map LetterRun.word ∧
      (∀ w ∈ t.words, w ≠ [] ∧ w.IsLower) ∧
      t.words.flatten = (t.filter fun c => decide (IsLetter c)).map Char.toLower ∧
      Text.words (joinWith [' '] t.words) = t.words ∧
      ∀ a c b, t = a ++ c :: b → ¬ IsLetter c → t.words = Text.words a ++ Text.words b := by
  obtain ⟨x, rfl⟩ := RunLayout.exists_text_eq t
  have hlower : ∀ w ∈ x.text.words, w ≠ [] ∧ w.IsLower := fun w hw => Text.mem_words hw
  refine ⟨x, rfl, fun y hy => RunLayout.text_injective hy, x.words_text, hlower, ?_,
    words_joinWith_space hlower, ?_⟩
  · exact flatten_wordsFrom [] x.text
  · intro a c b htext hc
    rw [htext, Text.words_append_cons hc]

/-- The sign for kelvin is no letter of ASCII, though its small form is one. -/
example : Text.words "2\u212AgDon't é\u0130A".toList =
    ["gdon".toList, "t".toList, "a".toList] := by decide

end Lancaster

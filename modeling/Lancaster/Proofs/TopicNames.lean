import Lancaster.Config.Json5
import Lancaster.Proofs.LetterRuns
import Lancaster.Source.Session
import Mathlib.Data.List.TakeWhile

/-!
Names of debug topics. A listed name is stripped of blanks and then made small, a name that is
looked up is made small and then stripped. Blanks have no case and the small form of anything else
is no blank, so both come to the same: a topic that is listed is on, however it is spelled.
-/
namespace Lancaster

def Blanks (t : Text) : Prop := ∀ c ∈ t, isBlank c = true

instance (t : Text) : Decidable (Blanks t) :=
  List.decidableBAll (fun c : Char => isBlank c = true) t

structure Stripped (t : Text) : Prop where
  head : ∀ c, t.head? = some c → isBlank c = false
  last : ∀ c, t.getLast? = some c → isBlank c = false

def blankCode (n : Nat) : Bool := blankRanges.any fun r => r.holds n

def CodeRange.apart (r s : CodeRange) : Bool := r.2 < s.1 || s.2 < r.1

def CaseRun.apart (r : CaseRun) (s : CodeRange) : Bool :=
  CodeRange.apart (r.first, r.last) s && CodeRange.apart (r.image r.first, r.image r.last) s

variable {a b t before after : Text} {c d : Char} {n : Nat} {ranges : List CodeRange}

theorem blankCode_iff : blankCode n = true ↔ ∃ s ∈ blankRanges, s.1 ≤ n ∧ n ≤ s.2 := by
  simp [blankCode, CodeRange.holds]

theorem CodeRange.apart_iff {r s : CodeRange} : r.apart s = true ↔ r.2 < s.1 ∨ s.2 < r.1 := by
  simp [CodeRange.apart]

theorem CaseRun.apart_iff {r : CaseRun} {s : CodeRange} :
    r.apart s = true ↔ (r.last < s.1 ∨ s.2 < r.first) ∧
      (r.image r.last < s.1 ∨ s.2 < r.image r.first) := by
  simp only [CaseRun.apart, Bool.and_eq_true, CodeRange.apart_iff]

theorem CaseRun.le_of_holds {r : CaseRun} (h : r.holds n = true) : r.first ≤ n ∧ n ≤ r.last := by
  simp only [CaseRun.holds, Bool.and_eq_true, decide_eq_true_eq] at h
  exact h.1

theorem CaseRun.image_mono {r : CaseRun} {m : Nat} (h : n ≤ m) : r.image n ≤ r.image m := by
  unfold CaseRun.image
  omega

theorem inRanges_eq_false_of_isBlank
    (h : ∀ s ∈ blankRanges, ∀ r ∈ ranges, CodeRange.apart r s = true) (hc : isBlank c = true) :
    inRanges ranges c = false := by
  obtain ⟨s, hs, hlow, hhigh⟩ := blankCode_iff.mp hc
  rw [inRanges, List.any_eq_false]
  intro r hr hholds
  have hapart := CodeRange.apart_iff.mp (h s hs r hr)
  simp only [CodeRange.holds, Bool.and_eq_true, decide_eq_true_eq] at hholds
  omega

theorem isCaseIgnorable_eq_false_of_isBlank (hc : isBlank c = true) : isCaseIgnorable c = false :=
  inRanges_eq_false_of_isBlank (by decide +kernel) hc

theorem not_cased_of_isBlank (hc : isBlank c = true) : inRanges casedRanges c = false :=
  inRanges_eq_false_of_isBlank (by decide +kernel) hc

theorem lowerRuns_apart : ∀ s ∈ blankRanges, ∀ r ∈ lowerRuns, r.apart s = true := by decide +kernel

theorem imageOf_lowerRuns_of_blankCode (hn : blankCode n = true) : imageOf lowerRuns n = n := by
  obtain ⟨s, hs, hlow, hhigh⟩ := blankCode_iff.mp hn
  have hnone : lowerRuns.find? (·.holds n) = none := by
    rw [List.find?_eq_none]
    intro r hr hholds
    have hwithin := CaseRun.le_of_holds hholds
    have hapart := (CaseRun.apart_iff.mp (lowerRuns_apart s hs r hr)).1
    omega
  rw [imageOf, hnone]

theorem blankCode_imageOf_lowerRuns (hn : blankCode n = false) :
    blankCode (imageOf lowerRuns n) = false := by
  rw [imageOf]
  split
  · rename_i r hr
    rw [← Bool.not_eq_true, blankCode_iff]
    rintro ⟨s, hs, hlow, hhigh⟩
    have hholds : r.holds n = true := by simpa using List.find?_some hr
    have hwithin := CaseRun.le_of_holds hholds
    have hfirst : r.image r.first ≤ r.image n := CaseRun.image_mono hwithin.1
    have hlast : r.image n ≤ r.image r.last := CaseRun.image_mono hwithin.2
    have hapart :=
      (CaseRun.apart_iff.mp (lowerRuns_apart s hs r (List.mem_of_find?_eq_some hr))).2
    omega
  · exact hn

/-- A number that is the code of no character makes the character of code zero, no blank either. -/
theorem isBlank_ofNat (hn : blankCode n = false) : isBlank (Char.ofNat n) = false := by
  by_cases hvalid : n.isValidChar
  · have hkept : Char.ofNat n = Char.ofNatAux n hvalid := dif_pos hvalid
    rw [hkept]
    exact hn
  · have hzero : Char.ofNat n = '\x00' := dif_neg hvalid
    rw [hzero]
    decide

theorem toLower_of_not_isLetter (hc : ¬ IsLetter c) : c.toLower = c := by
  unfold Char.toLower
  split
  · rename_i hupper
    have hfrom : 65 ≤ c.toNat := UInt32.le_iff_toNat_le.mp hupper.1
    have hto : c.toNat ≤ 90 := UInt32.le_iff_toNat_le.mp hupper.2
    exact absurd (.inl ⟨hfrom, hto⟩) hc
  · rfl

theorem isBlank_eq_false_of_isLetter (hc : IsLetter c) : isBlank c = false := by
  unfold IsLetter at hc
  exact isBlank_eq_false_of_visible (by omega) (by omega)

theorem lowerChar_of_isBlank (hc : isBlank c = true) : lowerChar c = [c] := by
  rw [lowerChar]
  split
  · have hletter : ¬ IsLetter c := fun h => by
      rw [isBlank_eq_false_of_isLetter h] at hc
      cases hc
    rw [toLower_of_not_isLetter hletter]
  · split
    · rename_i hdotted
      have hdot : blankCode c.toNat = true := hc
      rw [eq_of_beq hdotted] at hdot
      exact absurd hdot (by decide)
    · rw [imageOf_lowerRuns_of_blankCode hc, Char.ofNat_toNat]

theorem isBlank_lowerChar (hc : isBlank c = false) (hd : d ∈ lowerChar c) : isBlank d = false := by
  rw [lowerChar] at hd
  split at hd
  · obtain rfl := List.mem_singleton.mp hd
    by_cases hletter : IsLetter c
    · exact isBlank_eq_false_of_isLower (isLower_toLower (isAlpha_iff.mpr hletter))
    · rwa [toLower_of_not_isLetter hletter]
  · split at hd
    · rcases List.mem_pair.mp hd with rfl | rfl <;> decide
    · obtain rfl := List.mem_singleton.mp hd
      exact isBlank_ofNat (blankCode_imageOf_lowerRuns hc)

theorem lowerChar_ne_nil (c : Char) : lowerChar c ≠ [] := by
  rw [lowerChar]
  split
  · simp
  · split <;> simp

/-- No cased character is found by looking past the end of a text into blanks. -/
theorem meetsCased_append_blanks (hb : Blanks b) (t : Text) :
    meetsCased (t ++ b) = meetsCased t := by
  induction t with
  | nil =>
    cases b with
    | nil => rfl
    | cons c b =>
      have hc := hb c List.mem_cons_self
      rw [List.nil_append, meetsCased,
        List.dropWhile_cons_of_neg (by simp [isCaseIgnorable_eq_false_of_isBlank hc])]
      exact not_cased_of_isBlank hc
  | cons c t ih =>
    by_cases hc : isCaseIgnorable c = true
    · rw [meetsCased, meetsCased, List.cons_append, List.dropWhile_cons_of_pos hc,
        List.dropWhile_cons_of_pos hc]
      exact ih
    · rw [meetsCased, meetsCased, List.cons_append, List.dropWhile_cons_of_neg hc,
        List.dropWhile_cons_of_neg hc]

theorem lowerBetween_append_blanks (ha : Blanks a) (hb : Blanks b) (before : Text) (c : Char)
    (after : Text) :
    lowerBetween (before ++ a) c (after ++ b) = lowerBetween before c after := by
  rw [lowerBetween, meetsCased_append_blanks ha, meetsCased_append_blanks hb, lowerBetween]

theorem lowerBetween_of_isBlank (hc : isBlank c = true) (before after : Text) :
    lowerBetween before c after = [c] := by
  have hsigma : (c == capitalSigma) = false := by
    rw [beq_eq_false_iff_ne]
    rintro rfl
    exact absurd hc (by decide)
  rw [lowerBetween, hsigma]
  exact lowerChar_of_isBlank hc

theorem lowerBetween_ne_nil (before : Text) (c : Char) (after : Text) :
    lowerBetween before c after ≠ [] := by
  unfold lowerBetween
  split
  · simp
  · exact lowerChar_ne_nil c

theorem isBlank_lowerBetween (hc : isBlank c = false) (hd : d ∈ lowerBetween before c after) :
    isBlank d = false := by
  unfold lowerBetween at hd
  split at hd
  · obtain rfl := List.mem_singleton.mp hd
    decide
  · exact isBlank_lowerChar hc hd

theorem lowerFrom_blanks_append (ha : Blanks a) (before t : Text) :
    lowerFrom before (a ++ t) = a ++ lowerFrom (a.reverse ++ before) t := by
  induction a generalizing before with
  | nil => rfl
  | cons c a ih =>
    have hrest : Blanks a := fun x hx => ha x (List.mem_cons_of_mem c hx)
    rw [List.cons_append, lowerFrom, lowerBetween_of_isBlank (ha c List.mem_cons_self), ih hrest]
    simp

theorem lowerFrom_append_blanks (ha : Blanks a) (hb : Blanks b) (before t : Text) :
    lowerFrom (before ++ a) (t ++ b) = lowerFrom before t ++ b := by
  induction t generalizing before with
  | nil =>
    have hkept := lowerFrom_blanks_append hb (before ++ a) []
    rw [List.append_nil, lowerFrom, List.append_nil] at hkept
    exact hkept
  | cons c t ih =>
    rw [List.cons_append, lowerFrom, lowerBetween_append_blanks ha hb, ← List.cons_append, ih,
      lowerFrom, List.append_assoc]

theorem Text.lower_surrounded (ha : Blanks a) (hb : Blanks b) (t : Text) :
    Text.lower (a ++ t ++ b) = a ++ t.lower ++ b := by
  have hreverse : Blanks a.reverse := fun c hc => ha c (List.mem_reverse.mp hc)
  rw [Text.lower, List.append_assoc, lowerFrom_blanks_append ha, List.append_nil,
    ← List.nil_append a.reverse, lowerFrom_append_blanks hreverse hb, ← List.append_assoc,
    Text.lower]

theorem Text.lower_eq_nil_iff : t.lower = [] ↔ t = [] := by
  cases t with
  | nil => simp [Text.lower, lowerFrom]
  | cons c t => simp [Text.lower, lowerFrom, lowerBetween_ne_nil]

theorem lowerFrom_concat (before t : Text) (c : Char) :
    ∃ first context, lowerFrom before (t ++ [c]) = first ++ lowerBetween context c [] := by
  induction t generalizing before with
  | nil => exact ⟨[], before, by simp [lowerFrom]⟩
  | cons d t ih =>
    obtain ⟨first, context, h⟩ := ih (d :: before)
    exact ⟨lowerBetween before d (t ++ [c]) ++ first, context, by
      rw [List.cons_append, lowerFrom, h, List.append_assoc]⟩

theorem Stripped.lower (h : Stripped t) : Stripped t.lower where
  head d hd := by
    cases t with
    | nil => simp [Text.lower, lowerFrom] at hd
    | cons c t =>
      have hc : isBlank c = false := h.head c rfl
      rw [Text.lower, lowerFrom, List.head?_append_of_ne_nil _ (lowerBetween_ne_nil _ _ _)] at hd
      exact isBlank_lowerBetween hc (List.mem_of_mem_head? hd)
  last d hd := by
    rcases List.eq_nil_or_concat' t with rfl | ⟨u, c, rfl⟩
    · simp [Text.lower, lowerFrom] at hd
    · have hc : isBlank c = false := h.last c (by simp)
      obtain ⟨first, context, hlower⟩ := lowerFrom_concat [] u c
      rw [Text.lower, hlower, List.getLast?_append_of_ne_nil _ (lowerBetween_ne_nil _ _ _)] at hd
      exact isBlank_lowerBetween hc (List.mem_of_mem_getLast? hd)

theorem Blanks.reverse (h : Blanks t) : Blanks t.reverse := fun c hc => h c (List.mem_reverse.mp hc)

theorem Blanks.append (ha : Blanks a) (hb : Blanks b) : Blanks (a ++ b) :=
  fun c hc => (List.mem_append.mp hc).elim (ha c) (hb c)

theorem exists_blanks_front (t : Text) :
    ∃ a u, Blanks a ∧ (∀ c, u.head? = some c → isBlank c = false) ∧ t = a ++ u := by
  refine ⟨t.takeWhile isBlank, t.dropWhile isBlank, ?_, ?_, ?_⟩
  · exact fun c hc => List.mem_takeWhile_imp hc
  · intro c hc
    have hhead := List.head?_dropWhile_not isBlank t
    rw [hc] at hhead
    simpa using hhead
  · exact List.takeWhile_append_dropWhile.symm

theorem exists_stripped (t : Text) :
    ∃ a m b, Blanks a ∧ Stripped m ∧ Blanks b ∧ t = a ++ m ++ b := by
  obtain ⟨a, u, ha, hhead, rfl⟩ := exists_blanks_front t
  obtain ⟨b, m, hb, hlast, hreverse⟩ := exists_blanks_front u.reverse
  have hu : u = m.reverse ++ b.reverse := by
    rw [← List.reverse_append, ← hreverse, List.reverse_reverse]
  have hstripped : Stripped m.reverse := by
    refine ⟨fun c hc => hhead c ?_, fun c hc => hlast c ?_⟩
    · rw [hu, List.head?_append, hc, Option.some_or]
    · rwa [List.getLast?_reverse] at hc
  exact ⟨a, m.reverse, b.reverse, ha, hstripped, hb.reverse, by rw [hu, List.append_assoc]⟩

theorem Blanks.strip (h : Blanks t) : t.strip = [] := by
  rw [Text.strip, ← List.append_nil t, dropWhile_run h (by simp)]
  rfl

theorem Text.strip_surrounded (ha : Blanks a) (h : Stripped t) (hb : Blanks b) :
    Text.strip (a ++ t ++ b) = t := by
  by_cases ht : t = []
  · subst ht
    rw [List.append_nil]
    exact (ha.append hb).strip
  · have hhead : ∀ c, (t ++ b).head? = some c → isBlank c = false := fun c hc =>
      h.head c (by rwa [List.head?_append_of_ne_nil _ ht] at hc)
    have hlast : ∀ c, t.reverse.head? = some c → isBlank c = false := fun c hc =>
      h.last c (by rwa [List.head?_reverse] at hc)
    rw [Text.strip, List.append_assoc, dropWhile_run ha hhead, List.reverse_append,
      dropWhile_run hb.reverse hlast, List.reverse_reverse]

theorem Text.strip_eq_nil_iff : t.strip = [] ↔ Blanks t := by
  refine ⟨fun h => ?_, Blanks.strip⟩
  obtain ⟨a, m, b, ha, hm, hb, rfl⟩ := exists_stripped t
  rw [Text.strip_surrounded ha hm hb] at h
  subst h
  rw [List.append_nil]
  exact ha.append hb

/-- It makes no difference whether a text is made small or stripped first. -/
theorem Text.lower_strip (t : Text) : t.strip.lower = t.lower.strip := by
  obtain ⟨a, m, b, ha, hm, hb, rfl⟩ := exists_stripped t
  rw [Text.strip_surrounded ha hm hb, Text.lower_surrounded ha hb,
    Text.strip_surrounded ha hm.lower hb]

/-- The items of the variable, none if it is not set. -/
def Session.listedTopics (s : Session) : Text := (s.host.env? topicsVariable).getD []

theorem comma_not_mem_blanks (h : Blanks t) : ',' ∉ t := fun hc => absurd (h ',' hc) (by decide)

theorem topicKey_eq_nil_iff : topicKey t = [] ↔ Blanks t := by
  rw [topicKey, ← Text.lower_strip, Text.lower_eq_nil_iff, Text.strip_eq_nil_iff]

theorem topicKey_surrounded (ha : Blanks a) (hb : Blanks b) (t : Text) :
    topicKey (a ++ t ++ b) = topicKey t := by
  obtain ⟨a', m, b', ha', hm, hb', rfl⟩ := exists_stripped t
  have hwhole : a ++ (a' ++ m ++ b') ++ b = (a ++ a') ++ m ++ (b' ++ b) := by
    simp only [List.append_assoc]
  rw [topicKey, topicKey, ← Text.lower_strip, ← Text.lower_strip, hwhole,
    Text.strip_surrounded (ha.append ha') hm (hb'.append hb), Text.strip_surrounded ha' hm hb']

theorem Topics.mem_names_ofText {raw name : Text} :
    name ∈ (Topics.ofText raw).names ↔
      ∃ item ∈ cutAt ',' raw, ¬ Blanks item ∧ topicKey item = name := by
  have hkey (item : Text) : item.strip.lower = topicKey item := Text.lower_strip item
  simp only [Topics.ofText, List.mem_filter, List.mem_map, hkey]
  constructor
  · rintro ⟨⟨item, hitem, rfl⟩, hne⟩
    exact ⟨item, hitem, fun hblank => by simp [topicKey_eq_nil_iff.mpr hblank] at hne, rfl⟩
  · rintro ⟨item, hitem, hblank, rfl⟩
    refine ⟨⟨item, hitem, rfl⟩, ?_⟩
    have hne : topicKey item ≠ [] := fun h => hblank (topicKey_eq_nil_iff.mp h)
    simpa using hne

theorem Topics.enabled_iff {topics : Topics} {topic : Text} :
    topics.enabled topic = true ↔
      "all".toList ∈ topics.names ∨ topicKey topic ∈ topics.names := by
  simp only [Topics.enabled, Bool.and_eq_true, Bool.or_eq_true, List.contains_iff_mem]
  refine and_iff_right_of_imp fun h => ?_
  have hne : topics.names ≠ [] := h.elim List.ne_nil_of_mem List.ne_nil_of_mem
  simpa using hne

theorem Topics.enabled_ofText {raw topic : Text} :
    (Topics.ofText raw).enabled topic = true ↔
      ∃ item ∈ cutAt ',' raw, ¬ Blanks item ∧
        (topicKey item = topicKey topic ∨ topicKey item = "all".toList) := by
  rw [Topics.enabled_iff, Topics.mem_names_ofText, Topics.mem_names_ofText]
  constructor
  · rintro (⟨item, hitem, hblank, hall⟩ | ⟨item, hitem, hblank, hkey⟩)
    · exact ⟨item, hitem, hblank, .inr hall⟩
    · exact ⟨item, hitem, hblank, .inl hkey⟩
  · rintro ⟨item, hitem, hblank, hkey | hall⟩
    · exact .inr ⟨item, hitem, hblank, hkey⟩
    · exact .inl ⟨item, hitem, hblank, hall⟩

/-- Once the listed topics are read, a topic is on exactly if an item that is not blank has its
key, or the key `all`. A topic that is listed is on, with whatever blanks around it, as it makes no
difference whether a text is stripped or made small first. -/
theorem Session.reloadTopics_enabled (s : Session) :
    (∀ topic, s.reloadTopics.topics.enabled topic = true ↔
      ∃ item ∈ cutAt ',' s.listedTopics, ¬ Blanks item ∧
        (topicKey item = topicKey topic ∨ topicKey item = "all".toList)) ∧
    (∀ items front topic back, s.listedTopics = joinWith [','] items →
      front ++ topic ++ back ∈ items → Blanks front → Blanks back → ¬ Blanks topic → ',' ∉ topic →
      s.reloadTopics.topics.enabled topic = true) ∧
    ∀ t : Text, t.strip.lower = t.lower.strip := by
  refine ⟨fun topic => Topics.enabled_ofText, ?_, Text.lower_strip⟩
  intro items front topic back hlisted hitem hfront hback htopic hcomma
  have hkey : topicKey (front ++ topic ++ back) = topicKey topic :=
    topicKey_surrounded hfront hback topic
  have hwhole : ',' ∉ front ++ topic ++ back := by
    simp only [List.mem_append, not_or]
    exact ⟨⟨comma_not_mem_blanks hfront, hcomma⟩, comma_not_mem_blanks hback⟩
  have hblank : ¬ Blanks (front ++ topic ++ back) := by
    rwa [← topicKey_eq_nil_iff, hkey, topicKey_eq_nil_iff]
  refine Topics.enabled_ofText.mpr ⟨_, ?_, hblank, .inl hkey⟩
  rw [← Session.listedTopics, hlisted]
  exact mem_cutAt_joinWith hitem hwhole

def listingSession (listed : Text) : Session :=
  .start { bareHost with environment := [(topicsVariable, listed)] }

/-- A capital sigma is final both in the item and in the topic. -/
theorem Session.reloadTopics_enabled_sigma :
    (listingSession "x,\u2003ΟΔΟΣ\t".toList).reloadTopics.topics.enabled "ΟΔΟΣ".toList = true :=
  (Session.reloadTopics_enabled (listingSession "x,\u2003ΟΔΟΣ\t".toList)).2.1
    ["x".toList, "\u2003ΟΔΟΣ\t".toList] "\u2003".toList "ΟΔΟΣ".toList "\t".toList
    rfl (by decide) (by decide) (by decide) (by decide) (by decide)

end Lancaster

import Lancaster.Stemmer.Memo
import Mathlib.Data.List.Dedup

/-!
Words used of late. The entries of a memo are the distinct words used most recently, as many as it
may hold. A word is among so many of them just when fewer other words were used since. To ask for
one of them is a hit, to ask for any other word is a miss, and a word that has its stem is the most
recent one afterwards.
-/
namespace Lancaster

theorem mem_take_around {α : Type} {m : Nat} {w : α} {front back : List α} (hw : w ∉ front) :
    w ∈ (front ++ w :: back).take m ↔ front.length < m := by
  rw [List.take_append, List.mem_append]
  constructor
  · rintro (hfront | hback)
    · exact absurd (List.mem_of_mem_take hfront) hw
    · by_contra hm
      have hzero : m - front.length = 0 := by omega
      rw [hzero, List.take_zero] at hback
      cases hback
  · intro hm
    obtain ⟨k, hk⟩ : ∃ k, m - front.length = k + 1 := ⟨m - front.length - 1, by omega⟩
    rw [hk, List.take_succ_cons]
    exact .inr List.mem_cons_self

section
variable {α : Type} [DecidableEq α]

/-- The distinct words of a list, those used last first, and no more than so many. -/
def mostRecent (m : Nat) (words : List α) : List α := words.dedup.reverse.take m

/-- A word is among so many distinct words used most recently: it was used, and fewer other words
were used since. -/
def IsRecent (m : Nat) (words : List α) (w : α) : Prop :=
  ∃ before after, words = before ++ w :: after ∧ w ∉ after ∧ after.dedup.length < m

variable {m : Nat} {words l : List α} {w : α}

theorem length_mostRecent : (mostRecent m words).length = min m words.dedup.length := by
  rw [mostRecent, List.length_take, List.length_reverse]

theorem mem_of_mem_mostRecent (h : w ∈ mostRecent m words) : w ∈ words := by
  have hmem := List.mem_of_mem_take h
  rwa [List.mem_reverse, List.mem_dedup] at hmem

theorem exists_dedup_around (before : List α) {after : List α} (hw : w ∉ after) :
    ∃ front, (before ++ w :: after).dedup = front ++ w :: after.dedup := by
  obtain ⟨front, hfront⟩ := List.suffix_union_right before (w :: after).dedup
  refine ⟨front, ?_⟩
  rw [List.dedup_append, ← hfront, List.dedup_cons_of_notMem hw]

theorem mem_mostRecent_around {before after : List α} (hw : w ∉ after) :
    w ∈ mostRecent m (before ++ w :: after) ↔ after.dedup.length < m := by
  obtain ⟨front, hfront⟩ := exists_dedup_around before hw
  have hlater : w ∉ after.dedup.reverse := by
    rw [List.mem_reverse, List.mem_dedup]
    exact hw
  rw [mostRecent, hfront, List.reverse_append, List.reverse_cons, List.append_assoc,
    List.singleton_append, mem_take_around hlater, List.length_reverse]

theorem mem_mostRecent_iff : w ∈ mostRecent m words ↔ IsRecent m words w := by
  constructor
  · intro h
    have hused : w ∈ words.reverse := List.mem_reverse.mpr (mem_of_mem_mostRecent h)
    obtain ⟨later, earlier, hwords, hlater⟩ := List.eq_append_cons_of_mem hused
    have hsplit : words = earlier.reverse ++ w :: later.reverse := by
      rw [← List.reverse_reverse words, hwords]
      simp
    rw [← List.mem_reverse] at hlater
    rw [hsplit, mem_mostRecent_around hlater] at h
    exact ⟨earlier.reverse, later.reverse, hsplit, hlater, h⟩
  · rintro ⟨before, after, rfl, hafter, hfew⟩
    exact (mem_mostRecent_around hafter).mpr hfew

theorem dedup_append_singleton (words : List α) (w : α) :
    (words ++ [w]).dedup = words.dedup.filter (· ≠ w) ++ [w] := by
  induction words with
  | nil => simp
  | cons a words ih =>
    rw [List.cons_append]
    by_cases ha : a ∈ words
    · rw [List.dedup_cons_of_mem ha, List.dedup_cons_of_mem (List.mem_append_left _ ha), ih]
    · rw [List.dedup_cons_of_notMem ha]
      by_cases haw : a = w
      · subst haw
        rw [List.dedup_cons_of_mem (by simp), ih, List.filter_cons_of_neg (by simp)]
      · rw [List.dedup_cons_of_notMem (by simp [ha, haw]), ih, List.filter_cons_of_pos (by simpa)]
        rfl

theorem filter_ne_eq_self (h : w ∉ l) : l.filter (· ≠ w) = l := by
  rw [List.filter_eq_self]
  intro a ha
  have hne : a ≠ w := fun haw => h (haw ▸ ha)
  simpa using hne

theorem take_filter_of_mem (hl : l.Nodup) (hw : w ∈ l.take (m + 1)) :
    (l.filter (· ≠ w)).take m = (l.take (m + 1)).filter (· ≠ w) := by
  induction l generalizing m with
  | nil => simp
  | cons a l ih =>
    obtain ⟨ha, hl⟩ := List.nodup_cons.mp hl
    rw [List.take_succ_cons] at hw ⊢
    by_cases haw : a = w
    · subst haw
      have htaken : a ∉ l.take m := fun h => ha (List.mem_of_mem_take h)
      rw [List.filter_cons_of_neg (by simp), List.filter_cons_of_neg (by simp),
        filter_ne_eq_self ha, filter_ne_eq_self htaken]
    · rcases List.mem_cons.mp hw with hwa | hw
      · exact absurd hwa.symm haw
      · rw [List.filter_cons_of_pos (by simpa), List.filter_cons_of_pos (by simpa)]
        cases m with
        | zero => simp at hw
        | succ m => rw [List.take_succ_cons, ih hl hw]

theorem take_filter_of_not_mem (hw : w ∉ l.take (m + 1)) :
    (l.filter (· ≠ w)).take m = l.take m := by
  induction l generalizing m with
  | nil => simp
  | cons a l ih =>
    rw [List.take_succ_cons, List.mem_cons, not_or] at hw
    obtain ⟨hwa, hw⟩ := hw
    rw [List.filter_cons_of_pos (by simpa using Ne.symm hwa)]
    cases m with
    | zero => simp
    | succ m => rw [List.take_succ_cons, List.take_succ_cons, ih hw]

theorem mostRecent_append_of_mem (hw : w ∈ mostRecent m words) :
    mostRecent m (words ++ [w]) = w :: (mostRecent m words).filter (· ≠ w) := by
  cases m with
  | zero => simp [mostRecent] at hw
  | succ m =>
    rw [mostRecent, dedup_append_singleton, List.reverse_append, List.reverse_singleton,
      List.singleton_append, List.take_succ_cons, ← List.filter_reverse]
    exact congrArg (w :: ·) (take_filter_of_mem (List.nodup_reverse.mpr words.nodup_dedup) hw)

theorem mostRecent_append_of_not_mem (hw : w ∉ mostRecent m words) :
    mostRecent m (words ++ [w]) = (w :: mostRecent m words).take m := by
  cases m with
  | zero => simp [mostRecent]
  | succ m =>
    rw [mostRecent, dedup_append_singleton, List.reverse_append, List.reverse_singleton,
      List.singleton_append, List.take_succ_cons, List.take_succ_cons, ← List.filter_reverse,
      take_filter_of_not_mem hw, mostRecent, List.take_take]
    simp

end

structure Memo.Holds (memo : Memo) (m : Nat) (words : List Word) : Prop where
  capacity : memo.capacity = m
  recent : memo.recent.map Prod.fst = mostRecent m words

variable {memo : Memo} {m : Nat} {words : List Word} {w : Word}

theorem Memo.empty_holds (m : Nat) : (Memo.empty m).Holds m [] :=
  ⟨rfl, by simp [Memo.empty, mostRecent]⟩

theorem Memo.Holds.size_eq (h : memo.Holds m words) : memo.size = min m words.dedup.length := by
  rw [Memo.size, ← List.length_map Prod.fst, h.recent, length_mostRecent]

theorem Memo.Holds.ne_of_mem (h : memo.Holds m words) (hw : w ∉ mostRecent m words) :
    ∀ e ∈ memo.recent, ¬ (e.1 == w) = true := by
  intro e he hkey
  have hmem : e.1 ∈ mostRecent m words := h.recent ▸ List.mem_map_of_mem he
  rw [beq_iff_eq.mp hkey] at hmem
  exact hw hmem

theorem Memo.Holds.recall_of_mem (h : memo.Holds m words) (hw : w ∈ mostRecent m words) :
    ∃ v memo', memo.recall w = (some v, memo') ∧ memo'.hits = memo.hits + 1 ∧
      memo'.misses = memo.misses ∧ memo'.Holds m (words ++ [w]) := by
  have hfound : (memo.recent.find? fun e => e.1 == w).isSome := by
    rw [← h.recent] at hw
    obtain ⟨e, he, rfl⟩ := List.mem_map.mp hw
    exact List.find?_isSome.mpr ⟨e, he, beq_self_eq_true e.1⟩
  obtain ⟨e, he⟩ := Option.isSome_iff_exists.mp hfound
  have hkey : e.1 = w := by simpa using List.find?_some he
  refine ⟨e.2, { memo with hits := memo.hits + 1, recent := e :: memo.recent.filter (·.1 != w) },
    ?_, rfl, rfl, h.capacity, ?_⟩
  · rw [Memo.recall, he]
  have hothers : (memo.recent.filter fun f => f.1 != w).map Prod.fst =
      (memo.recent.map Prod.fst).filter (· ≠ w) := by
    rw [List.filter_map]
    congr 1
    apply List.filter_congr
    intro f _
    simp [bne, beq_eq_decide]
  rw [mostRecent_append_of_mem hw, List.map_cons, hkey, hothers, h.recent]

theorem Memo.Holds.recall_of_not_mem (h : memo.Holds m words) (hw : w ∉ mostRecent m words) :
    memo.recall w = (none, { memo with misses := memo.misses + 1 }) := by
  have hnone : (memo.recent.find? fun e => e.1 == w) = none :=
    List.find?_eq_none.mpr (h.ne_of_mem hw)
  rw [Memo.recall, hnone]

theorem Memo.Holds.store (h : memo.Holds m words) (hw : w ∉ mostRecent m words) (v : Word) :
    (memo.store w v).hits = memo.hits ∧ (memo.store w v).misses = memo.misses ∧
      (memo.store w v).Holds m (words ++ [w]) := by
  have hnew : ¬ (memo.recent.any fun e => e.1 == w) = true := by
    rw [List.any_eq_true]
    rintro ⟨e, he, hkey⟩
    exact h.ne_of_mem hw e he hkey
  rw [Memo.store, if_neg hnew]
  refine ⟨rfl, rfl, h.capacity, ?_⟩
  rw [mostRecent_append_of_not_mem hw, List.map_take, List.map_cons, h.recent, h.capacity]

end Lancaster

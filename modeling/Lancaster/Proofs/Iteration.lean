import Lancaster.Proofs.Buckets
import Mathlib.Algebra.BigOperators.Fin

/-!
Going through a table. The buckets of a table hold the rules it was made from and no others, and
rules whose ordinals rise come out in the order in which they went in.
-/
namespace Lancaster

variable {rules : List Rule}

/-- Grouping by a letter keeps each member as many times as it was given. -/
theorem flatten_groups_perm {α : Type} [DecidableEq α] (members : List α) (letter : α → Letter) :
    (List.ofFn fun x => members.filter fun a => letter a = x).flatten.Perm members := by
  rw [List.perm_iff_count]
  intro a
  have hcount : ∀ x : Letter, (members.filter fun b => letter b = x).count a =
      if letter a = x then members.count a else 0 := by
    intro x
    split_ifs with hx
    · exact List.count_filter (by simpa using hx)
    · rw [List.count_eq_zero]
      intro ha
      exact hx (by simpa using (List.mem_filter.mp ha).2)
  rw [List.count_flatten, List.map_ofFn, List.sum_ofFn]
  simp only [Function.comp_apply, hcount]
  rw [Finset.sum_ite_eq Finset.univ (letter a), if_pos (Finset.mem_univ _)]

theorem RuleTable.flatten_buckets_perm (rules : List Rule) :
    (RuleTable.ofList rules).buckets.toList.flatten.Perm rules := by
  rw [RuleTable.ofList, Vector.toList_ofFn]
  exact flatten_groups_perm rules Rule.letter

theorem RuleTable.size_ofList (rules : List Rule) : (RuleTable.ofList rules).size = rules.length :=
  (RuleTable.flatten_buckets_perm rules).length_eq

theorem RuleTable.toList_perm (rules : List Rule) : (RuleTable.ofList rules).toList.Perm rules :=
  (List.mergeSort_perm _ _).trans (RuleTable.flatten_buckets_perm rules)

theorem RuleTable.mem_toList {t : RuleTable} {r : Rule} :
    r ∈ t.toList ↔ r ∈ t.buckets.toList.flatten := List.mem_mergeSort

theorem RuleTable.mem_toList_of_mem_rulesFor {t : RuleTable} {w : Word} {r : Rule}
    (h : r ∈ t.rulesFor w) : r ∈ t.toList := by
  rw [RuleTable.mem_toList, List.mem_flatten]
  unfold RuleTable.rulesFor at h
  split at h
  · rename_i c _
    unfold RuleTable.bucket at h
    cases hx : Letter.ofChar? c with
    | none => simp [hx] at h
    | some x => exact ⟨t.buckets[x], by simp, by simpa [hx] using h⟩
  · cases h

theorem ordinal_le_trans {α : Type} (ordinal : α → Int) (a b c : α)
    (hab : decide (ordinal a ≤ ordinal b) = true) (hbc : decide (ordinal b ≤ ordinal c) = true) :
    decide (ordinal a ≤ ordinal c) = true := by
  rw [decide_eq_true_iff] at hab hbc ⊢
  omega

theorem ordinal_le_total {α : Type} (ordinal : α → Int) (a b : α) :
    (decide (ordinal a ≤ ordinal b) || decide (ordinal b ≤ ordinal a)) = true := by
  rw [Bool.or_eq_true, decide_eq_true_iff, decide_eq_true_iff]
  omega

theorem pairwise_mergeSort_ordinal {α : Type} (ordinal : α → Int) (members : List α) :
    (members.mergeSort fun a b => ordinal a ≤ ordinal b).Pairwise
      fun a b => ordinal a ≤ ordinal b :=
  (List.pairwise_mergeSort (ordinal_le_trans ordinal) (ordinal_le_total ordinal) members).imp
    of_decide_eq_true

theorem RuleTable.toList_sorted (t : RuleTable) :
    t.toList.Pairwise fun r s => r.ordinal ≤ s.ordinal :=
  pairwise_mergeSort_ordinal Rule.ordinal t.buckets.toList.flatten

theorem RuleTable.toList_ofList (h : rules.Pairwise fun r s => r.ordinal < s.ordinal) :
    (RuleTable.ofList rules).toList = rules := by
  refine List.Perm.eq_of_pairwise ?_ (RuleTable.toList_sorted _) (h.imp Int.le_of_lt)
    (RuleTable.toList_perm rules)
  intro r s hr hs hrs hsr
  have hnodup : (rules.map Rule.ordinal).Nodup := List.pairwise_map.mpr (h.imp Int.ne_of_lt)
  have hperm := RuleTable.toList_perm rules
  exact List.inj_on_of_nodup_map hnodup (hperm.mem_iff.mp hr) hs (Int.le_antisymm hrs hsr)

end Lancaster

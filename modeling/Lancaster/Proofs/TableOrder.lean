import Lancaster.Proofs.Labels

/-!
The order of a table. A bucket holds the rules of its letter in the order of the list, and going
through a table gives every rule of the list once: by ordinal, then by the letter of the bucket,
then by place. A compiled table is made again of the rules that it is gone through.
-/
namespace Lancaster

abbrev PlacedRule := Rule × Nat

/-- The order of the buckets, and of the rules within a bucket. -/
def PlacedRule.StandsBefore (p q : PlacedRule) : Prop :=
  p.1.lastChar < q.1.lastChar ∨ p.1.lastChar = q.1.lastChar ∧ p.2 < q.2

def PlacedRule.ComesBefore (p q : PlacedRule) : Prop :=
  p.1.ordinal < q.1.ordinal ∨ p.1.ordinal = q.1.ordinal ∧ p.StandsBefore q

instance (p q : PlacedRule) : Decidable (p.StandsBefore q) :=
  inferInstanceAs (Decidable (_ ∨ _ ∧ _))

instance (p q : PlacedRule) : Decidable (p.ComesBefore q) :=
  inferInstanceAs (Decidable (_ ∨ _ ∧ _))

def placedBuckets (rules : List Rule) : List PlacedRule :=
  (List.ofFn fun x : Letter => rules.zipIdx.filter fun p => p.1.letter = x).flatten

def placedInOrder (rules : List Rule) : List PlacedRule :=
  (placedBuckets rules).mergeSort fun p q => p.1.ordinal ≤ q.1.ordinal

variable {rules : List Rule} {r : Rule} {p q : PlacedRule} {s name : Text} {t : RuleTable}
  {ps qs : List PlacedRule}

theorem Rule.letter_lt_iff {r s : Rule} : r.letter < s.letter ↔ r.lastChar < s.lastChar := by
  have hr := isLower_iff.mp r.lastChar_isLower
  have hs := isLower_iff.mp s.lastChar_isLower
  change r.lastChar.toNat - 97 < s.lastChar.toNat - 97 ↔ r.lastChar.toNat < s.lastChar.toNat
  omega

theorem PlacedRule.ComesBefore.asymm (h : p.ComesBefore q) : ¬ q.ComesBefore p := by
  have hchar : ∀ {a b : Char}, a < b → ¬ b < a ∧ b ≠ a :=
    fun hab => ⟨Char.lt_asymm hab, fun heq => Char.lt_irrefl _ (heq ▸ hab)⟩
  rintro (h' | ⟨heq', h'⟩)
  · rcases h with h | ⟨heq, -⟩ <;> omega
  · rcases h with h | ⟨-, h | ⟨heq, h⟩⟩
    · omega
    · rcases h' with h' | ⟨heq', -⟩
      · exact (hchar h).1 h'
      · exact (hchar h).2 heq'
    · rcases h' with h' | ⟨-, h'⟩
      · exact (hchar h').2 heq
      · omega

/-- Only one arrangement of the same rules is in order. -/
theorem eq_of_comesBefore (hps : ps.Pairwise PlacedRule.ComesBefore)
    (hqs : qs.Pairwise PlacedRule.ComesBefore) (h : ps.Perm qs) : ps = qs := by
  refine List.Perm.eq_of_pairwise ?_ hps hqs h
  intro p q _ _ hpq hqp
  exact absurd hqp hpq.asymm

theorem filter_mergeSort_ordinal {α : Type} (ordinal : α → Int) (members : List α) (n : Int) :
    (members.mergeSort fun a b => ordinal a ≤ ordinal b).filter (fun a => ordinal a = n) =
      members.filter fun a => ordinal a = n := by
  let sorted := members.mergeSort fun a b => ordinal a ≤ ordinal b
  let even := members.filter fun a => ordinal a = n
  have heven : ∀ a ∈ even, ordinal a = n := fun a ha => by simpa using (List.mem_filter.mp ha).2
  have hpairs : even.Pairwise fun a b => decide (ordinal a ≤ ordinal b) = true := by
    apply List.pairwise_of_forall_mem_list
    intro a ha b hb
    simp [heven a ha, heven b hb]
  have hsub : even.Sublist sorted :=
    List.sublist_mergeSort (ordinal_le_trans ordinal) (ordinal_le_total ordinal) hpairs
      List.filter_sublist
  have hkept : even.filter (fun a => ordinal a = n) = even := by simp [even]
  have hfiltered : even.Sublist (sorted.filter fun a => ordinal a = n) := by
    rw [← hkept]
    exact hsub.filter _
  have hperm := (List.mergeSort_perm members fun a b => ordinal a ≤ ordinal b).filter
    fun a => decide (ordinal a = n)
  exact (hfiltered.eq_of_length hperm.length_eq.symm).symm

theorem map_fst_placedBuckets (rules : List Rule) :
    (placedBuckets rules).map Prod.fst = (RuleTable.ofList rules).buckets.toList.flatten := by
  have hbucket : ∀ x : Letter, (rules.zipIdx.filter fun p => p.1.letter = x).map Prod.fst =
      rules.filter fun r => r.letter = x := by
    intro x
    have hmap : (rules.zipIdx.map Prod.fst).filter (fun r => r.letter = x) =
        (rules.zipIdx.filter fun p => p.1.letter = x).map Prod.fst := List.filter_map
    rw [← hmap, List.zipIdx_map_fst]
  rw [placedBuckets, List.map_flatten, List.map_ofFn, RuleTable.ofList, Vector.toList_ofFn]
  simp only [Function.comp_def, hbucket]

theorem placedBuckets_perm (rules : List Rule) : (placedBuckets rules).Perm rules.zipIdx :=
  flatten_groups_perm rules.zipIdx fun p => p.1.letter

theorem pairwise_placedBuckets (rules : List Rule) :
    (placedBuckets rules).Pairwise PlacedRule.StandsBefore := by
  have hplaces : rules.zipIdx.Pairwise fun p q => p.2 < q.2 := by
    rw [← List.pairwise_map, List.zipIdx_map_snd]
    exact List.pairwise_lt_range' ..
  rw [placedBuckets, List.pairwise_flatten, List.pairwise_ofFn]
  constructor
  · intro bucket hbucket
    obtain ⟨x, rfl⟩ := List.mem_ofFn.mp hbucket
    refine (hplaces.filter _).imp_of_mem fun {p q} hp hq hlt => .inr ⟨?_, hlt⟩
    have hpx : p.1.letter = x := by simpa using (List.mem_filter.mp hp).2
    have hqx : q.1.letter = x := by simpa using (List.mem_filter.mp hq).2
    exact Letter.ofLower_inj.mp (hpx.trans hqx.symm)
  · intro x y hxy p hp q hq
    have hpx : p.1.letter = x := by simpa using (List.mem_filter.mp hp).2
    have hqy : q.1.letter = y := by simpa using (List.mem_filter.mp hq).2
    exact .inl (Rule.letter_lt_iff.mp (hpx ▸ hqy ▸ hxy))

theorem map_fst_placedInOrder (rules : List Rule) :
    (placedInOrder rules).map Prod.fst = (RuleTable.ofList rules).toList := by
  rw [placedInOrder, RuleTable.toList, ← map_fst_placedBuckets]
  exact List.map_mergeSort fun _ _ _ _ => rfl

theorem placedInOrder_perm (rules : List Rule) : (placedInOrder rules).Perm rules.zipIdx :=
  (List.mergeSort_perm _ _).trans (placedBuckets_perm rules)

theorem pairwise_placedInOrder (rules : List Rule) :
    (placedInOrder rules).Pairwise PlacedRule.ComesBefore := by
  have hsorted : (placedInOrder rules).Pairwise fun p q => p.1.ordinal ≤ q.1.ordinal :=
    pairwise_mergeSort_ordinal (fun p : PlacedRule => p.1.ordinal) (placedBuckets rules)
  rw [List.pairwise_iff_forall_sublist]
  intro p q hpq
  have hle : p.1.ordinal ≤ q.1.ordinal := List.pairwise_iff_forall_sublist.mp hsorted hpq
  rcases lt_or_eq_of_le hle with hlt | heq
  · exact .inl hlt
  · refine .inr ⟨heq, ?_⟩
    have hsame : [p, q].Sublist
        ((placedInOrder rules).filter fun x => x.1.ordinal = q.1.ordinal) := by
      have hkept := hpq.filter fun x => decide (x.1.ordinal = q.1.ordinal)
      simpa [heq] using hkept
    rw [placedInOrder, filter_mergeSort_ordinal (fun p : PlacedRule => p.1.ordinal)] at hsame
    have hbuckets : [p, q].Sublist (placedBuckets rules) := hsame.trans List.filter_sublist
    exact List.pairwise_iff_forall_sublist.mp (pairwise_placedBuckets rules) hbuckets

theorem Rule.getLast?_suffix (r : Rule) : r.suffix.getLast? = some r.lastChar :=
  List.getLast?_eq_getLast_of_ne_nil r.suffix_ne_nil

theorem RuleTable.bucketNamed_eq_nil (h : ∀ c, name = [c] → c.isLower = false) :
    t.bucketNamed name = [] := by
  match name with
  | [] => rfl
  | [c] =>
    have hc := h c rfl
    change t.bucket c = []
    cases hx : Letter.ofChar? c with
    | none => simp [RuleTable.bucket, hx]
    | some x =>
      obtain ⟨hlower, -⟩ := isLower_of_ofChar? hx
      rw [hc] at hlower
      cases hlower
  | _ :: _ :: _ => rfl

/-- A table of a list of rules has them in the buckets of their last letters, each bucket in the
order of the list, and no bucket under any other name. Going through it gives the one arrangement of
the list that is in order, so rules whose ordinals rise come out as they went in. A compiled table
is made again of the rules that it is gone through. -/
theorem RuleTable.holds_inOrder (rules : List Rule) :
    (∀ c : Char, c.isLower = true → (RuleTable.ofList rules).bucketNamed [c] =
      rules.filter fun r => r.suffix.getLast? = some c) ∧
    (∀ name : Text, (∀ c, name = [c] → c.isLower = false) →
      (RuleTable.ofList rules).bucketNamed name = []) ∧
    (RuleTable.ofList rules).size = rules.length ∧
    (∃ ps : List PlacedRule, (∀ qs : List PlacedRule,
        qs.Perm rules.zipIdx ∧ qs.Pairwise PlacedRule.ComesBefore ↔ qs = ps) ∧
      (RuleTable.ofList rules).toList = ps.map Prod.fst) ∧
    ((rules.Pairwise fun r s => r.ordinal < s.ordinal) →
      (RuleTable.ofList rules).toList = rules) ∧
    ∀ s t, compile s = .ok t → RuleTable.ofList t.toList = t := by
  refine ⟨fun c _ => ?_, fun name hname => RuleTable.bucketNamed_eq_nil hname,
    RuleTable.size_ofList rules, ⟨placedInOrder rules, fun qs => ⟨?_, ?_⟩, ?_⟩,
    fun h => RuleTable.toList_ofList h, fun s t ht => ?_⟩
  · change (RuleTable.ofList rules).bucket c = _
    rw [RuleTable.bucket_ofList_eq]
    simp only [Rule.getLast?_suffix, Option.some.injEq]
  · rintro ⟨hperm, hqs⟩
    exact eq_of_comesBefore hqs (pairwise_placedInOrder rules)
      (hperm.trans (placedInOrder_perm rules).symm)
  · rintro rfl
    exact ⟨placedInOrder_perm rules, pairwise_placedInOrder rules⟩
  · exact (map_fst_placedInOrder rules).symm
  · obtain ⟨-, -, -, -, hlist⟩ := exists_layout_of_compile ht
    exact hlist.symm

/-- Rules that have no number of their own come by letter. -/
theorem RuleTable.holds_inOrder_unnumbered :
    let s : Rule := ⟨['s'], false, 1, [], false, [], 0, by decide, by decide, by decide⟩
    let a : Rule := ⟨['a'], true, 1, [], false, [], 0, by decide, by decide, by decide⟩
    (RuleTable.ofList [s, a, s]).toList = [a, s, s] ∧
      (RuleTable.ofList [s, a, s]).bucketNamed ['s'] = [s, s] := by
  intro s a
  obtain ⟨hbucket, -, -, ⟨ps, hps, hlist⟩, -⟩ := RuleTable.holds_inOrder [s, a, s]
  have hperm : [(a, 1), (s, 0), (s, 2)].Perm ([s, a, s].zipIdx) := List.Perm.swap _ _ _
  have hordered : [(a, 1), (s, 0), (s, 2)].Pairwise PlacedRule.ComesBefore := by decide
  obtain rfl := (hps _).mp ⟨hperm, hordered⟩
  exact ⟨hlist, hbucket 's' (by decide)⟩

end Lancaster

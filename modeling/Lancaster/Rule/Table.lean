import Lancaster.Rule.Basic

/-!
Rule tables. Rules are kept in one bucket for each letter, in the order in which they were given,
and that order decides which of several fitting rules wins.
-/
namespace Lancaster

structure RuleTable where
  buckets : Vector (List Rule) 26
  deriving DecidableEq, Repr

def RuleTable.empty : RuleTable := ⟨Vector.replicate 26 []⟩

def RuleTable.ofList (rules : List Rule) : RuleTable :=
  ⟨Vector.ofFn fun x => rules.filter fun r => r.letter = x⟩

/-- The rules for stems that end in `c`; none unless `c` is one of the 26 letters. -/
def RuleTable.bucket (t : RuleTable) (c : Char) : List Rule :=
  ((Letter.ofChar? c).map fun x => t.buckets[x]).getD []

def RuleTable.bucketNamed (t : RuleTable) : Text → List Rule
  | [c] => t.bucket c
  | _ => []

def RuleTable.size (t : RuleTable) : Nat := t.buckets.toList.flatten.length

/-- All rules by ordinal; rules of one ordinal stay in the order of letters and buckets. -/
def RuleTable.toList (t : RuleTable) : List Rule :=
  t.buckets.toList.flatten.mergeSort fun r s => r.ordinal ≤ s.ordinal

theorem RuleTable.getElem_buckets_ofList {rules : List Rule} (x : Letter) :
    (RuleTable.ofList rules).buckets[x] = rules.filter fun r => r.letter = x := by
  simp [RuleTable.ofList]

theorem RuleTable.bucket_eq {t : RuleTable} {c : Char} {x : Letter}
    (h : Letter.ofChar? c = some x) :
    t.bucket c = t.buckets[x] := by
  simp [RuleTable.bucket, h]

theorem RuleTable.bucket_ofList {rules : List Rule} {c : Char} {x : Letter}
    (h : Letter.ofChar? c = some x) :
    (RuleTable.ofList rules).bucket c = rules.filter fun r => r.letter = x := by
  rw [RuleTable.bucket_eq h, RuleTable.getElem_buckets_ofList]

end Lancaster

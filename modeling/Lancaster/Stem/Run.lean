import Lancaster.Rule.Table
import Lancaster.Stem.Acceptable
import Lancaster.Stem.Limit

/-!
Stemming. On each pass the first rule wins that fits the end of the stem and leaves an acceptable
stem. A winning rule either ends the run or starts another pass; a pass without a winner ends it.
Some rule sets never end on some words, so a run is given a number of passes.
-/
namespace Lancaster

structure Win where
  rule : Rule
  stem : Word
  deriving DecidableEq, Repr

def Rule.attempt (r : Rule) (maxLength : Option Int) (intact : Bool) (w : Word) : Option Word :=
  if r.matches w intact && isAcceptable (cut maxLength (r.apply w)) then
    some (cut maxLength (r.apply w))
  else none

def firstWin (rules : List Rule) (maxLength : Option Int) (intact : Bool) (w : Word) :
    Option Win :=
  rules.findSome? fun r => (r.attempt maxLength intact w).map (Win.mk r)

def RuleTable.win (t : RuleTable) (maxLength : Option Int) (intact : Bool) (w : Word) :
    Option Win :=
  match w.getLast? with
  | some c => firstWin (t.bucket c) maxLength intact w
  | none => none

/-- The wins of a run in order, under any choice of the winner of a pass; none when the run goes on
after the given number of passes. -/
def runWins (win : Bool → Word → Option Win) : Nat → Bool → Word → Option (List Win)
  | 0, _, _ => none
  | passes + 1, intact, w =>
    match win intact w with
    | none => some []
    | some v =>
      if v.rule.continues then (runWins win passes false v.stem).map (v :: ·) else some [v]

/-- A fitted word, and the wins of its run; an unacceptable word is not run at all. -/
structure Run where
  start : Word
  wins : List Win
  deriving DecidableEq, Repr

def Run.stem (r : Run) : Word := (r.wins.getLast?.map Win.stem).getD r.start

theorem Run.stem_cons (w : Word) (v : Win) (vs : List Win) :
    (Run.mk w (v :: vs)).stem = (Run.mk v.stem vs).stem := by
  unfold Run.stem
  rw [List.getLast?_cons]
  cases vs.getLast? <;> rfl

def runFitted (win : Bool → Word → Option Win) (passes : Nat) (w : Word) :
    Except StemFault Run :=
  if isAcceptable w then
    match runWins win passes true w with
    | some wins => .ok ⟨w, wins⟩
    | none => .error .unfinished
  else .ok ⟨w, []⟩

def RuleTable.run (t : RuleTable) (l : Limits) (passes : Nat) (w : Word) : Except StemFault Run :=
  (l.fit w).bind (runFitted (t.win l.maxLength) passes)

end Lancaster

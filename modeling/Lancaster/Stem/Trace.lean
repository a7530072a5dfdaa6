import Lancaster.Stem.Run

/-!
Traces. A trace begins with the word and lists, rule by rule, the stems of its run. The trace of an
unacceptable word is empty.
-/
namespace Lancaster

/-- The first step of a trace has no label. -/
structure TraceStep where
  label : Option Text
  stem : Word
  deriving DecidableEq, Repr

abbrev Trace := List TraceStep

def Win.step (v : Win) : TraceStep := ⟨some v.rule.label, v.stem⟩

def Run.trace (r : Run) : Trace :=
  if isAcceptable r.start then ⟨none, r.start⟩ :: r.wins.map Win.step else []

theorem Run.trace_eq_cons {r : Run} (h : isAcceptable r.start = true) :
    r.trace = ⟨none, r.start⟩ :: r.wins.map Win.step := if_pos h

/-- A missing label past the first step is written `None`. -/
def TraceStep.text (s : TraceStep) : Text :=
  " =".toList ++ s.label.getD "None".toList ++ "=> ".toList ++ s.stem

def Trace.text : Trace → Text
  | [] => []
  | s :: steps => s.stem ++ steps.flatMap TraceStep.text

structure StemResult where
  stem : Word
  trace : Option Trace
  deriving DecidableEq, Repr

def Run.result (r : Run) (traced : Bool) : StemResult :=
  ⟨r.stem, if traced then some r.trace else none⟩

def RuleTable.stem (t : RuleTable) (l : Limits) (passes : Nat) (traced : Bool) (w : Word) :
    Except StemFault StemResult :=
  (t.run l passes w).map fun r => r.result traced

end Lancaster

import Lancaster.Stem.Trace
import Lancaster.Stemmer.Memo
import Lancaster.Stemmer.Topics
import Lancaster.Text.Codes

/-!
A stemmer: one table of rules, limits, and a memo of the stems of single words. The answers depend
on neither the memo nor the debug topics. While the topic `stem` is on, every word is run, its trace
is shown and the memo is left alone.
-/
namespace Lancaster

/-- How a stemmer is set up. No rules file means the bundled rules. A config names the file, so it
is named in codes. -/
structure Settings where
  rulesFile : Option Codes := none
  maxLength : Option Int := some 254
  overflow : Overflow := .truncate
  cacheSize : Int := 4096
  workers : Int := 1
  deriving DecidableEq, Repr

def Settings.limits (s : Settings) : Limits := ⟨s.maxLength, s.overflow⟩

structure Stemmer where
  table : RuleTable
  limits : Limits
  workers : Int
  passes : Nat
  memo : Option Memo
  deriving DecidableEq, Repr

/-- A cache size of zero means no memo, and a negative one a memo that keeps nothing. -/
def Stemmer.new (table : RuleTable) (s : Settings) (passes : Nat) : Stemmer :=
  ⟨table, s.limits, s.workers, passes,
    if s.cacheSize = 0 then none else some (.empty s.cacheSize.toNat)⟩

def maxCapacity : Int := 0x7FFFFFFFFFFFFFFF

def Settings.memoFits (s : Settings) : Bool := s.cacheSize ≤ maxCapacity

def memoTooLargeText : Text := "cannot fit 'int' into an index-sized integer".toList

def winLines (w : Word) : List Win → List Line
  | [] => []
  | v :: wins =>
    .log .debug (Text.codes (v.rule.label ++ ' ' :: w ++ " -> ".toList ++ v.stem))
      :: winLines v.stem wins

def Run.lines (r : Run) : List Line := winLines r.start r.wins

def Run.summary (r : Run) (w : Word) : Text :=
  let trace := r.trace.text
  if trace.isEmpty then w ++ " (unacceptable)".toList else trace

def stemTopic : Text := "stem".toList

def Stemmer.run (s : Stemmer) (w : Word) : Except StemFault Run := s.table.run s.limits s.passes w

structure Reply (α : Type) where
  answer : Except StemFault α
  lines : List Line
  next : Stemmer

def Stemmer.stemShown (s : Stemmer) (topics : Topics) (w : Word) : Reply Word :=
  match s.run w with
  | .ok r =>
    ⟨.ok r.stem,
      r.lines ++ (topics.line? stemTopic "DEBUG".toList (r.summary w)).toList, s⟩
  | .error f => ⟨.error f, [], s⟩

def Stemmer.stemFresh (s : Stemmer) (w : Word) : Reply Word :=
  match s.run w with
  | .ok r => ⟨.ok r.stem, r.lines, s⟩
  | .error f => ⟨.error f, [], s⟩

/-- Asks the memo first; a run that fails is a miss and leaves no entry. -/
def Stemmer.stemRecalled (s : Stemmer) (m : Memo) (w : Word) : Reply Word :=
  match m.recall w with
  | (some v, m') => ⟨.ok v, [], { s with memo := some m' }⟩
  | (none, m') => match s.run w with
    | .ok r => ⟨.ok r.stem, r.lines, { s with memo := some (m'.store w r.stem) }⟩
    | .error f => ⟨.error f, [], { s with memo := some m' }⟩

def Stemmer.stem (s : Stemmer) (topics : Topics) (w : Word) : Reply Word :=
  if topics.enabled stemTopic then s.stemShown topics w
  else match s.memo with
    | some m => s.stemRecalled m w
    | none => s.stemFresh w

/-- A traced word is always run and never remembered. -/
def Stemmer.trace (s : Stemmer) (w : Word) : Reply StemResult :=
  match s.run w with
  | .ok r => ⟨.ok (r.result true), r.lines, s⟩
  | .error f => ⟨.error f, [], s⟩

/-- One word after the other, up to the first that fails. -/
def Stemmer.stemEach (s : Stemmer) (topics : Topics) : List Word → Reply (List Word)
  | [] => ⟨.ok [], [], s⟩
  | w :: words =>
    let first := s.stem topics w
    match first.answer with
    | .error f => ⟨.error f, first.lines, first.next⟩
    | .ok v =>
      let others := first.next.stemEach topics words
      ⟨others.answer.map (v :: ·), first.lines ++ others.lines, others.next⟩

def Stemmer.stemText (s : Stemmer) (topics : Topics) (t : Text) : Reply (List Word) :=
  s.stemEach topics t.words

end Lancaster

import Lancaster.Text.Words
import Lancaster.Text.Numeral

/-!
Length limits. A limit cuts a word to its first characters; a negative limit drops that many
characters from the end. An over-long word is cut or refused, as the overflow policy says.
-/
namespace Lancaster

/-- A policy that is not known fails only for words that are too long. -/
inductive Overflow where
  | truncate
  | reject
  | unknown (name : Text)
  deriving DecidableEq, Repr

def Overflow.named (name : Text) : Overflow :=
  if name = "truncate".toList then .truncate
  else if name = "reject".toList then .reject
  else .unknown name

def Overflow.name : Overflow → Text
  | .truncate => "truncate".toList
  | .reject => "reject".toList
  | .unknown name => name

/-- No greatest length means no limit. -/
structure Limits where
  maxLength : Option Int := some 254
  overflow : Overflow := .truncate
  deriving DecidableEq, Repr

def cutTo (n : Int) (w : Word) : Word :=
  if 0 ≤ n then w.take n.toNat else w.take (w.length - n.natAbs)

def cut (maxLength : Option Int) (w : Word) : Word :=
  match maxLength with
  | some n => cutTo n w
  | none => w

inductive StemFault where
  | tooLong (length : Nat) (max : Int)
  | unknownOverflow (name : Text)
  | unfinished
  deriving DecidableEq, Repr

def StemFault.message : StemFault → Text
  | .tooLong length max =>
    "word is ".toList ++ decimalText length ++ " characters long (max ".toList ++ integerText max
      ++ [')']
  | .unknownOverflow name => "Unknown overflow policy '".toList ++ name ++ ['\'']
  | .unfinished => "stemming did not end".toList

def Limits.fit (l : Limits) (w : Word) : Except StemFault Word :=
  match l.maxLength with
  | none => .ok w
  | some n =>
    if (w.length : Int) ≤ n then .ok w
    else match l.overflow with
      | .reject => .error (.tooLong w.length n)
      | .unknown name => .error (.unknownOverflow name)
      | .truncate => .ok (cutTo n w)

end Lancaster

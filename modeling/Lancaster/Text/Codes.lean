import Lancaster.Text.Quoted

/-!
Texts as config files spell them, one code for each character. An escape may spell half of a
surrogate pair. Halves are kept as they are spelled, alone or side by side, so a pair of escapes is
not the same text as the character that it stands for.
-/
namespace Lancaster

abbrev Codes := List Nat

def Text.codes (t : Text) : Codes := t.map Char.toNat

/-- Halves of surrogate pairs, first and second ones. -/
def isHalf (n : Nat) : Bool := 0xD800 ≤ n && n < 0xE000

def shownCode (n : Nat) : Text :=
  if isHalf n then '\\' :: 'u' :: hexDigits 4 n else [Char.ofNat n]

def Codes.text (c : Codes) : Text := c.flatMap shownCode

/-- The order of codes: by the first that differs, the shorter text first where none does. -/
def Codes.upTo : Codes → Codes → Bool
  | [], _ => true
  | _ :: _, [] => false
  | a :: s, b :: t => a < b || (a == b && upTo s t)

/-- Codes from one place up to another, the second not included. -/
structure Span where
  start : Nat
  stop : Nat
  deriving DecidableEq, Repr

/-- A second half that stands for a byte which is no part of any character. -/
def isRawByte (n : Nat) : Bool := 0xDC80 ≤ n && n ≤ 0xDCFF

/-- The first run of halves that no file name can hold, from its first half that is no raw byte. -/
def unwritableFrom (place : Nat) : Codes → Option Span
  | [] => none
  | n :: codes =>
    if isHalf n && !isRawByte n then
      some ⟨place, place + 1 + (codes.takeWhile isHalf).length⟩
    else unwritableFrom (place + 1) codes

def Codes.unwritable? (c : Codes) : Option Span := unwritableFrom 0 c

end Lancaster

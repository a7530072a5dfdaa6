import Lancaster.Text.Blank

/-!
Numerals. Rule entries count in plain decimal digits. The command line also accepts surrounding
blanks, a sign, single underscores between digits, and the decimal digits of other scripts.
Neither takes more than 4300 digits.
-/
namespace Lancaster

def maxDigits : Nat := 4300

def digitValue (c : Char) : Nat := c.toNat - 48

/-- The number that a run of decimal digits denotes, zero for the empty run. -/
def Text.decimalValue (digits : Text) : Nat := digits.foldl (fun n c => 10 * n + digitValue c) 0

def decimalText (n : Nat) : Text := Nat.toDigits 10 n

def integerText : Int → Text
  | .ofNat n => decimalText n
  | .negSucc n => '-' :: decimalText (n + 1)

/-- The zero of each decimal script of Unicode 14; the other nine digits follow it in order. -/
def decimalZeros : List Nat :=
  [0x30, 0x660, 0x6F0, 0x7C0, 0x966, 0x9E6, 0xA66, 0xAE6, 0xB66, 0xBE6, 0xC66, 0xCE6, 0xD66,
   0xDE6, 0xE50, 0xED0, 0xF20, 0x1040, 0x1090, 0x17E0, 0x1810, 0x1946, 0x19D0, 0x1A80, 0x1A90,
   0x1B50, 0x1BB0, 0x1C40, 0x1C50, 0xA620, 0xA8D0, 0xA900, 0xA9D0, 0xA9F0, 0xAA50, 0xABF0,
   0xFF10, 0x104A0, 0x10D30, 0x11066, 0x110F0, 0x11136, 0x111D0, 0x112F0, 0x11450, 0x114D0,
   0x11650, 0x116C0, 0x11730, 0x118E0, 0x11950, 0x11C50, 0x11D50, 0x11DA0, 0x16A60, 0x16AC0,
   0x16B50, 0x1D7CE, 0x1D7D8, 0x1D7E2, 0x1D7EC, 0x1D7F6, 0x1E140, 0x1E2F0, 0x1E950, 0x1FBF0]

def scriptDigit? (c : Char) : Option Nat :=
  (decimalZeros.find? fun z => z ≤ c.toNat && c.toNat ≤ z + 9).map (c.toNat - ·)

/-- A blank at the end of an integer: a space, an ASCII line control, or a blank beyond ASCII. -/
def isIntegerPadding (c : Char) : Bool :=
  if c.toNat < 0x7F then c == ' ' || (9 ≤ c.toNat && c.toNat ≤ 13) else isBlank c

/-- Digits with at most one underscore between neighbours; the values come in reading order. -/
def groupedDigits? : Text → Option (List Nat)
  | [] => none
  | [c] => (scriptDigit? c).map ([·])
  | c :: '_' :: t => do
    let d ← scriptDigit? c
    let ds ← groupedDigits? t
    return d :: ds
  | c :: t => do
    let d ← scriptDigit? c
    let ds ← groupedDigits? t
    return d :: ds

def naturalOf? (t : Text) : Option Nat := do
  let ds ← groupedDigits? t
  if ds.length ≤ maxDigits then some (ds.foldl (fun n d => 10 * n + d) 0) else none

def Text.toInteger? (t : Text) : Option Int :=
  let core := ((t.dropWhile isIntegerPadding).reverse.dropWhile isIntegerPadding).reverse
  match core with
  | '-' :: rest => (naturalOf? rest).map fun n => -(n : Int)
  | '+' :: rest => (naturalOf? rest).map fun n => (n : Int)
  | rest => (naturalOf? rest).map fun n => (n : Int)

end Lancaster

import Lancaster.Config.Value
import Lancaster.Files.Host
import Lancaster.Text.Identifier

/-!
JSON5 texts: comments, trailing commas, either quote, unquoted names, hexadecimal integers, and
numbers with a sign or a bare point. A number is an integer unless it has a point or an exponent.
Readers take a text and give a value with the text after it.
-/
namespace Lancaster.Json5

/-- Whether plain filler, a comment to the end of the line or a bracketed comment is being read. -/
inductive Filler where
  | space
  | line
  | block
  deriving DecidableEq, Repr

def isLineEnd (c : Char) : Bool :=
  c == '\n' || c == '\r' || c.toNat == 0x2028 || c.toNat == 0x2029

def isSpace (c : Char) : Bool :=
  isLineEnd c || c == ' ' || c == '\t' || c.toNat == 0xB || c.toNat == 0xC || c.toNat == 0xFEFF ||
    (c.toNat != 0x85 && 0x80 ≤ c.toNat && isBlank c)

/-- Drops spaces and comments; none inside a bracketed comment that is never closed. -/
def skipFrom : Filler → Text → Option Text
  | .space, [] => some []
  | .space, '/' :: '/' :: t => skipFrom .line t
  | .space, '/' :: '*' :: t => skipFrom .block t
  | .space, c :: t => if isSpace c then skipFrom .space t else some (c :: t)
  | .line, [] => some []
  | .line, c :: t => if isLineEnd c then skipFrom .space t else skipFrom .line t
  | .block, [] => none
  | .block, '*' :: '/' :: t => skipFrom .space t
  | .block, _ :: t => skipFrom .block t

def skip (t : Text) : Option Text := skipFrom .space t

def expect (c : Char) (t : Text) : Option Text :=
  match skip t with
  | some (d :: r) => if d = c then some r else none
  | _ => none

def hexValue? (c : Char) : Option Nat :=
  if c.isDigit then some (c.toNat - 48)
  else if 'a' ≤ c ∧ c ≤ 'f' then some (c.toNat - 87)
  else if 'A' ≤ c ∧ c ≤ 'F' then some (c.toNat - 55)
  else none

def hexNumber? (t : Text) : Option Nat :=
  t.foldlM (fun n c => (hexValue? c).map (16 * n + ·)) 0

def simpleEscape (c : Char) : Option Nat :=
  match c with
  | 'b' => some 0x8
  | 'f' => some 0xC
  | 'n' => some 0xA
  | 'r' => some 0xD
  | 't' => some 0x9
  | 'v' => some 0xB
  | 'x' | 'u' => none
  | _ => if c.isDigit then none else some c.toNat

/-- Codes up to the closing quote. A line end behind a backslash counts for nothing. Without one, a
line feed or a carriage return may not stand in a string; every other character may. -/
def string (quote : Char) : Text → Option (Codes × Text)
  | [] => none
  | '\\' :: 'u' :: a :: b :: c :: d :: t => do
    let n ← hexNumber? [a, b, c, d]
    let (codes, r) ← string quote t
    return (n :: codes, r)
  | '\\' :: 'x' :: a :: b :: t => do
    let n ← hexNumber? [a, b]
    let (codes, r) ← string quote t
    return (n :: codes, r)
  | '\\' :: '\r' :: '\n' :: t => string quote t
  | '\\' :: '0' :: t =>
    if (t.head?.map Char.isDigit).getD false then none
    else do
      let (codes, r) ← string quote t
      return (0 :: codes, r)
  | '\\' :: c :: t =>
    if isLineEnd c then string quote t
    else do
      let n ← simpleEscape c
      let (codes, r) ← string quote t
      return (n :: codes, r)
  | c :: t =>
    if c = quote then some ([], t)
    else if c = '\n' || c = '\r' || c = '\\' then none
    else do
      let (codes, r) ← string quote t
      return (c.toNat :: codes, r)

/-- Codes of an unquoted name; escapes may stand anywhere in it. -/
def nameCodes (begun : Bool) : Text → Option (Codes × Text)
  | [] => some ([], [])
  | '\\' :: 'u' :: a :: b :: c :: d :: t => do
    let n ← hexNumber? [a, b, c, d]
    let (codes, r) ← nameCodes true t
    return (n :: codes, r)
  | c :: t =>
    if isNameStart c || (begun && isNameContinue c) then do
      let (codes, r) ← nameCodes true t
      return (c.toNat :: codes, r)
    else some ([], c :: t)

def key : Text → Option (Codes × Text)
  | '"' :: t => string '"' t
  | '\'' :: t => string '\'' t
  | t => match nameCodes false t with
    | some (n :: codes, r) => some (n :: codes, r)
    | _ => none

/-- An exponent, if there is one; none when its digits are missing. -/
def exponent : Text → Option (Option Int × Text)
  | c :: t =>
    if c = 'e' ∨ c = 'E' then
      let (negative, u) := match t with
        | '-' :: u => (true, u)
        | '+' :: u => (false, u)
        | u => (false, u)
      let digits := u.takeWhile Char.isDigit
      let n : Int := Text.decimalValue digits
      if digits.isEmpty then none
      else some (some (if negative then -n else n), u.dropWhile Char.isDigit)
    else some (none, c :: t)
  | [] => some (none, [])

def fraction : Text → Option Text × Text
  | '.' :: t => (some (t.takeWhile Char.isDigit), t.dropWhile Char.isDigit)
  | t => (none, t)

def decimal (negative : Bool) (t : Text) : Option (ConfigValue × Text) := do
  let whole := t.takeWhile Char.isDigit
  let (part, r) := fraction (t.dropWhile Char.isDigit)
  let digits := whole ++ part.getD []
  if digits.isEmpty || (whole.head? = some '0' && 1 < whole.length) then none
  else
    let (power, r) ← exponent r
    if part.isNone && power.isNone then
      if maxDigits < digits.length then none
      else
        let n : Int := Text.decimalValue digits
        return (.int (if negative then -n else n), r)
    else
      let d := Double.ofDecimal digits (power.getD 0 - (part.getD []).length)
      return (.float (if negative then d.negate else d), r)

def hexadecimal (negative : Bool) (t : Text) : Option (ConfigValue × Text) :=
  let isHex (c : Char) : Bool := (hexValue? c).isSome
  let digits := t.takeWhile isHex
  if digits.isEmpty then none
  else (hexNumber? digits).map fun n => (.int (if negative then -n else n), t.dropWhile isHex)

def unsigned (negative : Bool) : Text → Option (ConfigValue × Text)
  | '0' :: 'x' :: t | '0' :: 'X' :: t => hexadecimal negative t
  | t =>
    match "Infinity".toList.isPrefixOf? t, "NaN".toList.isPrefixOf? t with
    | some r, _ =>
      some (.float (if negative then Double.infinity.negate else Double.infinity), r)
    | _, some r => some (.float Double.nan, r)
    | _, _ => decimal negative t

def number : Text → Option (ConfigValue × Text)
  | '+' :: t => unsigned false t
  | '-' :: t => unsigned true t
  | t => unsigned false t

mutual

/-- Reads a value; `fuel` bounds the nesting and is never less than the text needs. -/
def value : Nat → Text → Option (ConfigValue × Text)
  | 0, _ => none
  | fuel + 1, t =>
    match t with
    | '\x7b' :: r => do
      match ← skip r with
      | '\x7d' :: r => return (.object [], r)
      | r =>
        let (o, r) ← members fuel [] r
        return (.object o, r)
    | '[' :: r => do
      match ← skip r with
      | ']' :: r => return (.list [], r)
      | r =>
        let (vs, r) ← elements fuel r
        return (.list vs, r)
    | '"' :: r => (string '"' r).map fun (s, r) => (.string s, r)
    | '\'' :: r => (string '\'' r).map fun (s, r) => (.string s, r)
    | t =>
      match "null".toList.isPrefixOf? t, "true".toList.isPrefixOf? t,
        "false".toList.isPrefixOf? t with
      | some r, _, _ => some (.null, r)
      | _, some r, _ => some (.bool true, r)
      | _, _, some r => some (.bool false, r)
      | _, _, _ => number t

def members : Nat → ConfigObject → Text → Option (ConfigObject × Text)
  | 0, _, _ => none
  | fuel + 1, o, t => do
    let (k, r) ← key t
    let r ← expect ':' r
    let (v, r) ← value fuel (← skip r)
    let o := o.put k v
    match ← skip r with
    | '\x7d' :: r => return (o, r)
    | ',' :: r => match ← skip r with
      | '\x7d' :: r => return (o, r)
      | r => members fuel o r
    | _ => none

def elements : Nat → Text → Option (List ConfigValue × Text)
  | 0, _ => none
  | fuel + 1, t => do
    let (v, r) ← value fuel t
    match ← skip r with
    | ']' :: r => return ([v], r)
    | ',' :: r => match ← skip r with
      | ']' :: r => return ([v], r)
      | r =>
        let (vs, r) ← elements fuel r
        return (v :: vs, r)
    | _ => none

end

def parse (t : Text) : Option ConfigValue := do
  let (v, r) ← value (2 * t.length + 2) (← skip t)
  match ← skip r with
  | [] => return v
  | _ => none

/-- It reads any nesting and never gives up. -/
def parser : ConfigParser := fun t =>
  match parse t with
  | some v => .ok v
  | none => .error .malformed

end Lancaster.Json5

namespace Lancaster

/-- A host without files, at the root, whose configs are JSON5 texts. -/
def bareHost : Host := ⟨.empty, [], [], [], ⟨none, []⟩, fun _ => none, Json5.parser⟩

end Lancaster

import Lancaster.Text.Printable

/-!
Quoted texts, as messages show them. Single quotes are used unless the text holds a single quote
and no double quote. Escaped are the backslash, the quote in use and whatever is unprintable.
-/
namespace Lancaster

def hexDigits : Nat → Nat → Text
  | 0, _ => []
  | width + 1, n => hexDigits width (n / 16) ++ [Nat.digitChar (n % 16)]

/-- Double quotes spare an escape only where single quotes would need one. -/
def quoteMark (t : Text) : Char :=
  if t.contains '\'' && !t.contains '"' then '"' else '\''

def escapedChar (quote c : Char) : Text :=
  if c == quote || c == '\\' then ['\\', c]
  else if c == '\n' then ['\\', 'n']
  else if c == '\r' then ['\\', 'r']
  else if c == '\t' then ['\\', 't']
  else if isPrintable c then [c]
  else if c.toNat < 0x100 then '\\' :: 'x' :: hexDigits 2 c.toNat
  else if c.toNat < 0x10000 then '\\' :: 'u' :: hexDigits 4 c.toNat
  else '\\' :: 'U' :: hexDigits 8 c.toNat

def Text.quoted (t : Text) : Text :=
  let quote := quoteMark t
  quote :: t.flatMap (escapedChar quote) ++ [quote]

end Lancaster

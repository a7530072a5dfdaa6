import Lancaster.Text.Codes
import Lancaster.Text.Numeral

/-!
Values of a config file. Integers have any size; other numbers are binary floating point of 64 bits,
rounded to nearest with ties to even. How a text spells a value is left to a parser.
-/
namespace Lancaster

/-- The bits of a double: sign, eleven bits of exponent, 52 bits of fraction. -/
structure Double where
  bits : UInt64
  deriving DecidableEq, Repr

def Double.infinity : Double := ⟨0x7FF0000000000000⟩

def Double.nan : Double := ⟨0x7FF8000000000000⟩

def Double.isNaN (d : Double) : Bool := 0x7FF0000000000000 < d.bits &&& 0x7FFFFFFFFFFFFFFF

def Double.negate (d : Double) : Double := ⟨d.bits ^^^ 0x8000000000000000⟩

def roundedQuotient (num den : Nat) : Nat :=
  let q := num / den
  let twice := 2 * (num % den)
  if twice < den then q else if den < twice then q + 1 else q + q % 2

/-- The scale at which the quotient has 53 binary digits, or the least scale there is. -/
def doubleScale (num den : Nat) : Int :=
  let guess : Int := (num.log2 : Int) - den.log2 - 53
  let tooWide :=
    if 0 ≤ guess then den <<< (guess.toNat + 53) ≤ num
    else den <<< 53 ≤ num <<< guess.natAbs
  max (-1074) (if tooWide then guess + 1 else guess)

def Double.ofQuotient (num den : Nat) : Double :=
  let scale := doubleScale num den
  let digits :=
    if 0 ≤ scale then roundedQuotient num (den <<< scale.toNat)
    else roundedQuotient (num <<< scale.natAbs) den
  let bits := (scale + 1074).toNat <<< 52 + digits
  if 0x7FF0000000000000 ≤ bits then infinity else ⟨UInt64.ofNat bits⟩

/-- The double nearest to `digits` times a power of ten; far-off powers need no arithmetic. -/
def Double.ofDecimal (digits : Text) (exponent : Int) : Double :=
  let n := digits.decimalValue
  let size : Int := (decimalText n).length + exponent
  if n = 0 ∨ size < -330 then ⟨0⟩
  else if 330 < size then infinity
  else if 0 ≤ exponent then ofQuotient (n * Nat.pow 10 exponent.toNat) 1
  else ofQuotient n (Nat.pow 10 exponent.natAbs)

inductive ConfigValue where
  | null
  | bool (b : Bool)
  | int (n : Int)
  | float (d : Double)
  | string (t : Codes)
  | list (values : List ConfigValue)
  | object (fields : List (Codes × ConfigValue))
  deriving Repr

/-- Fields in the order of their first mention, each key once. -/
abbrev ConfigObject := List (Codes × ConfigValue)

/-- A key that is there already keeps its place and takes the new value. -/
def ConfigObject.put (o : ConfigObject) (key : Codes) (v : ConfigValue) : ConfigObject :=
  if o.any fun f => f.1 == key then o.map fun f => if f.1 = key then (key, v) else f
  else o ++ [(key, v)]

def ConfigObject.get? (o : ConfigObject) (key : Text) : Option ConfigValue := o.lookup key.codes

/-- A parser turns a text down as malformed, or it gives up on it, as on one nested too deeply. -/
inductive ParserFault where
  | malformed
  | gaveUp (reason : Text)
  deriving DecidableEq, Repr

abbrev ConfigParser := Text → Except ParserFault ConfigValue

def ConfigValue.typeName : ConfigValue → Text
  | .null => "NoneType".toList
  | .bool _ => "bool".toList
  | .int _ => "int".toList
  | .float _ => "float".toList
  | .string _ => "str".toList
  | .list _ => "list".toList
  | .object _ => "dict".toList

end Lancaster

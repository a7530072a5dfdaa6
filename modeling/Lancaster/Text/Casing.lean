import Lancaster.Text.CaseTable

/-!
Small and capital forms of whole texts. A capital sigma at the end of a word becomes a final sigma;
every other character is mapped by itself, some to more than one character.
-/
namespace Lancaster

def capitalSigma : Char := 'Σ'

/-- A capital I with a dot keeps its dot as a combining mark. -/
def lowerChar (c : Char) : Text :=
  if c.toNat < 0x80 then [c.toLower]
  else if c.toNat == 0x130 then ['i', Char.ofNat 0x307]
  else [Char.ofNat (imageOf lowerRuns c.toNat)]

def upperChar (c : Char) : Text :=
  if c.toNat < 0x80 then [c.toUpper]
  else match upperExpansions.lookup c.toNat with
    | some codes => codes.map Char.ofNat
    | none => [Char.ofNat (imageOf upperRuns c.toNat)]

def isCaseIgnorable (c : Char) : Bool := inRanges caseIgnorableRanges c

def meetsCased (t : Text) : Bool :=
  match t.dropWhile isCaseIgnorable with
  | [] => false
  | c :: _ => inRanges casedRanges c

/-- The small form of a character between the text before it, nearest first, and the text after. -/
def lowerBetween (before : Text) (c : Char) (after : Text) : Text :=
  if c == capitalSigma && meetsCased before && !meetsCased after then ['ς'] else lowerChar c

def lowerFrom (before : Text) : Text → Text
  | [] => []
  | c :: after => lowerBetween before c after ++ lowerFrom (c :: before) after

def Text.lower (t : Text) : Text := lowerFrom [] t

def Text.upper (t : Text) : Text := t.flatMap upperChar

end Lancaster

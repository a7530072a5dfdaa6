import Lancaster.Text.Letter

/-!
Blank characters: the spaces and line ends that separate rule entries and that surround a topic
name. The line feed is the only one that ends a line.
-/
namespace Lancaster

/-- Character codes from the first to the last, both included. -/
abbrev CodeRange := Nat × Nat

def CodeRange.holds (r : CodeRange) (n : Nat) : Bool := r.1 ≤ n && n ≤ r.2

/-- The tables below list their ranges in ascending order. -/
def inRanges (ranges : List CodeRange) (c : Char) : Bool := ranges.any fun r => r.holds c.toNat

def blankRanges : List CodeRange :=
  [(0x9, 0xD), (0x1C, 0x20), (0x85, 0x85), (0xA0, 0xA0), (0x1680, 0x1680), (0x2000, 0x200A),
   (0x2028, 0x2029), (0x202F, 0x202F), (0x205F, 0x205F), (0x3000, 0x3000)]

def isBlank (c : Char) : Bool := inRanges blankRanges c

def Text.strip (t : Text) : Text :=
  ((t.dropWhile isBlank).reverse.dropWhile isBlank).reverse

end Lancaster

import Lancaster.Text.Words

/-!
Acceptable stems. A stem that begins with a vowel needs two letters; any other needs three, with a
vowel or `y` among them. No rule may leave a stem that is not acceptable.
-/
namespace Lancaster

def isVowel (c : Char) : Bool := c == 'a' || c == 'e' || c == 'i' || c == 'o' || c == 'u'

def isStemVowel (c : Char) : Bool := isVowel c || c == 'y'

def isAcceptable : Word → Bool
  | [] => false
  | c :: w => if isVowel c then 1 ≤ w.length else 2 ≤ w.length && (c :: w).any isStemVowel

theorem ne_nil_of_isAcceptable {w : Word} (h : isAcceptable w = true) : w ≠ [] := by
  rintro rfl
  simp [isAcceptable] at h

end Lancaster

import Lancaster.Text.Letter

/-!
The words of a text are its maximal runs of ASCII letters, in small letters and in order.
Every other character, accented letters included, separates words.
-/
namespace Lancaster

abbrev Word := Text

/-- The word read so far, given latest letter first; none when no letter was read. -/
def closeWord (letters : Text) : List Word :=
  if letters.isEmpty then [] else [letters.reverse]

/-- Reads on with the letters of an open word, latest first. -/
def wordsFrom (letters : Text) : Text → List Word
  | [] => closeWord letters
  | c :: t =>
    if c.isAlpha then wordsFrom (c.toLower :: letters) t
    else closeWord letters ++ wordsFrom [] t

def Text.words (t : Text) : List Word := wordsFrom [] t

/-- Cuts after each line feed, with the characters of the open line latest first. -/
def linesFrom (line : Text) : Text → List Text
  | [] => if line.isEmpty then [] else [line.reverse]
  | c :: t => if c == '\n' then (c :: line).reverse :: linesFrom [] t else linesFrom (c :: line) t

def Text.lines (t : Text) : List Text := linesFrom [] t

def lineWords (lines : List Text) : List Word := lines.flatMap Text.words

end Lancaster

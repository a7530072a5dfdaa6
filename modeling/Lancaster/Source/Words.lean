import Lancaster.Files.Host
import Lancaster.Text.Words

/-!
Word files. Words are taken line by line. Where a file cannot be read further, the words of the
whole lines before that place are still given.
-/
namespace Lancaster

structure WordFileFault where
  path : Text
  fault : ReadFault
  deriving DecidableEq, Repr

def WordFileFault.message (f : WordFileFault) : Text :=
  match f.fault with
  | .notPath => notPathText
  | .notEncoding => notEncodingText
  | .unwritablePath halves first => unwritableText halves first
  | .unknownEncoding name => unknownEncodingText name
  | fault => "Cannot read word file ".toList ++ f.path ++ ": ".toList ++ fault.text

/-- Words in order, and what ended them early. -/
structure WordSource where
  words : List Word
  fault : Option WordFileFault
  deriving DecidableEq, Repr

def WordSource.all (s : WordSource) : Except WordFileFault (List Word) :=
  match s.fault with
  | some f => .error f
  | none => .ok s.words

def wholeLines (t : Text) : List Text := t.lines.filter fun l => l.getLast? = some '\n'

def Decoded.words (d : Decoded) : List Word :=
  lineWords (if d.broken then wholeLines d.text else d.text.lines)

def Host.fileWords (h : Host) (path encoding : Text) : WordSource :=
  match h.readText path encoding with
  | .error f => ⟨[], some ⟨path, f⟩⟩
  | .ok d => ⟨d.words, if d.broken then some ⟨path, .undecodable⟩ else none⟩

def inputWords (t : Text) : WordSource := ⟨lineWords t.lines, none⟩

end Lancaster

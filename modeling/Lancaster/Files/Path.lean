import Lancaster.Text.Split

/-!
Paths. A path text is a root and parts; empty and single-dot parts mean nothing. It is written in
characters or, in a config, in codes. A location is the normal form of an absolute path: its parts
from the root down, with no double dots left.
-/
namespace Lancaster

class PathSign (α : Type) where
  slash : α
  dot : α

instance : PathSign Char := ⟨'/', '.'⟩

instance : PathSign Nat := ⟨0x2F, 0x2E⟩

def dotPart {α : Type} [PathSign α] : List α := [PathSign.dot]

def upPart : Text := ['.', '.']

/-- No path holds the character of code zero. -/
def Text.isPath (t : Text) : Bool := !t.contains '\x00'

/-- A path with exactly two leading slashes has a root of its own spelling. -/
inductive PathRoot where
  | relative
  | slash
  | doubleSlash
  deriving DecidableEq, Repr

structure PathText (α : Type) where
  root : PathRoot
  parts : List (List α)
  deriving DecidableEq, Repr

section
variable {α : Type} [DecidableEq α] [PathSign α]

def pathRoot (t : List α) : PathRoot :=
  match (t.takeWhile fun c => c == PathSign.slash).length with
  | 0 => .relative
  | 2 => .doubleSlash
  | _ => .slash

def PathText.ofList (t : List α) : PathText α :=
  ⟨pathRoot t, (cutAt PathSign.slash t).filter fun part => !part.isEmpty && part != dotPart⟩

def PathRoot.signs : PathRoot → List α
  | .relative => []
  | .slash => [PathSign.slash]
  | .doubleSlash => [PathSign.slash, PathSign.slash]

def PathText.toList (p : PathText α) : List α :=
  if p.root = .relative ∧ p.parts = [] then dotPart
  else p.root.signs ++ joinWith [PathSign.slash] p.parts

end

/-- A rooted path replaces the one it is joined to. -/
def PathText.join {α : Type} (p q : PathText α) : PathText α :=
  if q.root = .relative then ⟨p.root, p.parts ++ q.parts⟩ else q

def PathText.map {α β : Type} (f : α → β) (p : PathText α) : PathText β :=
  ⟨p.root, p.parts.map (List.map f)⟩

abbrev Location := List Text

/-- One part further from a location whose parts are given last part first. -/
def stepInto (upwards : Location) (part : Text) : Location :=
  if part = upPart then upwards.tail else part :: upwards

/-- The location that parts lead to. Double dots go up and stop at the root. -/
def Location.follow (start : Location) (parts : List Text) : Location :=
  (parts.foldl stepInto start.reverse).reverse

/-- A relative path starts from the working directory. -/
def PathText.resolve (working : Location) (p : PathText Char) : Location :=
  if p.root = .relative then working.follow p.parts else Location.follow [] p.parts

def Location.path (l : Location) : PathText Char := ⟨.slash, l⟩

def Location.text (l : Location) : Text := '/' :: joinWith ['/'] l

def Location.name (l : Location) : Text := l.getLast?.getD []

def Location.within (l dir : Location) : Bool := dir.isPrefixOf l

def Location.above (l : Location) : List Location := (List.range l.length).map fun n => l.take n

end Lancaster

import Lancaster.Files.Path

/-!
A tree of files and directories without links. The root is always a directory. Reading follows a
path part by part, so every part before the last has to be a directory that exists.
-/
namespace Lancaster

abbrev Bytes := List UInt8

/-- The time is that of the last change, in nanoseconds. -/
inductive Node where
  | directory (time : Int)
  | file (content : Bytes) (time : Int)
  deriving DecidableEq, Repr

def Node.time : Node → Int
  | .directory time => time
  | .file _ time => time

def Node.content? : Node → Option Bytes
  | .directory _ => none
  | .file content _ => some content

def Node.isDirectory (n : Node) : Bool := n.content?.isNone

def Node.touched (time : Int) : Node → Node
  | .directory _ => .directory time
  | .file content _ => .file content time

inductive FileFault where
  | missing
  | notDirectory
  | isDirectory
  | nameTooLong
  deriving DecidableEq, Repr

def FileFault.code : FileFault → Nat
  | .missing => 2
  | .notDirectory => 20
  | .isDirectory => 21
  | .nameTooLong => 36

structure FileTree where
  nodes : List (Location × Node)
  deriving DecidableEq, Repr

def FileTree.empty : FileTree := ⟨[]⟩

def FileTree.node? (t : FileTree) (l : Location) : Option Node :=
  if l = [] then some (.directory 0) else t.nodes.lookup l

def FileTree.isDirectory (t : FileTree) (l : Location) : Bool :=
  (t.node? l).any Node.isDirectory

def maxPartBytes : Nat := 255

/-- The length from which on a path is too long, in bytes. -/
def maxPathBytes : Nat := 4096

def byteLength (t : Text) : Nat := (String.ofList t).utf8ByteSize

def FileTree.enter (t : FileTree) (l : Location) (part : Text) : Except FileFault Location :=
  match t.node? l with
  | none => .error .missing
  | some (.file _ _) => .error .notDirectory
  | some (.directory _) =>
    if maxPartBytes < byteLength part then .error .nameTooLong
    else .ok (if part = dotPart ∨ part = [] then l else l.follow [part])

def FileTree.locate (t : FileTree) (start : Location) (parts : List Text) :
    Except FileFault Location :=
  parts.foldlM t.enter start

def FileTree.stat (t : FileTree) (l : Location) : Except FileFault Node := do
  if maxPathBytes ≤ byteLength l.text then throw .nameTooLong
  let l ← t.locate [] l
  match t.node? l with
  | some n => return n
  | none => throw .missing

def FileTree.content (t : FileTree) (l : Location) : Except FileFault Bytes := do
  match ← t.stat l with
  | .file content _ => return content
  | .directory _ => throw .isDirectory

/-- Reads the file that a path text names. A slash at the end asks for a directory. -/
def FileTree.readPath (t : FileTree) (working : Location) (path : Text) : Except FileFault Bytes :=
  if path = [] then .error .missing
  else if maxPathBytes ≤ byteLength path then .error .nameTooLong
  else do
    let start := if pathRoot path = .relative then working else []
    let l ← t.locate start (cutAt '/' path)
    t.content l

def FileTree.put (t : FileTree) (l : Location) (n : Node) : FileTree :=
  ⟨(l, n) :: t.nodes.filter fun e => e.1 != l⟩

/-- Makes a directory and those above it; what is there already stays. -/
def FileTree.makeDirectory (t : FileTree) (l : Location) (time : Int) : FileTree :=
  (l.above ++ [l]).foldl
    (fun t dir => if (t.node? dir).isSome then t else t.put dir (.directory time)) t

def FileTree.write (t : FileTree) (l : Location) (content : Bytes) (time : Int) : FileTree :=
  (t.makeDirectory l.dropLast time).put l (.file content time)

/-- Gives another time to what is there, as a directory gets one when its entries change. -/
def FileTree.touch (t : FileTree) (l : Location) (time : Int) : FileTree :=
  match t.node? l with
  | some n => t.put l (n.touched time)
  | none => t

def FileTree.remove (t : FileTree) (l : Location) : Except FileFault FileTree := do
  let _ ← t.stat l
  return ⟨t.nodes.filter fun e => !e.1.within l⟩

end Lancaster

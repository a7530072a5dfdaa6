import Lancaster.Text.Words

/-!
A memo of stems with a fixed capacity. The entries are kept most recent first; a full memo forgets
the one used least recently. Hits and misses are counted, and a capacity of zero keeps nothing.
-/
namespace Lancaster

structure Memo where
  capacity : Nat
  hits : Nat
  misses : Nat
  recent : List (Word × Word)
  deriving DecidableEq, Repr

def Memo.empty (capacity : Nat) : Memo := ⟨capacity, 0, 0, []⟩

def Memo.size (m : Memo) : Nat := m.recent.length

def Memo.recall (m : Memo) (w : Word) : Option Word × Memo :=
  match m.recent.find? fun e => e.1 == w with
  | some e =>
    (some e.2, { m with hits := m.hits + 1, recent := e :: m.recent.filter fun f => f.1 != w })
  | none => (none, { m with misses := m.misses + 1 })

/-- An entry that is already there stays where it is. -/
def Memo.store (m : Memo) (w stem : Word) : Memo :=
  if m.recent.any fun e => e.1 == w then m
  else { m with recent := ((w, stem) :: m.recent).take m.capacity }

end Lancaster

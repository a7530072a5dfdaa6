import Lancaster.Stemmer.Pool

/-!
A stemmer in use: requests come one by one, and the debug topics may change between them.
-/
namespace Lancaster

inductive Request where
  | stem (w : Word)
  | trace (w : Word)
  | text (t : Text)
  | many (words : List Word) (workers : Option Int)
  | topics (raw : Text)
  deriving DecidableEq, Repr

inductive Answer where
  | stem (w : Word)
  | traced (r : StemResult)
  | stems (words : List Word)
  | ready
  deriving DecidableEq, Repr

structure Service where
  stemmer : Stemmer
  topics : Topics
  deriving DecidableEq, Repr

structure Served where
  answer : Except StemFault Answer
  lines : List Line
  next : Service

def Reply.served {α : Type} (r : Reply α) (topics : Topics) (wrap : α → Answer) : Served :=
  ⟨r.answer.map wrap, r.lines, ⟨r.next, topics⟩⟩

def Service.serve (s : Service) : Request → Served
  | .stem w => (s.stemmer.stem s.topics w).served s.topics .stem
  | .trace w => (s.stemmer.trace w).served s.topics .traced
  | .text t => (s.stemmer.stemText s.topics t).served s.topics .stems
  | .many words workers => (s.stemmer.stemMany s.topics words workers).served s.topics .stems
  | .topics raw => ⟨.ok .ready, [], ⟨s.stemmer, .ofText raw⟩⟩

def Service.serveAll (s : Service) : List Request → List Served × Service
  | [] => ([], s)
  | r :: requests =>
    let first := s.serve r
    let others := first.next.serveAll requests
    (first :: others.1, others.2)

end Lancaster

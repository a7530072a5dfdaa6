import Lancaster.Stemmer.Basic

/-!
Batches on several workers. Every word is a job in up to three steps: ask the memo, run the word,
store the stem. Workers share the memo and take the steps of their jobs in any interleaving, given
as a schedule of job numbers. Answers are collected in the order of the words.
-/
namespace Lancaster

inductive Job where
  | waiting (w : Word)
  | missed (w : Word)
  | ran (w : Word) (answer : Except StemFault Word)
  | finished (answer : Except StemFault Word)

structure Pool where
  stemmer : Stemmer
  jobs : Array Job
  lines : List Line

def Pool.new (s : Stemmer) (words : List Word) : Pool :=
  ⟨s, (words.map Job.waiting).toArray, []⟩

def Job.advance (s : Stemmer) (topics : Topics) : Job → Job × List Line × Stemmer
  | .waiting w =>
    if topics.enabled stemTopic then
      let r := s.stemShown topics w
      (.finished r.answer, r.lines, r.next)
    else match s.memo with
      | none =>
        let r := s.stemFresh w
        (.finished r.answer, r.lines, r.next)
      | some m => match m.recall w with
        | (some v, m') => (.finished (.ok v), [], { s with memo := some m' })
        | (none, m') => (.missed w, [], { s with memo := some m' })
  | .missed w =>
    let r := s.stemFresh w
    (.ran w r.answer, r.lines, r.next)
  | .ran w (.ok v) => (.finished (.ok v), [], { s with memo := s.memo.map (·.store w v) })
  | .ran _ (.error f) => (.finished (.error f), [], s)
  | .finished answer => (.finished answer, [], s)

/-- A number without a job is a worker that has nothing to do. -/
def Pool.step (topics : Topics) (p : Pool) (i : Nat) : Pool :=
  match p.jobs[i]? with
  | none => p
  | some t =>
    let (t', lines, s) := t.advance p.stemmer topics
    ⟨s, p.jobs.setIfInBounds i t', p.lines ++ lines⟩

def Pool.run (topics : Topics) (p : Pool) (schedule : List Nat) : Pool :=
  schedule.foldl (Pool.step topics) p

def Job.answer : Job → Except StemFault Word
  | .finished answer => answer
  | _ => .error .unfinished

def Pool.answer (p : Pool) : Except StemFault (List Word) := p.jobs.toList.mapM Job.answer

def inTurn (jobs : Nat) : List Nat := (List.range jobs).flatMap fun i => [i, i, i]

def Stemmer.stemPooled (s : Stemmer) (topics : Topics) (words : List Word)
    (turns : Nat → List Nat) : Reply (List Word) :=
  let p := (Pool.new s words).run topics (turns words.length)
  ⟨p.answer, p.lines, p.stemmer⟩

/-- Up to one worker takes the words in order and stops at the first that fails. -/
def Stemmer.stemMany (s : Stemmer) (topics : Topics) (words : List Word)
    (workers : Option Int) (turns : Nat → List Nat := inTurn) : Reply (List Word) :=
  if workers.getD s.workers ≤ 1 then s.stemEach topics words
  else s.stemPooled topics words turns

end Lancaster

import Lancaster.Proofs.History

/-!
Batches on several workers, under any interleaving of their steps. Every step keeps the memo right
and brings its job nearer to the answer of a fresh run of its word. So whatever turns the workers
take, whatever is evicted between two steps of a job, and however often a word occurs, the answers
that are collected are those of fresh runs in the order of the words.
-/
namespace Lancaster

inductive Job.Takes (s : Stemmer) (topics : Topics) : Job → Job × List Line × Stemmer → Prop where
  | shown {w} : Takes s topics (.waiting w)
      (.finished (s.fresh w), (s.stemShown topics w).lines, s)
  | alone {w} : Takes s topics (.waiting w) (.finished (s.fresh w), (s.stemFresh w).lines, s)
  | hit {w v m m'} (hm : s.memo = some m) (hr : m.recall w = (some v, m')) :
      Takes s topics (.waiting w) (.finished (.ok v), [], { s with memo := some m' })
  | miss {w m m'} (hm : s.memo = some m) (hr : m.recall w = (none, m')) :
      Takes s topics (.waiting w) (.missed w, [], { s with memo := some m' })
  | run {w} : Takes s topics (.missed w) (.ran w (s.fresh w), (s.stemFresh w).lines, s)
  | store {w v} : Takes s topics (.ran w (.ok v))
      (.finished (.ok v), [], { s with memo := s.memo.map (·.store w v) })
  | fail {w f} : Takes s topics (.ran w (.error f)) (.finished (.error f), [], s)
  | rest {a} : Takes s topics (.finished a) (.finished a, [], s)

inductive Job.OnWay (answer : Word → Except StemFault Word) (w : Word) : Job → Prop where
  | waiting : OnWay answer w (.waiting w)
  | missed : OnWay answer w (.missed w)
  | ran {a} (h : answer w = a) : OnWay answer w (.ran w a)
  | finished {a} (h : answer w = a) : OnWay answer w (.finished a)

def Job.remaining : Job → Nat
  | .waiting _ => 3
  | .missed _ => 2
  | .ran _ _ => 1
  | .finished _ => 0

/-- The invariant of a pool that was set up by `s`: only the memo changes, and it stays right. -/
structure Pool.Sound (p : Pool) (s : Stemmer) (words : List Word) : Prop where
  stemmer : ∃ memo, p.stemmer = { s with memo }
  right : p.stemmer.Right
  jobs : List.Forall₂ (Job.OnWay s.fresh) words p.jobs.toList

def Pool.remaining (p : Pool) (i : Nat) : Nat := (p.jobs[i]?.map Job.remaining).getD 0

/-- Answers are collected in the order of the jobs, and the first fault ends it, whatever the jobs
behind it have come to. -/
inductive Job.Collected : List Job → Except StemFault (List Word) → Prop where
  | all : Collected [] (.ok [])
  | failed {f jobs} : Collected (.finished (.error f) :: jobs) (.error f)
  | more {v jobs a} : Collected jobs a → Collected (.finished (.ok v) :: jobs) (a.map (v :: ·))

def Pool.Collects (p : Pool) (a : Except StemFault (List Word)) : Prop :=
  Job.Collected p.jobs.toList a

/-- Turns in which every job gets all of its steps. -/
def CompleteTurns (jobs : Nat) (schedule : List Nat) : Prop := ∀ i < jobs, 3 ≤ schedule.count i

/-- The states of a stemmer in use: after any requests, and after any steps of any batches. -/
inductive Stemmer.Reaches (s : Stemmer) : Stemmer → Prop where
  | start : Reaches s s
  | request {s'} (topics : Topics) (r : Request) : Reaches s s' →
      Reaches s ((Service.mk s' topics).serve r).next.stemmer
  | steps {s'} (topics : Topics) (words : List Word) (schedule : List Nat) : Reaches s s' →
      Reaches s ((Pool.new s' words).run topics schedule).stemmer

variable {s s' : Stemmer} {topics : Topics} {words : List Word} {w v : Word} {j : Job}
  {jobs : List Job} {p : Pool} {answer : Word → Except StemFault Word} {schedule : List Nat}
  {a : Except StemFault (List Word)} {r : Job × List Line × Stemmer}

theorem Stemmer.stemShown_eq (s : Stemmer) (topics : Topics) (w : Word) :
    s.stemShown topics w = ⟨s.fresh w, (s.stemShown topics w).lines, s⟩ := by
  unfold Stemmer.stemShown Stemmer.fresh
  cases s.run w <;> rfl

theorem Stemmer.stemFresh_eq (s : Stemmer) (w : Word) :
    s.stemFresh w = ⟨s.fresh w, (s.stemFresh w).lines, s⟩ := by
  unfold Stemmer.stemFresh Stemmer.fresh
  cases s.run w <;> rfl

theorem Job.advance_takes (s : Stemmer) (topics : Topics) (j : Job) :
    Job.Takes s topics j (j.advance s topics) := by
  cases j with
  | waiting w =>
    simp only [Job.advance]
    split
    · rw [s.stemShown_eq topics w]
      exact .shown
    · split
      · rw [s.stemFresh_eq w]
        exact .alone
      · rename_i m hm
        split
        · rename_i v m' hr
          exact .hit hm hr
        · rename_i m' hr
          exact .miss hm hr
  | missed w =>
    simp only [Job.advance]
    rw [s.stemFresh_eq w]
    exact .run
  | ran w a =>
    cases a with
    | ok v => exact .store
    | error f => exact .fail
  | finished a => exact .rest

theorem Job.Takes.onWay (ht : Job.Takes s topics j r) (hs : s.Right) (hj : j.OnWay s.fresh w) :
    r.1.OnWay s.fresh w ∧ (∃ memo, r.2.2 = { s with memo }) ∧ r.2.2.Right := by
  cases ht with
  | shown | alone =>
    cases hj
    exact ⟨.finished rfl, ⟨s.memo, rfl⟩, hs⟩
  | hit hm hr =>
    cases hj
    obtain ⟨hv, hm'⟩ := (hs _ hm).recall_some hr
    exact ⟨.finished hv, ⟨_, rfl⟩, Stemmer.right_of_memo hm'⟩
  | miss hm hr =>
    cases hj
    exact ⟨.missed, ⟨_, rfl⟩, Stemmer.right_of_memo ((hs _ hm).recall_none hr)⟩
  | run =>
    cases hj
    exact ⟨.ran rfl, ⟨s.memo, rfl⟩, hs⟩
  | store =>
    cases hj with
    | ran hv =>
      refine ⟨.finished hv, ⟨_, rfl⟩, ?_⟩
      intro m hm
      obtain ⟨m₀, hm₀, rfl⟩ := Option.map_eq_some_iff.mp hm
      exact (hs m₀ hm₀).store hv
  | fail =>
    cases hj with
    | ran hf => exact ⟨.finished hf, ⟨s.memo, rfl⟩, hs⟩
  | rest =>
    cases hj with
    | finished ha => exact ⟨.finished ha, ⟨s.memo, rfl⟩, hs⟩

theorem Job.Takes.remaining_le (ht : Job.Takes s topics j r) :
    r.1.remaining ≤ j.remaining - 1 := by
  cases ht <;> simp [Job.remaining]

theorem Pool.new_sound (hs : s.Right) (words : List Word) : (Pool.new s words).Sound s words where
  stemmer := ⟨s.memo, rfl⟩
  right := hs
  jobs := by
    rw [Pool.new, List.forall₂_map_right_iff, List.forall₂_same]
    exact fun w _ => .waiting

/-- An element of a list has its counterpart, and may be replaced by whatever suits this one. -/
theorem exists_forall₂_set {α β : Type} {R : α → β → Prop} {xs : List α} {ys : List β} {i : Nat}
    {y : β} (h : List.Forall₂ R xs ys) (hy : ys[i]? = some y) :
    ∃ x, R x y ∧ ∀ y', R x y' → List.Forall₂ R xs (ys.set i y') := by
  induction h generalizing i with
  | nil => cases hy
  | @cons x z xs ys hx hxs ih =>
    cases i with
    | zero =>
      obtain rfl : z = y := Option.some.inj hy
      exact ⟨x, hx, fun y' hy' => .cons hy' hxs⟩
    | succ i =>
      obtain ⟨u, hu, hset⟩ := ih hy
      exact ⟨u, hu, fun y' hy' => .cons hx (hset y' hy')⟩

theorem Pool.step_none {i : Nat} (h : p.jobs[i]? = none) : p.step topics i = p := by
  rw [Pool.step, h]

theorem Pool.step_some {i : Nat} (h : p.jobs[i]? = some j) :
    p.step topics i =
      ⟨(j.advance p.stemmer topics).2.2, p.jobs.setIfInBounds i (j.advance p.stemmer topics).1,
        p.lines ++ (j.advance p.stemmer topics).2.1⟩ := by
  rw [Pool.step, h]

theorem Pool.Sound.step (h : p.Sound s words) (topics : Topics) (i : Nat) :
    (p.step topics i).Sound s words := by
  cases hj : p.jobs[i]? with
  | none => rwa [Pool.step_none hj]
  | some j =>
    obtain ⟨⟨memo, hstemmer⟩, hright, hjobs⟩ := h
    have hfresh : p.stemmer.fresh = s.fresh := by
      rw [hstemmer]
      rfl
    rw [← Array.getElem?_toList] at hj
    obtain ⟨w, hw, hset⟩ := exists_forall₂_set hjobs hj
    rw [Array.getElem?_toList] at hj
    rw [← hfresh] at hw
    obtain ⟨hw', ⟨memo', hnext⟩, hright'⟩ := (j.advance_takes p.stemmer topics).onWay hright hw
    rw [hfresh] at hw'
    rw [Pool.step_some hj]
    refine ⟨⟨memo', ?_⟩, hright', ?_⟩
    · rw [hnext, hstemmer]
    · rw [Array.toList_setIfInBounds]
      exact hset _ hw'

theorem Pool.Sound.run (h : p.Sound s words) (topics : Topics) (schedule : List Nat) :
    (p.run topics schedule).Sound s words := by
  induction schedule generalizing p with
  | nil => exact h
  | cons i schedule ih => exact ih (h.step topics i)

theorem Pool.remaining_step (p : Pool) (topics : Topics) (i k : Nat) :
    (p.step topics i).remaining k ≤ p.remaining k - if i = k then 1 else 0 := by
  cases hj : p.jobs[i]? with
  | none =>
    rw [Pool.step_none hj]
    split
    · rename_i hik
      simp [Pool.remaining, ← hik, hj]
    · exact le_rfl
  | some j =>
    have hle := (j.advance_takes p.stemmer topics).remaining_le
    obtain ⟨hi, -⟩ := Array.getElem?_eq_some_iff.mp hj
    rw [Pool.step_some hj]
    unfold Pool.remaining
    by_cases hik : i = k
    · subst hik
      rw [hj]
      simpa [hi] using hle
    · simp [hik]

theorem Pool.remaining_run (p : Pool) (topics : Topics) (schedule : List Nat) (k : Nat) :
    (p.run topics schedule).remaining k ≤ p.remaining k - schedule.count k := by
  induction schedule generalizing p with
  | nil => exact le_rfl
  | cons i schedule ih =>
    have hstep := p.remaining_step topics i k
    have hrun := ih (p.step topics i)
    rw [List.count_cons]
    simp only [beq_iff_eq]
    change ((p.step topics i).run topics schedule).remaining k ≤ _
    omega

theorem mapM_cons_of_ok {α β ε : Type} {f : α → Except ε β} {x : α} {y : β} (h : f x = .ok y)
    (xs : List α) : (x :: xs).mapM f = (xs.mapM f).map (y :: ·) := by
  rw [List.mapM_cons, h]
  cases xs.mapM f <;> rfl

theorem mapM_cons_of_error {α β ε : Type} {f : α → Except ε β} {x : α} {e : ε}
    (h : f x = .error e) (xs : List α) : (x :: xs).mapM f = .error e := by
  rw [List.mapM_cons, h]
  rfl

theorem forall₂_of_mapM {α β ε : Type} {f : α → Except ε β} {xs : List α} {ys : List β}
    (h : xs.mapM f = .ok ys) : List.Forall₂ (fun x y => f x = .ok y) xs ys := by
  induction xs generalizing ys with
  | nil =>
    obtain rfl := Except.ok.inj h
    exact .nil
  | cons x xs ih =>
    cases hx : f x with
    | error e =>
      rw [mapM_cons_of_error hx] at h
      cases h
    | ok y =>
      rw [mapM_cons_of_ok hx] at h
      cases hxs : xs.mapM f with
      | error e =>
        rw [hxs] at h
        cases h
      | ok others =>
        rw [hxs] at h
        obtain rfl := Except.ok.inj h
        exact .cons hx (ih hxs)

theorem exists_of_mapM_error {α β ε : Type} {f : α → Except ε β} {xs : List α} {e : ε}
    (h : xs.mapM f = .error e) : ∃ x ∈ xs, f x = .error e := by
  induction xs with
  | nil => cases h
  | cons x xs ih =>
    cases hx : f x with
    | error e' =>
      rw [mapM_cons_of_error hx] at h
      obtain rfl := Except.error.inj h
      exact ⟨x, List.mem_cons_self, hx⟩
    | ok y =>
      rw [mapM_cons_of_ok hx] at h
      cases hxs : xs.mapM f with
      | ok others =>
        rw [hxs] at h
        cases h
      | error e' =>
        rw [hxs] at h
        obtain rfl := Except.error.inj h
        obtain ⟨y, hy, hfault⟩ := ih hxs
        exact ⟨y, List.mem_cons_of_mem x hy, hfault⟩

theorem Job.Collected.eq_mapM (h : Job.Collected jobs a)
    (hjobs : List.Forall₂ (Job.OnWay answer) words jobs) : a = words.mapM answer := by
  induction h generalizing words with
  | all =>
    cases hjobs
    rfl
  | failed =>
    cases hjobs with
    | cons hj _ =>
      cases hj with
      | finished hw => rw [mapM_cons_of_error hw]
  | more _ ih =>
    cases hjobs with
    | cons hj hothers =>
      cases hj with
      | finished hw => rw [mapM_cons_of_ok hw, ih hothers]

theorem Job.answer_finished (o : Except StemFault Word) : (Job.finished o).answer = o := rfl

theorem Job.Collected.answer_eq (h : Job.Collected jobs a) : jobs.mapM Job.answer = a := by
  induction h with
  | all => rfl
  | failed => exact mapM_cons_of_error (Job.answer_finished _) _
  | more _ ih => rw [mapM_cons_of_ok (Job.answer_finished _), ih]

theorem Job.collected_of_remaining (hjobs : List.Forall₂ (Job.OnWay answer) words jobs)
    (h : ∀ j ∈ jobs, j.remaining = 0) : Job.Collected jobs (words.mapM answer) := by
  induction hjobs with
  | nil => exact .all
  | @cons w j words jobs hj hothers ih =>
    have hzero := h j List.mem_cons_self
    have hcollected := ih fun k hk => h k (List.mem_cons_of_mem j hk)
    cases hj with
    | waiting | missed | ran => cases hzero
    | @finished a hw =>
      cases a with
      | error f =>
        rw [mapM_cons_of_error hw]
        exact .failed
      | ok v =>
        rw [mapM_cons_of_ok hw]
        exact .more hcollected

theorem Job.answer_eq_or_unfinished (hjobs : List.Forall₂ (Job.OnWay answer) words jobs) :
    jobs.mapM Job.answer = words.mapM answer ∨ jobs.mapM Job.answer = .error .unfinished := by
  induction hjobs with
  | nil => exact .inl rfl
  | @cons w j words jobs hj hothers ih =>
    cases hj with
    | waiting | missed | ran =>
      right
      rw [List.mapM_cons]
      rfl
    | @finished a hw =>
      have ha := Job.answer_finished a
      cases a with
      | error f => exact .inl (by rw [mapM_cons_of_error ha, mapM_cons_of_error hw])
      | ok v =>
        rw [mapM_cons_of_ok ha, mapM_cons_of_ok hw]
        rcases ih with ih | ih
        · exact .inl (by rw [ih])
        · exact .inr (by rw [ih]; rfl)

theorem Pool.Sound.answer_eq_or_unfinished (h : p.Sound s words) :
    p.answer = words.mapM s.fresh ∨ p.answer = .error .unfinished :=
  Job.answer_eq_or_unfinished h.jobs

theorem Pool.collects_of_completeTurns (hs : s.Right) (topics : Topics)
    (hturns : CompleteTurns words.length schedule) :
    ((Pool.new s words).run topics schedule).Collects (words.mapM s.fresh) := by
  have hsound := (Pool.new_sound hs words).run topics schedule
  refine Job.collected_of_remaining hsound.jobs fun j hj => ?_
  obtain ⟨i, hi⟩ := List.mem_iff_getElem?.mp hj
  have hlt : i < words.length := by
    rw [hsound.jobs.length_eq]
    exact (List.getElem?_eq_some_iff.mp hi).1
  have hle := (Pool.new s words).remaining_run topics schedule i
  rw [Array.getElem?_toList] at hi
  have hstart : (Pool.new s words).remaining i ≤ 3 := by
    simp [Pool.remaining, Pool.new, hlt, Job.remaining]
  have hend : ((Pool.new s words).run topics schedule).remaining i = j.remaining := by
    rw [Pool.remaining, hi]
    rfl
  have := hturns i hlt
  omega

theorem completeTurns_inTurn (n : Nat) : CompleteTurns n (inTurn n) := by
  induction n with
  | zero =>
    intro i hi
    cases hi
  | succ n ih =>
    intro i hi
    have hsucc : inTurn (n + 1) = inTurn n ++ [n, n, n] := by
      simp [inTurn, List.range_succ]
    rw [hsucc, List.count_append]
    rcases Nat.lt_succ_iff_lt_or_eq.mp hi with hlt | rfl
    · exact Nat.le_add_right_of_le (ih i hlt)
    · simp

theorem Stemmer.stemMany_answer (hs : s.Right) (topics : Topics) (workers : Option Int)
    {turns : Nat → List Nat} (hturns : CompleteTurns words.length (turns words.length)) :
    (s.stemMany topics words workers turns).answer = words.mapM s.fresh := by
  unfold Stemmer.stemMany
  split
  · exact (Stemmer.stemEach_gives hs topics words).answer
  · exact (Pool.collects_of_completeTurns hs topics hturns).answer_eq

theorem Stemmer.stemMany_answer_or_unfinished (hs : s.Right) (topics : Topics) (words : List Word)
    (workers : Option Int) (turns : Nat → List Nat) :
    (s.stemMany topics words workers turns).answer = words.mapM s.fresh ∨
      (s.stemMany topics words workers turns).answer = .error .unfinished := by
  unfold Stemmer.stemMany
  split
  · exact .inl (Stemmer.stemEach_gives hs topics words).answer
  · exact ((Pool.new_sound hs words).run topics _).answer_eq_or_unfinished

theorem Stemmer.mapM_of_stemMany {workers : Option Int} {turns : Nat → List Nat}
    {stems : List Word} (hs : s.Right)
    (h : (s.stemMany topics words workers turns).answer = .ok stems) :
    words.mapM s.fresh = .ok stems := by
  rcases Stemmer.stemMany_answer_or_unfinished hs topics words workers turns with ha | ha
  · exact ha.symm.trans h
  · cases ha.symm.trans h

theorem Stemmer.stemMany_next (hs : s.Right) (topics : Topics) (words : List Word)
    (workers : Option Int) (turns : Nat → List Nat) :
    (∃ memo, (s.stemMany topics words workers turns).next = { s with memo }) ∧
      (s.stemMany topics words workers turns).next.Right := by
  unfold Stemmer.stemMany
  split
  · obtain ⟨-, hnext, hright⟩ := Stemmer.stemEach_gives hs topics words
    exact ⟨hnext, hright⟩
  · obtain ⟨hnext, hright, -⟩ := (Pool.new_sound hs words).run topics (turns words.length)
    exact ⟨hnext, hright⟩

theorem Service.serve_next (hs : s.Right) (topics : Topics) (r : Request) :
    (∃ memo, ((Service.mk s topics).serve r).next.stemmer = { s with memo }) ∧
      ((Service.mk s topics).serve r).next.stemmer.Right := by
  by_cases hr : r.InTurn s.workers
  · obtain ⟨-, hnext, hright⟩ := Service.serve_gives (s := ⟨s, topics⟩) hs hr
    exact ⟨hnext, hright⟩
  · cases r with
    | many words workers => exact Stemmer.stemMany_next hs topics words workers inTurn
    | stem | trace | text | topics => exact absurd trivial hr

/-- In use a stemmer changes nothing but its memo, and keeps that right. -/
theorem Stemmer.Reaches.right (h : s.Reaches s') (hs : s.Right) :
    (∃ memo, s' = { s with memo }) ∧ s'.Right := by
  induction h with
  | start => exact ⟨⟨s.memo, rfl⟩, hs⟩
  | request topics r _ ih =>
    obtain ⟨⟨memo, rfl⟩, hright⟩ := ih
    exact Service.serve_next hright topics r
  | steps topics words schedule _ ih =>
    obtain ⟨⟨memo, rfl⟩, hright⟩ := ih
    obtain ⟨hnext, hright', -⟩ := (Pool.new_sound hright words).run topics schedule
    exact ⟨hnext, hright'⟩

/-- A batch has one answer, which fresh runs of its words give, whatever the stemmer has been used
for before and however the steps of the workers interleave. One worker gives that answer, several
give it under all turns in which every job gets its steps, and nothing else is ever collected. -/
theorem Stemmer.batch_answer_unique (s : Stemmer) (words : List Word)
    (hnew : ∀ m, s.memo = some m → m.recent = [])
    (hends : ∀ w ∈ words, ¬ s.table.RunsForEver s.limits false w) :
    ∃ enough, ∀ passes, enough ≤ passes → ∀ s', Stemmer.Reaches { s with passes } s' →
      ∃ answer, s.table.StemsOf s.limits words answer ∧ ∀ topics,
        (s'.stemMany topics words (some 1)).answer = answer ∧
        (∀ workers turns, CompleteTurns words.length (turns words.length) →
          (s'.stemMany topics words workers turns).answer = answer) ∧
        ∀ schedule,
          (CompleteTurns words.length schedule →
            ((Pool.new s' words).run topics schedule).Collects answer) ∧
          ∀ a, ((Pool.new s' words).run topics schedule).Collects a → a = answer := by
  obtain ⟨enough, henough⟩ := RuleTable.exists_enough_of_forall hends
  refine ⟨enough, fun passes hp s' hreach => ?_⟩
  have hright : Stemmer.Right { s with passes } := Stemmer.right_of_recent_nil hnew
  obtain ⟨⟨memo, rfl⟩, hright'⟩ := hreach.right hright
  refine ⟨words.mapM (Stemmer.fresh { s with passes }), ?_, fun topics => ⟨?_, ?_, ?_⟩⟩
  · exact Stemmer.stemsOf_fresh (s := { s with passes }) fun w hw =>
      henough passes hp w (List.takeWhile_subset _ hw)
  · exact Stemmer.stemMany_answer hright' topics (some 1) (completeTurns_inTurn words.length)
  · intro workers turns hturns
    exact Stemmer.stemMany_answer hright' topics workers hturns
  · intro schedule
    refine ⟨Pool.collects_of_completeTurns hright' topics, fun a ha => ?_⟩
    have hsound := (Pool.new_sound hright' words).run topics schedule
    exact Job.Collected.eq_mapM ha hsound.jobs

def repeatedWords : List Word :=
  ["cats".toList, "dogs".toList, "cats".toList, "rabbits".toList, "dogs".toList]

theorem Stemmer.batch_answer_unique_repeated :
    (∀ m, tightStemmer.memo = some m → m.recent = []) ∧
      (∀ w ∈ repeatedWords,
        ¬ tightStemmer.table.RunsForEver tightStemmer.limits false w) ∧
      ∃ enough, ∀ passes, enough ≤ passes →
        ∀ s', Stemmer.Reaches { tightStemmer with passes } s' →
          ∃ answer, tightStemmer.table.StemsOf tightStemmer.limits repeatedWords answer ∧
            ∀ topics, (s'.stemMany topics repeatedWords (some 1)).answer = answer ∧
              (∀ workers turns,
                CompleteTurns repeatedWords.length (turns repeatedWords.length) →
                  (s'.stemMany topics repeatedWords workers turns).answer = answer) ∧
              ∀ schedule,
                (CompleteTurns repeatedWords.length schedule →
                  ((Pool.new s' repeatedWords).run topics schedule).Collects answer) ∧
                ∀ a, ((Pool.new s' repeatedWords).run topics schedule).Collects a →
                  a = answer := by
  have hnew : ∀ m, tightStemmer.memo = some m → m.recent = [] :=
    fun _ hm => Stemmer.recent_of_new hm
  have hthree : ∀ w ∈ repeatedWords,
      tightStemmer.table.stem tightStemmer.limits 3 false w ≠ .error .unfinished := by decide
  have hends : ∀ w ∈ repeatedWords,
      ¬ tightStemmer.table.RunsForEver tightStemmer.limits false w :=
    fun w hw hrun => hthree w hw (hrun 3)
  exact ⟨hnew, hends, Stemmer.batch_answer_unique tightStemmer repeatedWords hnew hends⟩

end Lancaster

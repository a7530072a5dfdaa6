import Lancaster.Proofs.Passes
import Lancaster.Stemmer.Service
import Mathlib.Data.List.Forall2

/-!
A stemmer in use answers every request as if it were the first. Its memo holds nothing but stems
that a run would give again, which every request preserves, so hits, misses and evictions cannot be
told apart, and neither can words that are run for a trace or for a debug topic.
-/
namespace Lancaster

def Request.words : Request → List Word
  | .stem w => [w]
  | .trace w => [w]
  | .text t => t.words
  | .many words _ => words
  | .topics _ => []

/-- The words that come to be run: the first that the limits refuse ends the request. -/
def Request.wordsRun (l : Limits) (r : Request) : List Word :=
  r.words.takeWhile fun w => (l.fit w).isOk

/-- Batches for several workers are left out. -/
def Request.InTurn (workers : Int) : Request → Prop
  | .many _ n => n.getD workers ≤ 1
  | _ => True

instance (workers : Int) (r : Request) : Decidable (r.InTurn workers) :=
  match r with
  | .many _ n => inferInstanceAs (Decidable (n.getD workers ≤ 1))
  | .stem _ | .trace _ | .text _ | .topics _ => isTrue trivial

/-- What fresh runs of the words come to: all their stems, or the fault of the first that fails. -/
inductive RuleTable.StemsOf (t : RuleTable) (l : Limits) (words : List Word) :
    Except StemFault (List Word) → Prop where
  | all {stems} (h : List.Forall₂ (fun w v => t.Answers l false w (.ok ⟨v, none⟩)) words stems) :
      StemsOf t l words (.ok stems)
  | failed {before w after f} (hwords : words = before ++ w :: after)
      (hbefore : ∀ u ∈ before, ∃ v, t.Answers l false u (.ok ⟨v, none⟩))
      (h : t.Answers l false w (.error f)) : StemsOf t l words (.error f)

inductive Request.AnsweredAlone (t : RuleTable) (l : Limits) :
    Request → Except StemFault Answer → Prop where
  | stem {w a} (h : t.Answers l false w a) :
      AnsweredAlone t l (.stem w) (a.map fun r => .stem r.stem)
  | trace {w a} (h : t.Answers l true w a)
      (hstem : t.Answers l false w (a.map fun r => ⟨r.stem, none⟩)) :
      AnsweredAlone t l (.trace w) (a.map .traced)
  | text {x a} (h : t.StemsOf l x.words a) : AnsweredAlone t l (.text x) (a.map .stems)
  | many {words workers a} (h : t.StemsOf l words a) :
      AnsweredAlone t l (.many words workers) (a.map .stems)
  | topics {raw} : AnsweredAlone t l (.topics raw) (.ok .ready)

def Stemmer.fresh (s : Stemmer) (w : Word) : Except StemFault Word := (s.run w).map Run.stem

def Memo.Right (m : Memo) (answer : Word → Except StemFault Word) : Prop :=
  ∀ e ∈ m.recent, answer e.1 = .ok e.2

def Stemmer.Right (s : Stemmer) : Prop := ∀ m, s.memo = some m → m.Right s.fresh

/-- A reply that has this answer and leaves the stemmer as it was, but for what the memo holds. -/
structure Reply.Gives {α : Type} (r : Reply α) (s : Stemmer) (answer : Except StemFault α) :
    Prop where
  answer : r.answer = answer
  next : ∃ memo, r.next = { s with memo }
  right : r.next.Right

structure Served.Gives (r : Served) (s : Stemmer) (answer : Except StemFault Answer) : Prop where
  answer : r.answer = answer
  next : ∃ memo, r.next.stemmer = { s with memo }
  right : r.next.stemmer.Right

variable {m m' : Memo} {answer : Word → Except StemFault Word} {w v : Word} {words : List Word}
  {s : Stemmer} {topics : Topics} {t : RuleTable} {l : Limits}

theorem Memo.Right.recall_some (h : m.Right answer) (hr : m.recall w = (some v, m')) :
    answer w = .ok v ∧ m'.Right answer := by
  unfold Memo.recall at hr
  split at hr
  · rename_i e he
    obtain ⟨hv, rfl⟩ := Prod.mk.inj hr
    obtain rfl := Option.some.inj hv
    have hmem : e ∈ m.recent := List.mem_of_find?_eq_some he
    have hkey : e.1 = w := by simpa using List.find?_some he
    refine ⟨hkey ▸ h e hmem, ?_⟩
    intro f hf
    rcases List.mem_cons.mp hf with rfl | hf
    · exact h f hmem
    · exact h f (List.mem_filter.mp hf).1
  · cases (Prod.mk.inj hr).1

theorem Memo.Right.recall_none (h : m.Right answer) (hr : m.recall w = (none, m')) :
    m'.Right answer := by
  unfold Memo.recall at hr
  split at hr
  · cases (Prod.mk.inj hr).1
  · obtain ⟨-, rfl⟩ := Prod.mk.inj hr
    exact h

theorem Memo.Right.store (h : m.Right answer) (hw : answer w = .ok v) :
    (m.store w v).Right answer := by
  unfold Memo.store
  split
  · exact h
  · intro e he
    rcases List.mem_cons.mp (List.mem_of_mem_take he) with rfl | he
    · exact hw
    · exact h e he

/-- Replies that run the word and leave the memo alone. -/
theorem Stemmer.run_gives {α : Type} (h : s.Right) (w : Word) (f : Run → α)
    (lines : Run → List Line) :
    Reply.Gives (match s.run w with
      | .ok r => ⟨.ok (f r), lines r, s⟩
      | .error e => ⟨.error e, [], s⟩) s ((s.run w).map f) := by
  cases s.run w with
  | ok r => exact ⟨rfl, ⟨s.memo, rfl⟩, h⟩
  | error e => exact ⟨rfl, ⟨s.memo, rfl⟩, h⟩

theorem Stemmer.recent_of_new {settings : Settings} {passes : Nat}
    (h : (Stemmer.new t settings passes).memo = some m) : m.recent = [] := by
  unfold Stemmer.new at h
  split at h
  · cases h
  · obtain rfl := Option.some.inj h
    rfl

theorem Stemmer.right_of_recent_nil (h : ∀ m, s.memo = some m → m.recent = []) : s.Right := by
  intro m hm e he
  rw [h m hm] at he
  cases he

theorem Stemmer.right_of_memo (h : m.Right s.fresh) : Stemmer.Right { s with memo := some m } := by
  intro m' hm
  obtain rfl := Option.some.inj hm
  exact h

theorem Stemmer.stemRecalled_gives (h : m.Right s.fresh) (w : Word) :
    (s.stemRecalled m w).Gives s (s.fresh w) := by
  unfold Stemmer.stemRecalled
  rcases hr : m.recall w with ⟨v | _, m'⟩
  · have hm' := h.recall_none hr
    cases hrun : s.run w with
    | ok r =>
      have hw : s.fresh w = .ok r.stem := by rw [Stemmer.fresh, hrun]; rfl
      exact ⟨hw.symm, ⟨_, rfl⟩, Stemmer.right_of_memo (hm'.store hw)⟩
    | error f =>
      have hw : s.fresh w = .error f := by rw [Stemmer.fresh, hrun]; rfl
      exact ⟨hw.symm, ⟨_, rfl⟩, Stemmer.right_of_memo hm'⟩
  · obtain ⟨hw, hm'⟩ := h.recall_some hr
    exact ⟨hw.symm, ⟨_, rfl⟩, Stemmer.right_of_memo hm'⟩

theorem Stemmer.stem_gives (h : s.Right) (topics : Topics) (w : Word) :
    (s.stem topics w).Gives s (s.fresh w) := by
  unfold Stemmer.stem
  split
  · exact Stemmer.run_gives h w Run.stem _
  · cases hm : s.memo with
    | none => exact Stemmer.run_gives h w Run.stem _
    | some m => exact Stemmer.stemRecalled_gives (h m hm) w

theorem Stemmer.stemEach_cons_error {f : StemFault} (h : (s.stem topics w).answer = .error f) :
    s.stemEach topics (w :: words) =
      ⟨.error f, (s.stem topics w).lines, (s.stem topics w).next⟩ := by
  simp only [Stemmer.stemEach, h]

theorem Stemmer.stemEach_cons_ok (h : (s.stem topics w).answer = .ok v) :
    s.stemEach topics (w :: words) =
      let others := (s.stem topics w).next.stemEach topics words
      ⟨others.answer.map (v :: ·), (s.stem topics w).lines ++ others.lines, others.next⟩ := by
  simp only [Stemmer.stemEach, h]

theorem Stemmer.stemEach_gives (h : s.Right) (topics : Topics) (words : List Word) :
    (s.stemEach topics words).Gives s (words.mapM s.fresh) := by
  induction words generalizing s with
  | nil => exact ⟨rfl, ⟨s.memo, rfl⟩, h⟩
  | cons w words ih =>
    obtain ⟨hanswer, ⟨memo, hnext⟩, hright⟩ := Stemmer.stem_gives h topics w
    rw [List.mapM_cons, ← hanswer]
    cases hw : (s.stem topics w).answer with
    | error f =>
      rw [Stemmer.stemEach_cons_error hw]
      exact ⟨rfl, ⟨memo, hnext⟩, hright⟩
    | ok v =>
      rw [Stemmer.stemEach_cons_ok hw, hnext]
      rw [hnext] at hright
      -- Nothing but the memo has changed, so the other words have the same fresh stems.
      obtain ⟨hothers, ⟨memo', hnext'⟩, hright'⟩ := ih hright
      refine ⟨?_, ⟨memo', hnext'⟩, hright'⟩
      have hsame : Stemmer.fresh { s with memo := memo } = s.fresh := rfl
      rw [hsame] at hothers
      simp only [hothers]
      cases words.mapM s.fresh <;> rfl

def Stemmer.alone (s : Stemmer) : Request → Except StemFault Answer
  | .stem w => (s.fresh w).map .stem
  | .trace w => ((s.run w).map fun r => r.result true).map .traced
  | .text t => (t.words.mapM s.fresh).map .stems
  | .many words _ => (words.mapM s.fresh).map .stems
  | .topics _ => .ok .ready

theorem Reply.Gives.served {α : Type} {reply : Reply α} {a : Except StemFault α}
    (h : reply.Gives s a) (topics : Topics) (wrap : α → Answer) :
    (reply.served topics wrap).Gives s (a.map wrap) :=
  ⟨congrArg (Except.map wrap) h.answer, h.next, h.right⟩

/-- One request is answered as if it were the first, and the memo is still right afterwards. -/
theorem Service.serve_gives {s : Service} {r : Request} (h : s.stemmer.Right)
    (hr : r.InTurn s.stemmer.workers) : (s.serve r).Gives s.stemmer (s.stemmer.alone r) := by
  cases r with
  | stem w => exact (Stemmer.stem_gives h s.topics w).served s.topics .stem
  | trace w =>
    have htrace := Stemmer.run_gives h w (fun r => r.result true) Run.lines
    exact htrace.served s.topics .traced
  | text t => exact (Stemmer.stemEach_gives h s.topics t.words).served s.topics .stems
  | many words n =>
    have hmany : s.stemmer.stemMany s.topics words n = s.stemmer.stemEach s.topics words :=
      if_pos hr
    rw [Service.serve, hmany]
    exact (Stemmer.stemEach_gives h s.topics words).served s.topics .stems
  | topics raw => exact ⟨rfl, ⟨s.stemmer.memo, rfl⟩, h⟩

theorem Service.serveAll_alone {s : Service} {requests : List Request} (h : s.stemmer.Right)
    (hr : ∀ r ∈ requests, r.InTurn s.stemmer.workers) :
    (s.serveAll requests).1.map Served.answer = requests.map s.stemmer.alone := by
  induction requests generalizing s with
  | nil => rfl
  | cons r requests ih =>
    obtain ⟨hanswer, ⟨memo, hnext⟩, hright⟩ := Service.serve_gives h (hr r List.mem_cons_self)
    have hothers : ∀ r' ∈ requests, r'.InTurn (s.serve r).next.stemmer.workers := by
      intro r' hr'
      rw [hnext]
      exact hr r' (List.mem_cons_of_mem r hr')
    have hsame : (s.serve r).next.stemmer.alone = s.stemmer.alone := by
      rw [hnext]
      rfl
    rw [Service.serveAll, List.map_cons, List.map_cons, hanswer, ih hright hothers, hsame]

theorem RuleTable.exists_enough (h : ¬ t.RunsForEver l false w) :
    ∃ enough, ∀ passes, enough ≤ passes → ComesTo t.rulesFor l w (t.run l passes w) := by
  obtain ⟨n, hn⟩ := not_forall.mp h
  have hends : t.run l n w ≠ .error .unfinished := by
    intro hrun
    rw [RuleTable.stem, hrun] at hn
    exact hn rfl
  have hcomes : ComesTo t.rulesFor l w (t.run l n w) := .of_consultedRun (t.run_eq l n w).symm hends
  obtain ⟨enough, henough⟩ := hcomes.consultedRun_eq
  refine ⟨enough, fun passes hp => ?_⟩
  rw [t.run_eq l passes w, henough passes hp]
  exact hcomes

theorem RuleTable.exists_enough_of_forall (h : ∀ w ∈ words, ¬ t.RunsForEver l false w) :
    ∃ enough, ∀ passes, enough ≤ passes →
      ∀ w ∈ words, ComesTo t.rulesFor l w (t.run l passes w) := by
  induction words with
  | nil => exact ⟨0, by simp⟩
  | cons w words ih =>
    obtain ⟨n, hn⟩ := RuleTable.exists_enough (h w List.mem_cons_self)
    obtain ⟨k, hk⟩ := ih fun u hu => h u (List.mem_cons_of_mem w hu)
    refine ⟨max n k, fun passes hp u hu => ?_⟩
    rcases List.mem_cons.mp hu with rfl | hu
    · exact hn passes (by omega)
    · exact hk passes (by omega) u hu

theorem Stemmer.answers (h : ComesTo s.table.rulesFor s.limits w (s.run w)) (traced : Bool) :
    s.table.Answers s.limits traced w ((s.run w).map fun r => r.result traced) :=
  RuleTable.answers_iff.mpr ⟨s.run w, h, rfl⟩

theorem RuleTable.StemsOf.of_error {f : StemFault} (h : t.Answers l false w (.error f)) :
    t.StemsOf l (w :: words) (.error f) :=
  .failed (List.nil_append (w :: words)).symm (by simp) h

theorem RuleTable.StemsOf.cons {o : Except StemFault (List Word)}
    (hw : t.Answers l false w (.ok ⟨v, none⟩)) (h : t.StemsOf l words o) :
    t.StemsOf l (w :: words) (o.map (v :: ·)) := by
  cases h with
  | all h => exact .all (.cons hw h)
  | @failed before u after f hwords hbefore hu =>
    have hcons : w :: words = (w :: before) ++ u :: after := by rw [hwords, List.cons_append]
    refine .failed hcons ?_ hu
    intro x hx
    rcases List.mem_cons.mp hx with rfl | hx
    · exact ⟨v, hw⟩
    · exact hbefore x hx

theorem Stemmer.comesTo_head
    (h : ∀ u ∈ (w :: words).takeWhile (fun w => (s.limits.fit w).isOk),
      ComesTo s.table.rulesFor s.limits u (s.run u)) :
    ComesTo s.table.rulesFor s.limits w (s.run w) := by
  cases hfit : s.limits.fit w with
  | error f =>
    have hrun : s.run w = .error f := by
      rw [Stemmer.run, RuleTable.run, hfit]
      rfl
    rw [hrun]
    exact .refused hfit
  | ok u =>
    apply h
    rw [List.takeWhile_cons_of_pos (by rw [hfit]; rfl)]
    exact List.mem_cons_self

theorem Stemmer.stemsOf_fresh
    (h : ∀ u ∈ words.takeWhile (fun w => (s.limits.fit w).isOk),
      ComesTo s.table.rulesFor s.limits u (s.run u)) :
    s.table.StemsOf s.limits words (words.mapM s.fresh) := by
  induction words with
  | nil => exact .all .nil
  | cons w words ih =>
    have hw := Stemmer.comesTo_head h
    have hanswer := Stemmer.answers hw false
    rw [List.mapM_cons, Stemmer.fresh]
    cases hrun : s.run w with
    | error f =>
      rw [hrun] at hanswer
      exact .of_error hanswer
    | ok r =>
      rw [hrun] at hw hanswer
      have hfit := hw.fit_eq
      rw [List.takeWhile_cons_of_pos (by rw [hfit]; rfl)] at h
      have hothers := ih fun u hu => h u (List.mem_cons_of_mem w hu)
      have hcons := RuleTable.StemsOf.cons hanswer hothers
      cases hm : words.mapM s.fresh <;> rw [hm] at hcons <;> exact hcons

theorem Stemmer.answeredAlone {r : Request}
    (h : ∀ w ∈ r.wordsRun s.limits, ComesTo s.table.rulesFor s.limits w (s.run w)) :
    r.AnsweredAlone s.table s.limits (s.alone r) := by
  cases r with
  | stem w =>
    have hanswer := Stemmer.answers (Stemmer.comesTo_head h) false
    have hstem : s.alone (.stem w) =
        ((s.run w).map fun r => r.result false).map fun r => .stem r.stem := by
      rw [Stemmer.alone, Stemmer.fresh]
      cases s.run w <;> rfl
    rw [hstem]
    exact .stem hanswer
  | trace w =>
    have hw := Stemmer.comesTo_head h
    refine .trace (Stemmer.answers hw true) ?_
    have hanswer := Stemmer.answers hw false
    cases hrun : s.run w <;> rw [hrun] at hanswer <;> exact hanswer
  | text x => exact .text (Stemmer.stemsOf_fresh h)
  | many words n => exact .many (Stemmer.stemsOf_fresh h)
  | topics raw => exact .topics

/-- Whatever has been asked before, and whatever the memo holds and the topics say, each request is
answered by fresh runs of its words. The memo is empty at first, or there is none. -/
theorem Service.serveAll_answeredAlone (s : Stemmer) (topics : Topics) (requests : List Request)
    (hnew : ∀ m, s.memo = some m → m.recent = [])
    (hturn : ∀ r ∈ requests, r.InTurn s.workers)
    (hends : ∀ r ∈ requests, ∀ w ∈ r.wordsRun s.limits, ¬ s.table.RunsForEver s.limits false w) :
    ∃ enough, ∀ passes, enough ≤ passes →
      List.Forall₂ (fun r served => r.AnsweredAlone s.table s.limits served.answer) requests
        (Service.serveAll ⟨{ s with passes }, topics⟩ requests).1 := by
  have hwords : ∀ w ∈ requests.flatMap (Request.wordsRun s.limits),
      ¬ s.table.RunsForEver s.limits false w := by
    intro w hw
    obtain ⟨r, hr, hw⟩ := List.mem_flatMap.mp hw
    exact hends r hr w hw
  obtain ⟨enough, henough⟩ := RuleTable.exists_enough_of_forall hwords
  refine ⟨enough, fun passes hp => ?_⟩
  have hright : Stemmer.Right { s with passes } := Stemmer.right_of_recent_nil hnew
  have hserved := Service.serveAll_alone (s := ⟨{ s with passes }, topics⟩) hright hturn
  have halone : List.Forall₂ (fun r a => r.AnsweredAlone s.table s.limits a) requests
      (requests.map (Stemmer.alone { s with passes })) := by
    rw [List.forall₂_map_right_iff, List.forall₂_same]
    intro r hr
    exact Stemmer.answeredAlone (s := { s with passes }) fun w hw =>
      henough passes hp w (List.mem_flatMap.mpr ⟨r, hr, hw⟩)
  rw [← hserved, List.forall₂_map_right_iff] at halone
  exact halone

def tightStemmer : Stemmer :=
  .new (.ofList [⟨['s'], false, 1, [], true, "(1:s1>)".toList, 1, by decide, by decide, by decide⟩])
    { maxLength := some 5, overflow := .reject, cacheSize := 1 } 0

def mixedRequests : List Request :=
  [.stem "cats".toList, .stem "dogs".toList, .topics "STEM".toList, .stem "cats".toList,
    .topics [], .many ["cats".toList, "rabbits".toList, "dogs".toList] none, .trace "dogs".toList,
    .text "Cats, dogs".toList]

theorem Service.serveAll_answeredAlone_tight :
    (∀ m, tightStemmer.memo = some m → m.recent = []) ∧
      (∀ r ∈ mixedRequests, r.InTurn tightStemmer.workers) ∧
      (∀ r ∈ mixedRequests, ∀ w ∈ r.wordsRun tightStemmer.limits,
        ¬ tightStemmer.table.RunsForEver tightStemmer.limits false w) ∧
      ∃ enough, ∀ passes, enough ≤ passes →
        List.Forall₂
          (fun r served => r.AnsweredAlone tightStemmer.table tightStemmer.limits served.answer)
          mixedRequests
          (Service.serveAll ⟨{ tightStemmer with passes }, .none⟩ mixedRequests).1 := by
  have hnew : ∀ m, tightStemmer.memo = some m → m.recent = [] :=
    fun _ hm => Stemmer.recent_of_new hm
  have hturn : ∀ r ∈ mixedRequests, r.InTurn tightStemmer.workers := by decide
  have hthree : ∀ r ∈ mixedRequests, ∀ w ∈ r.wordsRun tightStemmer.limits,
      tightStemmer.table.stem tightStemmer.limits 3 false w ≠ .error .unfinished := by decide
  have hends : ∀ r ∈ mixedRequests, ∀ w ∈ r.wordsRun tightStemmer.limits,
      ¬ tightStemmer.table.RunsForEver tightStemmer.limits false w :=
    fun r hr w hw hrun => hthree r hr w hw (hrun 3)
  exact ⟨hnew, hturn, hends,
    Service.serveAll_answeredAlone tightStemmer .none mixedRequests hnew hturn hends⟩

end Lancaster

import Lancaster.Proofs.History
import Lancaster.Proofs.RecentWords

/-!
Accounts of a memo. Every word that a stemmer is asked for is used once. While its topic is off the
word is a hit or a miss, and a hit just when it is among the words that went through the memo most
recently, as many as the memo may hold. While the topic is on the memo is left alone, and the word
is shown with its own trace if it has a stem. Words that are traced on request are no uses.
-/
namespace Lancaster

/-- A word that a stemmer is asked for, with the topics of that time. -/
structure Use where
  topics : Topics
  word : Word
  deriving DecidableEq, Repr

def Use.shown (u : Use) : Bool := u.topics.enabled stemTopic

/-- The words that are stemmed one by one, up to the first that the limits refuse. -/
def wordsMet (l : Limits) : List Word → List Word
  | [] => []
  | w :: words => if (l.fit w).isOk then w :: wordsMet l words else [w]

def Request.uses (l : Limits) (topics : Topics) : Request → List Use
  | .stem w => [⟨topics, w⟩]
  | .text t => (wordsMet l t.words).map (Use.mk topics)
  | .many words _ => (wordsMet l words).map (Use.mk topics)
  | .trace _ | .topics _ => []

def Request.topicsAfter (topics : Topics) : Request → Topics
  | .topics raw => .ofText raw
  | _ => topics

def usesOf (l : Limits) : Topics → List Request → List Use
  | _, [] => []
  | topics, r :: requests => r.uses l topics ++ usesOf l (r.topicsAfter topics) requests

/-- The words that the memo was asked for. -/
def quietWords (uses : List Use) : List Word := (uses.filter fun u => !u.shown).map Use.word

/-- The words that went through the memo without an error. -/
def memoWords (l : Limits) (uses : List Use) : List Word :=
  (quietWords uses).filter fun w => (l.fit w).isOk

/-- The words that were stemmed without an error while the topic was on. -/
def shownWords (l : Limits) (uses : List Use) : List Word :=
  ((uses.filter Use.shown).map Use.word).filter fun w => (l.fit w).isOk

def Stemmer.after (s : Stemmer) (uses : List Use) : Stemmer :=
  uses.foldl (fun s u => (s.stem u.topics u.word).next) s

def Line.isTopic : Line → Bool
  | .topic _ _ _ => true
  | _ => false

/-- A line that shows a word with the trace of its own fresh run. -/
def RuleTable.Shows (t : RuleTable) (l : Limits) (w : Word) (line : Line) : Prop :=
  ∃ v trace, t.Answers l true w (.ok ⟨v, some trace⟩) ∧
    line = .topic stemTopic "DEBUG".toList
      (if trace = [] then w ++ " (unacceptable)".toList else trace.text)

inductive Use.Counts (u : Use) (m : Nat) (kept : List Word) (memo memo' : Memo) : Prop where
  | shown (h : u.shown = true) (hsame : memo' = memo)
  | hit (h : u.shown = false) (hrecent : IsRecent m kept u.word)
      (hhits : memo'.hits = memo.hits + 1) (hmisses : memo'.misses = memo.misses)
  | miss (h : u.shown = false) (hrecent : ¬ IsRecent m kept u.word)
      (hhits : memo'.hits = memo.hits) (hmisses : memo'.misses = memo.misses + 1)

/-- A stemmer went through these uses and nothing else, with these lines. -/
structure Stemmer.GoesThrough (s : Stemmer) (uses : List Use) (lines : List Line)
    (next : Stemmer) : Prop where
  next : next = s.after uses
  shown : List.Forall₂ (s.table.Shows s.limits) (shownWords s.limits uses)
    (lines.filter Line.isTopic)

structure Stemmer.CountsAll (s : Stemmer) (m : Nat) (uses : List Use) : Prop where
  each : ∀ before u after, uses = before ++ u :: after → ∃ memo memo',
    (s.after before).memo = some memo ∧ (s.after (before ++ [u])).memo = some memo' ∧
      u.Counts m (memoWords s.limits before) memo memo'
  totals : ∃ memo, (s.after uses).memo = some memo ∧ memo.Holds m (memoWords s.limits uses) ∧
    memo.hits + memo.misses = (quietWords uses).length ∧
    memo.size = min m (memoWords s.limits uses).dedup.length

variable {s : Stemmer} {t : RuleTable} {l : Limits} {topics : Topics} {uses uses' : List Use}
  {u : Use} {w : Word} {words : List Word} {memo memo' : Memo} {m : Nat} {lines lines' : List Line}
  {next next' : Stemmer}

theorem Stemmer.after_append (s : Stemmer) (uses uses' : List Use) :
    s.after (uses ++ uses') = (s.after uses).after uses' := by
  rw [Stemmer.after, List.foldl_append]
  rfl

theorem quietWords_append (uses uses' : List Use) :
    quietWords (uses ++ uses') = quietWords uses ++ quietWords uses' := by
  rw [quietWords, List.filter_append, List.map_append]
  rfl

theorem memoWords_append (l : Limits) (uses uses' : List Use) :
    memoWords l (uses ++ uses') = memoWords l uses ++ memoWords l uses' := by
  rw [memoWords, quietWords_append, List.filter_append]
  rfl

theorem shownWords_append (l : Limits) (uses uses' : List Use) :
    shownWords l (uses ++ uses') = shownWords l uses ++ shownWords l uses' := by
  rw [shownWords, List.filter_append, List.map_append, List.filter_append]
  rfl

theorem ComesTo.isOk_eq {consult : Word → List Rule} {o : Except StemFault Run}
    (h : ComesTo consult l w o) : o.isOk = (l.fit w).isOk := by
  cases h with
  | refused hf => rw [hf]; rfl
  | kept hf _ => rw [hf]; rfl
  | ended hf _ _ => rw [hf]; rfl

theorem Use.Counts.total {kept : List Word} (h : u.Counts m kept memo memo') :
    memo'.hits + memo'.misses = memo.hits + memo.misses + (quietWords [u]).length := by
  cases h with
  | shown hu hsame => simp [hsame, quietWords, hu]
  | hit hu _ hhits hmisses => simp [hhits, hmisses, quietWords, hu]; omega
  | miss hu _ hhits hmisses => simp [hhits, hmisses, quietWords, hu]; omega

theorem memoWords_of_shown (hu : u.shown = true) : memoWords l [u] = [] := by
  simp [memoWords, quietWords, hu]

theorem memoWords_of_fits (hu : u.shown = false) (hfit : (l.fit u.word).isOk = true) :
    memoWords l [u] = [u.word] := by
  simp [memoWords, quietWords, hu, hfit]

theorem memoWords_of_refused (hfit : (l.fit u.word).isOk = false) : memoWords l [u] = [] := by
  cases hu : u.shown <;> simp [memoWords, quietWords, hu, hfit]

theorem shownWords_of_quiet (hu : u.shown = false) : shownWords l [u] = [] := by
  simp [shownWords, hu]

theorem shownWords_of_fits (hu : u.shown = true) (hfit : (l.fit u.word).isOk = true) :
    shownWords l [u] = [u.word] := by
  simp [shownWords, hu, hfit]

theorem shownWords_of_refused (hfit : (l.fit u.word).isOk = false) : shownWords l [u] = [] := by
  cases hu : u.shown <;> simp [shownWords, hu, hfit]

theorem fits_of_mem_memoWords (h : w ∈ memoWords l uses) : (l.fit w).isOk = true :=
  (List.mem_filter.mp h).2

theorem Stemmer.stem_of_shown (hu : u.shown = true) :
    s.stem u.topics u.word = s.stemShown u.topics u.word :=
  if_pos hu

theorem Stemmer.stem_of_quiet (hu : u.shown = false) (hs : s.memo = some memo) :
    s.stem u.topics u.word = s.stemRecalled memo u.word := by
  have hquiet : ¬ u.topics.enabled stemTopic = true := ne_true_of_eq_false hu
  rw [Stemmer.stem, if_neg hquiet, hs]

theorem Stemmer.stemShown_next (s : Stemmer) (topics : Topics) (w : Word) :
    (s.stemShown topics w).next = s := by
  rw [Stemmer.stemShown]
  cases s.run w <;> rfl

theorem Stemmer.stemRecalled_counts (hshown : u.shown = false)
    (hm : memo.Holds m (memoWords s.limits uses))
    (hu : ComesTo s.table.rulesFor s.limits u.word (s.run u.word)) :
    ∃ memo', (s.stemRecalled memo u.word).next = { s with memo := some memo' } ∧
      u.Counts m (memoWords s.limits uses) memo memo' ∧
      memo'.Holds m (memoWords s.limits uses ++ memoWords s.limits [u]) := by
  have hfits := hu.isOk_eq
  rw [Stemmer.stemRecalled]
  by_cases hrecent : u.word ∈ mostRecent m (memoWords s.limits uses)
  · obtain ⟨v, memo', hrecall, hhits, hmisses, hm'⟩ := hm.recall_of_mem hrecent
    have hused : u.word ∈ memoWords s.limits uses := mem_of_mem_mostRecent hrecent
    refine ⟨memo', ?_, .hit hshown (mem_mostRecent_iff.mp hrecent) hhits hmisses, ?_⟩
    · rw [hrecall]
    · rw [memoWords_of_fits hshown (fits_of_mem_memoWords hused)]
      exact hm'
  · have hold : ¬ IsRecent m (memoWords s.limits uses) u.word := mt mem_mostRecent_iff.mpr hrecent
    have hmissed : Memo.Holds { memo with misses := memo.misses + 1 } m
        (memoWords s.limits uses) := ⟨hm.capacity, hm.recent⟩
    rw [hm.recall_of_not_mem hrecent]
    cases hrun : s.run u.word with
    | ok r =>
      rw [hrun] at hfits
      obtain ⟨hhits, hmisses, hm'⟩ := hmissed.store hrecent r.stem
      refine ⟨_, rfl, .miss hshown hold hhits hmisses, ?_⟩
      rw [memoWords_of_fits hshown hfits.symm]
      exact hm'
    | error f =>
      rw [hrun] at hfits
      refine ⟨_, rfl, .miss hshown hold rfl rfl, ?_⟩
      rw [memoWords_of_refused hfits.symm, List.append_nil]
      exact hmissed

theorem Stemmer.stem_counts (hs : s.memo = some memo)
    (hm : memo.Holds m (memoWords s.limits uses))
    (hu : ComesTo s.table.rulesFor s.limits u.word (s.run u.word)) :
    ∃ memo', (s.stem u.topics u.word).next = { s with memo := some memo' } ∧
      u.Counts m (memoWords s.limits uses) memo memo' ∧
      memo'.Holds m (memoWords s.limits (uses ++ [u])) := by
  rw [memoWords_append]
  cases hshown : u.shown with
  | true =>
    refine ⟨memo, ?_, .shown hshown rfl, ?_⟩
    · rw [Stemmer.stem_of_shown hshown, Stemmer.stemShown_next, ← hs]
    · rw [memoWords_of_shown hshown, List.append_nil]
      exact hm
  | false =>
    rw [Stemmer.stem_of_quiet hshown hs]
    exact Stemmer.stemRecalled_counts hshown hm hu

theorem Stemmer.after_holds (hs : s.memo = some (.empty m))
    (hends : ∀ u ∈ uses, ComesTo s.table.rulesFor s.limits u.word (s.run u.word)) :
    ∃ memo, s.after uses = { s with memo := some memo } ∧
      memo.Holds m (memoWords s.limits uses) ∧
      memo.hits + memo.misses = (quietWords uses).length := by
  induction uses using List.reverseRecOn with
  | nil =>
    refine ⟨.empty m, ?_, Memo.empty_holds m, rfl⟩
    rw [← hs]
    rfl
  | append_singleton uses u ih =>
    obtain ⟨memo, hafter, hm, htotal⟩ := ih fun v hv => hends v (List.mem_append_left _ hv)
    have hu := hends u (List.mem_append_right _ List.mem_cons_self)
    obtain ⟨memo', hnext, hcounts, hm'⟩ :=
      Stemmer.stem_counts (s := { s with memo := some memo }) rfl hm hu
    refine ⟨memo', ?_, hm', ?_⟩
    · rw [Stemmer.after_append, hafter]
      exact hnext
    · rw [hcounts.total, htotal, quietWords_append, List.length_append]

theorem Stemmer.countsAll (hs : s.memo = some (.empty m))
    (hends : ∀ u ∈ uses, ComesTo s.table.rulesFor s.limits u.word (s.run u.word)) :
    s.CountsAll m uses where
  each := by
    rintro before u after rfl
    have hbefore : ∀ v ∈ before, ComesTo s.table.rulesFor s.limits v.word (s.run v.word) :=
      fun v hv => hends v (List.mem_append_left _ hv)
    have hu := hends u (List.mem_append_right _ List.mem_cons_self)
    obtain ⟨memo, hafter, hm, -⟩ := Stemmer.after_holds hs hbefore
    obtain ⟨memo', hnext, hcounts, -⟩ :=
      Stemmer.stem_counts (s := { s with memo := some memo }) rfl hm hu
    refine ⟨memo, memo', by rw [hafter], ?_, hcounts⟩
    rw [Stemmer.after_append, hafter]
    exact congrArg Stemmer.memo hnext
  totals := by
    obtain ⟨memo, hafter, hm, htotal⟩ := Stemmer.after_holds hs hends
    exact ⟨memo, by rw [hafter], hm, htotal, hm.size_eq⟩

theorem Run.filter_lines (r : Run) : r.lines.filter Line.isTopic = [] := by
  have hwins : ∀ (w : Word) (wins : List Win), (winLines w wins).filter Line.isTopic = [] := by
    intro w wins
    induction wins generalizing w with
    | nil => rfl
    | cons v wins ih =>
      rw [winLines, List.filter_cons_of_neg (by simp [Line.isTopic])]
      exact ih v.stem
  exact hwins r.start r.wins

/-- The trace of an acceptable word is not empty, and neither is its text. -/
theorem Run.summary_eq (r : Run) (w : Word) :
    r.summary w =
      if r.trace = [] then w ++ " (unacceptable)".toList else r.trace.text := by
  rw [Run.summary]
  cases ha : isAcceptable r.start with
  | false =>
    have hnil : r.trace = [] := by rw [Run.trace, ha]; rfl
    rw [hnil]
    rfl
  | true =>
    have hstart : r.start ≠ [] := ne_nil_of_isAcceptable ha
    have htext : r.trace.text ≠ [] := by
      rw [Run.trace_eq_cons ha, Trace.text]
      simp [hstart]
    have hne : r.trace ≠ [] := fun hnil => htext (by rw [hnil]; rfl)
    rw [if_neg hne]
    exact if_neg (by simpa using htext)

theorem Stemmer.GoesThrough.nil (hlines : lines.filter Line.isTopic = []) :
    s.GoesThrough [] lines s :=
  ⟨rfl, by rw [hlines]; exact .nil⟩

theorem Stemmer.GoesThrough.append (h : s.GoesThrough uses lines next)
    (hsame : ∃ memo, next = { s with memo }) (h' : next.GoesThrough uses' lines' next') :
    s.GoesThrough (uses ++ uses') (lines ++ lines') next' where
  next := by rw [h'.next, h.next, Stemmer.after_append]
  shown := by
    obtain ⟨memo, rfl⟩ := hsame
    rw [shownWords_append, List.filter_append]
    exact List.rel_append h.shown h'.shown

theorem Stemmer.stemRecalled_filter_lines (s : Stemmer) (memo : Memo) (w : Word) :
    (s.stemRecalled memo w).lines.filter Line.isTopic = [] := by
  rw [Stemmer.stemRecalled]
  rcases memo.recall w with ⟨v | _, memo'⟩
  · cases s.run w with
    | ok r => exact r.filter_lines
    | error f => rfl
  · rfl

theorem Stemmer.stemFresh_filter_lines (s : Stemmer) (w : Word) :
    (s.stemFresh w).lines.filter Line.isTopic = [] := by
  rw [Stemmer.stemFresh]
  cases s.run w with
  | ok r => exact r.filter_lines
  | error f => rfl

theorem Stemmer.stem_goesThrough
    (hu : ComesTo s.table.rulesFor s.limits u.word (s.run u.word)) :
    s.GoesThrough [u] (s.stem u.topics u.word).lines (s.stem u.topics u.word).next where
  next := rfl
  shown := by
    have hfits := hu.isOk_eq
    cases hshown : u.shown with
    | false =>
      have hquiet : ¬ u.topics.enabled stemTopic = true := ne_true_of_eq_false hshown
      rw [shownWords_of_quiet hshown, Stemmer.stem, if_neg hquiet]
      cases s.memo with
      | none => rw [Stemmer.stemFresh_filter_lines]; exact .nil
      | some memo => rw [Stemmer.stemRecalled_filter_lines]; exact .nil
    | true =>
      rw [Stemmer.stem_of_shown hshown, Stemmer.stemShown]
      cases hrun : s.run u.word with
      | error f =>
        rw [hrun] at hfits
        rw [shownWords_of_refused hfits.symm]
        exact .nil
      | ok r =>
        rw [hrun] at hu hfits
        have hline : u.topics.line? stemTopic "DEBUG".toList (r.summary u.word) =
            some (.topic stemTopic "DEBUG".toList (r.summary u.word)) := if_pos hshown
        rw [shownWords_of_fits hshown hfits.symm]
        simp only [hline, List.filter_append, r.filter_lines, List.nil_append]
        exact .cons ⟨r.stem, r.trace, hu.answers true, by rw [Run.summary_eq]⟩ .nil

theorem Stemmer.stemEach_goesThrough (h : s.Right) (topics : Topics)
    (hends : ∀ w ∈ wordsMet s.limits words, ComesTo s.table.rulesFor s.limits w (s.run w)) :
    s.GoesThrough ((wordsMet s.limits words).map (Use.mk topics))
      (s.stemEach topics words).lines (s.stemEach topics words).next := by
  induction words generalizing s with
  | nil => exact .nil rfl
  | cons w words ih =>
    obtain ⟨hanswer, ⟨memo, hnext⟩, hright⟩ := Stemmer.stem_gives h topics w
    have hw : ComesTo s.table.rulesFor s.limits w (s.run w) := by
      apply hends
      rw [wordsMet]
      split
      · exact List.mem_cons_self
      · exact List.mem_cons_self
    have hfirst := Stemmer.stem_goesThrough (u := ⟨topics, w⟩) hw
    rw [Stemmer.fresh] at hanswer
    cases hrun : s.run w with
    | error f =>
      have hrefused : ¬ (s.limits.fit w).isOk = true := by
        rw [← hw.isOk_eq, hrun]
        exact Bool.false_ne_true
      rw [hrun] at hanswer
      rw [wordsMet, if_neg hrefused, Stemmer.stemEach_cons_error hanswer]
      exact hfirst
    | ok r =>
      have hfits : (s.limits.fit w).isOk = true := by
        rw [← hw.isOk_eq, hrun]
        rfl
      rw [hrun] at hanswer
      rw [wordsMet, if_pos hfits] at hends ⊢
      rw [Stemmer.stemEach_cons_ok hanswer]
      refine hfirst.append ⟨memo, hnext⟩ ?_
      rw [hnext] at hright ⊢
      exact ih hright fun v hv => hends v (List.mem_cons_of_mem w hv)

theorem Service.serve_goesThrough {s : Service} {r : Request} (h : s.stemmer.Right)
    (hr : r.InTurn s.stemmer.workers)
    (hends : ∀ u ∈ r.uses s.stemmer.limits s.topics,
      ComesTo s.stemmer.table.rulesFor s.stemmer.limits u.word (s.stemmer.run u.word)) :
    s.stemmer.GoesThrough (r.uses s.stemmer.limits s.topics) (s.serve r).lines
      (s.serve r).next.stemmer := by
  cases r with
  | stem w => exact Stemmer.stem_goesThrough (hends _ List.mem_cons_self)
  | trace w =>
    rw [Service.serve, Stemmer.trace]
    cases s.stemmer.run w with
    | ok r => exact .nil r.filter_lines
    | error f => exact .nil rfl
  | text t =>
    exact Stemmer.stemEach_goesThrough h s.topics fun w hw =>
      hends ⟨s.topics, w⟩ (List.mem_map_of_mem hw)
  | many words n =>
    have hmany : s.stemmer.stemMany s.topics words n = s.stemmer.stemEach s.topics words :=
      if_pos hr
    rw [Service.serve, hmany]
    exact Stemmer.stemEach_goesThrough h s.topics fun w hw =>
      hends ⟨s.topics, w⟩ (List.mem_map_of_mem hw)
  | topics raw => exact .nil rfl

theorem Service.serve_topics (s : Service) (r : Request) :
    (s.serve r).next.topics = r.topicsAfter s.topics := by
  cases r <;> rfl

theorem Service.serveAll_goesThrough {s : Service} {requests : List Request}
    (h : s.stemmer.Right) (hr : ∀ r ∈ requests, r.InTurn s.stemmer.workers)
    (hends : ∀ u ∈ usesOf s.stemmer.limits s.topics requests,
      ComesTo s.stemmer.table.rulesFor s.stemmer.limits u.word (s.stemmer.run u.word)) :
    s.stemmer.GoesThrough (usesOf s.stemmer.limits s.topics requests)
      ((s.serveAll requests).1.flatMap Served.lines) (s.serveAll requests).2.stemmer := by
  induction requests generalizing s with
  | nil => exact .nil rfl
  | cons r requests ih =>
    have hturn := hr r List.mem_cons_self
    obtain ⟨-, ⟨memo, hnext⟩, hright⟩ := Service.serve_gives h hturn
    have hfirst := Service.serve_goesThrough h hturn fun u hu =>
      hends u (List.mem_append_left _ hu)
    rw [usesOf] at hends ⊢
    rw [Service.serveAll, List.flatMap_cons]
    refine hfirst.append ⟨memo, hnext⟩ ?_
    have hothers := ih (s := (s.serve r).next) hright
    rw [hnext, Service.serve_topics] at hothers
    rw [hnext]
    exact hothers (fun r' hr' => hr r' (List.mem_cons_of_mem r hr'))
      fun u hu => hends u (List.mem_append_right _ hu)

theorem Stemmer.memo_new {settings : Settings} {passes : Nat} (hm : 1 ≤ m)
    (hsize : settings.cacheSize = m) :
    (Stemmer.new t settings passes).memo = some (.empty m) := by
  have hne : settings.cacheSize ≠ 0 := by omega
  have htoNat : settings.cacheSize.toNat = m := by omega
  rw [← htoNat]
  exact if_neg hne

/-- A new stemmer with a memo for at least one word accounts for every word that it is asked for: a
history of requests is worth its uses and nothing else. A quiet use is a hit when its word is among
the words that went through the memo most recently, and a miss otherwise. A shown use leaves the
memo alone, and has a line of its own with the trace of its word if the word has a stem. -/
theorem Service.serveAll_accounts (t : RuleTable) (settings : Settings) (topics : Topics)
    (requests : List Request) (hm : 1 ≤ m) (hsize : settings.cacheSize = m)
    (hturn : ∀ r ∈ requests, r.InTurn settings.workers)
    (hends : ∀ u ∈ usesOf settings.limits topics requests,
      ¬ t.RunsForEver settings.limits false u.word) :
    ∃ enough, ∀ passes, enough ≤ passes →
      let start := Stemmer.new t settings passes
      let uses := usesOf settings.limits topics requests
      let served := Service.serveAll ⟨start, topics⟩ requests
      start.GoesThrough uses (served.1.flatMap Served.lines) served.2.stemmer ∧
        start.CountsAll m uses := by
  have hwords : ∀ w ∈ (usesOf settings.limits topics requests).map Use.word,
      ¬ t.RunsForEver settings.limits false w := by
    intro w hw
    obtain ⟨u, hu, rfl⟩ := List.mem_map.mp hw
    exact hends u hu
  obtain ⟨enough, henough⟩ := RuleTable.exists_enough_of_forall hwords
  refine ⟨enough, fun passes hp => ?_⟩
  have hcomes : ∀ u ∈ usesOf settings.limits topics requests,
      ComesTo t.rulesFor settings.limits u.word (t.run settings.limits passes u.word) :=
    fun u hu => henough passes hp u.word (List.mem_map_of_mem hu)
  have hright : (Stemmer.new t settings passes).Right :=
    Stemmer.right_of_recent_nil fun _ hmemo => Stemmer.recent_of_new hmemo
  exact ⟨Service.serveAll_goesThrough (s := ⟨Stemmer.new t settings passes, topics⟩) hright hturn
    hcomes, Stemmer.countsAll (Stemmer.memo_new hm hsize) hcomes⟩

def tightSettings : Settings := { maxLength := some 5, overflow := .reject, cacheSize := 1 }

/-- The memo holds one word. The second `cats` is a miss, since `dogs` came between. The third is a
hit, since `rabbits` is refused. -/
example : quietWords (usesOf tightSettings.limits .none mixedRequests) =
    ["cats", "dogs", "cats", "rabbits", "cats", "dogs"].map String.toList := by decide

theorem Service.serveAll_accounts_tight :
    tightSettings.cacheSize = (1 : Nat) ∧
      (∀ r ∈ mixedRequests, r.InTurn tightSettings.workers) ∧
      (∀ u ∈ usesOf tightSettings.limits .none mixedRequests,
        ¬ tightStemmer.table.RunsForEver tightSettings.limits false u.word) ∧
      ∃ enough, ∀ passes, enough ≤ passes →
        let start := Stemmer.new tightStemmer.table tightSettings passes
        let uses := usesOf tightSettings.limits .none mixedRequests
        let served := Service.serveAll ⟨start, .none⟩ mixedRequests
        start.GoesThrough uses (served.1.flatMap Served.lines) served.2.stemmer ∧
          start.CountsAll 1 uses := by
  have hsize : tightSettings.cacheSize = (1 : Nat) := by decide
  have hturn : ∀ r ∈ mixedRequests, r.InTurn tightSettings.workers := by decide
  have hthree : ∀ u ∈ usesOf tightSettings.limits .none mixedRequests,
      tightStemmer.table.stem tightSettings.limits 3 false u.word ≠ .error .unfinished := by decide
  have hends : ∀ u ∈ usesOf tightSettings.limits .none mixedRequests,
      ¬ tightStemmer.table.RunsForEver tightSettings.limits false u.word :=
    fun u hu hrun => hthree u hu (hrun 3)
  exact ⟨hsize, hturn, hends, Service.serveAll_accounts tightStemmer.table tightSettings .none
    mixedRequests (by decide) hsize hturn hends⟩

end Lancaster

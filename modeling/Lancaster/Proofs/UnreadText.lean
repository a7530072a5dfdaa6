import Lancaster.Proofs.FaultPlaces

/-!
Unread text. The compiler takes one character at a time, up to the one that settles the outcome: the
full stop of the closing entry, the character at fault, or the terminator of an entry with too many
digits. What it has taken by then settles the outcome whatever follows, and no less than that does.
-/
namespace Lancaster

/-- Outcomes that are known before the end of the text is. -/
inductive Outcome.Early : Outcome → Prop where
  | closed (rules : List Rule) : Early (.ok ⟨rules, true⟩)
  | fault (f : GrammarFault) (c : Char) (hfound : f.found = some c) : Early (.error (.grammar f))
  | tooManyDigits (count : Nat) : Early (.error (.tooManyDigits count))

/-- The text ends with what settles the outcome. Only behind whole lines and blanks can that be a
closing entry, so it is none that stands in a comment or inside a longer entry. -/
inductive Outcome.SettledBy : Outcome → Text → Prop where
  | closed (rules : List Rule) (x : SourceStart) (hx : x.begun = []) :
    SettledBy (.ok ⟨rules, true⟩) (x.text ++ endText)
  | fault (f : GrammarFault) (c : Char) (hfound : f.found = some c) (x : SourceStart) :
    SettledBy (.error (.grammar f)) (x.text ++ [c])
  | tooManyDigits (x : SourceStart) (hx : x.begun = []) (e : Text) (he : IsEntry e)
    (hend : e ≠ endText) (hd : maxDigits < (e.filter Char.isDigit).length) :
    SettledBy (.error (.tooManyDigits (e.filter Char.isDigit).length)) (x.text ++ e)

variable {k : Compiler} {s t p u : Text} {c : Char} {o : Outcome} {d : Draft}

theorem Compiler.finish_not_early (k : Compiler) : ¬ k.finish.Early := by
  intro h
  cases hk : k.finish with
  | ok r =>
    rw [hk] at h
    cases h with
    | closed rules =>
      obtain ⟨p, n, rs, φ⟩ := k
      cases φ <;> cases hk
  | error f =>
    obtain ⟨-, rfl⟩ := Compiler.exists_drafts_of_finish hk
    rw [hk] at h
    cases h with
    | fault f c hfound => cases hfound

theorem Compiler.HasRead.exists_start_entry (h : k.HasRead s) (hk : k.phase.Drafts d) (b : Bool) :
    ∃ x : SourceStart, x.begun = [] ∧ s ++ [if b then '>' else '.'] = x.text ++ (d.entry b).text ∧
      Spells (d.entry b).text (d.entry b) := by
  obtain ⟨-, lines, t, rfl, ho, -⟩ := h
  obtain ⟨w, hw, heq, he⟩ := ho.exists_entry hk b
  refine ⟨⟨lines, w, [], hw, .inl rfl⟩, rfl, ?_, he⟩
  rw [List.append_assoc, heq]
  simp [SourceStart.text]

theorem Compiler.HasRead.settledBy (h : k.HasRead s) (hstop : k.StopsAt c o) :
    o.SettledBy (s ++ [c]) := by
  cases hstop with
  | closed hφ b hc hend =>
    obtain ⟨x, hx, heq, -⟩ := h.exists_start_entry hφ b
    rw [hc, heq, hend]
    exact .closed _ x hx
  | tooManyDigits hφ b hc hend hd =>
    obtain ⟨x, hx, heq, he⟩ := h.exists_start_entry hφ b
    rw [hc, heq, ← he.filter_isDigit]
    rw [← he.filter_isDigit] at hd
    exact .tooManyDigits x hx _ he.isEntry hend hd
  | start =>
    obtain ⟨x, rfl, -⟩ := h.exists_start_between rfl
    exact .fault _ c rfl x
  | terminator hφ =>
    obtain ⟨x, rfl, -⟩ := h.exists_start_inside hφ
    exact .fault _ c rfl x

theorem Outcome.SettledBy.early (h : o.SettledBy t) : o.Early := by
  cases h with
  | closed rules => exact .closed rules
  | fault f c hfound => exact .fault f c hfound
  | tooManyDigits => exact .tooManyDigits _

/-- An early outcome is settled by what was taken, and everything behind that stays unread. -/
theorem exists_taken_of_early (h : (compileStream s).1.Early) :
    ∃ taken, s = taken ++ (compileStream s).2 ∧ (compileStream s).1.SettledBy taken ∧
      ∀ t, compileStream (taken ++ t) = ((compileStream s).1, t) := by
  rcases compileStream_cases s with ⟨k, -, hs⟩ | ⟨s₁, c, k, o, rest, rfl, hk, hstop, hs⟩
  · rw [hs] at h
    exact absurd h k.finish_not_early
  · rw [hs]
    refine ⟨s₁ ++ [c], by simp, hk.settledBy hstop, fun t => ?_⟩
    rw [List.append_assoc, List.singleton_append, hs]

theorem unread_eq_nil_of_not_early (h : ¬ (compileStream s).1.Early) :
    (compileStream s).2 = [] := by
  rcases compileStream_cases s with ⟨k, -, hs⟩ | ⟨s₁, c, k, o, rest, rfl, hk, hstop, hs⟩
  · rw [hs]
  · rw [hs] at h
    exact absurd (hk.settledBy hstop).early h

/-- No outcome is early for the beginning of a text that is taken whole, save the whole of it. -/
theorem not_early_of_taken (h : compileStream (p ++ u) = (o, [])) (hu : u ≠ []) :
    ¬ (compileStream p).1.Early := by
  intro hp
  obtain ⟨taken, heq, -, hany⟩ := exists_taken_of_early hp
  -- The same text would be taken of the longer one, and this one leaves more of it unread.
  have hlonger := hany ((compileStream p).2 ++ u)
  rw [← List.append_assoc, ← heq, h] at hlonger
  have hunread : [] = (compileStream p).2 ++ u := (Prod.mk.inj hlonger).2
  exact hu (List.append_eq_nil_iff.mp hunread.symm).2

/-- A text is what was taken of it and what stays unread. An early outcome is that of everything
that begins with what was taken, whatever follows is left unread, and no shorter text settles the
outcome. Otherwise the whole text is taken. -/
theorem compileStream_unread (s : Text) :
    ∃ taken, s = taken ++ (compileStream s).2 ∧
      ((compileStream s).1.Early →
        (compileStream s).1.SettledBy taken ∧
        (∀ t, compileStream (taken ++ t) = ((compileStream s).1, t)) ∧
        ∀ p u, taken = p ++ u → u ≠ [] → ¬ (compileStream p).1.Early) ∧
      (¬ (compileStream s).1.Early → (compileStream s).2 = []) := by
  by_cases h : (compileStream s).1.Early
  · obtain ⟨taken, heq, hsettled, hany⟩ := exists_taken_of_early h
    refine ⟨taken, heq, fun _ => ⟨hsettled, hany, ?_⟩, fun hnot => absurd h hnot⟩
    rintro p u rfl hu
    have hwhole := hany []
    rw [List.append_nil] at hwhole
    exact not_early_of_taken hwhole hu
  · have hrest := unread_eq_nil_of_not_early h
    exact ⟨s, by rw [hrest, List.append_nil], fun hearly => absurd hearly h, fun _ => hrest⟩

/-- Neither a longer entry nor a comment closes the text. -/
example : (compileStream "xend0. end0.\n end0.end0.".toList).2 = "end0.".toList := rfl

end Lancaster

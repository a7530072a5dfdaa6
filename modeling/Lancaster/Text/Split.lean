import Lancaster.Text.Letter

/-!
Cutting a list, such as a text, at a separator and joining it again. There is one piece more than
separators.
-/
namespace Lancaster

def cutAt {α : Type} [DecidableEq α] (separator : α) : List α → List (List α)
  | [] => [[]]
  | c :: t =>
    if c = separator then [] :: cutAt separator t
    else match cutAt separator t with
      | [] => [[c]]
      | piece :: pieces => (c :: piece) :: pieces

def joinWith {α : Type} (separator : List α) : List (List α) → List α
  | [] => []
  | [piece] => piece
  | piece :: pieces => piece ++ separator ++ joinWith separator pieces

variable {α : Type} [DecidableEq α] {c : α} {a b : List α}

theorem cutAt_ne_nil (c : α) (a : List α) : cutAt c a ≠ [] := by
  cases a with
  | nil => simp [cutAt]
  | cons x a =>
    rw [cutAt]
    split
    · simp
    · split <;> simp

theorem cutAt_cons_of_ne {x : α} (hx : x ≠ c) {piece : List α} {others : List (List α)}
    (h : cutAt c a = piece :: others) : cutAt c (x :: a) = (x :: piece) :: others := by
  rw [cutAt, if_neg hx, h]

theorem cutAt_append_separator (c : α) (a b : List α) :
    cutAt c (a ++ c :: b) = cutAt c a ++ cutAt c b := by
  induction a with
  | nil => simp [cutAt]
  | cons x a ih =>
    by_cases hx : x = c
    · rw [List.cons_append, cutAt, cutAt, if_pos hx, if_pos hx, ih, List.cons_append]
    · obtain ⟨piece, others, h⟩ := List.exists_cons_of_ne_nil (cutAt_ne_nil c a)
      rw [h, List.cons_append] at ih
      rw [List.cons_append, cutAt_cons_of_ne hx ih, cutAt_cons_of_ne hx h, List.cons_append]

theorem cutAt_of_not_mem (h : c ∉ a) : cutAt c a = [a] := by
  induction a with
  | nil => rfl
  | cons x a ih =>
    have hx : x ≠ c := fun hxc => h (hxc ▸ List.mem_cons_self)
    exact cutAt_cons_of_ne hx (ih fun hc => h (List.mem_cons_of_mem x hc))

theorem not_mem_of_mem_cutAt {piece : List α} (h : piece ∈ cutAt c a) : c ∉ piece := by
  induction a generalizing piece with
  | nil =>
    obtain rfl : piece = [] := by simpa [cutAt] using h
    exact List.not_mem_nil
  | cons x a ih =>
    obtain ⟨first, others, hcut⟩ := List.exists_cons_of_ne_nil (cutAt_ne_nil c a)
    by_cases hx : x = c
    · rw [cutAt, if_pos hx] at h
      rcases List.mem_cons.mp h with rfl | h
      · exact List.not_mem_nil
      · exact ih h
    · rw [cutAt_cons_of_ne hx hcut] at h
      rcases List.mem_cons.mp h with rfl | h
      · have hfirst : c ∉ first := ih (by rw [hcut]; exact List.mem_cons_self)
        intro hc
        rcases List.mem_cons.mp hc with hcx | hc
        · exact hx hcx.symm
        · exact hfirst hc
      · exact ih (by rw [hcut]; exact List.mem_cons_of_mem first h)

theorem cutAt_joinWith {ps : List (List α)} (hne : ps ≠ []) (h : ∀ p ∈ ps, c ∉ p) :
    cutAt c (joinWith [c] ps) = ps := by
  induction ps with
  | nil => exact absurd rfl hne
  | cons p ps ih =>
    have hp := cutAt_of_not_mem (h p List.mem_cons_self)
    cases ps with
    | nil => exact hp
    | cons q ps =>
      rw [joinWith, List.append_assoc, List.singleton_append, cutAt_append_separator, hp,
        ih (by simp) fun r hr => h r (List.mem_cons_of_mem p hr), List.singleton_append]
      simp

/-- A piece without the separator is found again, whatever the pieces beside it hold. -/
theorem mem_cutAt_joinWith {ps : List (List α)} {p : List α} (hp : p ∈ ps) (h : c ∉ p) :
    p ∈ cutAt c (joinWith [c] ps) := by
  induction ps with
  | nil => cases hp
  | cons q ps ih =>
    cases ps with
    | nil =>
      obtain rfl := List.mem_singleton.mp hp
      rw [joinWith, cutAt_of_not_mem h]
      exact List.mem_singleton_self p
    | cons r ps =>
      have hjoin : joinWith [c] (q :: r :: ps) = q ++ c :: joinWith [c] (r :: ps) := by
        simp [joinWith]
      rw [hjoin, cutAt_append_separator, List.mem_append]
      rcases List.mem_cons.mp hp with rfl | hp
      · rw [cutAt_of_not_mem h]
        exact .inl (List.mem_singleton_self p)
      · exact .inr (ih hp)

end Lancaster

import Lancaster.Files.Tree
import Mathlib.Data.List.Basic
import Mathlib.Logic.Relation

/-!
Normal forms of paths. The pieces of a path text are simplified step by step: empty pieces and
single dots go, double dots go with the name before them, and at the root they go alone. Whatever
the order of the steps, they end at the location that following the parts of the path leads to.
-/
namespace Lancaster

structure IsName (part : Text) : Prop where
  ne_nil : part ≠ []
  ne_dot : part ≠ dotPart
  ne_up : part ≠ upPart
  noSlash : '/' ∉ part

def Location.Proper (l : Location) : Prop := ∀ part ∈ l, IsName part

/-- One simplification of the pieces of a path from the root. -/
inductive PieceStep : List Text → List Text → Prop where
  | empty {before after} : PieceStep (before ++ [] :: after) (before ++ after)
  | dot {before after} : PieceStep (before ++ dotPart :: after) (before ++ after)
  | up {before part after} : IsName part →
      PieceStep (before ++ part :: upPart :: after) (before ++ after)
  | top {after} : PieceStep (upPart :: after) after

/-- The location has names only, and the pieces between the slashes of the text come to it. -/
structure IsNormalForm (t : Text) (l : Location) : Prop where
  steps : Relation.ReflTransGen PieceStep (cutAt '/' t) l
  proper : l.Proper

def meaningful (pieces : List Text) : List Text :=
  pieces.filter fun part => !part.isEmpty && part != dotPart

def reduced (pieces : List Text) : Location := Location.follow [] (meaningful pieces)

variable {l l' dir : Location} {part : Text} {parts pieces pieces' : List Text} {t name : Text}

@[simp] theorem meaningful_nil : meaningful [] = [] := rfl

@[simp] theorem meaningful_append (ps qs : List Text) :
    meaningful (ps ++ qs) = meaningful ps ++ meaningful qs :=
  List.filter_append ps qs

@[simp] theorem meaningful_nil_cons (ps : List Text) : meaningful ([] :: ps) = meaningful ps := by
  simp [meaningful]

@[simp] theorem meaningful_dot_cons (ps : List Text) :
    meaningful (dotPart :: ps) = meaningful ps := by
  simp [meaningful]

@[simp] theorem meaningful_up_cons (ps : List Text) :
    meaningful (upPart :: ps) = upPart :: meaningful ps := by
  simp [meaningful, upPart, dotPart]

theorem IsName.meaningful_cons (h : IsName part) (ps : List Text) :
    meaningful (part :: ps) = part :: meaningful ps := by
  simp [meaningful, h.ne_nil, h.ne_dot]

theorem Location.Proper.meaningful_eq (h : l.Proper) : meaningful l = l := by
  refine List.filter_eq_self.mpr fun part hpart => ?_
  simp [(h part hpart).ne_nil, (h part hpart).ne_dot]

@[simp] theorem Location.follow_nil (l : Location) : l.follow [] = l := by simp [Location.follow]

theorem Location.follow_append (l : Location) (ps qs : List Text) :
    l.follow (ps ++ qs) = (l.follow ps).follow qs := by
  simp [Location.follow]

theorem Location.follow_cons (l : Location) (part : Text) (ps : List Text) :
    l.follow (part :: ps) = (l.follow [part]).follow ps :=
  Location.follow_append l [part] ps

theorem IsName.follow_eq (h : IsName part) (l : Location) : l.follow [part] = l ++ [part] := by
  simp [Location.follow, stepInto, h.ne_up]

theorem Location.follow_up (l : Location) : l.follow [upPart] = l.dropLast := by
  simp [Location.follow, stepInto]

theorem Location.Proper.follow_eq (h : Location.Proper parts) (l : Location) :
    l.follow parts = l ++ parts := by
  induction parts generalizing l with
  | nil => simp
  | cons part parts ih =>
    obtain ⟨hpart, hparts⟩ := List.forall_mem_cons.mp h
    rw [Location.follow_cons, hpart.follow_eq, ih hparts, List.append_assoc, List.singleton_append]

theorem Location.Proper.reduced_eq (h : l.Proper) : reduced l = l := by
  rw [reduced, h.meaningful_eq, h.follow_eq, List.nil_append]

theorem Location.proper_nil : Location.Proper [] := fun _ hpart => absurd hpart List.not_mem_nil

theorem Location.Proper.append_singleton (h : l.Proper) (hpart : IsName part) :
    Location.Proper (l ++ [part]) := by
  intro p hp
  rcases List.mem_append.mp hp with hp | hp
  · exact h p hp
  · rwa [List.mem_singleton.mp hp]

theorem Location.Proper.dropLast (h : l.Proper) : Location.Proper l.dropLast :=
  fun part hpart => h part (List.dropLast_subset l hpart)

theorem isName_or (h : '/' ∉ part) :
    part = [] ∨ part = dotPart ∨ part = upPart ∨ IsName part := by
  by_cases hnil : part = []
  · exact .inl hnil
  by_cases hdot : part = dotPart
  · exact .inr (.inl hdot)
  by_cases hup : part = upPart
  · exact .inr (.inr (.inl hup))
  exact .inr (.inr (.inr ⟨hnil, hdot, hup, h⟩))

theorem PieceStep.reduced_eq (h : PieceStep pieces pieces') : reduced pieces = reduced pieces' := by
  cases h with
  | empty => simp [reduced]
  | dot => simp [reduced]
  | @up before part after hpart =>
    unfold reduced
    rw [meaningful_append, meaningful_append, hpart.meaningful_cons, meaningful_up_cons,
      Location.follow_append, Location.follow_append, Location.follow_cons, hpart.follow_eq,
      Location.follow_cons, Location.follow_up, List.dropLast_concat]
  | top =>
    unfold reduced
    rw [meaningful_up_cons, Location.follow_cons, Location.follow_up, List.dropLast_nil]

theorem reduced_eq_of_steps (h : Relation.ReflTransGen PieceStep pieces pieces') :
    reduced pieces = reduced pieces' := by
  induction h with
  | refl => rfl
  | tail _ hstep ih => exact ih.trans hstep.reduced_eq

theorem steps_to_follow (hl : l.Proper) (h : ∀ part ∈ pieces, '/' ∉ part) :
    Relation.ReflTransGen PieceStep (l ++ pieces) (l.follow (meaningful pieces)) ∧
      (l.follow (meaningful pieces)).Proper := by
  induction pieces generalizing l with
  | nil =>
    rw [List.append_nil, meaningful_nil, Location.follow_nil]
    exact ⟨.refl, hl⟩
  | cons part pieces ih =>
    obtain ⟨hpart, hpieces⟩ := List.forall_mem_cons.mp h
    rcases isName_or hpart with rfl | rfl | rfl | hname
    · rw [meaningful_nil_cons]
      obtain ⟨hsteps, hproper⟩ := ih hl hpieces
      exact ⟨.head .empty hsteps, hproper⟩
    · rw [meaningful_dot_cons]
      obtain ⟨hsteps, hproper⟩ := ih hl hpieces
      exact ⟨.head .dot hsteps, hproper⟩
    · rw [meaningful_up_cons, Location.follow_cons, Location.follow_up]
      obtain ⟨hsteps, hproper⟩ := ih hl.dropLast hpieces
      refine ⟨.head ?_ hsteps, hproper⟩
      rcases List.eq_nil_or_concat' l with rfl | ⟨above, last, rfl⟩
      · exact .top
      · have hlast : IsName last := hl last (by simp)
        rw [List.dropLast_concat, List.append_assoc]
        exact .up hlast
    · rw [hname.meaningful_cons, Location.follow_cons, hname.follow_eq]
      obtain ⟨hsteps, hproper⟩ := ih (hl.append_singleton hname) hpieces
      rw [List.append_assoc, List.singleton_append] at hsteps
      exact ⟨hsteps, hproper⟩

theorem isNormalForm_iff : IsNormalForm t l ↔ l = reduced (cutAt '/' t) := by
  constructor
  · intro h
    rw [reduced_eq_of_steps h.steps, h.proper.reduced_eq]
  · rintro rfl
    obtain ⟨hsteps, hproper⟩ :=
      steps_to_follow Location.proper_nil fun _ hpart => not_mem_of_mem_cutAt hpart
    exact ⟨hsteps, hproper⟩

theorem pathRoot_eq_relative_iff {t : Text} : pathRoot t = .relative ↔ t.head? ≠ some '/' := by
  cases t with
  | nil => simp [pathRoot]
  | cons c t =>
    by_cases hc : c = '/'
    · subst hc
      simp only [pathRoot, PathSign.slash, beq_self_eq_true, List.takeWhile_cons_of_pos,
        List.length_cons, List.head?_cons, ne_eq, not_true_eq_false, iff_false]
      split <;> simp_all
    · have hslash : (c == (PathSign.slash : Char)) = false := by simpa [PathSign.slash] using hc
      simp [pathRoot, hslash, hc]

theorem Location.Proper.meaningful_cutAt_text (h : l.Proper) :
    meaningful (cutAt '/' l.text) = l := by
  rw [Location.text, cutAt, if_pos rfl, meaningful_nil_cons]
  cases l with
  | nil => rfl
  | cons part l =>
    rw [cutAt_joinWith (by simp) fun p hp => (h p hp).noSlash]
    exact h.meaningful_eq

def joinedText (dir : Location) (name : Text) : Text :=
  if name.head? = some '/' then name else dir.text ++ '/' :: name

theorem reduced_joinedText (h : dir.Proper) (hname : name.head? ≠ some '/') :
    reduced (cutAt '/' (joinedText dir name)) = dir.follow (meaningful (cutAt '/' name)) := by
  rw [joinedText, if_neg hname, reduced, cutAt_append_separator, meaningful_append,
    h.meaningful_cutAt_text, Location.follow_append, h.follow_eq, List.nil_append]

/-- Joining a name to a directory and resolving it gives the normal form of the joined text. -/
theorem PathText.resolve_join (h : dir.Proper) (name : Text) (working : Location) :
    (dir.path.join (.ofList name)).resolve working = reduced (cutAt '/' (joinedText dir name)) := by
  rw [PathText.join, PathText.resolve]
  by_cases hroot : name.head? = some '/'
  · have habsolute : (PathText.ofList name).root ≠ .relative := fun hr =>
      pathRoot_eq_relative_iff.mp hr hroot
    rw [joinedText, if_pos hroot, if_neg habsolute, if_neg habsolute]
    rfl
  · have hrelative : (PathText.ofList name).root = .relative := pathRoot_eq_relative_iff.mpr hroot
    rw [reduced_joinedText h hroot, if_pos hrelative, if_neg (by simp [Location.path])]
    have hdir : Location.follow [] dir = dir := by rw [h.follow_eq, List.nil_append]
    change Location.follow [] (dir ++ meaningful (cutAt '/' name)) = _
    rw [Location.follow_append, hdir]

theorem reduced_joinedText_through {through last : Text} (h : dir.Proper) (ht : IsName through)
    (hl : IsName last) :
    reduced (cutAt '/' (joinedText dir (upPart ++ '/' :: (through ++ '/' :: last)))) =
      dir.dropLast ++ [through, last] := by
  have hpieces : cutAt '/' (upPart ++ '/' :: (through ++ '/' :: last)) =
      [upPart, through, last] := by
    rw [cutAt_append_separator, cutAt_append_separator, cutAt_of_not_mem ht.noSlash,
      cutAt_of_not_mem hl.noSlash, cutAt_of_not_mem (by decide)]
    rfl
  have hproper : Location.Proper [through, last] := by
    intro part hpart
    rcases List.mem_pair.mp hpart with rfl | rfl
    · exact ht
    · exact hl
  rw [reduced_joinedText h (by simp [upPart]), hpieces, meaningful_up_cons, hproper.meaningful_eq,
    Location.follow_cons, Location.follow_up, hproper.follow_eq]

end Lancaster

import Lancaster.Proofs.Anchoring
import Lancaster.Proofs.History
import Lancaster.Source.Words

/-!
Letters of words and stems. Words of a text are never empty and are written with small letters.
Rules append small letters and leave acceptable stems, so every stem of a word is written with small
letters. Under no limit, or one of at least one letter, it is neither empty nor over the limit.
-/
namespace Lancaster

/-- There is no limit, or it leaves at least one letter. -/
def Limits.Positive (l : Limits) : Prop := ∀ n, l.maxLength = some n → 1 ≤ n

/-- A word that the limits leave as it is, and that is written with small letters. -/
structure Limits.Admits (l : Limits) (w : Word) : Prop where
  ne_nil : w ≠ []
  lower : w.IsLower
  length_le : ∀ n, l.maxLength = some n → (w.length : Int) ≤ n

variable {consult : Word → List Rule} {m : Option Int} {intact : Bool} {w u v : Word} {r : Rule}
  {vs : List Win} {l : Limits} {letters t : Text} {s : Stemmer}

theorem isLower_toLower {c : Char} (h : c.isAlpha = true) : c.toLower.isLower = true := by
  unfold Char.toLower
  split
  · rename_i hupper
    have hfrom : 65 ≤ c.val.toNat := UInt32.le_iff_toNat_le.mp hupper.1
    have hto : c.val.toNat ≤ 90 := UInt32.le_iff_toNat_le.mp hupper.2
    have hmoved : (c.val + 32).toNat = (c.val.toNat + 32) % 2 ^ 32 := UInt32.toNat_add c.val 32
    rw [isLower_iff]
    change 97 ≤ (c.val + 32).toNat ∧ (c.val + 32).toNat ≤ 122
    omega
  · rename_i hupper
    rcases Bool.or_eq_true_iff.mp h with hu | hl
    · exact absurd (of_decide_eq_true hu) hupper
    · exact hl

theorem mem_wordsFrom (hl : letters.IsLower) (h : w ∈ wordsFrom letters t) :
    w ≠ [] ∧ w.IsLower := by
  have hclose : ∀ letters : Text, letters.IsLower → ∀ w ∈ closeWord letters,
      w ≠ [] ∧ w.IsLower := by
    intro letters hl w hw
    unfold closeWord at hw
    split at hw
    · cases hw
    · rename_i hne
      obtain rfl := List.mem_singleton.mp hw
      exact ⟨by simpa using hne, hl.reverse⟩
  induction t generalizing letters with
  | nil => exact hclose letters hl w h
  | cons c t ih =>
    rw [wordsFrom] at h
    split at h
    · rename_i hc
      exact ih (hl.cons (isLower_toLower hc)) h
    · rcases List.mem_append.mp h with h | h
      · exact hclose letters hl w h
      · exact ih (by nofun) h

theorem Text.mem_words (h : w ∈ t.words) : w ≠ [] ∧ w.IsLower := mem_wordsFrom (by nofun) h

theorem mem_lineWords {lines : List Text} (h : w ∈ lineWords lines) : w ≠ [] ∧ w.IsLower := by
  obtain ⟨line, -, hw⟩ := List.mem_flatMap.mp h
  exact Text.mem_words hw

theorem Host.mem_fileWords {h : Host} {path encoding : Text}
    (hw : w ∈ (h.fileWords path encoding).words) : w ≠ [] ∧ w.IsLower := by
  unfold Host.fileWords at hw
  split at hw
  · cases hw
  · exact mem_lineWords hw

theorem isLower_cut (m : Option Int) (h : w.IsLower) : (cut m w).IsLower := by
  obtain ⟨k, hk⟩ := exists_cut_eq_take m w
  rw [hk]
  exact h.take k

theorem Rule.Fires.isLower (h : r.Fires m intact w u) (hw : w.IsLower) : u.IsLower := by
  rw [h.result]
  exact isLower_cut m ((hw.take _).append r.append_lower)

theorem RunEnds.stem_induction {P : Word → Prop} (h : RunEnds consult m intact w vs) (hw : P w)
    (hstep : ∀ (r : Rule) intact u v, P u → r.Fires m intact u v → P v) :
    P (Run.mk w vs).stem := by
  have hall := h.stems_induction hw fun u r _ intact v => hstep r intact u v
  unfold Run.stem
  cases hlast : vs.getLast? with
  | none => exact hw
  | some v => exact hall v (List.mem_of_getLast? hlast)

theorem Rule.Fires.admitted (h : r.Fires l.maxLength intact w u) (hl : l.Positive)
    (hw : l.Admits w) : l.Admits u where
  ne_nil := ne_nil_of_isAcceptable h.acceptable
  lower := h.isLower hw.lower
  length_le := by
    intro n hn
    have := hl n hn
    rw [h.result, hn]
    exact length_cut_le_of_positive (by omega) _

/-- A limit of at least one letter leaves some of a word. -/
theorem Limits.admits_of_fit (hl : l.Positive) (hne : w ≠ []) (hw : w.IsLower)
    (h : l.fit w = .ok u) : l.Admits u where
  ne_nil := by
    rw [Limits.eq_cut_of_fit h]
    cases hm : l.maxLength with
    | none => exact hne
    | some n =>
      have := hl n hm
      change cutTo n w ≠ []
      rw [cutTo, if_pos (by omega)]
      simp [List.take_eq_nil_iff, hne]
      omega
  lower := by
    rw [Limits.eq_cut_of_fit h]
    exact isLower_cut l.maxLength hw
  length_le := Limits.length_le_of_fit (fun n hn => by have := hl n hn; omega) h

theorem ComesTo.isLower {run : Run} (h : ComesTo consult l w (.ok run)) (hw : w.IsLower) :
    run.stem.IsLower := by
  have hstart : run.start.IsLower := by
    rw [Limits.eq_cut_of_fit h.fit_eq]
    exact isLower_cut l.maxLength hw
  cases h with
  | kept => exact hstart
  | ended _ _ hr => exact hr.stem_induction hstart fun _ _ _ _ hu hf => hf.isLower hu

theorem ComesTo.admits {run : Run} (h : ComesTo consult l w (.ok run)) (hl : l.Positive)
    (hne : w ≠ []) (hw : w.IsLower) : l.Admits run.stem := by
  have hstart := Limits.admits_of_fit hl hne hw h.fit_eq
  cases h with
  | kept => exact hstart
  | ended _ _ hr => exact hr.stem_induction hstart fun _ _ _ _ hu hf => hf.admitted hl hu

end Lancaster

/-!
Texts are lists of characters, and lengths and positions count characters.
Rules, words and stems are written with the 26 small letters; any text may still be offered.
-/
namespace Lancaster

abbrev Text := List Char

abbrev Letter := Fin 26

/-- Only the 26 small letters of ASCII are letters here. -/
def Letter.ofChar? (c : Char) : Option Letter :=
  if h : c.toNat - 97 < 26 ∧ 97 ≤ c.toNat then some ⟨c.toNat - 97, h.1⟩ else none

def Letter.toChar (x : Letter) : Char := Char.ofNat (97 + x.val)

theorem isLower_iff {c : Char} : c.isLower = true ↔ 97 ≤ c.toNat ∧ c.toNat ≤ 122 := by
  change (decide (97 ≤ c.val) && decide (c.val ≤ 122)) = true ↔ _
  rw [Bool.and_eq_true, decide_eq_true_iff, decide_eq_true_iff, UInt32.le_iff_toNat_le,
    UInt32.le_iff_toNat_le]
  exact Iff.rfl

def Letter.ofLower (c : Char) (h : c.isLower) : Letter :=
  ⟨c.toNat - 97, by have := isLower_iff.1 h; omega⟩

theorem Letter.ofChar?_of_isLower {c : Char} (h : c.isLower) :
    Letter.ofChar? c = some (Letter.ofLower c h) := by
  have := isLower_iff.1 h
  rw [Letter.ofChar?, dif_pos ⟨by omega, this.1⟩]
  rfl

/-- Texts written with small letters only. -/
def Text.IsLower (t : Text) : Prop := ∀ c ∈ t, c.isLower = true

instance (t : Text) : Decidable (Text.IsLower t) :=
  List.decidableBAll (fun c : Char => c.isLower = true) t

theorem Text.IsLower.cons {c : Char} {t : Text} (h : c.isLower = true) (ht : t.IsLower) :
    Text.IsLower (c :: t) := by
  intro d hd
  rcases List.mem_cons.1 hd with rfl | hd
  · exact h
  · exact ht d hd

theorem Text.IsLower.append {t u : Text} (h : t.IsLower) (h' : u.IsLower) :
    Text.IsLower (t ++ u) := by
  intro c hc
  rcases List.mem_append.1 hc with hc | hc
  · exact h c hc
  · exact h' c hc

theorem Text.IsLower.reverse {t : Text} (h : t.IsLower) : Text.IsLower t.reverse :=
  fun c hc => h c (List.mem_reverse.1 hc)

theorem Text.IsLower.take {t : Text} (h : t.IsLower) (n : Nat) : Text.IsLower (t.take n) :=
  fun c hc => h c (List.mem_of_mem_take hc)

end Lancaster

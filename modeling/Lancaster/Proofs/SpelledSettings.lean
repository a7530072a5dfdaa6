import Lancaster.Config.Settings
import Mathlib.Data.List.Basic

/-!
Spelled settings. An object spells settings when every key is known and every value is of its kind
and in its range. A key that is missing has its usual setting. The check of settings takes the
objects that spell some, with the settings that they spell, and no others.
-/
namespace Lancaster

abbrev Spelling (α : Type) := ConfigValue → α → Prop

inductive Spelling.IsString : Spelling Codes where
  | string (t : Codes) : IsString (.string t) t

/-- An integer of at least this size. Neither a truth value nor a number with a point is one. -/
inductive Spelling.IsInteger (least : Int) : Spelling Int where
  | int {n : Int} (h : least ≤ n) : IsInteger least (.int n) n

inductive Spelling.IsPolicy : Spelling Overflow where
  | truncate : IsPolicy (.string (Text.codes "truncate".toList)) .truncate
  | reject : IsPolicy (.string (Text.codes "reject".toList)) .reject

inductive Spelling.OrNull {α : Type} (Spells : Spelling α) : Spelling (Option α) where
  | null : OrNull Spells .null none
  | value {v : ConfigValue} {a : α} (h : Spells v a) : OrNull Spells v (some a)

/-- A setting as an object spells it: by the value of its key, or the usual one without the key. -/
inductive ConfigObject.Sets {α : Type} (d : ConfigObject) (key : Text) (usual : α)
    (Spells : Spelling α) : α → Prop where
  | missing (h : d.get? key = none) : Sets d key usual Spells usual
  | given {v : ConfigValue} {a : α} (h : d.get? key = some v) (hv : Spells v a) :
      Sets d key usual Spells a

/-- The settings that an object spells, the rules file as it is named there. -/
structure Settings.SpelledBy (s : Settings) (d : ConfigObject) : Prop where
  keys : ∀ f ∈ d, ∃ key ∈ settingsKeys, f.1 = key.codes
  rulesFile : d.Sets rulesFileKey none (.OrNull .IsString) s.rulesFile
  maxLength : d.Sets maxLengthKey (some 254) (.OrNull (.IsInteger 1)) s.maxLength
  overflow : d.Sets overflowKey .truncate .IsPolicy s.overflow
  cacheSize : d.Sets cacheSizeKey 4096 (.IsInteger 0) s.cacheSize
  workers : d.Sets workersKey 1 (.IsInteger 1) s.workers

variable {d : ConfigObject} {s : Settings}

theorem shownCode_toNat (c : Char) : shownCode c.toNat = [c] := by
  have hhalf : isHalf c.toNat = false := by
    have hvalid : c.toNat.isValidChar := c.valid
    simp only [isHalf, Bool.and_eq_false_iff, decide_eq_false_iff_not]
    rcases hvalid with hsmall | ⟨hlarge, -⟩
    · exact .inl (by omega)
    · exact .inr (by omega)
  rw [shownCode, hhalf]
  simp

theorem Codes.text_codes (u : Text) : Codes.text u.codes = u := by
  induction u with
  | nil => rfl
  | cons c u ih =>
    have hcons : Codes.text (Text.codes (c :: u)) =
        shownCode c.toNat ++ Codes.text (Text.codes u) := rfl
    rw [hcons, shownCode_toNat, ih, List.singleton_append]

theorem codes_shownCode {n : Nat} (hplain : ∀ c ∈ shownCode n, c ≠ '\\' ∧ c ≠ '\x00') :
    Text.codes (shownCode n) = [n] := by
  by_cases hhalf : isHalf n = true
  · rw [shownCode, if_pos hhalf] at hplain
    exact absurd rfl (hplain '\\' List.mem_cons_self).1
  · rw [shownCode, if_neg hhalf] at hplain ⊢
    by_cases hn : n.isValidChar
    · have hback : (Char.ofNat n).toNat = n := by
        rw [Char.ofNat, dif_pos hn]
        rfl
      rw [Text.codes, List.map_singleton, hback]
    · have hzero : Char.ofNat n = '\x00' := by
        rw [Char.ofNat, dif_neg hn]
        rfl
      exact absurd hzero (hplain _ List.mem_cons_self).2

/-- Only its own codes spell a text that has neither backslashes nor characters of code zero. -/
theorem Codes.text_eq_iff {u : Text} (hplain : ∀ c ∈ u, c ≠ '\\' ∧ c ≠ '\x00') {t : Codes} :
    t.text = u ↔ t = u.codes := by
  constructor
  · rintro rfl
    induction t with
    | nil => rfl
    | cons n t ih =>
      have hcons : Codes.text (n :: t) = shownCode n ++ Codes.text t := rfl
      rw [hcons] at hplain ⊢
      have hn := codes_shownCode fun c hc => hplain c (List.mem_append_left _ hc)
      have ht := ih fun c hc => hplain c (List.mem_append_right _ hc)
      rw [Text.codes, List.map_append]
      exact congrArg₂ (· ++ ·) hn.symm ht
  · rintro rfl
    exact Codes.text_codes u

theorem Spelling.isInteger_int {least n k : Int} :
    Spelling.IsInteger least (.int n) k ↔ least ≤ n ∧ n = k := by
  constructor
  · intro h
    cases h with
    | int hn => exact ⟨hn, rfl⟩
  · rintro ⟨hn, rfl⟩
    exact .int hn

theorem Spelling.IsInteger.le {least n : Int} {v : ConfigValue}
    (h : Spelling.IsInteger least v n) : least ≤ n := by
  cases h with
  | int hn => exact hn

theorem checked_eq_ok_iff {α : Type} {least n : Int} {a b : α} {f : SettingsFault} :
    (if least ≤ n then .ok a else .error f : Except SettingsFault α) = .ok b ↔
      least ≤ n ∧ a = b := by
  by_cases hn : least ≤ n
  · rw [if_pos hn, Except.ok.injEq]
    exact ⟨fun hab => ⟨hn, hab⟩, fun hab => hab.2⟩
  · rw [if_neg hn]
    exact ⟨nofun, fun hab => absurd hab.1 hn⟩

theorem Spelling.isPolicy_string {t : Codes} {p : Overflow} :
    Spelling.IsPolicy (.string t) p ↔
      (match Overflow.named t.text with
        | .unknown _ => .error .overflow
        | known => .ok known : Except SettingsFault Overflow) = .ok p := by
  have htruncate : t.text = "truncate".toList ↔ t = Text.codes "truncate".toList :=
    Codes.text_eq_iff (by simp)
  have hreject : t.text = "reject".toList ↔ t = Text.codes "reject".toList :=
    Codes.text_eq_iff (by simp)
  constructor
  · intro h
    cases h with
    | truncate => rw [htruncate.mpr rfl]; rfl
    | reject => rw [hreject.mpr rfl]; rfl
  · intro h
    unfold Overflow.named at h
    by_cases ht : t.text = "truncate".toList
    · rw [if_pos ht] at h
      obtain rfl := Except.ok.inj h
      rw [htruncate.mp ht]
      exact .truncate
    · rw [if_neg ht] at h
      by_cases hr : t.text = "reject".toList
      · rw [if_pos hr] at h
        obtain rfl := Except.ok.inj h
        rw [hreject.mp hr]
        exact .reject
      · rw [if_neg hr] at h
        cases h

theorem ConfigObject.Sets.of {α : Type} {key : Text} {usual a : α} {Spells : Spelling α}
    {P : α → Prop} (h : d.Sets key usual Spells a) (husual : P usual)
    (hspelled : ∀ v b, Spells v b → P b) : P a := by
  cases h with
  | missing _ => exact husual
  | given _ hv => exact hspelled _ _ hv

theorem ConfigObject.read_eq_ok_iff {α : Type} {key : Text} {usual a : α} {Spells : Spelling α}
    {read : Except SettingsFault α} (hmissing : d.get? key = none → read = .ok usual)
    (hgiven : ∀ v, d.get? key = some v → (read = .ok a ↔ Spells v a)) :
    read = .ok a ↔ d.Sets key usual Spells a := by
  constructor
  · intro h
    cases hv : d.get? key with
    | none =>
      obtain rfl := Except.ok.inj ((hmissing hv).symm.trans h)
      exact .missing hv
    | some v => exact .given hv ((hgiven v hv).mp h)
  · intro h
    cases h with
    | missing hv => exact hmissing hv
    | given hv ha => exact (hgiven _ hv).mpr ha

theorem readRulesFile_eq_ok_iff {file : Option Codes} :
    readRulesFile d = .ok file ↔ d.Sets rulesFileKey none (.OrNull .IsString) file := by
  apply ConfigObject.read_eq_ok_iff
  · intro hv
    rw [readRulesFile, hv]
  · intro v hv
    rw [readRulesFile, hv]
    cases v with
    | null =>
      constructor
      · rintro ⟨⟩
        exact .null
      · rintro (_ | ⟨⟨⟩⟩)
        rfl
    | string t =>
      constructor
      · rintro ⟨⟩
        exact .value (.string t)
      · rintro (_ | ⟨⟨⟩⟩)
        rfl
    | _ => exact ⟨nofun, nofun⟩

theorem readMaxLength_eq_ok_iff {limit : Option Int} :
    readMaxLength d = .ok limit ↔
      d.Sets maxLengthKey (some 254) (.OrNull (.IsInteger 1)) limit := by
  apply ConfigObject.read_eq_ok_iff
  · intro hv
    rw [readMaxLength, hv]
  · intro v hv
    rw [readMaxLength, hv]
    cases v with
    | null =>
      constructor
      · rintro ⟨⟩
        exact .null
      · rintro (_ | ⟨⟨⟩⟩)
        rfl
    | int n =>
      constructor
      · intro h
        obtain ⟨hn, rfl⟩ := checked_eq_ok_iff.mp h
        exact .value (.int hn)
      · rintro (_ | ⟨⟨hn⟩⟩)
        exact checked_eq_ok_iff.mpr ⟨hn, rfl⟩
    | _ => exact ⟨nofun, nofun⟩

theorem readOverflow_eq_ok_iff {overflow : Overflow} :
    readOverflow d = .ok overflow ↔ d.Sets overflowKey .truncate .IsPolicy overflow := by
  apply ConfigObject.read_eq_ok_iff
  · intro hv
    rw [readOverflow, hv]
  · intro v hv
    rw [readOverflow, hv]
    cases v with
    | string t => exact Spelling.isPolicy_string.symm
    | _ => exact ⟨nofun, nofun⟩

theorem readCacheSize_eq_ok_iff {size : Int} :
    readCacheSize d = .ok size ↔ d.Sets cacheSizeKey 4096 (.IsInteger 0) size := by
  apply ConfigObject.read_eq_ok_iff
  · intro hv
    rw [readCacheSize, hv]
  · intro v hv
    rw [readCacheSize, hv]
    cases v with
    | int n => exact checked_eq_ok_iff.trans Spelling.isInteger_int.symm
    | _ => exact ⟨nofun, nofun⟩

theorem readWorkers_eq_ok_iff {workers : Int} :
    readWorkers d = .ok workers ↔ d.Sets workersKey 1 (.IsInteger 1) workers := by
  apply ConfigObject.read_eq_ok_iff
  · intro hv
    rw [readWorkers, hv]
  · intro v hv
    rw [readWorkers, hv]
    cases v with
    | int n => exact checked_eq_ok_iff.trans Spelling.isInteger_int.symm
    | _ => exact ⟨nofun, nofun⟩

theorem unknownKeys_eq_nil_iff :
    unknownKeys d = [] ↔ ∀ f ∈ d, ∃ key ∈ settingsKeys, f.1 = key.codes := by
  have hsort : unknownKeys d = [] ↔
      (d.map Prod.fst).filter (fun k => !(settingsKeys.map Text.codes).contains k) = [] := by
    rw [unknownKeys, ← List.length_eq_zero_iff, List.length_mergeSort, List.length_eq_zero_iff]
  rw [hsort, List.filter_eq_nil_iff]
  constructor
  · intro h f hf
    have hknown := h f.1 (List.mem_map_of_mem hf)
    simp only [Bool.not_eq_true', Bool.not_eq_false, List.contains_iff_mem] at hknown
    obtain ⟨key, hkey, heq⟩ := List.mem_map.mp hknown
    exact ⟨key, hkey, heq.symm⟩
  · intro h k hk
    obtain ⟨f, hf, rfl⟩ := List.mem_map.mp hk
    obtain ⟨key, hkey, heq⟩ := h f hf
    have hknown : f.1 ∈ settingsKeys.map Text.codes := heq ▸ List.mem_map_of_mem hkey
    simp only [Bool.not_eq_true', Bool.not_eq_false, List.contains_iff_mem]
    exact hknown

/-- The check takes an object just when the object spells settings, and takes them as spelled. -/
theorem Settings.ofObject_eq_ok_iff : Settings.ofObject d = .ok s ↔ s.SpelledBy d := by
  constructor
  · intro h
    unfold Settings.ofObject at h
    by_cases hkeys : unknownKeys d = []
    · rw [hkeys] at h
      obtain ⟨rulesFile, hrulesFile, h⟩ := exists_of_bind_eq_ok h
      obtain ⟨maxLength, hmaxLength, h⟩ := exists_of_bind_eq_ok h
      obtain ⟨overflow, hoverflow, h⟩ := exists_of_bind_eq_ok h
      obtain ⟨cacheSize, hcacheSize, h⟩ := exists_of_bind_eq_ok h
      obtain ⟨workers, hworkers, h⟩ := exists_of_bind_eq_ok h
      obtain rfl := Except.ok.inj h
      exact ⟨unknownKeys_eq_nil_iff.mp hkeys, readRulesFile_eq_ok_iff.mp hrulesFile,
        readMaxLength_eq_ok_iff.mp hmaxLength, readOverflow_eq_ok_iff.mp hoverflow,
        readCacheSize_eq_ok_iff.mp hcacheSize, readWorkers_eq_ok_iff.mp hworkers⟩
    · have hbad : (unknownKeys d != []) = true := by simpa using hkeys
      rw [hbad] at h
      cases h
  · intro h
    have hkeys : unknownKeys d = [] := unknownKeys_eq_nil_iff.mpr h.keys
    unfold Settings.ofObject
    rw [hkeys, readRulesFile_eq_ok_iff.mpr h.rulesFile, readMaxLength_eq_ok_iff.mpr h.maxLength,
      readOverflow_eq_ok_iff.mpr h.overflow, readCacheSize_eq_ok_iff.mpr h.cacheSize,
      readWorkers_eq_ok_iff.mpr h.workers]
    rfl

end Lancaster

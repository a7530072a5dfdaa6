import Lancaster.Text.Encoding
import Mathlib.Data.List.Infix

/-!
Text files. A file that spells a text in its encoding gives this text with all its line ends made
line feeds, wherever its blocks begin: inside a character or between the two halves of a line end.
What was read of a file is kept, whatever the blocks behind it hold.
-/
namespace Lancaster

/-- The mark that a signed file may begin with. It is no part of the text. -/
def signature : Char := '\uFEFF'

/-- The bytes that spell a text. -/
inductive Encoding.Encodes : Encoding → Text → List UInt8 → Prop where
  | utf8 (t : Text) : Encodes .utf8 t (t.flatMap String.utf8EncodeChar)
  | signed (t : Text) : Encodes .utf8Signed t ((signature :: t).flatMap String.utf8EncodeChar)
  | unsigned (t : Text) (h : t.head? ≠ some signature) :
      Encodes .utf8Signed t (t.flatMap String.utf8EncodeChar)
  | latin1 (t : Text) (h : ∀ c ∈ t, c.toNat < 0x100) :
      Encodes .latin1 t (t.map fun c => UInt8.ofNat c.toNat)
  | ascii (t : Text) (h : ∀ c ∈ t, c.toNat < 0x80) :
      Encodes .ascii t (t.map fun c => UInt8.ofNat c.toNat)

/-- The text that has been read behind these bytes, unless one of them cannot be decoded. A
character that lacks bytes is not in it, nor is a line end that a line feed may still widen. -/
def Encoding.textOf? (e : Encoding) (bytes : List UInt8) : Option Text :=
  ((Reader.start e).feedAll bytes).map Reader.text

def Reader.within (r : Reader) (o : OpenChar) : Reader := { r with pending := some o }

def Reader.pushAll (r : Reader) (t : Text) : Reader := t.foldl Reader.push r

def Reader.owed (r : Reader) : Text := if r.returned then ['\r'] else []

def Reader.Drops (r : Reader) (c : Char) : Prop :=
  r.encoding = .utf8Signed ∧ r.begun = false ∧ c = signature

variable {r s : Reader} {e : Encoding} {t : Text} {c : Char} {b : UInt8} {bytes front : List UInt8}
  {bs : List (List UInt8)} {o : OpenChar} {size fuel k : Nat}

theorem Reader.feedAll_append (r : Reader) (xs ys : List UInt8) :
    r.feedAll (xs ++ ys) = (r.feedAll xs).bind fun s => s.feedAll ys := by
  induction xs generalizing r with
  | nil => rfl
  | cons b xs ih =>
    rw [List.cons_append, Reader.feedAll, Reader.feedAll]
    cases r.feed b with
    | none => rfl
    | some s => exact ih s

theorem Reader.blocks_append (h : r.feedAll bs.flatten = some s) (more : List (List UInt8)) :
    r.blocks (bs ++ more) = s.blocks more := by
  induction bs generalizing r with
  | nil =>
    obtain rfl := Option.some.inj h
    rfl
  | cons b bs ih =>
    rw [List.flatten_cons, Reader.feedAll_append] at h
    obtain ⟨u, hu, hs⟩ := Option.bind_eq_some_iff.mp h
    rw [List.cons_append, Reader.blocks, hu]
    exact ih hs

theorem cutBlocks_of_ne_nil (h : bytes ≠ []) :
    cutBlocks size (fuel + 1) bytes =
      bytes.take size :: cutBlocks size fuel (bytes.drop size) := by
  cases bytes with
  | nil => exact absurd rfl h
  | cons b bytes => rfl

theorem flatten_cutBlocks (hsize : 0 < size) (hfuel : bytes.length ≤ fuel) :
    (cutBlocks size fuel bytes).flatten = bytes := by
  induction fuel generalizing bytes with
  | zero =>
    obtain rfl := List.length_eq_zero_iff.mp (Nat.le_zero.mp hfuel)
    rfl
  | succ fuel ih =>
    by_cases hne : bytes = []
    · subst hne
      rfl
    · have hlength := List.length_pos_iff.mpr hne
      have hrest : (bytes.drop size).length ≤ fuel := by
        rw [List.length_drop]
        omega
      rw [cutBlocks_of_ne_nil hne, List.flatten_cons, ih hrest, List.take_append_drop]

theorem le_length_append (hfront : front.length = k * blockSize) (rest : List UInt8) :
    k ≤ (front ++ rest).length := by
  rw [List.length_append, hfront, blockSize]
  omega

theorem exists_cutBlocks_append (hsize : 0 < size) (hfuel : k ≤ fuel)
    (hfront : front.length = k * size) (rest : List UInt8) :
    ∃ bs, bs.flatten = front ∧
      cutBlocks size fuel (front ++ rest) = bs ++ cutBlocks size (fuel - k) rest := by
  induction k generalizing front fuel with
  | zero =>
    obtain rfl := List.length_eq_zero_iff.mp (hfront.trans (Nat.zero_mul size))
    exact ⟨[], rfl, rfl⟩
  | succ k ih =>
    obtain ⟨fuel, rfl⟩ : ∃ n, fuel = n + 1 := ⟨fuel - 1, by omega⟩
    rw [Nat.succ_mul] at hfront
    have hle : size ≤ front.length := by omega
    have hne : front ++ rest ≠ [] := by
      intro h
      rw [(List.append_eq_nil_iff.mp h).1, List.length_nil] at hle
      omega
    have hdrop : (front.drop size).length = k * size := by
      rw [List.length_drop]
      omega
    have hless : k ≤ fuel := by omega
    obtain ⟨bs, hbs, hcut⟩ := ih hless hdrop
    refine ⟨front.take size :: bs, ?_, ?_⟩
    · rw [List.flatten_cons, hbs, List.take_append_drop]
    · rw [cutBlocks_of_ne_nil hne, List.take_append_of_le_length hle,
        List.drop_append_of_le_length hle, hcut, Nat.add_sub_add_right, List.cons_append]

theorem Reader.text_prefix_push (r : Reader) (c : Char) : r.text <+: (r.push c).text := by
  unfold Reader.push Reader.text
  split
  · exact List.prefix_rfl
  · split
    · split
      · exact ⟨['\n'], by simp⟩
      · exact List.prefix_rfl
    · split
      · exact ⟨['\n', c], by simp⟩
      · exact ⟨[c], by simp⟩

theorem Reader.text_prefix_feed (h : r.feed b = some s) : r.text <+: s.text := by
  unfold Reader.feed at h
  split at h
  · obtain rfl := Option.some.inj h
    exact r.text_prefix_push _
  · obtain rfl := Option.some.inj h
    exact List.prefix_rfl
  · cases h

theorem Reader.text_prefix_feedAll (h : r.feedAll bytes = some s) : r.text <+: s.text := by
  induction bytes generalizing r with
  | nil =>
    obtain rfl := Option.some.inj h
    exact List.prefix_rfl
  | cons b bytes ih =>
    rw [Reader.feedAll] at h
    cases hb : r.feed b with
    | none =>
      rw [hb] at h
      cases h
    | some u =>
      rw [hb] at h
      exact (Reader.text_prefix_feed hb).trans (ih h)

theorem Reader.text_prefix_blocks (r : Reader) (bs : List (List UInt8)) :
    r.text <+: (r.blocks bs).text := by
  induction bs generalizing r with
  | nil =>
    rw [Reader.blocks, Reader.finish]
    split
    · exact List.prefix_rfl
    · split
      · exact List.prefix_append r.text ['\n']
      · exact List.prefix_rfl
  | cons b bs ih =>
    rw [Reader.blocks]
    cases hb : r.feedAll b with
    | none => exact List.prefix_rfl
    | some s => exact (Reader.text_prefix_feedAll hb).trans (ih s)

theorem Reader.push_within (r : Reader) (o : OpenChar) (c : Char) :
    (r.within o).push c = r.push c := rfl

theorem Reader.push_spec (r : Reader) (c : Char) :
    (r.push c).encoding = r.encoding ∧ (r.push c).pending = none ∧ (r.push c).begun = true := by
  unfold Reader.push
  split
  · exact ⟨rfl, rfl, rfl⟩
  · split
    · exact ⟨rfl, rfl, rfl⟩
    · exact ⟨rfl, rfl, rfl⟩

theorem Reader.feed_char (h : decodeByte r.encoding r.pending b.toNat = .char c) :
    r.feed b = some (r.push c) := by
  rw [Reader.feed, h]

theorem Reader.feed_wait (h : decodeByte r.encoding r.pending b.toNat = .wait o) :
    r.feed b = some (r.within o) := by
  rw [Reader.feed, h]
  rfl

def Encoding.IsWide (e : Encoding) : Prop := e = .utf8 ∨ e = .utf8Signed

theorem Encoding.IsWide.decodeByte_none (h : e.IsWide) (n : Nat) :
    decodeByte e none n = leadByte n := by
  rcases h with rfl | rfl <;> rfl

theorem Encoding.IsWide.decodeByte_some (h : e.IsWide) (o : OpenChar) (n : Nat) :
    decodeByte e (some o) n = o.next n := by
  rcases h with rfl | rfl <;> rfl

theorem toNat_ofNat_of_lt {n : Nat} (h : n < 256) : (UInt8.ofNat n).toNat = n :=
  UInt8.toNat_ofNat_of_lt' h

theorem Reader.feedAll_last (hr : r.encoding.IsWide) (c : Char) :
    (r.within ⟨c.toNat / 64, 1, 0x80, 0xBF⟩).feedAll [UInt8.ofNat (c.toNat % 64 + 128)] =
      some (r.push c) := by
  have hcode : c.toNat / 64 * 64 + (c.toNat % 64 + 128 - 0x80) = c.toNat := by omega
  have hfits : 0x80 ≤ c.toNat % 64 + 128 ∧ c.toNat % 64 + 128 ≤ 0xBF := by omega
  have hnext : OpenChar.next ⟨c.toNat / 64, 1, 0x80, 0xBF⟩ (c.toNat % 64 + 128) = .char c := by
    rw [OpenChar.next, if_pos hfits]
    simp only [hcode, Nat.sub_self, if_true, Char.ofNat_toNat]
  have hfeed : (r.within ⟨c.toNat / 64, 1, 0x80, 0xBF⟩).feed
      (UInt8.ofNat (c.toNat % 64 + 128)) = some (r.push c) := by
    rw [← r.push_within ⟨c.toNat / 64, 1, 0x80, 0xBF⟩ c]
    apply Reader.feed_char
    rw [toNat_ofNat_of_lt (by omega), ← hnext]
    exact hr.decodeByte_some _ _
  rw [Reader.feedAll, hfeed]
  rfl

theorem Reader.feedAll_middle (hr : r.encoding.IsWide) {code missing low high n : Nat}
    (hn : n < 256) (hlow : low ≤ n) (hhigh : n ≤ high) (hmissing : missing ≠ 0)
    (hpair : missing = 1 → code * 64 + (n - 0x80) < 0x360 ∨ 0x37F < code * 64 + (n - 0x80))
    (bytes : List UInt8) :
    (r.within ⟨code, missing + 1, low, high⟩).feedAll (UInt8.ofNat n :: bytes) =
      (r.within ⟨code * 64 + (n - 0x80), missing, 0x80, 0xBF⟩).feedAll bytes := by
  have hnext : OpenChar.next ⟨code, missing + 1, low, high⟩ n =
      .wait ⟨code * 64 + (n - 0x80), missing, 0x80, 0xBF⟩ := by
    have hno : ¬ (missing = 1 ∧ 0x360 ≤ code * 64 + (n - 0x80) ∧
        code * 64 + (n - 0x80) ≤ 0x37F) := by
      rintro ⟨hone, hrange⟩
      have := hpair hone
      omega
    rw [OpenChar.next, if_pos ⟨hlow, hhigh⟩]
    simp only [Nat.add_sub_cancel, if_neg hmissing, if_neg hno]
  have hfeed : (r.within ⟨code, missing + 1, low, high⟩).feed (UInt8.ofNat n) =
      some (r.within ⟨code * 64 + (n - 0x80), missing, 0x80, 0xBF⟩) := by
    apply Reader.feed_wait
    rw [toNat_ofNat_of_lt hn, ← hnext]
    exact hr.decodeByte_some _ _
  rw [Reader.feedAll, hfeed]

/-- No character is half of a surrogate pair, so none is turned down by its last byte. -/
theorem Reader.feedAll_lastTwo (hr : r.encoding.IsWide) (c : Char) {low high : Nat}
    (hlow : low ≤ c.toNat / 64 % 64 + 128) (hhigh : c.toNat / 64 % 64 + 128 ≤ high) :
    (r.within ⟨c.toNat / 4096, 2, low, high⟩).feedAll
        [UInt8.ofNat (c.toNat / 64 % 64 + 128), UInt8.ofNat (c.toNat % 64 + 128)] =
      some (r.push c) := by
  have hvalid : c.toNat < 0xD800 ∨ 0xDFFF < c.toNat ∧ c.toNat < 0x110000 := c.valid
  have hcode : c.toNat / 4096 * 64 + (c.toNat / 64 % 64 + 128 - 0x80) = c.toNat / 64 := by omega
  rw [Reader.feedAll_middle hr (by omega) hlow hhigh (by decide) (by omega), hcode]
  exact Reader.feedAll_last hr c

theorem Reader.feedAll_lastThree (hr : r.encoding.IsWide) (c : Char) {low high : Nat}
    (hlow : low ≤ c.toNat / 4096 % 64 + 128) (hhigh : c.toNat / 4096 % 64 + 128 ≤ high) :
    (r.within ⟨c.toNat / 262144, 3, low, high⟩).feedAll
        [UInt8.ofNat (c.toNat / 4096 % 64 + 128), UInt8.ofNat (c.toNat / 64 % 64 + 128),
          UInt8.ofNat (c.toNat % 64 + 128)] =
      some (r.push c) := by
  have hcode : c.toNat / 262144 * 64 + (c.toNat / 4096 % 64 + 128 - 0x80) = c.toNat / 4096 := by
    omega
  rw [Reader.feedAll_middle hr (by omega) hlow hhigh (by decide) (by omega), hcode]
  exact Reader.feedAll_lastTwo hr c (by omega) (by omega)

theorem Reader.feedAll_lead (hr : r.encoding.IsWide) (hp : r.pending = none) {n : Nat}
    (hn : n < 256) (ho : leadByte n = .wait o) (bytes : List UInt8) :
    r.feedAll (UInt8.ofNat n :: bytes) = (r.within o).feedAll bytes := by
  have hfeed : r.feed (UInt8.ofNat n) = some (r.within o) := by
    apply Reader.feed_wait
    rw [hp, hr.decodeByte_none, toNat_ofNat_of_lt hn, ho]
  rw [Reader.feedAll, hfeed]

theorem Reader.feedAll_utf8EncodeChar (hr : r.encoding.IsWide) (hp : r.pending = none) (c : Char) :
    r.feedAll (String.utf8EncodeChar c) = some (r.push c) := by
  have hvalid : c.toNat < 0xD800 ∨ 0xDFFF < c.toNat ∧ c.toNat < 0x110000 := c.valid
  change r.feedAll (if c.toNat ≤ 0x7F then _ else if c.toNat ≤ 0x7FF then _
    else if c.toNat ≤ 0xFFFF then _ else _) = _
  split_ifs with h₁ h₂ h₃
  · have hfeed : r.feed (UInt8.ofNat c.toNat) = some (r.push c) := by
      apply Reader.feed_char
      rw [hp, hr.decodeByte_none, toNat_ofNat_of_lt (by omega), leadByte, if_pos (by omega),
        Char.ofNat_toNat]
    change r.feedAll [UInt8.ofNat c.toNat] = _
    rw [Reader.feedAll, hfeed]
    rfl
  · have hcode : c.toNat / 64 % 32 + 192 - 0xC0 = c.toNat / 64 := by omega
    have hlead : leadByte (c.toNat / 64 % 32 + 192) = .wait ⟨c.toNat / 64, 1, 0x80, 0xBF⟩ := by
      rw [leadByte, if_neg (by omega), if_neg (by omega), if_pos (by omega), hcode]
    exact (Reader.feedAll_lead hr hp (by omega) hlead _).trans (Reader.feedAll_last hr c)
  · have hcode : c.toNat / 4096 % 16 + 224 - 0xE0 = c.toNat / 4096 := by omega
    have hlead : leadByte (c.toNat / 4096 % 16 + 224) = .wait ⟨c.toNat / 4096, 2,
        if c.toNat / 4096 % 16 + 224 = 0xE0 then 0xA0 else 0x80, 0xBF⟩ := by
      rw [leadByte, if_neg (by omega), if_neg (by omega), if_neg (by omega), if_pos (by omega),
        hcode]
    refine (Reader.feedAll_lead hr hp (by omega) hlead _).trans
      (Reader.feedAll_lastTwo hr c ?_ (by omega))
    split <;> omega
  · have hcode : c.toNat / 262144 % 8 + 240 - 0xF0 = c.toNat / 262144 := by omega
    have hlead : leadByte (c.toNat / 262144 % 8 + 240) = .wait ⟨c.toNat / 262144, 3,
        if c.toNat / 262144 % 8 + 240 = 0xF0 then 0x90 else 0x80,
        if c.toNat / 262144 % 8 + 240 = 0xF4 then 0x8F else 0xBF⟩ := by
      rw [leadByte, if_neg (by omega), if_neg (by omega), if_neg (by omega), if_neg (by omega),
        if_pos (by omega), hcode]
    refine (Reader.feedAll_lead hr hp (by omega) hlead _).trans
      (Reader.feedAll_lastThree hr c ?_ ?_)
    · split <;> omega
    · split <;> omega

theorem Reader.pushAll_spec (hp : r.pending = none) (t : Text) :
    (r.pushAll t).encoding = r.encoding ∧ (r.pushAll t).pending = none := by
  induction t generalizing r with
  | nil => exact ⟨rfl, hp⟩
  | cons c t ih =>
    obtain ⟨hencoding, hpending, -⟩ := r.push_spec c
    obtain ⟨hsame, hnone⟩ := ih hpending
    exact ⟨hsame.trans hencoding, hnone⟩

theorem Reader.feedAll_utf8 (hr : r.encoding.IsWide) (hp : r.pending = none) (t : Text) :
    r.feedAll (t.flatMap String.utf8EncodeChar) = some (r.pushAll t) := by
  induction t generalizing r with
  | nil => rfl
  | cons c t ih =>
    obtain ⟨hencoding, hpending, -⟩ := r.push_spec c
    rw [List.flatMap_cons, Reader.feedAll_append, Reader.feedAll_utf8EncodeChar hr hp]
    exact ih (hencoding.symm ▸ hr) hpending

theorem Reader.feedAll_single (hp : r.pending = none)
    (h : ∀ c ∈ t, c.toNat < 256 ∧ decodeByte r.encoding none c.toNat = .char c) :
    r.feedAll (t.map fun c => UInt8.ofNat c.toNat) = some (r.pushAll t) := by
  induction t generalizing r with
  | nil => rfl
  | cons c t ih =>
    obtain ⟨hencoding, hpending, -⟩ := r.push_spec c
    obtain ⟨hlt, hchar⟩ := h c List.mem_cons_self
    have hfeed : r.feed (UInt8.ofNat c.toNat) = some (r.push c) := by
      apply Reader.feed_char
      rw [hp, toNat_ofNat_of_lt hlt, hchar]
    rw [List.map_cons, Reader.feedAll, hfeed]
    apply ih hpending
    intro d hd
    rw [hencoding]
    exact h d (List.mem_cons_of_mem c hd)

theorem Text.unifyLineEnds_return (h : t.head? ≠ some '\n') :
    Text.unifyLineEnds ('\r' :: t) = '\n' :: Text.unifyLineEnds t := by
  cases t with
  | nil => rfl
  | cons c t =>
    have hc : c ≠ '\n' := by simpa using h
    rw [Text.unifyLineEnds]
    rintro u ⟨rfl, rfl⟩
    exact hc rfl

theorem Text.unifyLineEnds_cons (h : c ≠ '\r') :
    Text.unifyLineEnds (c :: t) = c :: Text.unifyLineEnds t := by
  rw [Text.unifyLineEnds]
  · intro u hc
    exact absurd hc h
  · exact h

theorem Text.unifyLineEnds_eq_self (h : '\r' ∉ t) : t.unifyLineEnds = t := by
  induction t with
  | nil => rfl
  | cons c t ih =>
    obtain ⟨hc, ht⟩ := not_or.mp (mt List.mem_cons.mpr h)
    rw [Text.unifyLineEnds_cons (Ne.symm hc), ih ht]

/-- One character more is read as it stands, but that line ends become line feeds. -/
theorem Reader.text_push (h : ¬ r.Drops c) (t : Text) :
    (r.push c).text ++ Text.unifyLineEnds ((r.push c).owed ++ t) =
      r.text ++ Text.unifyLineEnds (r.owed ++ c :: t) := by
  have hkept : ¬ (r.encoding = .utf8Signed ∧ r.begun = false ∧ c.toNat = 0xFEFF) := by
    rintro ⟨he, hb, hc⟩
    exact h ⟨he, hb, Char.toNat_inj.mp hc⟩
  rw [Reader.push, if_neg hkept]
  by_cases hc : c = '\r'
  · subst hc
    rw [if_pos rfl]
    by_cases hr : r.returned = true
    · have hagain : Text.unifyLineEnds ('\r' :: '\r' :: t) =
          '\n' :: Text.unifyLineEnds ('\r' :: t) := Text.unifyLineEnds_return (by simp)
      simp [Reader.text, Reader.owed, hr, hagain]
    · simp [Reader.text, Reader.owed, hr]
  · rw [if_neg hc]
    by_cases hr : r.returned = true
    · by_cases hn : c = '\n'
      · subst hn
        have hpair : Text.unifyLineEnds ('\r' :: '\n' :: t) = '\n' :: Text.unifyLineEnds t := by
          rw [Text.unifyLineEnds]
        simp [Reader.text, Reader.owed, hr, hpair]
      · have hlone : Text.unifyLineEnds ('\r' :: c :: t) =
            '\n' :: Text.unifyLineEnds (c :: t) := Text.unifyLineEnds_return (by simpa using hn)
        simp [Reader.text, Reader.owed, hr, hn, hlone, Text.unifyLineEnds_cons hc]
    · simp [Reader.text, Reader.owed, hr, Text.unifyLineEnds_cons hc]

/-- At the end of the file a carriage return that still waits is a line end of its own. -/
theorem Reader.finish_of_pending (hp : r.pending = none) :
    r.finish = ⟨r.text ++ Text.unifyLineEnds r.owed, false⟩ := by
  have hclosed : (r.pending.isSome && !r.inSignature) = false := by
    rw [hp]
    rfl
  rw [Reader.finish, hclosed]
  cases hr : r.returned with
  | true => simp [Reader.owed, hr, Text.unifyLineEnds]
  | false => simp [Reader.owed, hr, Text.unifyLineEnds]

structure Reader.ReadyFor (r : Reader) (t : Text) : Prop where
  pending : r.pending = none
  text : r.text = []
  returned : r.returned = false
  keeps : ∀ c, t.head? = some c → ¬ r.Drops c

theorem Reader.text_pushAll (h : ∀ c, t.head? = some c → ¬ r.Drops c) :
    (r.pushAll t).text ++ Text.unifyLineEnds (r.pushAll t).owed =
      r.text ++ Text.unifyLineEnds (r.owed ++ t) := by
  induction t generalizing r with
  | nil =>
    rw [List.append_nil]
    rfl
  | cons c t ih =>
    obtain ⟨-, -, hbegun⟩ := r.push_spec c
    have hlater : ∀ d, t.head? = some d → ¬ (r.push c).Drops d := by
      rintro d - ⟨-, hb, -⟩
      rw [hbegun] at hb
      cases hb
    exact (ih hlater).trans (Reader.text_push (h c rfl) t)

theorem Reader.ReadyFor.text_pushAll (h : r.ReadyFor t) :
    (r.pushAll t).text ++ Text.unifyLineEnds (r.pushAll t).owed = t.unifyLineEnds := by
  rw [Reader.text_pushAll h.keeps, h.text, Reader.owed, h.returned]
  rfl

theorem Reader.ReadyFor.finish_pushAll (h : r.ReadyFor t) :
    (r.pushAll t).finish = ⟨t.unifyLineEnds, false⟩ := by
  rw [Reader.finish_of_pending (Reader.pushAll_spec h.pending t).2, h.text_pushAll]

theorem Reader.returned_push (h : ¬ r.Drops c) (hc : c ≠ '\r') : (r.push c).returned = false := by
  have hkept : ¬ (r.encoding = .utf8Signed ∧ r.begun = false ∧ c.toNat = 0xFEFF) := by
    rintro ⟨he, hb, hsignature⟩
    exact h ⟨he, hb, Char.toNat_inj.mp hsignature⟩
  rw [Reader.push, if_neg hkept, if_neg hc]

theorem Reader.ReadyFor.owed_pushAll (h : r.ReadyFor t) (hlast : t.getLast? ≠ some '\r') :
    (r.pushAll t).owed = [] := by
  have hclosed : (r.pushAll t).returned = false := by
    rcases List.eq_nil_or_concat' t with rfl | ⟨u, c, rfl⟩
    · exact h.returned
    · have hc : c ≠ '\r' := by simpa using hlast
      rw [Reader.pushAll, List.foldl_append]
      refine Reader.returned_push ?_ hc
      cases u with
      | nil => exact h.keeps c rfl
      | cons d u =>
        -- Something was read already, so a signature would be an ordinary character.
        have hbegun : ((r.push d).pushAll u).begun = true := by
          induction u using List.reverseRecOn with
          | nil => exact (r.push_spec d).2.2
          | append_singleton u x _ =>
            rw [Reader.pushAll, List.foldl_append]
            exact (Reader.push_spec _ x).2.2
        rintro ⟨-, hb, -⟩
        exact Bool.false_ne_true (hb.symm.trans hbegun)
  rw [Reader.owed, hclosed]
  rfl

theorem Reader.start_readyFor (h : e ≠ .utf8Signed ∨ t.head? ≠ some signature) :
    (Reader.start e).ReadyFor t where
  pending := rfl
  text := rfl
  returned := rfl
  keeps := by
    rintro c hc ⟨he, -, rfl⟩
    rcases h with h | h
    · exact h he
    · exact h hc

theorem Encoding.Encodes.feedAll (h : e.Encodes t bytes) :
    ∃ r : Reader, r.ReadyFor t ∧ (Reader.start e).feedAll bytes = some (r.pushAll t) := by
  cases h with
  | utf8 =>
    exact ⟨_, Reader.start_readyFor (e := .utf8) (.inl (by decide)),
      Reader.feedAll_utf8 (.inl rfl) rfl t⟩
  | signed =>
    refine ⟨(Reader.start .utf8Signed).push signature, ⟨rfl, rfl, rfl, ?_⟩,
      Reader.feedAll_utf8 (.inr rfl) rfl (signature :: t)⟩
    rintro c - ⟨-, hb, -⟩
    cases hb
  | unsigned _ hsignature =>
    exact ⟨_, Reader.start_readyFor (.inr hsignature), Reader.feedAll_utf8 (.inr rfl) rfl t⟩
  | latin1 _ hlt =>
    refine ⟨_, Reader.start_readyFor (e := .latin1) (.inl (by decide)),
      Reader.feedAll_single rfl ?_⟩
    intro c hc
    exact ⟨hlt c hc, congrArg Decoding.char (Char.ofNat_toNat c)⟩
  | ascii _ hlt =>
    refine ⟨_, Reader.start_readyFor (e := .ascii) (.inl (by decide)),
      Reader.feedAll_single rfl ?_⟩
    intro c hc
    have hc := hlt c hc
    exact ⟨by omega, (if_pos hc).trans (congrArg Decoding.char (Char.ofNat_toNat c))⟩

theorem Encoding.Encodes.textOf? (h : e.Encodes t bytes) (hlast : t.getLast? ≠ some '\r') :
    e.textOf? bytes = some t.unifyLineEnds := by
  obtain ⟨r, hready, hr⟩ := h.feedAll
  have htext := hready.text_pushAll
  rw [hready.owed_pushAll hlast, Text.unifyLineEnds, List.append_nil] at htext
  rw [Encoding.textOf?, hr, Option.map_some, htext]

/-- A file that spells a text gives this text, with line feeds for its line ends. -/
theorem decodeFile_of_encodes (h : e.Encodes t bytes) :
    decodeFile e bytes = ⟨t.unifyLineEnds, false⟩ := by
  obtain ⟨r, hready, hr⟩ := h.feedAll
  have hwhole : (cutBlocks blockSize bytes.length bytes).flatten = bytes :=
    flatten_cutBlocks (by decide) le_rfl
  rw [← hwhole] at hr
  have hblocks := Reader.blocks_append hr []
  rw [List.append_nil] at hblocks
  rw [decodeFile, hblocks, Reader.blocks, hready.finish_pushAll]

theorem textOf?_prefix_decodeFile (hfront : front.length = k * blockSize)
    (h : e.textOf? front = some t) (rest : List UInt8) :
    t <+: (decodeFile e (front ++ rest)).text := by
  obtain ⟨r, hr, rfl⟩ := Option.map_eq_some_iff.mp h
  obtain ⟨bs, rfl, hcut⟩ := exists_cutBlocks_append (by decide) (le_length_append hfront rest)
    hfront rest
  rw [decodeFile, hcut, Reader.blocks_append hr]
  exact r.text_prefix_blocks _

theorem decodeFile_of_undecodable (hfront : front.length = k * blockSize)
    (h : e.textOf? front = some t) {rest : List UInt8}
    (hrest : e.textOf? (front ++ rest.take blockSize) = none) :
    decodeFile e (front ++ rest) = ⟨t, true⟩ := by
  obtain ⟨r, hr, rfl⟩ := Option.map_eq_some_iff.mp h
  have hbad : r.feedAll (rest.take blockSize) = none := by
    rw [Encoding.textOf?, Reader.feedAll_append, hr] at hrest
    exact Option.map_eq_none_iff.mp hrest
  have hne : rest ≠ [] := by
    rintro rfl
    cases hbad
  have hpos := List.length_pos_iff.mpr hne
  have hblocks : k ≤ front.length := by
    rw [hfront, blockSize]
    omega
  obtain ⟨bs, rfl, hcut⟩ := exists_cutBlocks_append (by decide) (le_length_append hfront rest)
    hfront rest
  obtain ⟨n, hn⟩ : ∃ n, (bs.flatten ++ rest).length - k = n + 1 :=
    ⟨(bs.flatten ++ rest).length - k - 1, by rw [List.length_append]; omega⟩
  rw [decodeFile, hcut, hn, cutBlocks_of_ne_nil hne, Reader.blocks_append hr, Reader.blocks, hbad]

end Lancaster

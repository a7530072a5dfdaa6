import Lancaster.Text.Split

/-!
Text files. Bytes are decoded block by block, and every line end is read as a line feed. A byte that
cannot be decoded spoils its whole block: the text before that block is all that can be read. An
encoding goes by many names, in which case and the signs between letters do not matter.
-/
namespace Lancaster

inductive Encoding where
  | utf8
  | utf8Signed
  | latin1
  | ascii
  deriving DecidableEq, Repr

/-- Small letters, digits and points; whatever else stands between them counts as one underscore. -/
def codecName (name : Text) : Text :=
  let sign (c : Char) : Char := if c.isAlphanum || c == '.' then c.toLower else '_'
  joinWith ['_'] ((cutAt '_' (name.map sign)).filter fun part => !part.isEmpty)

def Encoding.ownName : Encoding → String
  | .utf8 => "utf_8"
  | .utf8Signed => "utf_8_sig"
  | .latin1 => "latin_1"
  | .ascii => "ascii"

def Encoding.otherNames : Encoding → List String
  | .utf8 => ["u8", "utf", "utf8", "utf8_ucs2", "utf8_ucs4", "cp65001"]
  | .utf8Signed => []
  | .latin1 =>
    ["8859", "cp819", "csisolatin1", "ibm819", "iso8859", "iso8859_1", "iso_8859_1",
      "iso_8859_1_1987", "iso_ir_100", "l1", "latin", "latin1"]
  | .ascii =>
    ["646", "ansi_x3.4_1968", "ansi_x3_4_1968", "ansi_x3.4_1986", "cp367", "csascii", "ibm367",
      "iso646_us", "iso_646.irv_1991", "iso_ir_6", "us", "us_ascii"]

/-- Points may stand for underscores in all names but the encoding's own one. -/
def Encoding.goesBy (e : Encoding) (name : Text) : Bool :=
  let pointless := name.map fun c => if c = '.' then '_' else c
  name = e.ownName.toList ||
    e.otherNames.any fun other => name = other.toList || pointless = other.toList

/-- No name holds the character of code zero. -/
def Encoding.named? (name : Text) : Option Encoding :=
  if name.contains '\x00' then none
  else [utf8, utf8Signed, latin1, ascii].find? fun e => e.goesBy (codecName name)

theorem Encoding.contains_of_named? {name : Text} {e : Encoding} (h : named? name = some e) :
    name.contains '\x00' = false := by
  unfold named? at h
  split at h
  · cases h
  · rename_i hname
    exact Bool.eq_false_iff.mpr hname

/-- A character that lacks `missing` bytes, the next of them between `low` and `high`. -/
structure OpenChar where
  code : Nat
  missing : Nat
  low : Nat
  high : Nat
  deriving DecidableEq, Repr

inductive Decoding where
  | char (c : Char)
  | wait (o : OpenChar)
  | bad
  deriving DecidableEq, Repr

/-- Shortest forms only, nothing above U+10FFFF. -/
def leadByte (b : Nat) : Decoding :=
  if b < 0x80 then .char (Char.ofNat b)
  else if b < 0xC2 then .bad
  else if b < 0xE0 then .wait ⟨b - 0xC0, 1, 0x80, 0xBF⟩
  else if b < 0xF0 then
    .wait ⟨b - 0xE0, 2, if b = 0xE0 then 0xA0 else 0x80, 0xBF⟩
  else if b < 0xF5 then
    .wait ⟨b - 0xF0, 3, if b = 0xF0 then 0x90 else 0x80, if b = 0xF4 then 0x8F else 0xBF⟩
  else .bad

/-- A surrogate is turned down by its last byte and not before, so no last byte fits it. -/
def OpenChar.next (o : OpenChar) (b : Nat) : Decoding :=
  if o.low ≤ b ∧ b ≤ o.high then
    let code := o.code * 64 + (b - 0x80)
    let missing := o.missing - 1
    if missing = 0 then .char (Char.ofNat code)
    else if missing = 1 ∧ 0x360 ≤ code ∧ code ≤ 0x37F then .wait ⟨code, missing, 1, 0⟩
    else .wait ⟨code, missing, 0x80, 0xBF⟩
  else .bad

def decodeByte (e : Encoding) (pending : Option OpenChar) (b : Nat) : Decoding :=
  match e, pending with
  | .latin1, _ => .char (Char.ofNat b)
  | .ascii, _ => if b < 0x80 then .char (Char.ofNat b) else .bad
  | _, some o => o.next b
  | _, none => leadByte b

/-- The state between two bytes: the text so far, latest character first, a carriage return whose
line end is still open, and whether a character was decoded yet. -/
structure Reader where
  encoding : Encoding
  pending : Option OpenChar
  returned : Bool
  begun : Bool
  out : Text
  deriving DecidableEq, Repr

def Reader.start (e : Encoding) : Reader := ⟨e, none, false, false, []⟩

def Reader.text (r : Reader) : Text := r.out.reverse

/-- A carriage return waits for the next character: with a line feed it makes one line end. -/
def Reader.push (r : Reader) (c : Char) : Reader :=
  if r.encoding = .utf8Signed ∧ r.begun = false ∧ c.toNat = 0xFEFF then
    { r with pending := none, begun := true }
  else if c = '\r' then
    { r with pending := none, begun := true, returned := true,
             out := if r.returned then '\n' :: r.out else r.out }
  else
    { r with pending := none, begun := true, returned := false,
             out := if r.returned ∧ c ≠ '\n' then c :: '\n' :: r.out else c :: r.out }

def Reader.feed (r : Reader) (b : UInt8) : Option Reader :=
  match decodeByte r.encoding r.pending b.toNat with
  | .char c => some (r.push c)
  | .wait o => some { r with pending := some o }
  | .bad => none

def Reader.feedAll (r : Reader) : List UInt8 → Option Reader
  | [] => some r
  | b :: bs => match r.feed b with
    | some s => s.feedAll bs
    | none => none

/-- Text that was read, and whether an undecodable block cut it short. -/
structure Decoded where
  text : Text
  broken : Bool
  deriving DecidableEq, Repr

/-- Only a signature that is itself cut short may end a file inside a character. -/
def Reader.inSignature (r : Reader) : Bool :=
  r.encoding = .utf8Signed && !r.begun &&
    (r.pending = some ⟨0xF, 2, 0x80, 0xBF⟩ || r.pending = some ⟨0x3FB, 1, 0x80, 0xBF⟩)

def Reader.finish (r : Reader) : Decoded :=
  if r.pending.isSome && !r.inSignature then ⟨r.text, true⟩
  else ⟨if r.returned then r.text ++ ['\n'] else r.text, false⟩

def Reader.blocks (r : Reader) : List (List UInt8) → Decoded
  | [] => r.finish
  | b :: bs => match r.feedAll b with
    | some s => s.blocks bs
    | none => ⟨r.text, true⟩

def blockSize : Nat := 8192

/-- Blocks of equal size, the last one shorter; `fuel` bounds their number. -/
def cutBlocks (size : Nat) : Nat → List UInt8 → List (List UInt8)
  | 0, _ => []
  | _, [] => []
  | fuel + 1, bs => bs.take size :: cutBlocks size fuel (bs.drop size)

abbrev Codec := List UInt8 → Decoded

def decodeFile (e : Encoding) : Codec := fun bytes =>
  (Reader.start e).blocks (cutBlocks blockSize bytes.length bytes)

/-- Line ends of every kind become line feeds. -/
def Text.unifyLineEnds : Text → Text
  | [] => []
  | '\r' :: '\n' :: t => '\n' :: unifyLineEnds t
  | '\r' :: t => '\n' :: unifyLineEnds t
  | c :: t => c :: unifyLineEnds t

end Lancaster

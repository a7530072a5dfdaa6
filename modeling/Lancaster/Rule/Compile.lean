import Lancaster.Rule.Entry
import Lancaster.Rule.Table

/-!
Compiling rule texts. A compiler takes one character at a time and stops at the first fault, at the
closing entry or at the end of the text; what follows is never read. Each entry stands at the
beginning of a line, after blanks, and the rest of its line is a comment.
-/
namespace Lancaster

/-- How far reading has come: the line, from one, and the characters already read in it. -/
structure Place where
  line : Nat
  column : Nat
  deriving DecidableEq, Repr

def Place.start : Place := ⟨1, 0⟩

def Place.after (p : Place) (c : Char) : Place :=
  if c = '\n' then ⟨p.line + 1, 0⟩ else ⟨p.line, p.column + 1⟩

inductive GrammarReason where
  | start
  | terminator
  deriving DecidableEq, Repr

def GrammarReason.text : GrammarReason → Text
  | .start => "invalid rule start (expected a-z)".toList
  | .terminator => "invalid rule terminator (expected '>' or '.')".toList

/-- A malformed entry. Columns count from one for a character, and at the end of the text the column
is that of the last character read. -/
structure GrammarFault where
  reason : GrammarReason
  entry : Nat
  line : Nat
  column : Nat
  found : Option Char
  deriving DecidableEq, Repr

def GrammarFault.message (f : GrammarFault) : Text :=
  f.reason.text ++ " at entry ".toList ++ decimalText f.entry ++ " (line ".toList
    ++ decimalText f.line ++ ", column ".toList ++ decimalText f.column ++ "): found ".toList
    ++ match f.found with
      | some c => Text.quoted [c]
      | none => "end of input".toList

inductive CompileFault where
  | grammar (f : GrammarFault)
  | tooManyDigits (count : Nat)
  deriving DecidableEq, Repr

def tooManyDigitsText (count : Nat) : Text :=
  "Exceeds the limit (".toList ++ decimalText maxDigits
    ++ " digits) for integer string conversion: value has ".toList ++ decimalText count
    ++ " digits; use sys.set_int_max_str_digits() to increase the limit".toList

def CompileFault.message : CompileFault → Text
  | .grammar f => f.message
  | .tooManyDigits n => tooManyDigitsText n

/-- The runs of an unfinished entry, each latest character first. -/
structure Draft where
  suffix : Text
  intactOnly : Bool
  digits : Text
  append : Text
  suffix_ne_nil : suffix ≠ []
  suffix_lower : suffix.IsLower
  append_lower : append.IsLower
  deriving Repr

def Draft.first (c : Char) (h : c.isLower = true) : Draft :=
  ⟨[c], false, [], [], by simp, .cons h (by intro d hd; simp at hd), by intro d hd; simp at hd⟩

def Draft.pushSuffix (d : Draft) (c : Char) (h : c.isLower = true) : Draft :=
  { d with suffix := c :: d.suffix, suffix_ne_nil := by simp,
           suffix_lower := .cons h d.suffix_lower }

def Draft.pushAppend (d : Draft) (c : Char) (h : c.isLower = true) : Draft :=
  { d with append := c :: d.append, append_lower := .cons h d.append_lower }

def Draft.pushDigit (d : Draft) (c : Char) : Draft := { d with digits := c :: d.digits }

def Draft.star (d : Draft) : Draft := { d with intactOnly := true }

def Draft.entry (d : Draft) (continues : Bool) : Entry :=
  ⟨d.suffix, d.intactOnly, d.digits.reverse, d.append.reverse, continues, d.suffix_ne_nil,
    d.suffix_lower, d.append_lower.reverse⟩

inductive Phase where
  | between
  | suffix (d : Draft)
  | digits (d : Draft)
  | append (d : Draft)
  | comment
  deriving Repr

/-- A compiler that waits for a character. Rules are kept latest first. -/
structure Compiler where
  place : Place
  entries : Nat
  rules : List Rule
  phase : Phase
  deriving Repr

def Compiler.start : Compiler := ⟨.start, 0, [], .between⟩

structure Compiled where
  rules : List Rule
  closed : Bool
  deriving DecidableEq, Repr

def Compiled.table (c : Compiled) : RuleTable := .ofList c.rules

abbrev Outcome := Except CompileFault Compiled

inductive Progress where
  | reading (c : Compiler)
  | stopped (o : Outcome)

def Compiler.goOn (k : Compiler) (c : Char) (phase : Phase) : Progress :=
  .reading { k with place := k.place.after c, phase }

def Compiler.refuse (k : Compiler) (reason : GrammarReason) (c : Char) : Progress :=
  .stopped (.error (.grammar ⟨reason, k.entries, k.place.line, k.place.column + 1, some c⟩))

/-- The terminator of an entry: it closes the text, or adds a rule and opens a comment. -/
def Compiler.terminate (k : Compiler) (c : Char) (e : Entry) : Progress :=
  if e.text = endText then .stopped (.ok ⟨k.rules.reverse, true⟩)
  else if maxDigits < e.digits.length then .stopped (.error (.tooManyDigits e.digits.length))
  else .reading { k with place := k.place.after c, rules := e.rule k.entries :: k.rules,
                         phase := .comment }

/-- What may follow the part that ends here: a terminator, or nothing at all. -/
def Compiler.finishEntry (k : Compiler) (d : Draft) (c : Char) : Progress :=
  if c = '>' then k.terminate c (d.entry true)
  else if c = '.' then k.terminate c (d.entry false)
  else k.refuse .terminator c

def Compiler.feed (k : Compiler) (c : Char) : Progress :=
  match k.phase with
  | .between =>
    if isBlank c then k.goOn c .between
    else if h : c.isLower = true then
      { k with entries := k.entries + 1 }.goOn c (.suffix (.first c h))
    else { k with entries := k.entries + 1 }.refuse .start c
  | .suffix d =>
    if h : c.isLower = true then k.goOn c (.suffix (d.pushSuffix c h))
    else if c = '*' then k.goOn c (.digits d.star)
    else if c.isDigit then k.goOn c (.digits (d.pushDigit c))
    else k.finishEntry d c
  | .digits d =>
    if c.isDigit then k.goOn c (.digits (d.pushDigit c))
    else if h : c.isLower = true then k.goOn c (.append (d.pushAppend c h))
    else k.finishEntry d c
  | .append d =>
    if h : c.isLower = true then k.goOn c (.append (d.pushAppend c h))
    else k.finishEntry d c
  | .comment => k.goOn c (if c = '\n' then .between else .comment)

/-- The end of the text is fine anywhere but inside an entry. -/
def Compiler.finish (k : Compiler) : Outcome :=
  match k.phase with
  | .between | .comment => .ok ⟨k.rules.reverse, false⟩
  | _ => .error (.grammar ⟨.terminator, k.entries, k.place.line, k.place.column, none⟩)

def Compiler.read (k : Compiler) : Text → Progress × Text
  | [] => (.reading k, [])
  | c :: t => match k.feed c with
    | .reading k' => k'.read t
    | .stopped o => (.stopped o, t)

def Progress.outcome : Progress → Outcome
  | .reading k => k.finish
  | .stopped o => o

def compileStream (t : Text) : Outcome × Text :=
  let r := Compiler.start.read t
  (r.1.outcome, r.2)

def compileText (t : Text) : Outcome := (compileStream t).1

def compile (t : Text) : Except CompileFault RuleTable := (compileText t).map Compiled.table

end Lancaster

import Lancaster.Text.Numeral
import Lancaster.Text.Quoted
import Lancaster.Text.Split

/-!
Command-line arguments. Long options may be shortened to any beginning that fits one option only,
and take their value after a sign of equality or as the next argument. Everything behind two dashes
is plain. Faults of spelling count before all others; the rest are found from left to right.
-/
namespace Lancaster

inductive OptionName where
  | help
  | rules
  | trace
  | workers
  | maxLength
  | rejectLong
  | debug
  deriving DecidableEq, Repr

def shortHelp : Text := "-h".toList

/-- Long spellings, in the order in which messages list them. -/
def longOptions : List (Text × OptionName) :=
  [("--help".toList, .help), ("--rules".toList, .rules), ("--trace".toList, .trace),
   ("--workers".toList, .workers), ("--max-length".toList, .maxLength),
   ("--reject-long".toList, .rejectLong), ("--debug".toList, .debug)]

def OptionName.takesValue : OptionName → Bool
  | .rules | .workers | .maxLength => true
  | _ => false

def OptionName.shown (o : OptionName) : Text :=
  let long := ((longOptions.find? fun e => e.2 = o).map Prod.fst).getD []
  if o = .help then shortHelp ++ '/' :: long else long

def dashesText : Text := "--".toList

/-- A number as an option gives it. Two dashes behind a sign of equality leave it blank. -/
inductive Count where
  | number (n : Int)
  | blank
  deriving DecidableEq, Repr

def Count.ofText? (t : Text) : Option Count :=
  if t = dashesText then some .blank else t.toInteger?.map .number

def Count.number? : Count → Option Int
  | .number n => some n
  | .blank => none

inductive UsageFault where
  | ambiguous (argument : Text) (candidates : List Text)
  | missingValue (o : OptionName)
  | surplusValue (o : OptionName) (value : Text)
  | notInteger (o : OptionName) (value : Text)
  | unrecognized (arguments : List Text)
  | tracedWorkers
  deriving DecidableEq, Repr

def UsageFault.message : UsageFault → Text
  | .ambiguous a names =>
    "ambiguous option: ".toList ++ a ++ " could match ".toList ++ joinWith ", ".toList names
  | .missingValue o => "argument ".toList ++ o.shown ++ ": expected one argument".toList
  | .surplusValue o v =>
    "argument ".toList ++ o.shown ++ ": ignored explicit argument ".toList ++ v.quoted
  | .notInteger o v => "argument ".toList ++ o.shown ++ ": invalid int value: ".toList ++ v.quoted
  | .unrecognized as => "unrecognized arguments: ".toList ++ joinWith [' '] as
  | .tracedWorkers => "--trace stems words sequentially; drop --workers or set it to 1".toList

inductive Mark where
  | plain
  | dashes
  | option (o : OptionName) (value : Option Text)
  | helpCluster (letters : Text)
  | unknown
  deriving DecidableEq, Repr

def splitAtEquals (a : Text) : Text × Option Text :=
  match a.dropWhile fun c => c != '=' with
  | [] => (a, none)
  | _ :: v => (a.takeWhile fun c => c != '=', some v)

def isDigits (t : Text) : Bool := t.all fun c => (scriptDigit? c).isSome

/-- Arguments that look like negative numbers are plain. A line feed at the end does not count. -/
def looksNegative : Text → Bool
  | '-' :: t =>
    let t := if t.getLast? = some '\n' then t.dropLast else t
    let whole := t.takeWhile fun c => c != '.'
    match t.dropWhile fun c => c != '.' with
    | [] => !t.isEmpty && isDigits t
    | _ :: part => isDigits whole && !part.isEmpty && isDigits part
  | _ => false

def markUnfinished (a : Text) : Except UsageFault Mark :=
  let (name, value) := splitAtEquals a
  let candidates := if dashesText.isPrefixOf a
    then longOptions.filter fun e => name.isPrefixOf e.1 else []
  match candidates with
  | [e] => .ok (.option e.2 value)
  | _ :: _ :: _ => .error (.ambiguous a (candidates.map Prod.fst))
  | [] =>
    if shortHelp.isPrefixOf a then .ok (.helpCluster (a.drop 2))
    else if looksNegative a || a.contains ' ' then .ok .plain
    else .ok .unknown

/-- The short help option in full. What stands behind a sign of equality counts as further letters,
if there is any. -/
def markHelp : Option Text → Mark
  | some (c :: letters) => .helpCluster (c :: letters)
  | value => .option .help value

def markArgument (a : Text) : Except UsageFault Mark :=
  let (name, value) := splitAtEquals a
  if a.head? ≠ some '-' ∨ a.length = 1 then .ok .plain
  else match longOptions.lookup name with
    | some o => .ok (.option o value)
    | none =>
      if name = shortHelp then .ok (markHelp value) else markUnfinished a

abbrev Marked := Text × Mark

def markArguments : List Text → Except UsageFault (List Marked)
  | [] => .ok []
  | a :: as =>
    if a = dashesText then .ok ((a, .dashes) :: as.map fun b => (b, .plain))
    else do
      let m ← markArgument a
      let ms ← markArguments as
      return (a, m) :: ms

/-- Nothing is set by default; the word file is absent until the first plain argument. -/
structure Options where
  wordFile : Option Text := none
  rules : Option Text := none
  trace : Bool := false
  workers : Option Count := none
  maxLength : Option Count := none
  rejectLong : Bool := false
  debug : Bool := false
  deriving DecidableEq, Repr

def Options.setFlag (o : Options) : OptionName → Options
  | .trace => { o with trace := true }
  | .rejectLong => { o with rejectLong := true }
  | .debug => { o with debug := true }
  | _ => o

/-- Rules that are left blank count as not given. -/
def Options.setValue (o : Options) (name : OptionName) (v : Text) : Except UsageFault Options :=
  match name with
  | .rules => .ok { o with rules := if v = dashesText then none else some v }
  | .workers => match Count.ofText? v with
    | some n => .ok { o with workers := some n }
    | none => .error (.notInteger name v)
  | .maxLength => match Count.ofText? v with
    | some n => .ok { o with maxLength := some n }
    | none => .error (.notInteger name v)
  | _ => .ok o

/-- Letters behind the short help option: each `h` is help again, and nothing else may follow. -/
def helpFault? : Text → Option UsageFault
  | [] => none
  | 'h' :: t => helpFault? t
  | t => some (.surplusValue .help t)

/-- The state between two arguments. Plain arguments beyond the first are left over. -/
structure Scan where
  options : Options
  wordFileSeen : Bool
  extras : List Text
  deriving DecidableEq, Repr

def scanArguments (s : Scan) : List Marked → Except UsageFault (Option Scan)
  | [] => .ok (some s)
  | (a, .plain) :: rest =>
    if s.wordFileSeen then scanArguments { s with extras := s.extras ++ [a] } rest
    else
      let s := { s with options := { s.options with wordFile := some a }, wordFileSeen := true }
      match rest with
      | (_, .dashes) :: rest => scanArguments s rest
      | rest => scanArguments s rest
  | (a, .dashes) :: rest =>
    if s.wordFileSeen then scanArguments { s with extras := s.extras ++ [a] } rest
    else match rest with
      | (b, .plain) :: rest =>
        scanArguments
          { s with options := { s.options with wordFile := some b }, wordFileSeen := true } rest
      | rest => scanArguments { s with wordFileSeen := true } rest
  | (a, .unknown) :: rest => scanArguments { s with extras := s.extras ++ [a] } rest
  | (_, .helpCluster letters) :: _ => match helpFault? letters with
    | some f => .error f
    | none => .ok none
  | (_, .option o (some v)) :: rest =>
    if o.takesValue then do
      let options ← s.options.setValue o v
      scanArguments { s with options } rest
    else .error (.surplusValue o v)
  | (_, .option o none) :: rest =>
    if o = .help then .ok none
    else if o.takesValue then
      match rest with
      | (v, .plain) :: rest => do
        let options ← s.options.setValue o v
        scanArguments { s with options } rest
      | _ => .error (.missingValue o)
    else scanArguments { s with options := s.options.setFlag o } rest

def parseArguments (as : List Text) : Except UsageFault (Option Options) := do
  let marked ← markArguments as
  match ← scanArguments ⟨{}, false, []⟩ marked with
  | none => return none
  | some s =>
    if s.extras != [] then throw (.unrecognized s.extras)
    else if s.options.trace && 1 < (s.options.workers.bind Count.number?).getD 1 then
      throw .tracedWorkers
    else return some s.options

end Lancaster

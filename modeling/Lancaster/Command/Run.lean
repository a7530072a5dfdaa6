import Lancaster.Command.Options
import Lancaster.Source.Session
import Lancaster.Stemmer.Pool

/-!
The command: it stems every word of a word list and prints one stem a line. Settings come from the
data directory where there are any, and options go before settings. With a trace each word is
printed before the next one is read; without, nothing is printed unless every word has a stem.
-/
namespace Lancaster

inductive BlankUse where
  | tracedWorkers
  | workers
  | maxLength
  deriving DecidableEq, Repr

def BlankUse.message : BlankUse → Text
  | .tracedWorkers => "'>' not supported between instances of 'list' and 'int'".toList
  | .workers => "'<=' not supported between instances of 'list' and 'int'".toList
  | .maxLength => "'<=' not supported between instances of 'int' and 'list'".toList

inductive CommandFault where
  | config (f : ConfigFault)
  | setup (f : SetupFault)
  | words (f : WordFileFault)
  | stem (f : StemFault)
  | blank (use : BlankUse)
  deriving DecidableEq, Repr

def CommandFault.message : CommandFault → Codes
  | .config f => f.message
  | .setup f => f.message
  | .words f => f.message.codes
  | .stem f => f.message.codes
  | .blank use => use.message.codes

def errorLine (message : Codes) : Line := .plain (Text.codes "Error: ".toList ++ message)

def configErrorLine (message : Codes) : Line :=
  .plain (Text.codes "Config error: ".toList ++ message)

def usageLine (f : UsageFault) : Line :=
  .plain (Text.codes ("paice-husk: error: ".toList ++ f.message))

/-- The line that reports a fault; faults without one end the command unreported. -/
def CommandFault.line? : CommandFault → Option Line
  | .setup (.rules (.compile (.tooManyDigits _))) => none
  | .setup (.rules (.unreadable _ .notPath)) => none
  | .setup (.rules (.unreadable _ .notEncoding)) => none
  | .setup (.rules (.unreadable _ (.unwritablePath _ _))) => none
  | .setup (.rules (.unreadable _ (.unknownEncoding _))) => none
  | .setup (.rules f) => some (errorLine f.message)
  | .setup .memoTooLarge => none
  | .blank _ => none
  | .words f => match f.fault with
    | .notPath => none
    | .notEncoding => none
    | .unwritablePath _ _ => none
    | .unknownEncoding _ => none
    | _ => some (errorLine f.message.codes)
  | .stem (.tooLong length max) => some (errorLine (StemFault.tooLong length max).message.codes)
  | .stem _ => none
  | .config .notPath => none
  | .config (.unsearchable _) => none
  | .config (.unknownEncoding _) => none
  | .config (.gaveUp _) => none
  | .config (.missingKey _) => none
  | .config f => some (configErrorLine f.message)

inductive Ending where
  | exit (code : Nat)
  | unreported (f : CommandFault)
  deriving DecidableEq, Repr

structure Report where
  ending : Ending
  stems : List Word
  lines : List Line
  verbose : Bool
  deriving DecidableEq, Repr

def Report.fail (verbose : Bool) (stems : List Word) (lines : List Line) (f : CommandFault) :
    Report :=
  match f.line? with
  | some l => ⟨.exit 1, stems, lines ++ [l], verbose⟩
  | none => ⟨.unreported f, stems, lines, verbose⟩

/-- Options that are given replace settings; an empty rules option counts as not given. -/
def Options.over (o : Options) (s : Settings) : Settings :=
  { s with
    rulesFile := match o.rules with
      | none | some [] => s.rulesFile
      | some path => some path.codes
    maxLength := match o.maxLength with
      | some (.number n) => some n
      | _ => s.maxLength
    overflow := if o.rejectLong then .reject else s.overflow }

/-- A data directory or a settings file that is not there leaves the usual settings. -/
def ConfigFault.absent : ConfigFault → Bool
  | .noDataDir _ | .outside _ | .missing _ | .unreadable _ _ => true
  | _ => false

def Options.source (o : Options) (h : Host) (input : Text) : WordSource :=
  match o.wordFile with
  | none | some [] => inputWords input
  | some path => h.fileWords path defaultEncoding

def tracedLine (r : StemResult) : Line :=
  .plain (Text.codes (r.stem ++ " (".toList ++ (r.trace.getD []).text ++ [')']))

structure Printed where
  stems : List Word
  lines : List Line
  fault : Option StemFault
  deriving DecidableEq, Repr

def Stemmer.printEach (s : Stemmer) : List Word → Printed
  | [] => ⟨[], [], none⟩
  | w :: words =>
    let r := s.trace w
    match r.answer with
    | .error f => ⟨[], r.lines, some f⟩
    | .ok t =>
      let others := r.next.printEach words
      ⟨t.stem :: others.stems, r.lines ++ tracedLine t :: others.lines, others.fault⟩

/-- A blank limit fails with the first word whose length is compared with it. -/
def Options.limitFails (o : Options) (words : List Word) : Bool :=
  o.maxLength = some .blank && !words.isEmpty

/-- Prints each stem and its trace as soon as its word was read. -/
def Options.runTraced (o : Options) (s : Stemmer) (source : WordSource) (lines : List Line) :
    Report :=
  if o.limitFails source.words then .fail o.debug [] lines (.blank .maxLength)
  else
    let p := s.printEach source.words
    match p.fault, source.fault with
    | some f, _ => .fail o.debug p.stems (lines ++ p.lines) (.stem f)
    | none, some f => .fail o.debug p.stems (lines ++ p.lines) (.words f)
    | none, none => ⟨.exit 0, p.stems, lines ++ p.lines, o.debug⟩

/-- Reads all words, stems them all, and only then prints. -/
def Options.runPlain (o : Options) (s : Stemmer) (topics : Topics) (source : WordSource)
    (turns : Nat → List Nat) (lines : List Line) : Report :=
  match source.all with
  | .error f => .fail o.debug [] lines (.words f)
  | .ok words =>
    if o.workers = some .blank then .fail o.debug [] lines (.blank .workers)
    else if o.limitFails words then .fail o.debug [] lines (.blank .maxLength)
    else
      let r := s.stemMany topics words (o.workers.bind Count.number?) turns
      match r.answer with
      | .error f => .fail o.debug [] (lines ++ r.lines) (.stem f)
      | .ok stems => ⟨.exit 0, stems, lines ++ r.lines, o.debug⟩

/-- What is said of a stemmer that is set up; a blank limit is an empty pair of brackets. -/
def Options.readyLine (o : Options) (s : Settings) (table : RuleTable) : Line :=
  let limit := if o.maxLength = some .blank then "[]".toList
    else (s.maxLength.map integerText).getD "None".toList
  .log .debug <| Text.codes ("Stemmer ready: ".toList ++ decimalText table.size
    ++ " rules, max_length=".toList ++ limit ++ ", overflow=".toList ++ s.overflow.name
    ++ ", cache_size=".toList ++ integerText s.cacheSize)

def Session.stemWords (s : Session) (o : Options) (settings : Settings) (input : Text)
    (passes : Nat) (turns : Nat → List Nat) (lines : List Line) : Report × Session :=
  let settings := o.over settings
  let r := s.stemmer settings passes
  match r.answer with
  | .error f => (.fail o.debug [] (lines ++ r.lines) (.setup f), r.next)
  | .ok m =>
    let source := o.source s.host input
    let lines := lines ++ r.lines ++ [o.readyLine settings m.table]
    let report := if o.trace then o.runTraced m source lines
      else o.runPlain m s.topics source turns lines
    (report, r.next)

def Session.run (s : Session) (o : Options) (input : Text) (passes : Nat)
    (turns : Nat → List Nat) : Report × Session :=
  let r := s.loadSettings none
  match r.answer with
  | .ok settings => r.next.stemWords o settings input passes turns r.lines
  | .error f =>
    if f.absent then r.next.stemWords o {} input passes turns r.lines
    else (.fail o.debug [] r.lines (.config f), r.next)

/-- The command as a whole. Help prints no stems, and faulty arguments end it at once. Several
workers take their turns as they like. -/
def Session.command (s : Session) (arguments : List Text) (input : Text) (passes : Nat)
    (turns : Nat → List Nat := inTurn) : Report × Session :=
  match parseArguments arguments with
  | .error f => (⟨.exit 2, [], [usageLine f], false⟩, s)
  | .ok none => (⟨.exit 0, [], [], false⟩, s)
  | .ok (some o) =>
    if o.trace && o.workers = some .blank then
      (.fail o.debug [] [] (.blank .tracedWorkers), s)
    else s.run o input passes turns

end Lancaster

import Lancaster.Source.Bundled
import Lancaster.Source.Rules
import Lancaster.Source.Words

/-!
A session: what is found around the program, and what it remembers between two uses. It remembers
configs, the debug topics, and whether the bundled rules were compiled and reported already.
-/
namespace Lancaster

structure Session where
  host : Host
  configs : ConfigCache
  topics : Topics
  bundledReady : Bool

def Session.start (h : Host) : Session := ⟨h, [], .none, false⟩

def topicsVariable : Text := "PAICE_HUSK_DEBUG_TOPICS".toList

def Session.reloadTopics (s : Session) : Session :=
  { s with topics := .ofText ((s.host.env? topicsVariable).getD []) }

structure SessionReply (ε α : Type) where
  answer : Except ε α
  lines : List Line
  next : Session

/-- Rules that are compiled at their first use, and reported then. -/
def Session.rulesOnce (s : Session) (o : Outcome) : SessionReply RuleFileFault RuleTable :=
  match o with
  | .ok c => ⟨.ok c.table, if s.bundledReady then [] else [c.line], { s with bundledReady := true }⟩
  | .error f => ⟨.error (.compile f), [], s⟩

def Session.bundledRules (s : Session) : SessionReply RuleFileFault RuleTable :=
  s.rulesOnce bundledOutcome

/-- No rules file, or an empty name, means the bundled rules. -/
def Session.rules (s : Session) (rulesFile : Option Codes) :
    SessionReply RuleFileFault RuleTable :=
  match rulesFile with
  | none | some [] => s.bundledRules
  | some path =>
    let r := s.host.loadRules path defaultEncoding
    ⟨r.1, r.2, s⟩

inductive SetupFault where
  | rules (f : RuleFileFault)
  | memoTooLarge
  deriving DecidableEq, Repr

def SetupFault.message : SetupFault → Codes
  | .rules f => f.message
  | .memoTooLarge => memoTooLargeText.codes

/-- The rules come first, then the memo. -/
def Session.stemmer (s : Session) (settings : Settings) (passes : Nat) :
    SessionReply SetupFault Stemmer :=
  let r := s.rules settings.rulesFile
  match r.answer with
  | .ok t =>
    ⟨if settings.memoFits then .ok (.new t settings passes) else .error .memoTooLarge, r.lines,
      r.next⟩
  | .error f => ⟨.error (.rules f), r.lines, r.next⟩

def Session.loadConfig (s : Session) (file : Text) (base : Option Text) (encoding : Text)
    (v : Option Validator) : SessionReply ConfigFault Loaded :=
  let r := s.host.loadConfig s.configs file base encoding v
  ⟨r.answer, r.lines, { s with configs := r.cache }⟩

def Session.loadSettings (s : Session) (base : Option Text) : SessionReply ConfigFault Settings :=
  let r := s.host.loadSettings s.configs base
  ⟨r.answer, r.lines, { s with configs := r.cache }⟩

def Session.clearConfigs (s : Session) : Session := { s with configs := [] }

end Lancaster

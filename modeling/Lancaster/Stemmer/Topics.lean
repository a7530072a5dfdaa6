import Lancaster.Text.Casing
import Lancaster.Text.Codes
import Lancaster.Text.Split

/-!
Debug topics. A comma-separated list names the topics that are switched on, in any spelling of case
and with blanks around; `all` switches on every topic. Blank items count for nothing.
-/
namespace Lancaster

structure Topics where
  names : List Text
  deriving DecidableEq, Repr

def Topics.none : Topics := ⟨[]⟩

def Topics.ofText (raw : Text) : Topics :=
  ⟨((cutAt ',' raw).map fun item => (Text.strip item).lower).filter fun name => !name.isEmpty⟩

def topicKey (topic : Text) : Text := topic.lower.strip

def Topics.enabled (t : Topics) (topic : Text) : Bool :=
  !t.names.isEmpty && (t.names.contains "all".toList || t.names.contains (topicKey topic))

inductive Severity where
  | debug
  | info
  deriving DecidableEq, Repr

/-- Lines for the reader of the error stream. A line may name what a config spells, so it is in
codes. -/
inductive Line where
  | log (severity : Severity) (message : Codes)
  | topic (key level message : Text)
  | plain (text : Codes)
  deriving DecidableEq, Repr

def Line.shown (verbose : Bool) : Line → Bool
  | .log .debug _ => verbose
  | _ => true

def Line.codes (stamp : Text) : Line → Codes
  | .log .debug m => Text.codes "DEBUG: ".toList ++ m
  | .log .info m => Text.codes "INFO: ".toList ++ m
  | .topic key level m =>
    Text.codes ('[' :: stamp ++ "] [".toList ++ key ++ "][".toList ++ level ++ "] ".toList ++ m)
  | .plain c => c

def Topics.line? (t : Topics) (topic level message : Text) : Option Line :=
  if t.enabled topic then some (.topic (topicKey topic) level.upper message) else Option.none

end Lancaster

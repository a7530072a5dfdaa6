import Lancaster.Files.Host
import Lancaster.Rule.Compile
import Lancaster.Stemmer.Topics

/-!
Rule files. A file is compiled while it is read: what stands behind the closing entry or a fault is
not read, and an undecodable block counts only once it is reached.
-/
namespace Lancaster

inductive RuleFileFault where
  | unreadable (path : Codes) (f : ReadFault)
  | compile (f : CompileFault)
  deriving DecidableEq, Repr

def RuleFileFault.message : RuleFileFault → Codes
  | .unreadable _ .notPath => notPathText.codes
  | .unreadable _ .notEncoding => notEncodingText.codes
  | .unreadable _ (.unwritablePath halves first) => (unwritableText halves first).codes
  | .unreadable _ (.unknownEncoding name) => (unknownEncodingText name).codes
  | .unreadable path f =>
    Text.codes "Cannot read rule file ".toList ++ path ++ Text.codes (": ".toList ++ f.text)
  | .compile f => f.message.codes

/-- Compiles what can be read; reading past it fails. -/
def compileDecoded (d : Decoded) : Except ReadFault Outcome :=
  match (Compiler.start.read d.text).1 with
  | .stopped o => .ok o
  | .reading k => if d.broken then .error .undecodable else .ok k.finish

def Compiled.line (c : Compiled) : Line :=
  .log .debug <| Text.codes ("Compiled ".toList ++ decimalText c.rules.length ++ " rules (".toList
    ++ (if c.closed then "end pseudo-rule reached".toList else "end of input".toList) ++ [')'])

def loadedLine (rules : Nat) (path : Codes) : Line :=
  .log .info (Text.codes ("Loaded ".toList ++ decimalText rules ++ " rules from ".toList) ++ path)

def Host.compileFile (h : Host) (path : Codes) (encoding : Text) :
    Except RuleFileFault Compiled :=
  match h.readNamed path encoding with
  | .error f => .error (.unreadable path f)
  | .ok d => match compileDecoded d with
    | .error f => .error (.unreadable path f)
    | .ok (.error f) => .error (.compile f)
    | .ok (.ok c) => .ok c

def Host.loadRules (h : Host) (path : Codes) (encoding : Text) :
    Except RuleFileFault RuleTable × List Line :=
  match h.compileFile path encoding with
  | .error f => (.error f, [])
  | .ok c => (.ok c.table, [c.line, loadedLine c.table.size path])

end Lancaster

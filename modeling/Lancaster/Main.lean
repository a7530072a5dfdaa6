import Lancaster.Command.Run
import Lancaster.Config.Json5
import Std.Time

/-!
The command on the machine it runs on: the files that a run may read are fetched beforehand, the
command runs on them, and its report is written out.
-/
namespace Lancaster.Main

/-- Adds the node at a location, and those above it, as far as they can be found. -/
def fetch (tree : FileTree) (l : Location) : IO FileTree := do
  let mut tree := tree
  for place in l.above ++ [l] do
    if (tree.node? place).isNone then
      try
        let content ← IO.FS.readBinFile (String.ofList place.text)
        tree := tree.put place (.file content.toList 0)
      catch e =>
        match e with
        | .inappropriateType .. => tree := tree.put place (.directory 0)
        | _ => return tree
  return tree

def environment : IO Environment := do
  let names := ["HOME".toList, dataDirVariable, topicsVariable]
  let found ← names.mapM fun n => do
    return (← IO.getEnv (String.ofList n)).map fun v => (n, v.toList)
  return found.filterMap id

/-- Accounts as a password file lists them, the name first and the home sixth. Who runs the program
is not found out: its home is the one that is set. -/
def accounts : IO Accounts := do
  let found ← try IO.FS.lines "/etc/passwd" catch _ => pure #[]
  let home (line : String) : Option (Text × Text) :=
    match cutAt ':' line.toList with
    | name :: _ :: _ :: _ :: _ :: home :: _ => some (name, home)
    | _ => none
  return ⟨none, found.toList.filterMap home⟩

def bundledHost : Host := { bareHost with files := bundledTree, site := bundledSite }

def withPath (h : Host) (path : Option Text) : IO Host :=
  match path with
  | none | some [] => return h
  | some p => return { h with files := ← fetch h.files (h.resolve p) }

def hostFor (o : Options) : IO Host := do
  let working := (PathText.ofList (← IO.currentDir).toString.toList).parts
  let h : Host :=
    { bundledHost with environment := ← environment, working, accounts := ← accounts }
  let h ← match h.dataDir none with
    | .ok dir => withPath h (some (configLocation dir settingsFile).text)
    | .error _ => pure h
  let settings := match (h.loadSettings [] none).answer with
    | .ok s => s
    | .error _ => {}
  withPath (← withPath h ((o.over settings).rulesFile.map Codes.text)) o.wordFile

def stamp : IO Text := do
  let now ← Std.Time.PlainDateTime.now
  return (now.format "uuuu-MM-dd HH:mm:ss").toList

/-- More passes than any machine carries out. -/
def passes : Nat := 1000000000000000000

def run (args : List String) : IO UInt32 := do
  let arguments := args.map String.toList
  let (host, input) ← match parseArguments arguments with
    | .ok (some o) => do
      let host ← hostFor o
      let input ← match o.wordFile with
        | none | some [] => (← IO.getStdin).readToEnd
        | some _ => pure ""
      pure (host, input.toList)
    | _ => pure (bundledHost, [])
  let report := ((Session.start host).reloadTopics.command arguments input passes).1
  for w in report.stems do
    IO.println (String.ofList w)
  let stamp ← stamp
  for l in report.lines do
    if l.shown report.verbose then IO.eprintln (String.ofList (l.codes stamp).text)
  match report.ending with
  | .exit code => return UInt32.ofNat code
  | .unreported f =>
    IO.eprintln (String.ofList f.message.text)
    return 1

end Lancaster.Main

def main (args : List String) : IO UInt32 := Lancaster.Main.run args

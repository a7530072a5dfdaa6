import Lancaster.Files.Host
import Lancaster.Stemmer.Topics
import Lancaster.Text.Quoted

/-!
Config files. A config lies in the data directory or below it and holds an object. Objects that
passed their checks are remembered under the place, the time and the encoding of their file and the
name of the check, so an unchanged file is neither read nor checked again.
-/
namespace Lancaster

inductive ConfigFault where
  | notPath
  | unsearchable (f : FileFault)
  | noDataDir (site : Location)
  | outside (path : Location)
  | missing (path : Location)
  | unreadable (path : Location) (f : FileFault)
  | unknownEncoding (name : Text)
  | malformed (path : Location)
  | gaveUp (reason : Text)
  | notObject (name typeName : Text)
  | refused (name : Text) (reason : Codes)
  | missingKey (key : Text)
  deriving DecidableEq, Repr

def dataDirVariable : Text := "PAICE_HUSK_DATA_DIR".toList

/-- The reason of a check may quote the config, so it is in codes. -/
def ConfigFault.message : ConfigFault → Codes
  | .notPath => notPathText.codes
  | .unsearchable f => f.text.codes
  | .noDataDir site =>
    Text.codes ("No 'data' directory above ".toList ++ site.text ++ " and ".toList
      ++ dataDirVariable ++ " is unset".toList)
  | .outside path => Text.codes ("Refusing to read outside the data dir: ".toList ++ path.text)
  | .missing path => Text.codes ("Config file not found: ".toList ++ path.text)
  | .unreadable path f =>
    Text.codes ("Cannot read ".toList ++ path.text ++ ": ".toList ++ f.text)
  | .unknownEncoding name => (unknownEncodingText name).codes
  | .malformed path => Text.codes ("Invalid JSON5 in ".toList ++ path.text)
  | .gaveUp reason => reason.codes
  | .notObject name typeName =>
    Text.codes (name ++ ": expected an object, got ".toList ++ typeName)
  | .refused name reason => Text.codes (name ++ ": ".toList) ++ reason
  | .missingKey key => key.quoted.codes

/-- The first of some locations that is a directory. A name that is too long ends the search. -/
def FileTree.firstDirectory (t : FileTree) : List Location → Except FileFault (Option Location)
  | [] => .ok none
  | l :: candidates => match t.stat l with
    | .ok (.directory _) => .ok (some l)
    | .error .nameTooLong => .error .nameTooLong
    | _ => t.firstDirectory candidates

def Host.siteDataDir (h : Host) : Except ConfigFault Location :=
  match h.files.firstDirectory (h.site.above.reverse.map fun l => l ++ ["data".toList]) with
  | .ok (some dir) => .ok dir
  | .ok none => .error (.noDataDir h.site)
  | .error f => .error (.unsearchable f)

def Host.directory (h : Host) (t : Text) : Except ConfigFault Location :=
  if t.isPath then .ok (h.resolve t) else .error .notPath

/-- A given base comes first, then the environment, then the site. -/
def Host.dataDir (h : Host) (base : Option Text) : Except ConfigFault Location :=
  match base with
  | some b => h.directory b
  | none => match h.env? dataDirVariable with
    | none | some [] => h.siteDataDir
    | some dir => h.directory (h.expandHome dir)

def configSuffix : Text := ".json".toList

def configFileName (file : Text) : Text :=
  if configSuffix.isSuffixOf file then file else file ++ configSuffix

def configLocation (dir : Location) (file : Text) : Location :=
  (dir.path.join (.ofList (configFileName file))).resolve []

/-- A check may turn an object down with a reason, or ask for a key that it lacks. -/
inductive Rejection where
  | refused (reason : Codes)
  | missingKey (key : Text)
  deriving DecidableEq, Repr

/-- A named check, which may also change the object. -/
structure Validator where
  name : Text
  check : ConfigObject → Except Rejection ConfigObject

structure ConfigKey where
  path : Location
  time : Int
  encoding : Text
  validator : Option Text
  deriving DecidableEq, Repr

abbrev ConfigCache := List (ConfigKey × ConfigObject)

/-- A text that could not be decoded to its end is malformed. -/
def Host.parseDecoded (h : Host) (d : Decoded) : Except ParserFault ConfigValue :=
  if d.broken then .error .malformed else h.parser d.text

def Host.readValue (h : Host) (path : Location) (encoding : Text) :
    Except ConfigFault ConfigValue :=
  if encoding.contains '\x00' then .error (.malformed path)
  else match h.files.content path with
    | .error f => .error (.unreadable path f)
    | .ok content => match h.decodeAs encoding content with
      | .error _ => .error (.unknownEncoding encoding)
      | .ok d => match h.parseDecoded d with
        | .ok value => .ok value
        | .error .malformed => .error (.malformed path)
        | .error (.gaveUp reason) => .error (.gaveUp reason)

def checkedObject (name : Text) (v : Option Validator) :
    ConfigValue → Except ConfigFault ConfigObject
  | .object o => match v with
    | none => .ok o
    | some v => match v.check o with
      | .ok o => .ok o
      | .error (.refused reason) => .error (.refused name reason)
      | .error (.missingKey key) => .error (.missingKey key)
  | value => .error (.notObject name value.typeName)

def Host.readConfig (h : Host) (path : Location) (encoding : Text) (v : Option Validator) :
    Except ConfigFault ConfigObject :=
  (h.readValue path encoding).bind (checkedObject path.name v)

def Host.configKey (h : Host) (file : Text) (base : Option Text) (encoding : Text)
    (v : Option Validator) : Except ConfigFault ConfigKey := do
  let dir ← h.dataDir base
  if !file.isPath then throw .notPath
  let path := configLocation dir file
  if !path.within dir then throw (.outside path)
  match h.files.stat path with
  | .error _ => throw (.missing path)
  | .ok n => return ⟨path, n.time, encoding, v.map Validator.name⟩

structure Loaded where
  object : ConfigObject
  remembered : Bool

def configLine (remembered : Bool) (path : Location) : Line :=
  .log .debug <| Text.codes ((if remembered then "Config cache HIT: ".toList
    else "Config loaded and cached: ".toList) ++ path.name)

structure ConfigReply where
  answer : Except ConfigFault Loaded
  lines : List Line
  cache : ConfigCache

def Host.loadConfig (h : Host) (cache : ConfigCache) (file : Text) (base : Option Text)
    (encoding : Text) (v : Option Validator) : ConfigReply :=
  match h.configKey file base encoding v with
  | .error f => ⟨.error f, [], cache⟩
  | .ok k => match cache.lookup k with
    | some o => ⟨.ok ⟨o, true⟩, [configLine true k.path], cache⟩
    | none => match h.readConfig k.path encoding v with
      | .error f => ⟨.error f, [], cache⟩
      | .ok o => ⟨.ok ⟨o, false⟩, [configLine false k.path], (k, o) :: cache⟩

theorem exists_of_bind_eq_ok {ε α β : Type} {x : Except ε α} {g : α → Except ε β} {b : β}
    (h : x >>= g = .ok b) : ∃ a, x = .ok a ∧ g a = .ok b := by
  cases x with
  | error e => cases h
  | ok a => exact ⟨a, rfl, h⟩

theorem of_bind_eq_error {ε α β : Type} {x : Except ε α} {g : α → Except ε β} {e : ε}
    (h : x >>= g = .error e) : x = .error e ∨ ∃ a, x = .ok a ∧ g a = .error e := by
  cases x with
  | error e' =>
    obtain rfl := Except.error.inj h
    exact .inl rfl
  | ok a => exact .inr ⟨a, rfl, h⟩

end Lancaster

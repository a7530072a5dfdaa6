import Lancaster.Config.Load
import Lancaster.Stemmer.Basic

/-!
Settings of a stemmer as a config. The keys are known, every value is checked, and a relative rules
file is taken from the data directory. A checked object always makes settings.
-/
namespace Lancaster

def settingsFile : Text := "stemmer_settings".toList

inductive SettingsFault where
  | unknownKeys (keys : List Codes)
  | rulesFile
  | maxLength
  | overflow
  | cacheSize
  | workers
  deriving DecidableEq, Repr

def SettingsFault.message : SettingsFault → Codes
  | .unknownKeys keys =>
    Text.codes "unknown keys: ".toList ++ joinWith (Text.codes ", ".toList) keys
  | .rulesFile => Text.codes "rules_file must be a string or null".toList
  | .maxLength => Text.codes "max_length must be a positive integer or null".toList
  | .overflow => Text.codes "overflow must be 'truncate' or 'reject'".toList
  | .cacheSize => Text.codes "cache_size must be a non-negative integer".toList
  | .workers => Text.codes "workers must be a positive integer".toList

def rulesFileKey : Text := "rules_file".toList

def maxLengthKey : Text := "max_length".toList

def overflowKey : Text := "overflow".toList

def cacheSizeKey : Text := "cache_size".toList

def workersKey : Text := "workers".toList

def settingsKeys : List Text :=
  [rulesFileKey, maxLengthKey, overflowKey, cacheSizeKey, workersKey]

/-- Keys that no setting has, in ascending order. -/
def unknownKeys (o : ConfigObject) : List Codes :=
  ((o.map Prod.fst).filter fun k => !(settingsKeys.map Text.codes).contains k).mergeSort Codes.upTo

def readRulesFile (o : ConfigObject) : Except SettingsFault (Option Codes) :=
  match o.get? rulesFileKey with
  | none | some .null => .ok none
  | some (.string t) => .ok (some t)
  | some _ => .error .rulesFile

/-- Null means no limit; a missing limit is the usual one. -/
def readMaxLength (o : ConfigObject) : Except SettingsFault (Option Int) :=
  match o.get? maxLengthKey with
  | none => .ok (some 254)
  | some .null => .ok none
  | some (.int n) => if 1 ≤ n then .ok (some n) else .error .maxLength
  | some _ => .error .maxLength

def readOverflow (o : ConfigObject) : Except SettingsFault Overflow :=
  match o.get? overflowKey with
  | none => .ok .truncate
  | some (.string t) => match Overflow.named t.text with
    | .unknown _ => .error .overflow
    | known => .ok known
  | some _ => .error .overflow

def readCacheSize (o : ConfigObject) : Except SettingsFault Int :=
  match o.get? cacheSizeKey with
  | none => .ok 4096
  | some (.int n) => if 0 ≤ n then .ok n else .error .cacheSize
  | some _ => .error .cacheSize

def readWorkers (o : ConfigObject) : Except SettingsFault Int :=
  match o.get? workersKey with
  | none => .ok 1
  | some (.int n) => if 1 ≤ n then .ok n else .error .workers
  | some _ => .error .workers

/-- The first fault wins, in the order of the keys. -/
def Settings.ofObject (o : ConfigObject) : Except SettingsFault Settings := do
  if unknownKeys o != [] then throw (.unknownKeys (unknownKeys o))
  let rulesFile ← readRulesFile o
  let maxLength ← readMaxLength o
  let overflow ← readOverflow o
  let cacheSize ← readCacheSize o
  let workers ← readWorkers o
  return ⟨rulesFile, maxLength, overflow, cacheSize, workers⟩

def settingsValidator : Validator :=
  ⟨"settings".toList, fun o => match Settings.ofObject o with
    | .ok _ => .ok o
    | .error f => .error (.refused f.message)⟩

def rulesPath (dir : Location) (file : Codes) : Codes :=
  ((dir.path.map Char.toNat).join (.ofList file)).toList

structure SettingsReply where
  answer : Except ConfigFault Settings
  lines : List Line
  cache : ConfigCache

def Host.settingsOf (h : Host) (base : Option Text) (o : ConfigObject) :
    Except ConfigFault Settings := do
  let s ← match Settings.ofObject o with
    | .ok s => pure s
    | .error f => throw (.refused (configFileName settingsFile) f.message)
  match s.rulesFile with
  | none => return s
  | some file => return { s with rulesFile := some (rulesPath (← h.dataDir base) file) }

def Host.loadSettings (h : Host) (cache : ConfigCache) (base : Option Text) : SettingsReply :=
  let r := h.loadConfig cache settingsFile base defaultEncoding (some settingsValidator)
  ⟨r.answer.bind fun l => h.settingsOf base l.object, r.lines, r.cache⟩

end Lancaster

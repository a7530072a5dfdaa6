import Lancaster.Config.Value
import Lancaster.Files.Tree
import Lancaster.Text.Codes
import Lancaster.Text.Encoding
import Lancaster.Text.Numeral

/-!
What the program finds around it: files, environment variables, its working directory, the site of
its own files, from which the data directory is sought, the accounts of the machine, and what reads
texts and configs there. Nothing here is changed by the program.
-/
namespace Lancaster

abbrev Environment := List (Text × Text)

def Environment.set (e : Environment) (name : Text) (v : Option Text) : Environment :=
  let others := e.filter fun b => b.1 != name
  match v with
  | some v => (name, v) :: others
  | none => others

/-- The home of the account that the program runs under, and the homes of accounts by name. -/
structure Accounts where
  own : Option Text
  homes : List (Text × Text)
  deriving DecidableEq, Repr

/-- Codecs are those beyond the encodings known here. -/
structure Host where
  files : FileTree
  environment : Environment
  working : Location
  site : Location
  accounts : Accounts
  codecs : Text → Option Codec
  parser : ConfigParser

def Host.env? (h : Host) (name : Text) : Option Text := h.environment.lookup name

def Host.resolve (h : Host) (t : Text) : Location := (PathText.ofList t).resolve h.working

/-- The home that an account name behind a tilde stands for. Without a name it is the home that is
set, or that of the account. -/
def Host.home? (h : Host) (name : Text) : Option Text :=
  if name = [] then (h.env? "HOME".toList).or h.accounts.own else h.accounts.homes.lookup name

/-- A leading tilde stands for a home directory. An account that is not known stays as it is. -/
def Host.expandHome (h : Host) (t : Text) : Text :=
  match t with
  | '~' :: rest =>
    match h.home? (rest.takeWhile fun c => c != '/') with
    | some home =>
      let path := (home.reverse.dropWhile fun c => c == '/').reverse
        ++ rest.dropWhile fun c => c != '/'
      if path.isEmpty then ['/'] else path
    | none => t
  | _ => t

inductive ReadFault where
  | notPath
  | notEncoding
  | unwritablePath (halves : Span) (first : Nat)
  | file (f : FileFault)
  | undecodable
  | unknownEncoding (name : Text)
  deriving DecidableEq, Repr

def FileFault.text (f : FileFault) : Text := "[Errno ".toList ++ decimalText f.code ++ [']']

def notPathText : Text := "embedded null byte".toList

def notEncodingText : Text := "embedded null character".toList

def unknownEncodingText (name : Text) : Text := "unknown encoding: ".toList ++ name

/-- A single half is shown, of several only the places of the first and the last. -/
def unwritableText (halves : Span) (first : Nat) : Text :=
  "'utf-8' codec can't encode character".toList
    ++ (if halves.stop = halves.start + 1 then
        " '".toList ++ shownCode first ++ "' in position ".toList ++ decimalText halves.start
      else "s in position ".toList ++ decimalText halves.start
        ++ '-' :: decimalText (halves.stop - 1))
    ++ ": surrogates not allowed".toList

def ReadFault.text : ReadFault → Text
  | .notPath => notPathText
  | .notEncoding => notEncodingText
  | .unwritablePath halves first => unwritableText halves first
  | .file f => f.text
  | .undecodable => "UnicodeDecodeError".toList
  | .unknownEncoding name => unknownEncodingText name

def Host.codec? (h : Host) (encoding : Text) : Option Codec :=
  match Encoding.named? encoding with
  | some e => some (decodeFile e)
  | none => h.codecs encoding

def Host.decodeAs (h : Host) (encoding : Text) (content : Bytes) : Except ReadFault Decoded :=
  match h.codec? encoding with
  | some decode => .ok (decode content)
  | none => .error (.unknownEncoding encoding)

theorem Host.decodeAs_of_named? (h : Host) {encoding : Text} {e : Encoding}
    (he : Encoding.named? encoding = some e) (content : Bytes) :
    h.decodeAs encoding content = .ok (decodeFile e content) := by
  rw [Host.decodeAs, Host.codec?, he]

/-- The file is opened before its encoding is looked up. -/
def Host.readText (h : Host) (path encoding : Text) : Except ReadFault Decoded :=
  if encoding.contains '\x00' then .error .notEncoding
  else if !path.isPath then .error .notPath
  else match h.files.readPath h.working path with
    | .error f => .error (.file f)
    | .ok content => h.decodeAs encoding content

theorem Host.readText_of_named? {h : Host} {path encoding : Text} {e : Encoding} {content : Bytes}
    (he : Encoding.named? encoding = some e) (hpath : path.isPath = true)
    (hc : h.files.readPath h.working path = .ok content) :
    h.readText path encoding = .ok (decodeFile e content) := by
  rw [Host.readText, Encoding.contains_of_named? he, hpath, hc]
  exact h.decodeAs_of_named? he content

/-- Reads a file that is named in codes. No file name holds halves other than raw bytes. -/
def Host.readNamed (h : Host) (path : Codes) (encoding : Text) : Except ReadFault Decoded :=
  match path.unwritable? with
  | some halves => .error (.unwritablePath halves ((path.drop halves.start).headD 0))
  | none => h.readText path.text encoding

def defaultEncoding : Text := "utf-8".toList

theorem named?_defaultEncoding : Encoding.named? defaultEncoding = some .utf8 := by decide

theorem Host.decodeAs_default (h : Host) (content : Bytes) :
    h.decodeAs defaultEncoding content = .ok (decodeFile .utf8 content) :=
  h.decodeAs_of_named? named?_defaultEncoding content

end Lancaster

import ReconcileTrigger.Document.Format
import ReconcileTrigger.Document.Overlay
import ReconcileTrigger.Environment
import ReconcileTrigger.Files
import ReconcileTrigger.Settings.Record
import ReconcileTrigger.Settings.Validation

/-!
Loading settings: the defaults, over them a file, over both the environment. Scalars are converted
to what a setting wants, and the result has to be legal.
-/

namespace ReconcileTrigger.Settings

inductive LoadError
  | missingFile (path : String)
  | malformedFile
  | wrongShape
  | illegal (violation : Violation)
  deriving DecidableEq

namespace LoadError

def missing (path : String) : String :=
  "config file not found: " ++ path

def message : LoadError → String
  | .missingFile path => "IO error: " ++ missing path
  | .malformedFile | .wrongShape => "Parse error"
  | .illegal v => "Validation error: " ++ v.message

/-- The message with its cause, where the cause has a message of its own. -/
def chain : LoadError → String
  | .missingFile path => (LoadError.missingFile path).message ++ ": " ++ missing path
  | e => e.message

end LoadError

def lenient : Reading Document where
  fields? := Document.fields?
  text? := Document.text?
  flag? := Document.flag?
  elements? := Document.elements?

def defaultPath : String := "kgate.toml"

/-- A path without the parts at its end that name nothing, where what is left ends in a name. -/
def pathName? (path : String) : Option String :=
  match (Text.split '/' path.toList).reverse.dropWhile fun part => part = [] ∨ part = ['.'] with
  | [] | ['.', '.'] :: _ => none
  | parts => some ("/".intercalate (parts.reverse.map String.ofList))

def filesBeside (path : String) : List (String × Format) :=
  match pathName? path with
  | some name => Format.all.map fun format => (name ++ "." ++ format.extension, format)
  | none => []

/-- The content and the format of the file at a path, or of the first file beside it where
something else is there. -/
def found? (files : Files) (path : String) : Option (String × Format) :=
  match files path with
  | .text content => (Format.ofPath? path).map fun format => (content, format)
  | .directory | .nullDevice =>
    (filesBeside path).findSome? fun (path, format) =>
      match files path with
      | .text content => some (content, format)
      | _ => none
  | _ => none

def fieldsAt (files : Files) (path : String) : Except LoadError (Fields Document) :=
  match (found? files path).bind fun (content, format) => format.fields? content with
  | some fields => .ok fields
  | none => .error .malformedFile

/-- The fields of the file asked for, or of the default file if it is there. -/
def fileFields (files : Files) (path : Option String) : Except LoadError (Fields Document) :=
  match path with
  | some path =>
    if (files path).isPresent then fieldsAt files path else .error (.missingFile path)
  | none =>
    if (files defaultPath).isPresent then fieldsAt files defaultPath else .ok []

def ofFields (fields : Fields Document) : Except LoadError Settings :=
  match lenient.settings? (.table fields) with
  | none => .error .wrongShape
  | some s =>
    match s.violation? with
    | some v => .error (.illegal v)
    | none => .ok s

def load (files : Files) (path : Option String) (environment : Environment) :
    Except LoadError Settings := do
  let fields ← fileFields files path
  ofFields (Document.overlayFields (Document.overlayFields [] fields)
    environment.fields)

end ReconcileTrigger.Settings

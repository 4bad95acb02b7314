import ReconcileTrigger.Json.Reader
import ReconcileTrigger.Text.Words
import ReconcileTrigger.Toml.Reader

/-!
The formats of settings files, told apart by the extension of the file name.
-/

namespace ReconcileTrigger

namespace Document

def ofNumber : Json.Number → Document
  | .integer n => .integer n
  | .binary x => .real (.finite x)

mutual

def ofJson : Json.Value → Document
  | .null => .null
  | .bool b => .flag b
  | .number n => ofNumber n
  | .string s => .text s
  | .array elements => .list (ofJsonElements elements)
  | .object members => .table (ofJsonMembers members)

def ofJsonElements : List Json.Value → List Document
  | [] => []
  | v :: rest => ofJson v :: ofJsonElements rest

def ofJsonMembers : List (String × Json.Value) → Fields Document
  | [] => []
  | (key, v) :: rest => (key, ofJson v) :: ofJsonMembers rest

end

end Document

inductive Format
  | toml
  | json
  deriving DecidableEq

namespace Format

def extension : Format → String
  | .toml => "toml"
  | .json => "json"

def all : List Format :=
  [.toml, .json]

/-- What follows the last point of a file name, where something stands before it. -/
def extension? (name : List Char) : Option String :=
  match name.reverse.dropWhile (· ≠ '.') with
  | '.' :: _ :: _ => some (String.ofList (name.reverse.takeWhile (· ≠ '.')).reverse)
  | _ => none

def ofPath? (path : String) : Option Format :=
  (extension? ((Text.split '/' path.toList).getLastD [])).bind fun ending =>
    all.find? (·.extension == ending)

/-- The fields that a file gives. A byte order mark at its front does not count. -/
def fields? (f : Format) (content : String) : Option (Fields Document) :=
  let content := String.ofList (Toml.dropMark content.toList)
  match f with
  | .toml => Toml.parse? content
  | .json => do (Document.ofJson (← Json.Value.parse? content)).entries?

end Format

end ReconcileTrigger

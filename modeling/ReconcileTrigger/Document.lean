import ReconcileTrigger.Binary64.Datum
import ReconcileTrigger.Json.Number
import ReconcileTrigger.Record
import ReconcileTrigger.Text.Words

/-!
Documents that settings are read from, whatever format they are written in. A scalar stands for
its text where a text is wanted, and numbers and some words stand for a flag where a flag is
wanted.
-/

namespace ReconcileTrigger

inductive Document
  | null
  | flag (value : Bool)
  | integer (value : Int)
  | real (value : Binary64.Datum)
  | text (value : String)
  | list (elements : List Document)
  | table (entries : List (String × Document))

namespace Document

def entries? : Document → Option (Fields Document)
  | .table entries => some entries
  | _ => none

def elements? : Document → Option (List Document)
  | .list elements => some elements
  | _ => none

/-- The fields of a record with these field names: a table gives them by name, a list by
position, whatever follows the last of them left out. -/
def fields? (names : List String) : Document → Option (Fields Document)
  | .table entries => some entries
  | .list elements => some (names.zip elements)
  | _ => none

def text? : Document → Option String
  | .text s => some s
  | .flag b => some (if b then "true" else "false")
  | .integer n => some (String.ofList (Json.Number.integerChars n))
  | .real x => some x.text
  | _ => none

def flagOfWord? (word : String) : Option Bool :=
  let word := Text.lowerCase word.toList
  if ["1", "true", "on", "yes"].contains word then some true
  else if ["0", "false", "off", "no"].contains word then some false
  else none

/-- The flag of a scalar: a number other than zero is true. -/
def flag? : Document → Option Bool
  | .flag b => some b
  | .integer n => some (n != 0)
  | .real x => some (!x.isZero)
  | .text s => flagOfWord? s
  | _ => none

end Document

end ReconcileTrigger

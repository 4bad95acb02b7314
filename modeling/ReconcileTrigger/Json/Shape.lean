import ReconcileTrigger.Json.Value
import ReconcileTrigger.Record
import ReconcileTrigger.Word

/-!
The shapes that typed values have in documents. Nothing is converted: a text is a string, an
integer is an integer literal, and null stands only where it is allowed.
-/

namespace ReconcileTrigger.Json.Value

variable {α : Type}

/-- The fields of a record with these field names: an object gives them by name, an array by
position, no more of them than there are names. -/
def fields? (names : List String) : Value → Option (Fields Value)
  | .object members => some members
  | .array elements =>
    if elements.length ≤ names.length then some (names.zip elements) else none
  | _ => none

def nullable? (read : Value → Option α) : Value → Option (Option α)
  | .null => some none
  | v => (read v).map some

def listOf? (read : Value → Option α) : Value → Option (List α)
  | .array elements => elements.mapM read
  | _ => none

def dictOf? (read : Value → Option α) : Value → Option (Dict α)
  | .object members =>
    (members.mapM fun e => (read e.2).map fun a => (e.1, a)).map Dict.ofList
  | _ => none

def int64? : Value → Option Int64
  | .number (.integer n) =>
    if Word.FitsSigned n then some (Int64.ofInt n) else none
  | _ => none

end ReconcileTrigger.Json.Value

import ReconcileTrigger.Equivalence
import ReconcileTrigger.Json.Patch
import ReconcileTrigger.Json.Printer

/-!
Differences of two documents, grouped by the top-level field they touch. A structural diff
reports every difference, a semantic diff leaves out replacements by an equivalent value.
-/

namespace ReconcileTrigger

open Json (Value Operation Pointer)

/-- Operations by top-level field, in the order of the patch. The replacement of a whole
document stands under the empty field. -/
structure Diff where
  fields : Dict (List Operation)

namespace Diff

def empty : Diff :=
  ⟨∅⟩

def isEmpty (d : Diff) : Bool :=
  d.fields.isEmpty

def size (d : Diff) : Nat :=
  d.fields.entries.length

def operations? (d : Diff) (field : String) : Option (List Operation) :=
  d.fields.get? field

def contains (d : Diff) (field : String) : Bool :=
  d.fields.contains field

/-- The diff with one more operation, after the others on its field. -/
def push (d : Diff) (operation : Operation) : Diff :=
  let field := Pointer.topLevelField operation.path
  ⟨d.fields.insert field ((d.operations? field).getD [] ++ [operation])⟩

def ofPatch (patch : List Operation) : Diff :=
  patch.foldl push empty

def without (d : Diff) (names : List String) : Diff :=
  ⟨names.foldl Dict.erase d.fields⟩

/-- The operation is a real change: it does not replace a value by an equivalent one. -/
def isSignificant (old : Value) : Operation → Bool
  | .replace path value =>
    match old.pointed? path with
    | some previous => !previous.equivalent value
    | none => true
  | _ => true

def structural (old new : Value) : Diff :=
  ofPatch (Json.changes [] old new)

/-- The differences of two documents that no encoding explains. -/
def semantic (old new : Value) : Diff :=
  ofPatch ((Json.changes [] old new).filter (isSignificant old))

def toJson (d : Diff) : Value :=
  .object (d.fields.entries.map fun (field, operations) =>
    (field, .array (operations.map Operation.toJson)))

def text (d : Diff) : String :=
  d.toJson.text

end Diff

end ReconcileTrigger

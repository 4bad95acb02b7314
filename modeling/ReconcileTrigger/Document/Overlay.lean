import ReconcileTrigger.Document
import ReconcileTrigger.Text.Digits
import ReconcileTrigger.Word

/-!
Documents laid over one another. Tables are merged entry by entry, so that an empty one changes
nothing that is there, and anything else replaces what was there. A key of the upper layer may name
a place deep inside the lower one.
-/

namespace ReconcileTrigger

namespace Document

def orTable : Document → Document
  | .null => .table []
  | d => d

mutual

def overlay (lower : Document) : Document → Document
  | .table entries =>
    if entries.isEmpty then lower.orTable
    else .table (overlayEntries (lower.entries?.getD []) entries)
  | upper => upper

def overlayEntries (lower : Fields Document) : List (String × Document) → Fields Document
  | [] => lower
  | (name, upper) :: rest =>
    overlayEntries (lower.put name (overlay ((lower.lookup name).getD .null) upper)) rest

end

end Document

/-- A step from a document to a part of it. A negative index counts from the end of a list. -/
inductive Step
  | entry (name : String)
  | element (index : Int)
  deriving DecidableEq

/-- A place inside a table: an entry, and the steps from there. -/
structure Place where
  entry : String
  steps : List Step
  deriving DecidableEq

namespace Place

def isNameChar (c : Char) : Bool :=
  c.isAlphanum || c = '_' || c = '-'

def index? (cs : List Char) : Option Int := do
  let isBlank (c : Char) : Bool := c = ' ' || c = '\t'
  let cs := ((cs.dropWhile isBlank).reverse.dropWhile isBlank).reverse
  guard (cs.head? ≠ some '+')
  let index ← Text.signedValue? cs
  guard (Word.FitsSigned index)
  return index

theorem length_dropWhile_le (p : Char → Bool) (cs : List Char) :
    (cs.dropWhile p).length ≤ cs.length :=
  List.Sublist.length_le (List.dropWhile_sublist p)

theorem length_of_dropWhile {p : Char → Bool} {c : Char} {cs rest : List Char}
    (h : cs.dropWhile p = c :: rest) : rest.length < cs.length := by
  have hle := length_dropWhile_le p cs
  rw [h] at hle
  exact hle

/-- Steps written one after another: a point and a name, or an index in brackets. -/
def steps? (cs : List Char) : Option (List Step) :=
  match cs with
  | [] => some []
  | '.' :: rest =>
    let name := rest.takeWhile isNameChar
    if name.isEmpty then none
    else (steps? (rest.dropWhile isNameChar)).map (.entry (String.ofList name) :: ·)
  | '[' :: rest =>
    match index? (rest.takeWhile (· ≠ ']')), _h : rest.dropWhile (· ≠ ']') with
    | some index, ']' :: rest => (steps? rest).map (.element index :: ·)
    | _, _ => none
  | _ => none
termination_by cs.length
decreasing_by
  · exact Nat.lt_succ_of_le (length_dropWhile_le _ _)
  · exact Nat.lt_succ_of_lt (length_of_dropWhile _h)

/-- The place that a key names. A key that is no path is the name of an entry as it stands. -/
def ofKey (key : String) : Place :=
  let name := key.toList.takeWhile isNameChar
  match steps? (key.toList.dropWhile isNameChar) with
  | some steps => if name.isEmpty then ⟨key, []⟩ else ⟨String.ofList name, steps⟩
  | none => ⟨key, []⟩

end Place

namespace Document

/-- The list made long enough to have an element at the index, and the position it means. -/
def reach (index : Int) (elements : List Document) : List Document × Nat :=
  if 0 ≤ index then
    (elements ++ List.replicate (index.toNat + 1 - elements.length) .null, index.toNat)
  else
    let missing := index.natAbs - elements.length
    (List.replicate missing .null ++ elements, missing + elements.length - index.natAbs)

/-- `lower` with a document laid over the part at the steps. What is missing on the way is made,
and what is of another type is replaced. -/
def overlayAt (upper : Document) : List Step → Document → Document
  | [], lower => lower.overlay upper
  | .entry name :: steps, lower =>
    let entries := lower.entries?.getD []
    .table (entries.put name (overlayAt upper steps ((entries.lookup name).getD .null)))
  | .element index :: steps, lower =>
    let (elements, position) := reach index (lower.elements?.getD [])
    .list (elements.set position (overlayAt upper steps (elements.getD position .null)))

def overlayKey (fields : Fields Document) (key : String) (upper : Document) :
    Fields Document :=
  let place := Place.ofKey key
  fields.put place.entry (overlayAt upper place.steps ((fields.lookup place.entry).getD .null))

def overlayFields (lower upper : Fields Document) : Fields Document :=
  upper.foldl (fun fields (key, document) => overlayKey fields key document) lower

end Document

end ReconcileTrigger

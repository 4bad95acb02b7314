import ReconcileTrigger.Document

/-!
Tables put together from headers and keys. A table may be opened by one header only, a key may be
given once, and dotted keys extend only tables that no header has opened; what they have extended
no header may open. Until the text is read to its end each table remembers how it came to be.
-/

namespace ReconcileTrigger.Toml

/-- A dotted key: the tables on the way, and the name in the last of them. -/
structure Key where
  tables : List String
  name : String
  deriving DecidableEq

/-- How a table came to be: by a header of its own, by the header of a table below it, or by a
dotted key, which may also extend an implied table. -/
inductive Origin
  | header
  | implied
  | dotted
  deriving DecidableEq

/-- What a name stands for while tables are put together. -/
inductive Node
  | value (value : Document)
  | table (origin : Origin) (entries : List (String × Node))
  | tables (elements : List (List (String × Node)))

namespace Node

def changeLast? {α : Type} (change : α → Option α) : List α → Option (List α)
  | [] => none
  | [a] => (change a).map ([·])
  | a :: rest => (changeLast? change rest).map (a :: ·)

/-- The entries with a value under a dotted key. `free` tells whether the table admits a new name,
which an element of a list of tables does only under its own header. -/
def assign? (name : String) (value : Document) (free : Bool) :
    List String → Fields Node → Option (Fields Node)
  | [], entries =>
    if free && (entries.lookup name).isNone then some (entries.put name (.value value)) else none
  | next :: path, entries =>
    match entries.lookup next with
    | none =>
      (assign? name value true path []).map fun inner => entries.put next (.table .dotted inner)
    | some (.table .header _) => none
    | some (.table _ inner) =>
      (assign? name value true path inner).map fun inner => entries.put next (.table .dotted inner)
    | some (.tables elements) =>
      (changeLast? (assign? name value false path) elements).map fun elements =>
        entries.put next (.tables elements)
    | some (.value _) => none

/-- The entries with the table at a path of headers changed, where that succeeds. Missing tables on
the way are made; of a list of tables the last element is meant. -/
def change? (change : Fields Node → Option (Fields Node)) :
    List String → Fields Node → Option (Fields Node)
  | [], entries => change entries
  | next :: path, entries =>
    match entries.lookup next with
    | none => (change? change path []).map fun inner => entries.put next (.table .implied inner)
    | some (.table origin inner) =>
      (change? change path inner).map fun inner => entries.put next (.table origin inner)
    | some (.tables elements) =>
      (changeLast? (change? change path) elements).map fun elements =>
        entries.put next (.tables elements)
    | some (.value _) => none

/-- The entries with the table of a header, new or so far only implied. -/
def openTable? (name : String) (entries : Fields Node) : Option (Fields Node) :=
  match entries.lookup name with
  | none => some (entries.put name (.table .header []))
  | some (.table .implied inner) => some (entries.put name (.table .header inner))
  | _ => none

def addElement? (name : String) (entries : Fields Node) : Option (Fields Node) :=
  match entries.lookup name with
  | none => some (entries.put name (.tables [[]]))
  | some (.tables elements) => some (entries.put name (.tables (elements ++ [[]])))
  | _ => none

mutual

def toDocument : Node → Document
  | .value v => v
  | .table _ entries => .table (documentEntries entries)
  | .tables elements => .list (documentElements elements)

def documentEntries : List (String × Node) → Fields Document
  | [] => []
  | (name, node) :: rest => (name, toDocument node) :: documentEntries rest

def documentElements : List (List (String × Node)) → List Document
  | [] => []
  | entries :: rest => .table (documentEntries entries) :: documentElements rest

end

end Node

def tableOf? (members : List (Key × Document)) : Option Document := do
  let entries ← members.foldlM (fun entries (key, value) =>
    Node.assign? key.name value true key.tables entries) []
  return .table (Node.documentEntries entries)

inductive Statement
  | table (key : Key)
  | element (key : Key)
  | entry (key : Key) (value : Document)

/-- The tables made so far, and the path of the latest header. -/
structure Draft where
  root : Fields Node
  path : List String

def Draft.step? (d : Draft) : Statement → Option Draft
  | .table key =>
    (Node.change? (Node.openTable? key.name) key.tables d.root).map
      (⟨·, key.tables ++ [key.name]⟩)
  | .element key =>
    (Node.change? (Node.addElement? key.name) key.tables d.root).map
      (⟨·, key.tables ++ [key.name]⟩)
  | .entry key value =>
    (Node.change? (Node.assign? key.name value true key.tables) d.path d.root).map (⟨·, d.path⟩)

def fieldsOf? (statements : List Statement) : Option (Fields Document) := do
  let draft ← statements.foldlM Draft.step? ⟨[], []⟩
  return Node.documentEntries draft.root

end ReconcileTrigger.Toml

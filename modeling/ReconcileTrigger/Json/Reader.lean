import ReconcileTrigger.Json.Token

/-!
Reading JSON texts. The tokens drive a machine whose stack holds the open containers; of equal
keys in an object the last wins, and 128 nested containers are too many.
-/

namespace ReconcileTrigger.Json

/-- An open container with its finished elements or members, the latest first. -/
inductive Frame
  | array (elements : List Value)
  | object (members : List (String × Value)) (key : String)

inductive Stage
  | value
  | firstElement
  | key
  | firstKey
  | colon (key : String)
  | after (value : Value)

structure Machine where
  stack : List Frame
  stage : Stage

namespace Machine

/-- The least number of nested containers that is refused. -/
def nestingLimit : Nat := 128

def push? (m : Machine) (frame : Frame) (stage : Stage) : Option Machine :=
  if m.stack.length + 1 < nestingLimit then some ⟨frame :: m.stack, stage⟩ else none

def begin? (m : Machine) : Token → Option Machine
  | .scalar v => some ⟨m.stack, .after v⟩
  | .openArray => m.push? (.array []) .firstElement
  | .openObject => m.push? (.object [] "") .firstKey
  | _ => none

def resume? (v : Value) : List Frame → Token → Option Machine
  | .array done :: rest, .comma => some ⟨.array (v :: done) :: rest, .value⟩
  | .array done :: rest, .closeArray => some ⟨rest, .after (.array (v :: done).reverse)⟩
  | .object done key :: rest, .comma => some ⟨.object ((key, v) :: done) "" :: rest, .key⟩
  | .object done key :: rest, .closeObject =>
    some ⟨rest, .after (Value.ofMembers ((key, v) :: done).reverse)⟩
  | _, _ => none

def step? (m : Machine) (token : Token) : Option Machine :=
  match m.stage, token, m.stack with
  | .value, token, _ => m.begin? token
  | .firstElement, .closeArray, _ :: rest => some ⟨rest, .after (.array [])⟩
  | .firstElement, token, _ => m.begin? token
  | .key, .scalar (.string key), _ => some ⟨m.stack, .colon key⟩
  | .firstKey, .scalar (.string key), _ => some ⟨m.stack, .colon key⟩
  | .firstKey, .closeObject, _ :: rest => some ⟨rest, .after (.object [])⟩
  | .colon key, .colon, .object done _ :: rest => some ⟨.object done key :: rest, .value⟩
  | .after v, token, stack => resume? v stack token
  | _, _, _ => none

def result? (m : Machine) : Option Value :=
  match m.stage, m.stack with
  | .after v, [] => some v
  | _, _ => none

end Machine

def Value.parse? (s : String) : Option Value := do
  let machine ← (← tokens? s.toList).foldlM Machine.step? ⟨[], .value⟩
  machine.result?

end ReconcileTrigger.Json

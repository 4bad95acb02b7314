import ReconcileTrigger.Json.Pointer

/-!
Patches, the operations of RFC 6902 that lead from one document to another. Objects are compared
member by member and arrays index by index; whatever else differs is replaced as a whole.
-/

namespace ReconcileTrigger.Json

inductive Operation
  | add (path : Pointer) (value : Value)
  | remove (path : Pointer)
  | replace (path : Pointer) (value : Value)

namespace Operation

def path : Operation → Pointer
  | .add path _ => path
  | .remove path => path
  | .replace path _ => path

def toJson : Operation → Value
  | .add path value =>
    .object [("op", .string "add"), ("path", .string (String.ofList path)), ("value", value)]
  | .remove path => .object [("op", .string "remove"), ("path", .string (String.ofList path))]
  | .replace path value =>
    .object [("op", .string "replace"), ("path", .string (String.ofList path)), ("value", value)]

end Operation

def removals (path : Pointer) (old new : List (String × Value)) : List Operation :=
  (old.filter fun (key, _) => (new.lookup key).isNone).map fun (key, _) =>
    .remove (path.member key)

mutual

/-- The operations at `path` that turn the old document into the new one: new and changed
members in the order of the new keys, then the missing ones. -/
def changes (path : Pointer) : Value → Value → List Operation
  | .object old, .object new => memberChanges path old new ++ removals path old new
  | .array old, .array new => elementChanges path 0 old new
  | old, new => if old.same new then [] else [.replace path new]

def memberChanges (path : Pointer) (old : List (String × Value)) :
    List (String × Value) → List Operation
  | [] => []
  | (key, value) :: rest =>
    (match old.lookup key with
      | some previous => changes (path.member key) previous value
      | none => [.add (path.member key) value]) ++ memberChanges path old rest

/-- The operations on the elements from `index` on. Every surplus old element is removed at the
same index, since the ones behind it move up. -/
def elementChanges (path : Pointer) (index : Nat) : List Value → List Value → List Operation
  | old, [] => old.map fun _ => .remove (path.element index)
  | [], value :: new => .add (path.element index) value :: elementChanges path (index + 1) [] new
  | previous :: old, value :: new =>
    changes (path.element index) previous value ++ elementChanges path (index + 1) old new

end

end ReconcileTrigger.Json

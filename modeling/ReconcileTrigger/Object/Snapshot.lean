import ReconcileTrigger.Json.Shape
import ReconcileTrigger.Object.Basic

/-!
Snapshots, the documents that write objects. Typed fields that hold nothing are left out of a
snapshot, except for the name and the generation; the body follows and wins over typed fields of
the same name.
-/

namespace ReconcileTrigger

open Json (Value)

def optionalMember {α : Type} (key : String) (write : α → Value) (value : Option α) :
    List (String × Value) :=
  match value with
  | some a => [(key, write a)]
  | none => []

def nonEmptyMember (key : String) (isEmpty : Bool) (value : Value) : List (String × Value) :=
  if isEmpty then [] else [(key, value)]

def Timestamp.ofValue? (v : Value) : Option Timestamp :=
  v.string?.bind Timestamp.parse?

def Timestamp.toValue (t : Timestamp) : Value :=
  .string t.text

def stringsToValue (d : Dict String) : Value :=
  .object (d.entries.map fun (key, value) => (key, .string value))

namespace OwnerReference

def fieldNames : List String :=
  ["apiVersion", "kind", "name", "uid", "controller"]

def ofValue? (v : Value) : Option OwnerReference := do
  let fields ← v.fields? fieldNames
  return {
    apiVersion := ← fields.required? "apiVersion" Value.string?
    kind := ← fields.required? "kind" Value.string?
    name := ← fields.required? "name" Value.string?
    uid := ← fields.optional? "uid" "" Value.string?
    controller := ← fields.optional? "controller" none (Value.nullable? Value.bool?) }

def toValue (r : OwnerReference) : Value :=
  .ofMembers ([("apiVersion", .string r.apiVersion), ("kind", .string r.kind),
    ("name", .string r.name), ("uid", .string r.uid)] ++
    optionalMember "controller" .bool r.controller)

end OwnerReference

namespace Metadata

def fieldNames : List String :=
  ["name", "namespace", "uid", "labels", "annotations", "generation", "resourceVersion",
    "deletionTimestamp", "creationTimestamp", "ownerReferences", "managedFields"]

def ofValue? (v : Value) : Option Metadata := do
  let fields ← v.fields? fieldNames
  return {
    name := ← fields.optional? "name" "" Value.string?
    «namespace» := ← fields.optional? "namespace" none (Value.nullable? Value.string?)
    uid := ← fields.optional? "uid" none (Value.nullable? Value.string?)
    labels := ← fields.optional? "labels" ∅ (Value.dictOf? Value.string?)
    annotations := ← fields.optional? "annotations" ∅ (Value.dictOf? Value.string?)
    generation := ← fields.optional? "generation" 0 Value.int64?
    resourceVersion := ← fields.optional? "resourceVersion" none (Value.nullable? Value.string?)
    deletionTimestamp :=
      ← fields.optional? "deletionTimestamp" none (Value.nullable? Timestamp.ofValue?)
    creationTimestamp :=
      ← fields.optional? "creationTimestamp" none (Value.nullable? Timestamp.ofValue?)
    ownerReferences :=
      ← fields.optional? "ownerReferences" [] (Value.listOf? OwnerReference.ofValue?)
    managedFields := ← fields.optional? "managedFields" [] Value.array? }

def toValue (m : Metadata) : Value :=
  .ofMembers ([("name", .string m.name), ("generation", .ofInt m.generation.toInt)] ++
    optionalMember "namespace" .string m.namespace ++
    optionalMember "uid" .string m.uid ++
    nonEmptyMember "labels" m.labels.isEmpty (stringsToValue m.labels) ++
    nonEmptyMember "annotations" m.annotations.isEmpty (stringsToValue m.annotations) ++
    optionalMember "resourceVersion" .string m.resourceVersion ++
    optionalMember "deletionTimestamp" Timestamp.toValue m.deletionTimestamp ++
    optionalMember "creationTimestamp" Timestamp.toValue m.creationTimestamp ++
    nonEmptyMember "ownerReferences" m.ownerReferences.isEmpty
      (.array (m.ownerReferences.map OwnerReference.toValue)) ++
    nonEmptyMember "managedFields" m.managedFields.isEmpty (.array m.managedFields))

end Metadata

namespace Object

/-- The keys of a snapshot that are not part of the body. -/
def typedKeys : List String :=
  ["apiVersion", "kind", "metadata"]

def ofValue? : Value → Option Object
  | .object members => do
    let fields : Fields Value := members
    return {
      apiVersion := ← fields.optional? "apiVersion" "" Value.string?
      kind := ← fields.required? "kind" Value.string?
      metadata := ← fields.optional? "metadata" {} Metadata.ofValue?
      body := Dict.ofList (members.filter fun (key, _) => !typedKeys.contains key) }
  | _ => none

def ofSnapshot (v : Value) : Except Failure Object :=
  match ofValue? v with
  | some o => .ok o
  | none => .error .unreadableObject

def members (o : Object) : Dict Value :=
  o.body.entries.foldl (fun d (key, value) => d.insert key value)
    (Dict.ofList [("apiVersion", .string o.apiVersion), ("kind", .string o.kind),
      ("metadata", o.metadata.toValue)])

def toValue (o : Object) : Value :=
  .ofDict o.members

end Object

end ReconcileTrigger

import ReconcileTrigger.Failure
import ReconcileTrigger.Json.Value
import ReconcileTrigger.Timestamp

/-!
Watched objects: an API version, a kind, typed metadata, and a body of named documents such as
`spec`, `status` and `data`.
-/

namespace ReconcileTrigger

open Json (Value)

structure OwnerReference where
  apiVersion : String
  kind : String
  name : String
  uid : String
  controller : Option Bool
  deriving DecidableEq

namespace OwnerReference

def identity (r : OwnerReference) : String :=
  r.kind ++ "/" ++ r.name

/-- The group of an API version: the part before the only slash, or the empty core group where
there is no slash. Neither part may be empty. -/
def groupOf? (apiVersion : List Char) : Option (List Char) :=
  match apiVersion.takeWhile (· ≠ '/'), apiVersion.dropWhile (· ≠ '/') with
  | [], _ => none
  | _, [] => some []
  | group, _ :: version =>
    if version.isEmpty || version.contains '/' then none else some group

def group (r : OwnerReference) : Except Failure String :=
  match groupOf? r.apiVersion.toList with
  | some group => .ok (String.ofList group)
  | none => .error (.invalidApiVersion r.apiVersion r.identity)

end OwnerReference

structure Metadata where
  name : String := ""
  «namespace» : Option String := none
  uid : Option String := none
  labels : Dict String := ∅
  annotations : Dict String := ∅
  generation : Int64 := 0
  resourceVersion : Option String := none
  deletionTimestamp : Option Timestamp := none
  creationTimestamp : Option Timestamp := none
  ownerReferences : List OwnerReference := []
  managedFields : List Value := []

structure Identity where
  kind : String
  name : String
  «namespace» : Option String
  uid : Option String
  labels : Dict String
  deriving DecidableEq

def Identity.text (i : Identity) : String :=
  match i.namespace with
  | some ns => i.kind ++ "/" ++ ns ++ "/" ++ i.name
  | none => i.kind ++ "/" ++ i.name

structure Object where
  apiVersion : String
  kind : String
  metadata : Metadata := {}
  body : Dict Value := ∅

namespace Object

def name (o : Object) : String :=
  o.metadata.name

def label? (o : Object) (key : String) : Option String :=
  o.metadata.labels.get? key

def hasLabel (o : Object) (key value : String) : Bool :=
  o.label? key == some value

def field? (o : Object) (key : String) : Option Value :=
  o.body.get? key

def identity (o : Object) : Identity where
  kind := o.kind
  name := o.metadata.name
  «namespace» := o.metadata.namespace
  uid := o.metadata.uid
  labels := o.metadata.labels

def title (o : Object) : String :=
  o.identity.text

def withLabel (o : Object) (key value : String) : Object :=
  { o with metadata := { o.metadata with labels := o.metadata.labels.insert key value } }

def withOwner (o : Object) (owner : OwnerReference) : Object :=
  { o with
    metadata := { o.metadata with ownerReferences := o.metadata.ownerReferences ++ [owner] } }

def withField (o : Object) (key : String) (value : Value) : Object :=
  { o with body := o.body.insert key value }

end Object

end ReconcileTrigger

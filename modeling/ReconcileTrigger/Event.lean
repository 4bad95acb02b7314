import ReconcileTrigger.Object.Snapshot

/-!
Watch events: an object appeared, changed or disappeared, or an event was raised from outside.
-/

namespace ReconcileTrigger

open Json (Value)

inductive Event
  | create (object : Object)
  | update (old new : Object)
  | delete (object : Object)
  | generic (object : Object)

namespace Event

inductive Tag
  | create
  | update
  | delete
  | generic
  deriving DecidableEq

namespace Tag

def name : Tag → String
  | .create => "create"
  | .update => "update"
  | .delete => "delete"
  | .generic => "generic"

def all : List Tag :=
  [.create, .update, .delete, .generic]

def ofName? (s : String) : Option Tag :=
  all.find? (·.name == s)

/-- A tag by its name, or as the only key of an object with the value null. -/
def ofValue? : Value → Option Tag
  | .string s => ofName? s
  | .object [(s, .null)] => ofName? s
  | _ => none

end Tag

def tag : Event → Tag
  | .create _ => .create
  | .update _ _ => .update
  | .delete _ => .delete
  | .generic _ => .generic

/-- The current state of the object, for an update the new one. -/
def object : Event → Object
  | .create o => o
  | .update _ new => new
  | .delete o => o
  | .generic o => o

/-- The current object is of the kind; without a kind every event matches. -/
def matchesKind (e : Event) (kind : Option String) : Bool :=
  match kind with
  | some kind => e.object.kind == kind
  | none => true

def objectNames : Tag → List String
  | .update => ["old", "new"]
  | _ => ["object"]

def ofSnapshots? : Tag → List Value → Option Event
  | .create, [v] => (Object.ofValue? v).map .create
  | .update, [v, w] => do return .update (← Object.ofValue? v) (← Object.ofValue? w)
  | .delete, [v] => (Object.ofValue? v).map .delete
  | .generic, [v] => (Object.ofValue? v).map .generic
  | _, _ => none

/-- The event that a document writes: an object with its tag under `type`, or an array of the
tag and the snapshots. -/
def ofValue? : Value → Option Event
  | .object members => do
    let tag ← ((members.lookup "type").bind Value.string?).bind Tag.ofName?
    ofSnapshots? tag (← (objectNames tag).mapM fun name => members.lookup name)
  | .array (tag :: snapshots) => do
    ofSnapshots? (← tag.string?.bind Tag.ofName?) snapshots
  | _ => none

def toValue (e : Event) : Value :=
  .ofMembers (("type", .string e.tag.name) ::
    match e with
    | .create o => [("object", o.toValue)]
    | .update old new => [("old", old.toValue), ("new", new.toValue)]
    | .delete o => [("object", o.toValue)]
    | .generic o => [("object", o.toValue)])

end Event

end ReconcileTrigger

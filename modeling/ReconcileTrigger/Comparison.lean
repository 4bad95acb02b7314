import ReconcileTrigger.Diff
import ReconcileTrigger.Failure
import ReconcileTrigger.Log
import ReconcileTrigger.Object.Snapshot

/-!
Comparing two snapshots of one object. Volatile top-level fields do not count, and neither does
a new resource version alone. A comparison that fails counts as a change.
-/

namespace ReconcileTrigger

open Json (Value)

/-- A comparison that leaves out the named top-level fields. -/
structure Comparison where
  volatileFields : List String
  deriving DecidableEq

namespace Comparison

def resourceVersion? (snapshot : Value) : Option String :=
  ((snapshot.member? "metadata").bind (·.member? "resourceVersion")).bind Value.string?

def snapshotName (snapshot : Value) : String :=
  (((snapshot.member? "metadata").bind (·.member? "name")).bind Value.string?).getD ""

/-- The members of the new snapshot with the old resource version, where the new snapshot has a
metadata object to hold it. -/
def withResourceVersion (version : String) (members : List (String × Value)) :
    List (String × Value) :=
  match members.lookup "metadata" with
  | some (.object metadata) =>
    insertEntry "metadata" (.object (insertEntry "resourceVersion" (.string version) metadata))
      members
  | _ => members

def align (old new : Value) : Value :=
  match resourceVersion? old, new with
  | some version, .object members => .object (withResourceVersion version members)
  | _, _ => new

/-- What is logged about an alignment that cannot be made. -/
def logAlignment (old new : Value) : Logged Unit :=
  match resourceVersion? old, new.member? "metadata" with
  | none, _ =>
    let e := Failure.unreadableField (snapshotName old) "metadata.resourceVersion"
      "missing on old snapshot"
    Log.debug "skipping resource version alignment" [("error", e.message)]
  | some _, some (.object _) => pure ()
  | some _, _ =>
    Log.debug "new snapshot has no metadata object, skipping resource version alignment" []

/-- The differences of two snapshots that count. Both must be objects. -/
def diff (c : Comparison) (old new : Value) : Except Failure Diff :=
  if old.isObject && new.isObject then
    .ok ((Diff.structural old (align old new)).without c.volatileFields)
  else .error (.malformedSnapshot "object snapshots must be JSON objects")

def rendered? (c : Comparison) (old new : Value) : Except Failure (Option Value) := do
  let diff ← c.diff old new
  return if diff.isEmpty then none else some diff.toJson

def loggedDiff (c : Comparison) (old new : Value) : Logged (Except Failure Diff) := do
  if old.isObject && new.isObject then logAlignment old new
  return c.diff old new

/-- Some difference counts, or the snapshots cannot be compared. The object is named in the
log. -/
def changed (c : Comparison) (object : String) (old new : Value) : Logged Bool := do
  match ← c.loggedDiff old new with
  | .ok diff =>
    if diff.isEmpty then
      Log.debug "no relevant change after normalization" [("object", object)]
      return false
    else
      Log.info "controller will reconcile resource based on patch"
        [("object", object), ("diff", diff.text)]
      return true
  | .error e =>
    Log.error "failed to check if object changed, reconciling"
      [("object", object), ("error", e.message), ("category", e.category.name)]
    return true

def objectDiff (c : Comparison) (old new : Object) : Except Failure Diff :=
  c.diff old.toValue new.toValue

def objectChanged (c : Comparison) (old new : Object) : Logged Bool :=
  c.changed new.title old.toValue new.toValue

end Comparison

end ReconcileTrigger

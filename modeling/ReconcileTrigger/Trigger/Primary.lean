import ReconcileTrigger.Catalog
import ReconcileTrigger.Diff
import ReconcileTrigger.Event
import ReconcileTrigger.Labels
import ReconcileTrigger.Log

/-!
Events of primary resources. A resource that appears or disappears is reconciled; an update is
reconciled when the desired state has changed in more than its encoding, when the resource is
being deleted, or when a new version asks for an upgrade.
-/

namespace ReconcileTrigger.Trigger

open Json (Value)

structure Primary where
  catalog : Catalog
  labels : Settings.Labels
  deriving DecidableEq

namespace Primary

def name : String :=
  "primary"

def sameDeletion : Option Timestamp → Option Timestamp → Bool
  | none, none => true
  | some a, some b => a.sameInstant b
  | _, _ => false

/-- The differences in the desired state; a missing state counts as null. -/
def specDiff (k : Kind) (old new : Object) : Diff :=
  Diff.semantic ((k.spec? old).getD .null) ((k.spec? new).getD .null)

def logGeneration (old new : Object) : Logged Unit :=
  let previous := old.metadata.generation
  let current := new.metadata.generation
  if previous = current then
    Log.write .debug "skipping update with unchanged spec"
      [("object", .text new.title), ("generation", .integer current.toInt)]
  else
    Log.write .debug "generation changed without a spec change"
      [("object", .text new.title), ("old_generation", .integer previous.toInt),
        ("new_generation", .integer current.toInt)]

def optionText : Option String → String
  | some s => "Some(" ++ Text.quoted s ++ ")"
  | none => "None"

def decideUpdate (p : Primary) (k : Kind) (old new : Object) : Logged Bool := do
  Log.debug "update event from a primary resource" [("object", new.title), ("kind", k.name)]
  if p.labels.isDoNotReconcile new.metadata.labels then
    Log.debug "object matched on update but do-not-reconcile label is set, doing nothing"
      [("object", new.title), ("label", p.labels.doNotReconcileKey)]
    return false
  let diff := specDiff k old new
  if !diff.isEmpty then
    Log.info "spec has changed, reconciling" [("object", new.title), ("diff", diff.text)]
    return true
  if !sameDeletion old.metadata.deletionTimestamp new.metadata.deletionTimestamp then
    Log.debug "resource is going to be deleted, reconciling" [("object", new.title)]
    return true
  logGeneration old new
  if k.tracksUpgrade && p.labels.isUpgrade old.metadata.labels new.metadata.labels then
    Log.info "version label changed, reconciling for upgrade"
      [("object", new.title), ("version", optionText (new.label? p.labels.versionKey))]
    return true
  return false

def onCreate (_p : Primary) (o : Object) : Logged Bool := do
  Log.debug "create event from a primary resource" [("object", o.title)]
  return true

def onDelete (_p : Primary) (o : Object) : Logged Bool := do
  Log.debug "delete event from a primary resource" [("object", o.title)]
  return true

def onUpdate (p : Primary) (old new : Object) : Logged Bool := do
  match p.catalog.find? new.kind with
  | none =>
    Log.debug "update event for an unregistered kind, skipping"
      [("object", new.title), ("kind", new.kind)]
    return false
  | some k =>
    if k.role = .primary then p.decideUpdate k old new
    else
      Log.debug "update event for a non-primary kind, skipping"
        [("object", new.title), ("kind", k.name), ("role", k.role.name)]
      return false

def decide (p : Primary) : Event → Logged Bool
  | .create o => p.onCreate o
  | .update old new => p.onUpdate old new
  | .delete o => p.onDelete o
  | .generic _ => return false

end Primary

end ReconcileTrigger.Trigger

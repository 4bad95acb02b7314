import ReconcileTrigger.Comparison
import ReconcileTrigger.Event
import ReconcileTrigger.Ownership
import ReconcileTrigger.Rule.Set

/-!
Events of objects that a primary resource owns. The owner is reconciled when such an object is
deleted or really changes, unless a rule decides otherwise first.
-/

namespace ReconcileTrigger.Trigger

/-- Secondary objects of one kind of owners. Without a resolved owner nothing ever triggers. -/
structure Secondary where
  ownerKind : String
  ownership : Option Ownership
  catalog : Catalog
  rules : RuleSet
  comparison : Comparison
  deriving DecidableEq

namespace Secondary

/-- The secondary objects of owners of a kind. A kind that the catalog lacks is logged. -/
def ofOwnerKind (ownerKind : String) (catalog : Catalog) (rules : RuleSet)
    (comparison : Comparison) : Logged Secondary := do
  match Ownership.ofKind ownerKind catalog with
  | .ok ownership => return ⟨ownerKind, some ownership, catalog, rules, comparison⟩
  | .error e =>
    Log.error "failed to initialize owner matcher"
      [("owner", ownerKind), ("error", e.message), ("category", e.category.name)]
    return ⟨ownerKind, none, catalog, rules, comparison⟩

def name (s : Secondary) : String :=
  "secondary/" ++ s.ownerKind

def isActive (s : Secondary) : Bool :=
  s.ownership.isSome

def owns (s : Secondary) (o : Object) : Logged Bool :=
  match s.ownership with
  | some ownership => ownership.owns o
  | none => return false

def deciding (s : Secondary) (phase : Rule.Phase) (o : Object) : Logged (Option Rule) :=
  s.rules.evaluate phase (s.catalog.roleOf o.kind) o

def onDelete (s : Secondary) (o : Object) : Logged Bool := do
  if ← s.owns o then
    match ← s.deciding .delete o with
    | some rule => return rule.verdict.triggers
    | none =>
      Log.info "object matched on delete, reconciling"
        [("object", o.title), ("owner", s.ownerKind)]
      return true
  else
    Log.debug "object did not match on delete" [("object", o.title), ("owner", s.ownerKind)]
    return false

def onUpdate (s : Secondary) (old new : Object) : Logged Bool := do
  if ← s.owns new then
    Log.debug "object matched on update" [("object", new.title), ("owner", s.ownerKind)]
    match ← s.deciding .update new with
    | some rule => return rule.verdict.triggers
    | none => s.comparison.objectChanged old new
  else return false

def decide (s : Secondary) : Event → Logged Bool
  | .create _ => return false
  | .update old new => s.onUpdate old new
  | .delete o => s.onDelete o
  | .generic _ => return false

end Secondary

end ReconcileTrigger.Trigger

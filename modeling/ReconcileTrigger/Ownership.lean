import ReconcileTrigger.Catalog
import ReconcileTrigger.Log

/-!
Ownership of objects by resources of one kind. Only the owner references of an object count, in
their order; a reference of the tracked kind without a valid API version stops the search.
-/

namespace ReconcileTrigger

structure Ownership where
  kind : String
  apiGroup : String
  deriving DecidableEq

namespace Ownership

def ofKind (kind : String) (catalog : Catalog) : Except Failure Ownership := do
  let found ← catalog.lookup kind
  return ⟨kind, found.apiGroup⟩

def search (w : Ownership) (title : String) :
    List OwnerReference → Logged (Except Failure (Option OwnerReference))
  | [] => return .ok none
  | r :: rest =>
    if r.kind = w.kind then
      match r.group with
      | .error e => return .error e
      | .ok group =>
        if group = w.apiGroup then do
          Log.debug "Owner reference matched" [("object", title), ("owner", r.identity)]
          return .ok (some r)
        else do
          Log.debug "Owner kind matches but API group differs"
            [("object", title), ("owner", r.identity), ("group", group),
              ("expected", w.apiGroup)]
          w.search title rest
    else w.search title rest

def owner (w : Ownership) (o : Object) : Logged (Except Failure (Option OwnerReference)) :=
  w.search o.title o.metadata.ownerReferences

/-- The object has an owner. A failed search counts as none and is logged. -/
def owns (w : Ownership) (o : Object) : Logged Bool := do
  match ← w.owner o with
  | .ok found => return found.isSome
  | .error e =>
    Log.error "failed to resolve owner, ignoring event"
      [("object", o.title), ("error", e.message), ("category", e.category.name)]
    return false

end Ownership

end ReconcileTrigger

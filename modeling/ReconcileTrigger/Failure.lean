import ReconcileTrigger.Text.Quoted

/-!
What can go wrong while an event is decided, and how a decision degrades then. Each cause
belongs to one category, and the category fixes the policy.
-/

namespace ReconcileTrigger

inductive Failure
  | malformedSnapshot (reason : String)
  | unreadableObject
  | unknownKind (kind : String)
  | invalidApiVersion (apiVersion owner : String)
  | unreadableField (object field reason : String)
  | invalidQuantity (raw : String)
  | configuration (message : String)
  deriving DecidableEq

namespace Failure

inductive Category
  | diff
  | ownerResolution
  | accessor
  | configuration
  deriving DecidableEq

/-- How a decision degrades: the event counts as a change, it counts as no match, the decision goes
on with defaults, or nothing is set up. -/
inductive Policy
  | failOpen
  | failClosed
  | bestEffort
  | rejectSetup
  deriving DecidableEq

namespace Category

def name : Category → String
  | .diff => "diff"
  | .ownerResolution => "owner_resolution"
  | .accessor => "accessor"
  | .configuration => "configuration"

def policy : Category → Policy
  | .diff => .failOpen
  | .ownerResolution => .failClosed
  | .accessor => .bestEffort
  | .configuration => .rejectSetup

end Category

def category : Failure → Category
  | .malformedSnapshot _ | .unreadableObject | .invalidQuantity _ => .diff
  | .unknownKind _ | .invalidApiVersion _ _ => .ownerResolution
  | .unreadableField _ _ _ => .accessor
  | .configuration _ => .configuration

def policy (e : Failure) : Policy :=
  e.category.policy

def message : Failure → String
  | .malformedSnapshot reason => "Malformed object snapshot: " ++ reason
  | .unreadableObject => "JSON serialization error"
  | .unknownKind kind => "Unknown object kind: " ++ kind
  | .invalidApiVersion apiVersion owner =>
    "Invalid apiVersion " ++ Text.quoted apiVersion ++ " on owner reference " ++ owner
  | .unreadableField object field reason =>
    "Cannot read " ++ field ++ " from " ++ object ++ ": " ++ reason
  | .invalidQuantity raw => "Invalid quantity: " ++ Text.quoted raw
  | .configuration message => "Configuration error: " ++ message

end Failure

end ReconcileTrigger

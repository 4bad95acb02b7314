import ReconcileTrigger.Object.Basic
import ReconcileTrigger.Settings.Basic

/-!
The catalog of known kinds: the role that objects of a kind play, their API group, and where
their desired state stands.
-/

namespace ReconcileTrigger

open Json (Value)

inductive Role
  | primary
  | configObject
  | secret
  | workerDeployment
  | other
  deriving DecidableEq

namespace Role

def name : Role → String
  | .primary => "primary"
  | .configObject => "config_object"
  | .secret => "secret"
  | .workerDeployment => "worker_deployment"
  | .other => "other"

def all : List Role :=
  [.primary, .configObject, .secret, .workerDeployment, .other]

def ofName? (s : String) : Option Role :=
  all.find? (·.name == s)

end Role

/-- What is known about the objects of one kind. The core API group is empty. -/
structure Kind where
  name : String
  apiGroup : String
  role : Role
  tracksUpgrade : Bool := false
  specField : String := "spec"
  deriving DecidableEq

namespace Kind

def primary (name apiGroup : String) : Kind :=
  { name, apiGroup, role := .primary }

def configObject (name : String) : Kind :=
  { name, apiGroup := "", role := .configObject, specField := "data" }

def secret (name : String) : Kind :=
  { name, apiGroup := "", role := .secret, specField := "data" }

def worker (name : String) : Kind :=
  { name, apiGroup := "apps", role := .workerDeployment }

def spec? (k : Kind) (o : Object) : Option Value :=
  o.field? k.specField

end Kind

structure Catalog where
  kinds : List Kind
  deriving DecidableEq

namespace Catalog

def empty : Catalog :=
  ⟨[]⟩

/-- Why the kinds make no catalog, `seen` being the names of the kinds before them. -/
def fault? (seen : List String) : List Kind → Option Failure
  | [] => none
  | k :: rest =>
    if k.name = "" then some (.configuration "kind adapters need a kind name")
    else if seen.contains k.name then
      some (.configuration ("kind " ++ k.name ++ " registered more than once"))
    else fault? (k.name :: seen) rest

def ofKinds (kinds : List Kind) : Except Failure Catalog :=
  match fault? [] kinds with
  | some e => .error e
  | none => .ok ⟨kinds⟩

def configuredKinds (k : Settings.Kinds) : List Kind :=
  (k.primary.map fun p => { Kind.primary p.kind k.apiGroup with tracksUpgrade := p.tracksUpgrade })
    ++ [.configObject k.configKind, .secret k.secretKind, .worker k.workerKind]

def ofSettings (s : Settings) : Except Failure Catalog :=
  ofKinds (configuredKinds s.kinds)

def size (c : Catalog) : Nat :=
  c.kinds.length

def find? (c : Catalog) (name : String) : Option Kind :=
  c.kinds.find? (·.name == name)

def lookup (c : Catalog) (name : String) : Except Failure Kind :=
  match c.find? name with
  | some k => .ok k
  | none => .error (.unknownKind name)

def roleOf (c : Catalog) (name : String) : Role :=
  match c.find? name with
  | some k => k.role
  | none => .other

end Catalog

end ReconcileTrigger

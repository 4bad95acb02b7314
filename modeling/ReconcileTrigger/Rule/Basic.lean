import ReconcileTrigger.Catalog

/-!
Exclusion rules. A rule names the objects and the phase it looks at, a condition, and a verdict
on the objects that meet the condition.
-/

namespace ReconcileTrigger

namespace Rule

inductive Phase
  | update
  | delete
  deriving DecidableEq

inductive Selector
  | any
  | role (role : Role)
  | kind (kind : String)
  deriving DecidableEq

/-- What an object must meet. The start and the end of a name may overlap. -/
inductive Condition
  | labelEquals (key value : String)
  | nameBetween (start ending : String)
  | nameIn (names : NameSet)
  | nameNotIn (names : NameSet)
  | always
  deriving DecidableEq

inductive Verdict
  | suppress
  | enqueue
  deriving DecidableEq

def Phase.name : Phase → String
  | .update => "update"
  | .delete => "delete"

def Selector.selects (s : Selector) (kind : String) (role : Role) : Bool :=
  match s with
  | .any => true
  | .role expected => expected == role
  | .kind expected => expected == kind

def Condition.holds (c : Condition) (o : Object) : Bool :=
  match c with
  | .labelEquals key value => o.hasLabel key value
  | .nameBetween start ending =>
    start.toList.isPrefixOf o.name.toList && ending.toList.isSuffixOf o.name.toList
  | .nameIn names => names.contains o.name
  | .nameNotIn names => !names.contains o.name
  | .always => true

def Verdict.name : Verdict → String
  | .suppress => "suppress"
  | .enqueue => "enqueue"

def Verdict.triggers (v : Verdict) : Bool :=
  v == .enqueue

end Rule

structure Rule where
  name : String
  selector : Rule.Selector
  phase : Rule.Phase
  condition : Rule.Condition
  verdict : Rule.Verdict := .suppress
  deriving DecidableEq

namespace Rule

def applies (r : Rule) (phase : Phase) (role : Role) (o : Object) : Bool :=
  r.phase == phase && r.selector.selects o.kind role && r.condition.holds o

end Rule

end ReconcileTrigger

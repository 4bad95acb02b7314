import ReconcileTrigger.Log
import ReconcileTrigger.Rule.Basic
import ReconcileTrigger.Text.Blank

/-!
Rule sets. The rules of a set are checked in order and the first one that applies decides; every
rule has a name of its own.
-/

namespace ReconcileTrigger

structure RuleSet where
  rules : List Rule
  deriving DecidableEq

namespace RuleSet

def empty : RuleSet :=
  ⟨[]⟩

/-- Rules that are not yet a set, in the order of their priority. -/
structure Draft where
  rules : List Rule

namespace Draft

def empty : Draft :=
  ⟨[]⟩

/-- The draft with a rule of the lowest priority. -/
def append (d : Draft) (rule : Rule) : Draft :=
  ⟨d.rules ++ [rule]⟩

def prepend (d : Draft) (rule : Rule) : Draft :=
  ⟨rule :: d.rules⟩

/-- The draft with the rules of a set behind its own. -/
def extend (d : Draft) (set : RuleSet) : Draft :=
  ⟨d.rules ++ set.rules⟩

def fault? (seen : List String) : List Rule → Option Failure
  | [] => none
  | r :: rest =>
    if Text.blank r.name then some (.configuration "exclusion rules need a name")
    else if seen.contains r.name then
      some (.configuration ("exclusion rule " ++ r.name ++ " defined more than once"))
    else fault? (r.name :: seen) rest

/-- The set of the rules. Blank and repeated names are refused. -/
def build (d : Draft) : Except Failure RuleSet :=
  match fault? [] d.rules with
  | some e => .error e
  | none => .ok ⟨d.rules⟩

end Draft

def defaults (s : Settings) : List Rule :=
  [ { name := "do-not-reconcile"
      selector := .any
      phase := .update
      condition := .labelEquals s.labels.doNotReconcileKey s.labels.doNotReconcileValue },
    { name := "ephemeral-status"
      selector := .kind s.kinds.configKind
      phase := .delete
      condition :=
        .nameBetween s.exclusions.ephemeralStatusPrefix s.exclusions.ephemeralStatusSuffix },
    { name := "canary-worker"
      selector := .kind s.kinds.workerKind
      phase := .delete
      condition := .labelEquals s.labels.canaryKey s.labels.canaryValue },
    { name := "designated-override"
      selector := .kind s.kinds.configKind
      phase := .update
      condition := .nameNotIn (NameSet.ofList [s.exclusions.overrideConfigName]) },
    { name := "ignorable-secret"
      selector := .kind s.kinds.secretKind
      phase := .update
      condition := .nameIn (NameSet.ofList s.exclusions.ignorableSecretNames) },
    { name := "worker-deployment"
      selector := .kind s.kinds.workerKind
      phase := .update
      condition := .always } ]

def ofSettings (s : Settings) : Except Failure RuleSet :=
  Draft.build ⟨defaults s⟩

def withRule (set : RuleSet) (rule : Rule) : Except Failure RuleSet :=
  (Draft.append ⟨set.rules⟩ rule).build

def size (set : RuleSet) : Nat :=
  set.rules.length

def get? (set : RuleSet) (name : String) : Option Rule :=
  set.rules.find? (·.name == name)

def applying? (set : RuleSet) (phase : Rule.Phase) (role : Role) (o : Object) : Option Rule :=
  set.rules.find? (·.applies phase role o)

def evaluate (set : RuleSet) (phase : Rule.Phase) (role : Role) (o : Object) :
    Logged (Option Rule) := do
  match set.applying? phase role o with
  | some rule =>
    Log.debug "Exclusion rule applied"
      [("object", o.title), ("rule", rule.name), ("phase", phase.name),
        ("verdict", rule.verdict.name)]
    return some rule
  | none => return none

end RuleSet

end ReconcileTrigger

import Mathlib.Data.List.Basic
import ReconcileTrigger.Proofs.Names
import ReconcileTrigger.Rule.Set

/-!
The default rules. All of them suppress, so an object is decided about by one of them iff it is
excluded, and the order of the rules plays no part. Which objects are excluded depends on the phase,
never on the role of their kind.
-/

namespace ReconcileTrigger

namespace Rule

theorem applies_iff {r : Rule} {phase : Phase} {role : Role} {o : Object} :
    r.applies phase role o = true ↔
      r.phase = phase ∧ r.selector.selects o.kind role = true ∧ r.condition.holds o = true := by
  rw [applies, Bool.and_eq_true, Bool.and_eq_true, beq_iff_eq, and_assoc]

theorem selects_any (kind : String) (role : Role) : Selector.any.selects kind role = true :=
  rfl

theorem selects_kind_iff {expected kind : String} {role : Role} :
    (Selector.kind expected).selects kind role = true ↔ kind = expected := by
  rw [Selector.selects, beq_iff_eq, eq_comm]

theorem holds_always (o : Object) : Condition.always.holds o = true :=
  rfl

theorem holds_labelEquals_iff {key value : String} {o : Object} :
    (Condition.labelEquals key value).holds o = true ↔ o.label? key = some value := by
  rw [Condition.holds, Object.hasLabel, beq_iff_eq]

theorem holds_nameBetween_iff {start ending : String} {o : Object} :
    (Condition.nameBetween start ending).holds o = true ↔
      start.toList <+: o.name.toList ∧ ending.toList <:+ o.name.toList := by
  rw [Condition.holds, Bool.and_eq_true, List.isPrefixOf_iff_prefix, List.isSuffixOf_iff_suffix]

theorem holds_nameIn_ofList_iff {names : List String} {o : Object} :
    (Condition.nameIn (NameSet.ofList names)).holds o = true ↔ o.name ∈ names :=
  NameSet.contains_ofList

theorem holds_nameNotIn_ofList_iff {names : List String} {o : Object} :
    (Condition.nameNotIn (NameSet.ofList names)).holds o = true ↔ o.name ∉ names := by
  rw [Condition.holds, Bool.not_eq_true', ← Bool.not_eq_true, NameSet.contains_ofList]

end Rule

namespace RuleSet

theorem result_evaluate (set : RuleSet) (phase : Rule.Phase) (role : Role) (o : Object) :
    (set.evaluate phase role o).result = set.applying? phase role o := by
  unfold evaluate
  split
  · rename_i rule h
    rw [h]
    rfl
  · rename_i h
    rw [h]
    rfl

theorem Draft.nameCheck_fault? : NameCheck Rule.name fault? where
  nil _ := rfl
  cons seen r rest := by
    simp only [fault?]
    split
    · rfl
    · split
      · rfl
      · rfl

theorem Draft.fault?_singleton_eq_none_iff {seen : List String} {r : Rule} :
    fault? seen [r] = none ↔ Text.blank r.name = false ∧ r.name ∉ seen := by
  by_cases hblank : Text.blank r.name = true
  · simp [fault?, hblank]
  · simp [fault?, hblank]

/-- Rules are without a fault iff all of them have names, and none of them one seen before. -/
theorem Draft.fault?_eq_none_iff {seen : List String} {rules : List Rule} :
    fault? seen rules = none ↔
      (∀ name ∈ rules.map Rule.name, Text.blank name = false) ∧
        Fresh seen (rules.map Rule.name) := by
  rw [List.forall_mem_map]
  exact nameCheck_fault?.eq_none_iff fun _ _ => fault?_singleton_eq_none_iff

/-- The default rules make a set, whatever the settings are. -/
theorem ofSettings_eq (s : Settings) : ofSettings s = .ok ⟨defaults s⟩ := by
  have hnames : (defaults s).map Rule.name =
      ["do-not-reconcile", "ephemeral-status", "canary-worker", "designated-override",
        "ignorable-secret", "worker-deployment"] := rfl
  have hfault : Draft.fault? [] (defaults s) = none := by
    rw [Draft.fault?_eq_none_iff, hnames, fresh_nil_left]
    decide +kernel
  rw [ofSettings, Draft.build, hfault]

theorem verdict_of_mem_defaults {s : Settings} {r : Rule} (h : r ∈ defaults s) :
    r.verdict = .suppress := by
  simp only [defaults, List.mem_cons, List.not_mem_nil, or_false] at h
  rcases h with rfl | rfl | rfl | rfl | rfl | rfl <;> rfl

/-- Whatever the default rules decide about an object is not to reconcile. -/
theorem triggers_of_applying?_defaults {s : Settings} {phase : Rule.Phase} {role : Role}
    {o : Object} {r : Rule} (h : (RuleSet.mk (defaults s)).applying? phase role o = some r) :
    r.verdict.triggers = false := by
  rw [verdict_of_mem_defaults (List.mem_of_find?_eq_some h)]
  rfl

/-- The objects that the default rules decide about. Deleted are short-lived status objects and
canary workers; updated are objects with the do-not-reconcile label, configuration objects other
than the override, ignorable secrets, and workers. -/
def Excluded (s : Settings) : Rule.Phase → Object → Prop
  | .delete, o =>
    (o.kind = s.kinds.configKind ∧ s.exclusions.ephemeralStatusPrefix.toList <+: o.name.toList ∧
        s.exclusions.ephemeralStatusSuffix.toList <:+ o.name.toList) ∨
      (o.kind = s.kinds.workerKind ∧ o.label? s.labels.canaryKey = some s.labels.canaryValue)
  | .update, o =>
    o.label? s.labels.doNotReconcileKey = some s.labels.doNotReconcileValue ∨
      (o.kind = s.kinds.configKind ∧ o.name ≠ s.exclusions.overrideConfigName) ∨
      (o.kind = s.kinds.secretKind ∧ o.name ∈ s.exclusions.ignorableSecretNames) ∨
      o.kind = s.kinds.workerKind

theorem exists_applies_iff (s : Settings) (phase : Rule.Phase) (role : Role) (o : Object) :
    (∃ r ∈ defaults s, r.applies phase role o = true) ↔ Excluded s phase o := by
  cases phase with
  | delete =>
    -- the rules of the other phase drop out
    simp only [defaults, List.mem_cons, List.not_mem_nil, or_false, exists_eq_or_imp,
      exists_eq_left, Rule.applies_iff, reduceCtorEq, false_and, false_or, true_and,
      Rule.selects_kind_iff, Rule.holds_labelEquals_iff, Rule.holds_nameBetween_iff]
    rfl
  | update =>
    simp only [defaults, List.mem_cons, List.not_mem_nil, or_false, exists_eq_or_imp,
      exists_eq_left, Rule.applies_iff, reduceCtorEq, false_and, false_or, true_and, and_true,
      Rule.selects_any, Rule.selects_kind_iff, Rule.holds_always, Rule.holds_labelEquals_iff,
      Rule.holds_nameIn_ofList_iff, Rule.holds_nameNotIn_ofList_iff]
    rfl

/-- None of the default rules decides about an object iff it is not excluded. -/
theorem applying?_defaults_eq_none_iff (s : Settings) (phase : Rule.Phase) (role : Role)
    (o : Object) :
    (RuleSet.mk (defaults s)).applying? phase role o = none ↔ ¬ Excluded s phase o := by
  rw [applying?, List.find?_eq_none, ← exists_applies_iff s phase role o, not_exists]
  simp only [not_and]

end RuleSet

end ReconcileTrigger

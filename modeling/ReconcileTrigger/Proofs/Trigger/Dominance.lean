import Mathlib.Data.List.Nodup
import ReconcileTrigger.Proofs.Rule.Appended
import ReconcileTrigger.Proofs.Trigger.Primary
import ReconcileTrigger.Proofs.Trigger.Secondary

/-!
The do-not-reconcile label comes before everything else in an update. The primary trigger looks at
it directly, the secondary trigger through a default rule, and no rule that is appended takes the
place of a default rule.
-/

namespace ReconcileTrigger.Trigger

/-- A secondary update does not trigger where the default rules exclude the new object, whatever has
been appended to them. -/
theorem Secondary.onUpdate_of_excluded {s : Settings} {t : Secondary} {extra : List Rule}
    (hrules : (RuleSet.mk (RuleSet.defaults s)).withRules extra = .ok t.rules) {old new : Object}
    (hexcluded : RuleSet.Excluded s .update new) : (t.onUpdate old new).result = false := by
  obtain ⟨rule, hrule, hsuppress⟩ :=
    RuleSet.exists_suppressing_of_withRules hrules (t.catalog.roleOf new.kind) hexcluded
  apply Bool.eq_false_iff.2
  intro htrue
  obtain ⟨_, ⟨rule', hrule', htriggers⟩ | ⟨hnone, _⟩⟩ := onUpdate_iff.1 htrue
  · obtain rfl : rule = rule' := Option.some.inj (hrule.symm.trans hrule')
    rw [hsuppress] at htriggers
    contradiction
  · rw [hrule] at hnone
    contradiction

namespace Gate

variable {s : Settings} {g : Gate}

/-- An update to an object with the do-not-reconcile label triggers nothing, neither for the object
itself nor for an owner of any kind. Rules that are appended to the default ones do not change
that. -/
theorem doNotReconcile_dominates_updates (hg : ofSettings s = .ok g) (extra : List Rule)
    (rules : RuleSet) (hrules : g.rules.withRules extra = .ok rules) (owner : String)
    (old new : Object)
    (hlabel : new.label? s.labels.doNotReconcileKey = some s.labels.doNotReconcileValue) :
    ((g.withRules rules).primary.onUpdate old new).result = false ∧
      (((g.withRules rules).secondary owner).result.onUpdate old new).result = false := by
  obtain ⟨catalog, _, rfl⟩ := ofSettings_eq_ok_iff.1 hg
  constructor
  · apply Bool.eq_false_iff.2
    intro htrue
    obtain ⟨k, _, hdecide⟩ := Primary.onUpdate_iff.1 htrue
    exact (Primary.decideUpdate_iff.1 hdecide).1 hlabel
  · rw [secondary, Secondary.result_ofOwnerKind]
    exact Secondary.onUpdate_of_excluded hrules (.inl hlabel)

/-- A rule that reconciles on every update makes an unchanged secret trigger, but not one with the
label. -/
theorem doNotReconcile_dominates_updates_insistent :
    ∃ rules, conventional.rules.withRules [Secondary.insistent .update] = .ok rules ∧
      (((conventional.withRules rules).secondary "CephCluster").result.onUpdate
        (Secondary.keyring "b2xk") (Secondary.keyring "b2xk")).result = true ∧
      ((conventional.withRules rules).primary.onUpdate (Secondary.keyring "b2xk")
        ((Secondary.keyring "bmV3").withLabel "do_not_reconcile" "true")).result = false ∧
      (((conventional.withRules rules).secondary "CephCluster").result.onUpdate
        (Secondary.keyring "b2xk")
        ((Secondary.keyring "bmV3").withLabel "do_not_reconcile" "true")).result = false := by
  have hrules : conventional.rules.withRules [Secondary.insistent .update] =
      .ok ⟨RuleSet.defaults {} ++ [Secondary.insistent .update]⟩ := by
    decide +kernel
  refine ⟨_, hrules, by decide +kernel, ?_⟩
  exact doNotReconcile_dominates_updates ofSettings_eq_conventional _ _ hrules "CephCluster" _ _
    (by decide +kernel)

end Gate

end ReconcileTrigger.Trigger

import Mathlib.Data.List.Basic
import ReconcileTrigger.Proofs.Rule.Defaults

/-!
Rules that are appended to a set. They come after the rules that are there, so they decide only
where no rule decided before. In particular what the default rules exclude stays excluded.
-/

namespace ReconcileTrigger.RuleSet

variable {set set' : RuleSet} {phase : Rule.Phase} {role : Role} {o : Object}

def withRules (set : RuleSet) (extra : List Rule) : Except Failure RuleSet :=
  extra.foldlM withRule set

theorem Draft.rules_of_build {d : Draft} (h : d.build = .ok set) : set.rules = d.rules := by
  unfold build at h
  split at h
  · contradiction
  · obtain rfl := Except.ok.inj h
    rfl

/-- A rule that is appended decides where it applies and no other rule does. -/
theorem applying?_of_withRule {rule : Rule} (h : set.withRule rule = .ok set') :
    set'.applying? phase role o =
      (set.applying? phase role o).or (if rule.applies phase role o then some rule else none) := by
  have hrules : set'.rules = set.rules ++ [rule] := Draft.rules_of_build h
  have hlast : [rule].find? (·.applies phase role o) =
      if rule.applies phase role o then some rule else none := by
    rw [List.find?_cons, List.find?_nil]
    split <;> simp [*]
  rw [applying?, hrules, List.find?_append, hlast]
  rfl

/-- Decisions are kept, however many rules are appended. -/
theorem applying?_of_withRules {extra : List Rule} (h : set.withRules extra = .ok set')
    {rule : Rule} (hrule : set.applying? phase role o = some rule) :
    set'.applying? phase role o = some rule := by
  induction extra generalizing set with
  | nil =>
    obtain rfl : set = set' := Except.ok.inj h
    exact hrule
  | cons first rest ih =>
    have hfold : (set.withRule first >>= fun next => next.withRules rest) = .ok set' := h
    cases hnext : set.withRule first with
    | error e =>
      rw [hnext] at hfold
      contradiction
    | ok next =>
      rw [hnext] at hfold
      have hkept : next.applying? phase role o = some rule := by
        rw [applying?_of_withRule hnext, hrule, Option.some_or]
      exact ih hfold hkept

/-- An object that the default rules exclude is still suppressed after rules have been appended. -/
theorem exists_suppressing_of_withRules {s : Settings} {extra : List Rule}
    (h : (RuleSet.mk (defaults s)).withRules extra = .ok set) (role : Role)
    (hexcluded : Excluded s phase o) :
    ∃ rule, set.applying? phase role o = some rule ∧ rule.verdict.triggers = false := by
  cases hrule : (RuleSet.mk (defaults s)).applying? phase role o with
  | none => exact absurd hexcluded ((applying?_defaults_eq_none_iff s phase role o).1 hrule)
  | some rule =>
    exact ⟨rule, applying?_of_withRules h hrule, triggers_of_applying?_defaults hrule⟩

end ReconcileTrigger.RuleSet

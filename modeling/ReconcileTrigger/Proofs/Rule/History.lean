import Mathlib.Data.List.Nodup
import ReconcileTrigger.Proofs.Rule.Appended

/-!
How rule sets come about. Whatever the calls on a draft, the rules that were put in front come
first, the latest of them foremost, and the others follow in the order of the calls. A draft is
refused for the first of its rules without a name of its own, so in every set a name belongs to one
rule, and the first rule that applies decides.
-/

namespace ReconcileTrigger.RuleSet

namespace Draft

inductive Step
  | append (rule : Rule)
  | prepend (rule : Rule)
  | extend (set : RuleSet)

namespace Step

def apply (d : Draft) : Step → Draft
  | .append rule => d.append rule
  | .prepend rule => d.prepend rule
  | .extend set => d.extend set

def front : Step → List Rule
  | .prepend rule => [rule]
  | .append _ => []
  | .extend _ => []

def back : Step → List Rule
  | .prepend _ => []
  | .append rule => [rule]
  | .extend set => set.rules

theorem rules_apply (d : Draft) (step : Step) :
    (apply d step).rules = step.front ++ d.rules ++ step.back := by
  cases step with
  | append rule => rfl
  | prepend rule => exact (List.append_nil _).symm
  | extend set => rfl

theorem reverse_front (step : Step) : step.front.reverse = step.front := by
  cases step <;> rfl

end Step

def ofSteps (steps : List Step) : Draft :=
  steps.foldl Step.apply empty

private theorem rules_foldl_apply (d : Draft) (steps : List Step) :
    (steps.foldl Step.apply d).rules =
      (steps.flatMap Step.front).reverse ++ d.rules ++ steps.flatMap Step.back := by
  induction steps generalizing d with
  | nil => exact (List.append_nil _).symm
  | cons step rest ih =>
    rw [List.foldl_cons, ih, Step.rules_apply, List.flatMap_cons, List.flatMap_cons,
      List.reverse_append, Step.reverse_front]
    simp only [List.append_assoc]

/-- The rules in front, the latest first, and behind them the others in the order of the calls. -/
theorem rules_ofSteps (steps : List Step) :
    (ofSteps steps).rules =
      (steps.flatMap Step.front).reverse ++ steps.flatMap Step.back := by
  rw [ofSteps, rules_foldl_apply, empty, List.append_nil]

/-- Why a rule has no name of its own behind rules with the names `seen`. -/
def IsFault (seen : List String) (r : Rule) (e : Failure) : Prop :=
  Text.blank r.name = true ∧ e = .configuration "exclusion rules need a name" ∨
  Text.blank r.name = false ∧ r.name ∈ seen ∧
    e = .configuration ("exclusion rule " ++ r.name ++ " defined more than once")

structure WellNamed (rules : List Rule) : Prop where
  named : ∀ r ∈ rules, Text.blank r.name = false
  nodup : (rules.map Rule.name).Nodup

theorem wellNamed_iff {rules : List Rule} : WellNamed rules ↔ fault? [] rules = none := by
  rw [fault?_eq_none_iff, fresh_nil_left, List.forall_mem_map]
  exact ⟨fun h => ⟨h.named, h.nodup⟩, fun h => ⟨h.1, h.2⟩⟩

instance (rules : List Rule) : Decidable (WellNamed rules) :=
  decidable_of_iff' _ wellNamed_iff

theorem fault?_singleton_eq_some_iff {seen : List String} {r : Rule} {e : Failure} :
    fault? seen [r] = some e ↔ IsFault seen r e := by
  by_cases hblank : Text.blank r.name = true
  · simp [fault?, IsFault, hblank, eq_comm]
  · by_cases hseen : r.name ∈ seen
    · simp [fault?, IsFault, hblank, hseen, eq_comm]
    · simp [fault?, IsFault, hblank, hseen]

theorem build_eq_ok_iff {d : Draft} {set : RuleSet} :
    d.build = .ok set ↔ set.rules = d.rules ∧ WellNamed d.rules := by
  rw [wellNamed_iff, build]
  constructor
  · intro h
    split at h
    · contradiction
    · rename_i hfault
      obtain rfl := Except.ok.inj h
      exact ⟨rfl, hfault⟩
  · rintro ⟨hrules, hfault⟩
    rw [hfault, ← hrules]

/-- The failure is about the first rule at fault. -/
theorem build_eq_error_iff {d : Draft} {e : Failure} :
    d.build = .error e ↔ ∃ before r after, d.rules = before ++ r :: after ∧ WellNamed before ∧
      IsFault (before.map Rule.name) r e := by
  have hfault : d.build = .error e ↔ fault? [] d.rules = some e := by
    rw [build]
    cases fault? [] d.rules <;> simp
  rw [hfault, nameCheck_fault?.eq_some_iff]
  simp only [wellNamed_iff, fault?_singleton_eq_some_iff, IsFault, List.append_nil,
    List.mem_reverse]

end Draft

/-- The sets that can come about: the default ones, those built from a draft after any calls, and
those that one more rule is added to. -/
inductive Obtained : RuleSet → Prop
  | ofSettings {s : Settings} {set : RuleSet} (h : RuleSet.ofSettings s = .ok set) : Obtained set
  | build {steps : List Draft.Step} {set : RuleSet} (h : (Draft.ofSteps steps).build = .ok set) :
      Obtained set
  | withRule {set set' : RuleSet} {rule : Rule} (hset : Obtained set)
      (h : set.withRule rule = .ok set') : Obtained set'

theorem Obtained.wellNamed {set : RuleSet} (h : Obtained set) : Draft.WellNamed set.rules := by
  have hbuilt : ∀ {d : Draft}, d.build = .ok set → Draft.WellNamed set.rules := by
    intro d hbuild
    obtain ⟨hrules, hnamed⟩ := Draft.build_eq_ok_iff.1 hbuild
    rwa [hrules]
  cases h with
  | ofSettings h => exact hbuilt h
  | build h => exact hbuilt h
  | withRule _ h => exact hbuilt h

variable {set : RuleSet} {phase : Rule.Phase} {role : Role} {o : Object}

/-- The rule that decides is the first one that applies. -/
theorem applying?_eq_some_iff {r : Rule} :
    set.applying? phase role o = some r ↔ ∃ before after, set.rules = before ++ r :: after ∧
      r.applies phase role o = true ∧ ∀ s ∈ before, s.applies phase role o = false := by
  rw [applying?, List.find?_eq_some_iff_append]
  constructor
  · rintro ⟨happlies, before, after, heq, hbefore⟩
    exact ⟨before, after, heq, happlies, by simpa using hbefore⟩
  · rintro ⟨before, after, heq, happlies, hbefore⟩
    exact ⟨happlies, before, after, heq, by simpa using hbefore⟩

theorem applying?_eq_none_iff :
    set.applying? phase role o = none ↔ ∀ r ∈ set.rules, r.applies phase role o = false := by
  rw [applying?, List.find?_eq_none]
  simp

/-- The rules of a draft stand in the order of their priority, whatever the calls were. It is
refused for the first rule without a name of its own, and only then. In every set that comes about,
a name finds the one rule that has it and the first rule that applies decides; a rule that is added
decides where it applies and no other rule does. -/
theorem names_and_order_over_every_history :
    (∀ steps : List Draft.Step,
      (Draft.ofSteps steps).rules =
          (steps.flatMap Draft.Step.front).reverse ++ steps.flatMap Draft.Step.back ∧
        (∀ set, (Draft.ofSteps steps).build = .ok set ↔
          set.rules = (Draft.ofSteps steps).rules ∧ Draft.WellNamed (Draft.ofSteps steps).rules) ∧
        ∀ e, (Draft.ofSteps steps).build = .error e ↔
          ∃ before r after, (Draft.ofSteps steps).rules = before ++ r :: after ∧
            Draft.WellNamed before ∧ Draft.IsFault (before.map Rule.name) r e) ∧
    ∀ set, Obtained set →
      Draft.WellNamed set.rules ∧
      (∀ name r, set.get? name = some r ↔ r ∈ set.rules ∧ r.name = name) ∧
      (∀ phase role o r, (set.evaluate phase role o).result = some r ↔
        ∃ before after, set.rules = before ++ r :: after ∧ r.applies phase role o = true ∧
          ∀ s ∈ before, s.applies phase role o = false) ∧
      (∀ phase role o, (set.evaluate phase role o).result = none ↔
        ∀ r ∈ set.rules, r.applies phase role o = false) ∧
      ∀ rule set', set.withRule rule = .ok set' → ∀ phase role o,
        (∀ r, (set.evaluate phase role o).result = some r →
          (set'.evaluate phase role o).result = some r) ∧
        ((set.evaluate phase role o).result = none →
          (set'.evaluate phase role o).result =
            if rule.applies phase role o then some rule else none) := by
  refine ⟨fun steps => ⟨Draft.rules_ofSteps steps, fun set => Draft.build_eq_ok_iff,
    fun e => Draft.build_eq_error_iff⟩, ?_⟩
  intro set hset
  refine ⟨hset.wellNamed, fun name r => find?_name_eq_some_iff hset.wellNamed.nodup, ?_, ?_, ?_⟩
  · intro phase role o r
    rw [result_evaluate]
    exact applying?_eq_some_iff
  · intro phase role o
    rw [result_evaluate]
    exact applying?_eq_none_iff
  · intro rule set' h phase role o
    rw [result_evaluate, result_evaluate, applying?_of_withRule h]
    constructor
    · intro r hr
      rw [hr, Option.some_or]
    · intro hnone
      rw [hnone, Option.none_or]

def forcedCollector : Rule where
  name := "force-crash-collector"
  selector := .role .workerDeployment
  phase := .update
  condition := .nameBetween "rook-ceph-crashcollector-" ""
  verdict := .enqueue

def ignoredDelete : Rule where
  name := "ignore-delete"
  selector := .any
  phase := .delete
  condition := .always

def crashCollector : Object where
  apiVersion := "apps/v1"
  kind := "Deployment"
  metadata := { name := "rook-ceph-crashcollector-node1" }

/-- The rule that is put in front last comes first and decides, also after a rule has been added. A
second rule of the name of a default one is refused. -/
theorem names_and_order_over_every_history_forced :
    (Draft.ofSteps [.extend ⟨defaults {}⟩, .prepend forcedCollector]).build =
      .ok ⟨forcedCollector :: defaults {}⟩ ∧
    (∃ set', withRule ⟨forcedCollector :: defaults {}⟩ ignoredDelete = .ok set' ∧
      (set'.evaluate .update .workerDeployment crashCollector).result = some forcedCollector ∧
      (set'.evaluate .delete .workerDeployment crashCollector).result = some ignoredDelete) ∧
    (Draft.ofSteps [.extend ⟨defaults {}⟩,
        .append { ignoredDelete with name := "worker-deployment" }]).build =
      .error (.configuration "exclusion rule worker-deployment defined more than once") := by
  obtain ⟨hdrafts, hsets⟩ := names_and_order_over_every_history
  obtain ⟨_, hbuilt, _⟩ := hdrafts [.extend ⟨defaults {}⟩, .prepend forcedCollector]
  obtain ⟨_, _, hrefused⟩ :=
    hdrafts [.extend ⟨defaults {}⟩, .append { ignoredDelete with name := "worker-deployment" }]
  have hbuild := (hbuilt ⟨forcedCollector :: defaults {}⟩).2 ⟨rfl, by decide +kernel⟩
  obtain ⟨_, _, hdecides, hidle, hadded⟩ := hsets _ (.build hbuild)
  have hadd : withRule ⟨forcedCollector :: defaults {}⟩ ignoredDelete =
      .ok ⟨forcedCollector :: defaults {} ++ [ignoredDelete]⟩ :=
    Draft.build_eq_ok_iff.2 ⟨rfl, by decide +kernel⟩
  refine ⟨hbuild, ⟨_, hadd, ?_, ?_⟩, (hrefused _).2 ?_⟩
  · refine (hadded _ _ hadd _ _ _).1 _ ((hdecides _ _ _ _).2 ?_)
    exact ⟨[], _, rfl, by decide +kernel, nofun⟩
  · exact (hadded _ _ hadd _ _ _).2 ((hidle _ _ _).2 (by decide +kernel))
  · exact ⟨defaults {}, _, [], rfl, by decide +kernel,
      .inr ⟨by decide +kernel, by decide +kernel, rfl⟩⟩

end ReconcileTrigger.RuleSet

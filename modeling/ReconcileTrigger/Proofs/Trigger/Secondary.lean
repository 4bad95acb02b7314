import Mathlib.Data.List.Nodup
import ReconcileTrigger.Proofs.Object.Written
import ReconcileTrigger.Proofs.Ownership
import ReconcileTrigger.Proofs.Trigger.Gate

/-!
The decision of a secondary trigger of a gate. Ownership comes first, then the rules, and only where
no rule decides are the two states of an updated object compared. With the default rules all of this
is one condition on the settings and the event.
-/

namespace ReconcileTrigger.Trigger.Secondary

open Json (Value)
open Json.Value (samePart)

variable {t : Secondary} {o old new : Object}

/-- The trigger has an owner to look for iff its kind is in the catalog. -/
theorem result_ofOwnerKind (name : String) (catalog : Catalog) (rules : RuleSet)
    (comparison : Comparison) :
    (ofOwnerKind name catalog rules comparison).result =
      ⟨name, (Ownership.ofKind name catalog).toOption, catalog, rules, comparison⟩ := by
  unfold ofOwnerKind
  cases Ownership.ofKind name catalog <;> rfl

/-- An object is owned iff the search of the trigger has found an owner. -/
theorem owns_iff :
    (t.owns o).result = true ↔
      ∃ w r, t.ownership = some w ∧ (w.owner o).result = .ok (some r) := by
  unfold owns
  cases t.ownership with
  | none => exact iff_of_false nofun nofun
  | some w =>
    rw [Ownership.owns_iff]
    constructor
    · rintro ⟨r, hr⟩
      exact ⟨w, r, rfl, hr⟩
    · rintro ⟨_, r, hw, hr⟩
      obtain rfl := Option.some.inj hw
      exact ⟨r, hr⟩

theorem result_deciding (t : Secondary) (phase : Rule.Phase) (o : Object) :
    (t.deciding phase o).result = t.rules.applying? phase (t.catalog.roleOf o.kind) o :=
  RuleSet.result_evaluate ..

/-- The deletion of an owned object triggers unless a rule suppresses it. -/
theorem onDelete_iff :
    (t.onDelete o).result = true ↔ (t.owns o).result = true ∧
      ∀ rule, t.rules.applying? .delete (t.catalog.roleOf o.kind) o = some rule →
        rule.verdict.triggers = true := by
  rw [onDelete, Logged.result_bind]
  cases howned : (t.owns o).result with
  | false => exact iff_of_false nofun nofun
  | true =>
    rw [if_pos rfl, Logged.result_bind, result_deciding]
    cases t.rules.applying? .delete (t.catalog.roleOf o.kind) o with
    | none => exact iff_of_true rfl ⟨rfl, nofun⟩
    | some rule => simp

/-- The update of an owned object triggers if a rule says so, or if no rule says anything and the
object has changed. -/
theorem onUpdate_iff :
    (t.onUpdate old new).result = true ↔ (t.owns new).result = true ∧
      ((∃ rule, t.rules.applying? .update (t.catalog.roleOf new.kind) new = some rule ∧
          rule.verdict.triggers = true) ∨
        (t.rules.applying? .update (t.catalog.roleOf new.kind) new = none ∧
          (t.comparison.objectChanged old new).result = true)) := by
  rw [onUpdate, Logged.result_bind]
  cases howned : (t.owns new).result with
  | false => exact iff_of_false nofun nofun
  | true =>
    rw [if_pos rfl, Logged.result_bind, Logged.result_bind, result_deciding]
    cases t.rules.applying? .update (t.catalog.roleOf new.kind) new with
    | none => simp
    | some rule => simp

section DefaultRules

variable {s : Settings} (hrules : t.rules = ⟨RuleSet.defaults s⟩)
include hrules

/-- With the default rules, the deletion of an owned object triggers unless it is excluded. -/
theorem onDelete_defaults_iff :
    (t.onDelete o).result = true ↔ (t.owns o).result = true ∧ ¬ RuleSet.Excluded s .delete o := by
  rw [onDelete_iff, hrules]
  apply and_congr_right
  intro _
  rw [← RuleSet.applying?_defaults_eq_none_iff s .delete (t.catalog.roleOf o.kind) o]
  constructor
  · intro h
    apply Option.eq_none_iff_forall_ne_some.2
    -- a default rule that applied would not trigger
    intro rule hrule
    have htriggers := h rule hrule
    rw [RuleSet.triggers_of_applying?_defaults hrule] at htriggers
    contradiction
  · intro hnone rule hrule
    rw [hnone] at hrule
    contradiction

/-- With the default rules, the update of an owned object triggers iff it is not excluded and the
object has changed. -/
theorem onUpdate_defaults_iff :
    (t.onUpdate old new).result = true ↔ (t.owns new).result = true ∧
      ¬ RuleSet.Excluded s .update new ∧ (t.comparison.objectChanged old new).result = true := by
  rw [onUpdate_iff, hrules]
  apply and_congr_right
  intro _
  rw [← RuleSet.applying?_defaults_eq_none_iff s .update (t.catalog.roleOf new.kind) new]
  constructor
  · rintro (⟨rule, hrule, htriggers⟩ | hchanged)
    · rw [RuleSet.triggers_of_applying?_defaults hrule] at htriggers
      contradiction
    · exact hchanged
  · exact .inr

end DefaultRules

/-- The trigger of a gate for owners of a kind that its catalog has. -/
theorem result_secondary {g : Gate} {name : String} {k : Kind}
    (hk : g.catalog.find? name = some k) :
    (g.secondary name).result =
      ⟨name, some ⟨name, k.apiGroup⟩, g.catalog, g.rules, g.comparison⟩ := by
  rw [Gate.secondary, result_ofOwnerKind, Ownership.ofKind_eq_ok hk]
  rfl

/-- The events of secondary objects that ask for a reconcile of their owner: an owned object has
disappeared or is written with a difference in a field that is not volatile, and is not excluded. -/
def Asks (s : Settings) (w : Ownership) : Event → Prop
  | .create _ => False
  | .generic _ => False
  | .delete o => (w.owns o).result = true ∧ ¬ RuleSet.Excluded s .delete o
  | .update old new =>
    (w.owns new).result = true ∧ ¬ RuleSet.Excluded s .update new ∧
      ∃ field ∉ s.diff.volatileFields, samePart (old.toValue.member? field)
        ((Object.withVersionOf old new).toValue.member? field) = false

/-- With the default rules, the trigger for owners of a known kind decides for a reconcile just
where one is asked for. -/
theorem decide_secondary_iff (s : Settings) (g : Gate) (hg : Gate.ofSettings s = .ok g)
    (name : String) (k : Kind) (hk : g.catalog.find? name = some k) (e : Event)
    (he : ∀ o ∈ e.objects, o.WellFormed ∧ o.KeepsTyped) :
    ((g.secondary name).result.decide e).result = true ↔ Asks s ⟨name, k.apiGroup⟩ e := by
  rw [result_secondary hk]
  obtain ⟨catalog, _, rfl⟩ := Gate.ofSettings_eq_ok_iff.1 hg
  cases e with
  | create o => exact iff_of_false nofun nofun
  | generic o => exact iff_of_false nofun nofun
  | delete o => exact onDelete_defaults_iff rfl
  | update old new =>
    obtain ⟨hold, htyped⟩ := he old (by simp [Event.objects])
    obtain ⟨hnew, htyped'⟩ := he new (by simp [Event.objects])
    rw [decide, onUpdate_defaults_iff rfl,
      Comparison.objectChanged_iff _ hold hnew htyped htyped']
    exact Iff.rfl

def insistent (phase : Rule.Phase) : Rule :=
  { name := "insistent", selector := .any, phase, condition := .always, verdict := .enqueue }

def keyring (key : String) : Object where
  apiVersion := "v1"
  kind := "Secret"
  metadata := {
    name := "rook-ceph-mons-keyring"
    ownerReferences := [⟨"ceph.rook.io/v1", "CephCluster", "rook-ceph", "c-1", some true⟩] }
  body := Dict.ofList [("data", .object [("keyring", .string key)])]

theorem wellFormed_keyring (key : String) : (keyring key).WellFormed := by
  have hdata : (Value.object [("keyring", .string key)]).WellFormed := by
    simp [Value.WellFormed, Value.WellFormedMembers, SortedKeys]
  refine ⟨?_, fun v hv => absurd hv List.not_mem_nil⟩
  intro name v hv
  obtain ⟨_, rfl⟩ := Prod.mk.inj (List.mem_singleton.1 (Dict.mem_of_get?_ofList hv))
  exact hdata

theorem keepsTyped_keyring (key : String) : (keyring key).KeepsTyped := by
  intro name hname
  simp only [Object.typedKeys, List.mem_cons, List.not_mem_nil, or_false] at hname
  rcases hname with rfl | rfl | rfl <;> rfl

/-- A new key in a secret of a cluster asks for a reconcile of the cluster. -/
theorem decide_secondary_iff_keyring :
    ((Gate.conventional.secondary "CephCluster").result.decide
      (.update (keyring "b2xk") (keyring "bmV3"))).result = true := by
  have hobjects : ∀ o ∈ (Event.update (keyring "b2xk") (keyring "bmV3")).objects,
      o.WellFormed ∧ o.KeepsTyped := by
    simp [Event.objects, wellFormed_keyring, keepsTyped_keyring]
  refine (decide_secondary_iff {} Gate.conventional Gate.ofSettings_eq_conventional "CephCluster" _
    rfl _ hobjects).2 ⟨by decide +kernel, ?_, "data", by decide, by decide +kernel⟩
  rintro (h | ⟨h, _⟩ | ⟨_, h⟩ | h) <;> revert h <;> decide +kernel

end ReconcileTrigger.Trigger.Secondary

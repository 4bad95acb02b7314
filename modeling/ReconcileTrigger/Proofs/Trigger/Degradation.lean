import Mathlib.Data.List.Nodup
import ReconcileTrigger.Proofs.Trigger.Secondary

/-!
How a secondary trigger degrades. The policy of each failure says what the decision has to be: an
owner that cannot be told fails closed, a comparison that cannot be made fails open. No rule comes
before that, not even one that reconciles whatever it selects, because ownership is decided first.
-/

namespace ReconcileTrigger.Trigger.Secondary

variable {t : Secondary}

/-- Only updates and deletions of owned objects trigger, whatever the rules are. -/
theorem owns_of_decide {event : Event} (h : (t.decide event).result = true) :
    (event.tag = .update ∨ event.tag = .delete) ∧ (t.owns event.object).result = true := by
  cases event with
  | create o => contradiction
  | generic o => contradiction
  | update old new => exact ⟨.inl rfl, (onUpdate_iff.1 h).1⟩
  | delete o => exact ⟨.inr rfl, (onDelete_iff.1 h).1⟩

/-- Where the owner cannot be told, neither an update nor a deletion triggers. -/
theorem quiet_of_not_owns {o : Object} (h : ¬ (t.owns o).result = true) :
    (∀ old, (t.onUpdate old o).result = false) ∧ (t.onDelete o).result = false := by
  constructor
  · intro old
    apply Bool.eq_false_iff.2
    intro htrue
    exact h (onUpdate_iff.1 htrue).1
  · apply Bool.eq_false_iff.2
    intro htrue
    exact h (onDelete_iff.1 htrue).1

/-- An object is owned iff the kind of its owner is known and the search has found the owner. -/
theorem owns_ofOwnerKind_iff {name : String} {catalog : Catalog} {rules : RuleSet} {c : Comparison}
    {o : Object} :
    ((ofOwnerKind name catalog rules c).result.owns o).result = true ↔
      ∃ w r, Ownership.ofKind name catalog = .ok w ∧ (w.owner o).result = .ok (some r) := by
  rw [result_ofOwnerKind, owns_iff]
  cases Ownership.ofKind name catalog <;> simp [Except.toOption]

/-- A trigger for an unknown kind fails closed for good, and one that cannot tell the owner of an
object fails closed for that object. A comparison that cannot be made fails open. So whatever
triggers is an update or a deletion of an object whose owner has been found. -/
theorem failures_degrade_by_policy (name : String) (catalog : Catalog) (rules : RuleSet)
    (c : Comparison) :
    (catalog.find? name = none →
      ∃ e, Ownership.ofKind name catalog = .error e ∧ e.policy = .failClosed ∧
        ∀ event, ((ofOwnerKind name catalog rules c).result.decide event).result = false) ∧
    (∀ w, Ownership.ofKind name catalog = .ok w → ∀ o e, (w.owner o).result = .error e →
      e.policy = .failClosed ∧
        (∀ old, ((ofOwnerKind name catalog rules c).result.onUpdate old o).result = false) ∧
        ((ofOwnerKind name catalog rules c).result.onDelete o).result = false) ∧
    (∀ old new e, c.diff old new = .error e →
      e.policy = .failOpen ∧ ∀ object, (c.changed object old new).result = true) ∧
    (∀ event, ((ofOwnerKind name catalog rules c).result.decide event).result = true →
      (event.tag = .update ∨ event.tag = .delete) ∧
        ∃ w r, Ownership.ofKind name catalog = .ok w ∧
          (w.owner event.object).result = .ok (some r)) := by
  refine ⟨?_, ?_, ?_, ?_⟩
  · intro hnone
    have hkind : Ownership.ofKind name catalog = .error (.unknownKind name) :=
      Ownership.ofKind_eq_error_iff.2 ⟨hnone, rfl⟩
    refine ⟨_, hkind, rfl, ?_⟩
    intro event
    apply Bool.eq_false_iff.2
    intro htrue
    obtain ⟨w, _, hw, _⟩ := owns_ofOwnerKind_iff.1 (owns_of_decide htrue).2
    rw [hkind] at hw
    contradiction
  · intro w hw o e he
    refine ⟨Ownership.policy_of_owner_eq_error he, quiet_of_not_owns ?_⟩
    rw [owns_ofOwnerKind_iff]
    rintro ⟨w', r, hw', hr⟩
    obtain rfl : w = w' := Except.ok.inj (hw.symm.trans hw')
    rw [he] at hr
    contradiction
  · intro old new e he
    obtain ⟨rfl, _⟩ := Comparison.diff_eq_error_iff.1 he
    refine ⟨rfl, ?_⟩
    intro object
    rw [Comparison.result_changed, he]
  · intro event htrue
    obtain ⟨htag, howned⟩ := owns_of_decide htrue
    exact ⟨htag, owns_ofOwnerKind_iff.1 howned⟩

/-- A secret that refers to its owner without a valid API version. -/
def orphan : Object where
  apiVersion := "v1"
  kind := "Secret"
  metadata := {
    name := "rook-ceph-mon"
    ownerReferences := [⟨"not/a/version", "CephCluster", "rook-ceph", "c-1", some true⟩] }

/-- The insistent rule applies to the orphan, but does not come to decide about it. -/
theorem failures_degrade_by_policy_orphan :
    (insistent .delete).applies .delete .secret orphan = true ∧
      ((ofOwnerKind "CephCluster" Gate.conventional.catalog ⟨[insistent .delete]⟩
        ⟨[]⟩).result.onDelete orphan).result = false ∧
      (∀ event, ((ofOwnerKind "CephWidget" Gate.conventional.catalog ⟨[insistent .delete]⟩
        ⟨[]⟩).result.decide event).result = false) ∧
      ((⟨[]⟩ : Comparison).changed "orphan" .null orphan.toValue).result = true ∧
      ∃ w r, Ownership.ofKind "CephCluster" Gate.conventional.catalog = .ok w ∧
        (w.owner (keyring "b2xk")).result = .ok (some r) := by
  obtain ⟨hunknown, _, hmalformed, _⟩ :=
    failures_degrade_by_policy "CephWidget" Gate.conventional.catalog ⟨[insistent .delete]⟩ ⟨[]⟩
  obtain ⟨_, hunread, _, hdecided⟩ :=
    failures_degrade_by_policy "CephCluster" Gate.conventional.catalog ⟨[insistent .delete]⟩ ⟨[]⟩
  obtain ⟨_, _, _, hwidget⟩ := hunknown rfl
  obtain ⟨_, _, horphan⟩ := hunread _ rfl orphan _ rfl
  obtain ⟨_, hchanged⟩ := hmalformed .null orphan.toValue _ rfl
  obtain ⟨_, howner⟩ := hdecided (.delete (keyring "b2xk")) (by decide +kernel)
  exact ⟨by decide +kernel, horphan, hwidget, hchanged "orphan", howner⟩

end ReconcileTrigger.Trigger.Secondary

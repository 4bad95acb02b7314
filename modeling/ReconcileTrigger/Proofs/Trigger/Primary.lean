import Mathlib.Data.List.Basic
import ReconcileTrigger.Trigger.Primary

/-!
What a primary update is decided by. Log entries aside, the decision is one Boolean combination of
the labels, the desired states and the deletion timestamps, and only objects of primary kinds have
one.
-/

namespace ReconcileTrigger.Trigger.Primary

variable {l : Settings.Labels} {old new : Object}

theorem isDoNotReconcile_iff {o : Object} : l.isDoNotReconcile o.metadata.labels = true ↔
    o.label? l.doNotReconcileKey = some l.doNotReconcileValue := by
  rw [Settings.Labels.isDoNotReconcile, beq_iff_eq, Object.label?]

/-- An upgrade is a version in the new labels that the old ones do not have. -/
theorem isUpgrade_iff : l.isUpgrade old.metadata.labels new.metadata.labels = true ↔
    ∃ version, new.label? l.versionKey = some version ∧
      old.label? l.versionKey ≠ some version := by
  unfold Settings.Labels.isUpgrade Object.label?
  split
  · rename_i current hold hnew
    rw [hold, hnew]
    exact iff_of_true rfl ⟨current, rfl, nofun⟩
  · rename_i previous current hold hnew
    rw [hold, hnew, bne_iff_ne]
    constructor
    · intro hne
      exact ⟨current, rfl, fun heq => hne (Option.some.inj heq)⟩
    · rintro ⟨_, hcurrent, hne⟩
      obtain rfl := Option.some.inj hcurrent
      exact fun heq => hne (congrArg some heq)
  · rename_i hnew
    rw [hnew]
    simp

theorem sameDeletion_iff {a b : Option Timestamp} :
    sameDeletion a b = true ↔ a.map Timestamp.instant = b.map Timestamp.instant := by
  cases a <;> cases b <;> simp [sameDeletion, Timestamp.sameInstant]

theorem result_decideUpdate (p : Primary) (k : Kind) (old new : Object) :
    (p.decideUpdate k old new).result =
      (!p.labels.isDoNotReconcile new.metadata.labels &&
        (!(specDiff k old new).isEmpty ||
          !sameDeletion old.metadata.deletionTimestamp new.metadata.deletionTimestamp ||
          (k.tracksUpgrade && p.labels.isUpgrade old.metadata.labels new.metadata.labels))) := by
  unfold decideUpdate
  cases hlabel : p.labels.isDoNotReconcile new.metadata.labels with
  | true => simp
  | false =>
    cases hspec : (specDiff k old new).isEmpty with
    | false => simp [hspec]
    | true =>
      cases hdeletion : sameDeletion old.metadata.deletionTimestamp
          new.metadata.deletionTimestamp with
      | false => simp [hspec]
      | true =>
        cases htracks : k.tracksUpgrade with
        | false => simp [hspec]
        | true =>
          cases hupgrade : p.labels.isUpgrade old.metadata.labels new.metadata.labels with
          | false => simp [hspec]
          | true => simp [hspec]

/-- An update triggers unless the new object has the do-not-reconcile label, by a change of the
desired state, of the deletion or, where upgrades are tracked, of the version. -/
theorem decideUpdate_iff {p : Primary} {k : Kind} :
    (p.decideUpdate k old new).result = true ↔
      new.label? p.labels.doNotReconcileKey ≠ some p.labels.doNotReconcileValue ∧
        ((specDiff k old new).isEmpty = false ∨
          old.metadata.deletionTimestamp.map Timestamp.instant ≠
            new.metadata.deletionTimestamp.map Timestamp.instant ∨
          (k.tracksUpgrade = true ∧ ∃ version, new.label? p.labels.versionKey = some version ∧
            old.label? p.labels.versionKey ≠ some version)) := by
  rw [result_decideUpdate, Bool.and_eq_true, Bool.or_eq_true, Bool.or_eq_true, Bool.and_eq_true,
    or_assoc, isUpgrade_iff, Bool.not_eq_true', Bool.not_eq_true', Bool.not_eq_true',
    ← Bool.not_eq_true (p.labels.isDoNotReconcile _), isDoNotReconcile_iff,
    ← Bool.not_eq_true (sameDeletion _ _), sameDeletion_iff]

/-- The decision on an update of an object of a primary kind. -/
theorem result_onUpdate {p : Primary} {k : Kind} {old new : Object}
    (hfind : p.catalog.find? new.kind = some k) (hrole : k.role = .primary) :
    (p.onUpdate old new).result = (p.decideUpdate k old new).result := by
  unfold onUpdate
  rw [hfind]
  simp only [hrole, if_true]

/-- Only updates of objects of primary kinds trigger. -/
theorem onUpdate_iff {p : Primary} :
    (p.onUpdate old new).result = true ↔ ∃ k, (p.catalog.find? new.kind = some k ∧
      k.role = .primary) ∧ (p.decideUpdate k old new).result = true := by
  constructor
  · intro h
    unfold onUpdate at h
    split at h
    · contradiction
    · rename_i k hfind
      split at h
      · rename_i hrole
        exact ⟨k, ⟨hfind, hrole⟩, h⟩
      · contradiction
  · rintro ⟨k, ⟨hfind, hrole⟩, h⟩
    rw [result_onUpdate hfind hrole, h]

end ReconcileTrigger.Trigger.Primary

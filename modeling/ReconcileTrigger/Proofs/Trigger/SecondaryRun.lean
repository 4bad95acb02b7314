import Mathlib.Data.List.Nodup
import ReconcileTrigger.Proofs.Trigger.Secondary

/-!
Runs of updates of secondary objects that trigger nothing. Where no rule decides, such a run leaves
the content of the object as it is written. A single update is compared with the resource version of
the old object, where that has one, so a step says nothing about resource versions, and what a run
keeps is the content without them.
-/

namespace ReconcileTrigger.Trigger.Secondary

open Json (Value)
open Json.Value (samePart samePart_refl samePart_trans samePart_of_sameMembers)

/-- Two snapshots have the same fields, volatile ones left aside. Their metadata may differ in the
resource version. -/
structure SameContent (volatileFields : List String) (a b : Value) : Prop where
  fields : ∀ field ∉ volatileFields, field ≠ "metadata" →
    samePart (a.member? field) (b.member? field) = true
  metadata : "metadata" ∉ volatileFields → ∃ m m', a.member? "metadata" = some (.object m) ∧
    b.member? "metadata" = some (.object m') ∧
    ∀ key, key ≠ "resourceVersion" → samePart (m.lookup key) (m'.lookup key) = true

namespace SameContent

variable {volatileFields : List String}

theorem refl {o : Object} (h : o.KeepsTyped) : SameContent volatileFields o.toValue o.toValue where
  fields := fun _ _ _ => samePart_refl _
  metadata := by
    intro _
    have hmetadata := Object.member?_metadata_toValue h
    exact ⟨_, _, hmetadata, hmetadata, fun _ _ => samePart_refl _⟩

theorem trans {a b c : Value} (hab : SameContent volatileFields a b)
    (hbc : SameContent volatileFields b c) : SameContent volatileFields a c where
  fields := fun field hfield hne =>
    samePart_trans (hab.fields field hfield hne) (hbc.fields field hfield hne)
  metadata := by
    intro hvolatile
    obtain ⟨m, m', ha, hb, hm⟩ := hab.metadata hvolatile
    obtain ⟨n, n', hb', hc, hn⟩ := hbc.metadata hvolatile
    obtain rfl : m' = n := by
      rw [hb] at hb'
      exact Value.object.inj (Option.some.inj hb')
    exact ⟨m, n', ha, hc, fun key hkey => samePart_trans (hm key hkey) (hn key hkey)⟩

end SameContent

variable {old new : Object}

/-- Where no change is seen, the content is the same. -/
theorem sameContent_of_not_objectChanged {c : Comparison} (hold : old.WellFormed)
    (hnew : new.WellFormed) (htyped : old.KeepsTyped) (htyped' : new.KeepsTyped)
    (h : (c.objectChanged old new).result = false) :
    SameContent c.volatileFields old.toValue new.toValue := by
  have hsame : ∀ field ∉ c.volatileFields, samePart (old.toValue.member? field)
      ((Object.withVersionOf old new).toValue.member? field) = true := by
    rw [← Bool.not_eq_true, c.objectChanged_iff hold hnew htyped htyped'] at h
    intro field hfield
    apply Decidable.byContradiction
    intro hdiffers
    exact h ⟨field, hfield, Bool.eq_false_iff.2 hdiffers⟩
  -- the object that is compared differs from the new one in the resource version only
  have hversion := Object.sameButVersion_withVersionOf old htyped'
  constructor
  · intro field hfield hne
    rw [hversion.members field hne]
    exact hsame field hfield
  · intro hvolatile
    obtain ⟨m', n, hm', hn, hlookup⟩ := hversion.metadata
    have hm := Object.member?_metadata_toValue htyped
    obtain ⟨m, hobject⟩ : ∃ m, old.metadata.toValue = .object m := ⟨_, rfl⟩
    rw [hobject] at hm
    have hmetadata := hsame "metadata" hvolatile
    rw [hm, hn] at hmetadata
    refine ⟨m, m', hm, hm', ?_⟩
    intro key hkey
    rw [hlookup key hkey]
    exact samePart_of_sameMembers hmetadata key

/-- An update that triggers nothing, and that no rule decides about, keeps the content. -/
theorem sameContent_of_onUpdate {t : Secondary} (hold : old.WellFormed) (hnew : new.WellFormed)
    (htyped : old.KeepsTyped) (htyped' : new.KeepsTyped) (howned : (t.owns new).result = true)
    (hrules : ∀ rule ∈ t.rules.rules,
      rule.applies .update (t.catalog.roleOf new.kind) new = false)
    (hquiet : (t.onUpdate old new).result = false) :
    SameContent t.comparison.volatileFields old.toValue new.toValue := by
  have hnone : t.rules.applying? .update (t.catalog.roleOf new.kind) new = none := by
    rw [RuleSet.applying?, List.find?_eq_none]
    intro rule hrule
    rw [hrules rule hrule]
    exact Bool.false_ne_true
  apply sameContent_of_not_objectChanged hold hnew htyped htyped'
  apply Bool.eq_false_iff.2
  intro hchanged
  rw [onUpdate_iff.2 ⟨howned, .inr ⟨hnone, hchanged⟩⟩] at hquiet
  contradiction

/-- A run of updates of owned objects that no rule decides about keeps the content, however long it
is, as long as none of the updates triggers. -/
theorem no_content_lost_over_quiet_run (t : Secondary) (o : ℕ → Object) (n : ℕ)
    (hobjects : ∀ i ≤ n, (o i).WellFormed ∧ (o i).KeepsTyped)
    (howned : ∀ i < n, (t.owns (o (i + 1))).result = true)
    (hrules : ∀ i < n, ∀ rule ∈ t.rules.rules,
      rule.applies .update (t.catalog.roleOf (o (i + 1)).kind) (o (i + 1)) = false)
    (hquiet : ∀ i < n, (t.onUpdate (o i) (o (i + 1))).result = false) :
    SameContent t.comparison.volatileFields (o 0).toValue (o n).toValue := by
  induction n with
  | zero => exact .refl (hobjects 0 (Nat.le_refl 0)).2
  | succ n ih =>
    have hrun := ih (fun i hi => hobjects i (by omega)) (fun i hi => howned i (by omega))
      (fun i hi => hrules i (by omega)) fun i hi => hquiet i (by omega)
    obtain ⟨hold, htyped⟩ := hobjects n (by omega)
    obtain ⟨hnew, htyped'⟩ := hobjects (n + 1) (by omega)
    exact hrun.trans (sameContent_of_onUpdate hold hnew htyped htyped' (howned n (by omega))
      (hrules n (by omega)) (hquiet n (by omega)))

def relisted (i : ℕ) : Object :=
  { keyring "b2xk" with
    metadata := { (keyring "b2xk").metadata with resourceVersion := ["1", "2"][i]? } }

def attentive : Secondary :=
  (ofOwnerKind "CephCluster" Gate.conventional.catalog Gate.conventional.rules ⟨["status"]⟩).result

/-- Between the first listing and the last only the resource version is lost. -/
theorem no_content_lost_over_relisting :
    (relisted 0).metadata.resourceVersion = some "1" ∧
      (relisted 3).metadata.resourceVersion = none ∧
      SameContent ["status"] (relisted 0).toValue (relisted 3).toValue := by
  refine ⟨rfl, rfl, no_content_lost_over_quiet_run attentive relisted 3 ?_ ?_ ?_ ?_⟩
  · intro i _
    have hwf := wellFormed_keyring "b2xk"
    exact ⟨⟨hwf.body, hwf.managedFields⟩, keepsTyped_keyring "b2xk"⟩
  · decide +kernel
  · decide +kernel
  · decide +kernel

end ReconcileTrigger.Trigger.Secondary

import Mathlib.Data.List.Basic
import ReconcileTrigger.Proofs.Object.Reading
import ReconcileTrigger.Proofs.Trigger.Gate
import ReconcileTrigger.Proofs.Trigger.PrimaryRun

/-!
The decision of the primary trigger of a gate, as a condition on the settings and the event. It
tells what an update is decided by, and so what it is not decided by: two updates with the same
kind, desired states, instants of deletion and well-known labels are decided alike, whatever else
there is in the objects.
-/

namespace ReconcileTrigger.Trigger.Primary

open Json (Value)

/-- Something about a primary resource has changed that asks for a reconcile: the desired state, the
deletion or, for a kind that tracks upgrades, the version. -/
def Changed (l : Settings.Labels) (entry : Settings.PrimaryKind) (old new : Object) : Prop :=
  ¬ SameMeaning (desired old) (desired new) ∨
    old.metadata.deletionTimestamp.map Timestamp.instant ≠
      new.metadata.deletionTimestamp.map Timestamp.instant ∨
    (entry.tracksUpgrade = true ∧ ∃ version, new.label? l.versionKey = some version ∧
      old.label? l.versionKey ≠ some version)

def Asks (s : Settings) : Event → Prop
  | .create _ => True
  | .delete _ => True
  | .generic _ => False
  | .update old new =>
    ∃ entry ∈ s.kinds.primary, entry.kind = new.kind ∧
      new.label? s.labels.doNotReconcileKey ≠ some s.labels.doNotReconcileValue ∧
      Changed s.labels entry old new

/-- Two states of a resource that cannot be told apart by what an update is decided by. -/
structure Alike (l : Settings.Labels) (a b : Object) : Prop where
  spec : desired a = desired b
  deletion : a.metadata.deletionTimestamp.map Timestamp.instant =
    b.metadata.deletionTimestamp.map Timestamp.instant
  version : a.label? l.versionKey = b.label? l.versionKey

variable {s : Settings} {g : Gate} {old new : Object}

/-- The decision on an update, with the entry of the settings for the kind of the object. -/
theorem onUpdate_primary_iff (hg : Gate.ofSettings s = .ok g) :
    (g.primary.onUpdate old new).result = true ↔
      ∃ entry ∈ s.kinds.primary, entry.kind = new.kind ∧
        new.label? s.labels.doNotReconcileKey ≠ some s.labels.doNotReconcileValue ∧
        ((Diff.semantic (desired old) (desired new)).isEmpty = false ∨
          old.metadata.deletionTimestamp.map Timestamp.instant ≠
            new.metadata.deletionTimestamp.map Timestamp.instant ∨
          (entry.tracksUpgrade = true ∧ ∃ version, new.label? s.labels.versionKey = some version ∧
            old.label? s.labels.versionKey ≠ some version)) := by
  obtain ⟨catalog, hcatalog, rfl⟩ := Gate.ofSettings_eq_ok_iff.1 hg
  rw [onUpdate_iff]
  constructor
  · rintro ⟨k, hk, hdecide⟩
    obtain ⟨entry, hentry, hkind, rfl⟩ := (Catalog.find?_primary_iff hcatalog).1 hk
    exact ⟨entry, hentry, hkind, decideUpdate_iff.1 hdecide⟩
  · rintro ⟨entry, hentry, hkind, hdecide⟩
    exact ⟨_, (Catalog.find?_primary_iff hcatalog).2 ⟨entry, hentry, hkind, rfl⟩,
      decideUpdate_iff.2 hdecide⟩

theorem onUpdate_primary_iff_asks (hg : Gate.ofSettings s = .ok g) (hnew : new.WellFormed) :
    (g.primary.onUpdate old new).result = true ↔ Asks s (.update old new) := by
  have hspec : (desired new).WellFormed := by
    unfold desired
    cases hfield : new.field? "spec" with
    | none => exact trivial
    | some v => exact hnew.body _ v hfield
  rw [onUpdate_primary_iff hg, Asks]
  simp only [Changed, ← Diff.semantic_isEmpty_iff hspec, Bool.not_eq_true]

theorem onUpdate_primary_congr {old' new' : Object} (hg : Gate.ofSettings s = .ok g)
    (hold : Alike s.labels old old') (hnew : Alike s.labels new new')
    (hkind : new.kind = new'.kind)
    (hlabel : new.label? s.labels.doNotReconcileKey = new'.label? s.labels.doNotReconcileKey) :
    (g.primary.onUpdate old new).result = (g.primary.onUpdate old' new').result := by
  rw [Bool.eq_iff_iff, onUpdate_primary_iff hg, onUpdate_primary_iff hg, hold.spec, hold.deletion,
    hold.version, hnew.spec, hnew.deletion, hnew.version, hkind, hlabel]

/-- The primary trigger decides for a reconcile just where one is asked for. Nothing else about the
two states of an updated object plays a part. -/
theorem decide_iff_asks (s : Settings) (g : Gate) (hg : Gate.ofSettings s = .ok g) :
    (∀ e : Event, (∀ o ∈ e.objects, o.WellFormed) →
      ((g.primary.decide e).result = true ↔ Asks s e)) ∧
    ∀ old new old' new' : Object, Alike s.labels old old' → Alike s.labels new new' →
      new.kind = new'.kind →
      new.label? s.labels.doNotReconcileKey = new'.label? s.labels.doNotReconcileKey →
      (g.primary.decide (.update old new)).result =
        (g.primary.decide (.update old' new')).result := by
  refine ⟨?_, fun _ _ _ _ hold hnew => onUpdate_primary_congr hg hold hnew⟩
  intro e he
  cases e with
  | create o => exact iff_of_true rfl trivial
  | delete o => exact iff_of_true rfl trivial
  | generic o => exact iff_of_false nofun nofun
  | update old new => exact onUpdate_primary_iff_asks hg (he new (by simp [Event.objects]))

def filesystem (version phase : String) : Object where
  apiVersion := "ceph.rook.io/v1"
  kind := "CephFilesystem"
  metadata := { labels := Dict.ofList [("ceph_version", version)] }
  body := Dict.ofList [("spec", .object [("size", .string "1Gi")]),
    ("status", .object [("phase", .string phase)])]

theorem wellFormed_filesystem (version phase : String) : (filesystem version phase).WellFormed := by
  have hbody : ∀ e ∈ [("spec", Value.object [("size", .string "1Gi")]),
      ("status", Value.object [("phase", .string phase)])], e.2.WellFormed := by
    simp [Value.WellFormed, Value.WellFormedMembers, SortedKeys]
  refine ⟨?_, fun v hv => absurd hv List.not_mem_nil⟩
  intro key v hv
  exact hbody _ (Dict.mem_of_get?_ofList hv)

/-- A new version asks for a reconcile, in whatever phase the file system is. -/
theorem decide_iff_asks_filesystem :
    (Gate.conventional.primary.decide
        (.update (filesystem "17" "Ready") (filesystem "18" "Ready"))).result = true ∧
      (Gate.conventional.primary.decide
        (.update (filesystem "17" "Progressing") (filesystem "18" "Failure"))).result = true := by
  obtain ⟨hiff, hcongr⟩ := decide_iff_asks {} Gate.conventional Gate.ofSettings_eq_conventional
  have hready : (Gate.conventional.primary.decide
      (.update (filesystem "17" "Ready") (filesystem "18" "Ready"))).result = true := by
    refine (hiff _ ?_).2 ?_
    · simp [Event.objects, wellFormed_filesystem]
    · have hlabel : (filesystem "18" "Ready").label? "do_not_reconcile" ≠ some "true" := by
        decide +kernel
      have hversion : (filesystem "17" "Ready").label? "ceph_version" ≠ some "18" := by
        decide +kernel
      exact ⟨⟨"CephFilesystem", true⟩, by decide, rfl, hlabel,
        .inr (.inr ⟨rfl, "18", rfl, hversion⟩)⟩
  refine ⟨hready, ?_⟩
  rw [← hready]
  exact hcongr _ _ _ _ ⟨rfl, rfl, rfl⟩ ⟨rfl, rfl, rfl⟩ rfl rfl

end ReconcileTrigger.Trigger.Primary

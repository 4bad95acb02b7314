import Mathlib.Data.List.Basic
import ReconcileTrigger.Proofs.Catalog
import ReconcileTrigger.Proofs.Diff.Semantic
import ReconcileTrigger.Proofs.Json.Amount
import ReconcileTrigger.Proofs.Trigger.Primary

/-!
Runs of updates that trigger nothing. A single one of them leaves everything as it was but for the
encoding of amounts. The relation that a step keeps is not transitive, so a run is followed by the
coarser one of equal amounts, together with the instant of the deletion and the version label.
-/

namespace ReconcileTrigger.Trigger.Primary

open Json (Value AgreeUpTo SameAmount)

/-- The desired state, null where there is none. -/
def desired (o : Object) : Value :=
  (o.field? "spec").getD .null

/-- No real change leads from the first object to the last. -/
structure NothingLost (labels : Settings.Labels) (k : Kind) (first last : Object) : Prop where
  state : AgreeUpTo SameAmount (desired first) (desired last)
  deletion : first.metadata.deletionTimestamp.map Timestamp.instant =
    last.metadata.deletionTimestamp.map Timestamp.instant
  version : k.tracksUpgrade = true →
    last.label? labels.versionKey = none ∨
      last.label? labels.versionKey = first.label? labels.versionKey

namespace NothingLost

variable {labels : Settings.Labels} {k : Kind}

theorem refl (o : Object) : NothingLost labels k o o where
  state := .refl (fun v => .same v.same_refl) _
  deletion := rfl
  version := fun _ => .inr rfl

theorem trans {a b c : Object} (hab : NothingLost labels k a b) (hbc : NothingLost labels k b c) :
    NothingLost labels k a c where
  state := hab.state.trans_sameAmount hbc.state
  deletion := hab.deletion.trans hbc.deletion
  version := by
    intro htracks
    rcases hbc.version htracks with hnone | hlast
    · exact .inl hnone
    · rw [hlast]
      exact hab.version htracks

end NothingLost

/-- An update that triggers nothing, without the label that forbids it, loses nothing. -/
theorem nothingLost_of_decideUpdate {p : Primary} {k : Kind}
    (hspec : ∀ o : Object, k.spec? o = o.field? "spec") {old new : Object}
    (hlabel : p.labels.isDoNotReconcile new.metadata.labels = false)
    (hquiet : (p.decideUpdate k old new).result = false) :
    NothingLost p.labels k old new := by
  rw [← Bool.not_eq_true, isDoNotReconcile_iff] at hlabel
  rw [← Bool.not_eq_true, decideUpdate_iff] at hquiet
  obtain ⟨hdiff, hrest⟩ := not_or.1 fun hchange => hquiet ⟨hlabel, hchange⟩
  obtain ⟨hdeletion, hversion⟩ := not_or.1 hrest
  refine ⟨?_, not_ne_iff.1 hdeletion, ?_⟩
  · rw [Bool.not_eq_false, specDiff, hspec, hspec] at hdiff
    have hmeaning := Diff.sameMeaning_of_semantic_isEmpty hdiff
    exact hmeaning.mono fun a b _ h => SameAmount.of_equivalent h
  · intro htracks
    cases hnew : new.label? p.labels.versionKey with
    | none => exact .inl rfl
    | some version =>
      refine .inr (Decidable.byContradiction fun hold => ?_)
      exact hversion ⟨htracks, version, hnew, fun h => hold h.symm⟩

/-- A run of updates of objects of one primary kind loses nothing as long as none of them triggers
and none of the objects after the first has the label that forbids it. -/
theorem nothing_lost_over_quiet_run (s : Settings) (p : Primary)
    (hcatalog : Catalog.ofSettings s = .ok p.catalog) (name : String) (k : Kind)
    (hfind : p.catalog.find? name = some k) (hrole : k.role = .primary) (o : ℕ → Object) (n : ℕ)
    (hkind : ∀ i ≤ n, (o i).kind = name)
    (hlabel : ∀ i < n, p.labels.isDoNotReconcile (o (i + 1)).metadata.labels = false)
    (hquiet : ∀ i < n, (p.onUpdate (o i) (o (i + 1))).result = false) :
    NothingLost p.labels k (o 0) (o n) := by
  induction n with
  | zero => exact .refl (o 0)
  | succ n ih =>
    have hrun := ih (fun i hi => hkind i (by omega)) (fun i hi => hlabel i (by omega))
      fun i hi => hquiet i (by omega)
    have hlast := hquiet n (by omega)
    rw [result_onUpdate (hkind (n + 1) (by omega) ▸ hfind) hrole] at hlast
    exact hrun.trans (nothingLost_of_decideUpdate (Catalog.spec?_of_ofSettings hcatalog hfind hrole)
      (hlabel n (by omega)) hlast)

/-- A file system whose size is written anew with every update, and whose version label goes. -/
def resized : ℕ → Object
  | 0 => sized "1.0" (Dict.ofList [("ceph_version", "17")])
  | 1 => sized "1000m" (Dict.ofList [("ceph_version", "17")])
  | _ => sized "1" ∅
where
  sized (size : String) (labels : Dict String) : Object :=
    { apiVersion := "ceph.rook.io/v1"
      kind := "CephFilesystem"
      metadata := { labels }
      body := Dict.ofList [("spec", .object [("size", .string size)])] }

/-- The sizes `1.0` and `1` are texts that are not equivalent, but nothing is lost between them. -/
theorem nothing_lost_over_resizing :
    Value.equivalent (.string "1.0") (.string "1") = false ∧
      NothingLost {} { Kind.primary "CephFilesystem" "ceph.rook.io" with tracksUpgrade := true }
        (resized 0) (resized 2) := by
  refine ⟨by decide +kernel, ?_⟩
  exact nothing_lost_over_quiet_run {} ⟨⟨Catalog.configuredKinds {}⟩, {}⟩ rfl "CephFilesystem" _
    rfl rfl resized 2 (by decide +kernel) (by decide +kernel) (by decide +kernel)

end ReconcileTrigger.Trigger.Primary

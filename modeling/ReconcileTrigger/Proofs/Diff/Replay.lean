import Mathlib.Data.List.Nodup
import ReconcileTrigger.Proofs.Diff.Semantic
import ReconcileTrigger.Proofs.Json.Residue

/-!
Applying a diff to the old object, group by group. Every operation applies, whatever the order of
the fields. A structural diff leads to the new object. A semantic diff leads to one from which no
further difference is seen, since what it left out are leaves that stay as they were.
-/

namespace ReconcileTrigger.Diff

open Json (Value Operation Pointer Step Position edits edited editsAt)
open Json.Operation (applyAll?)

variable {keep : Value → Value → Bool}

/-- The groups of the edits between two objects, in any order of the fields. -/
theorem applyAll?_groups {old new : List (String × Value)}
    (hold : (Value.object old).WellFormed) (hnew : (Value.object new).WellFormed)
    {groups : List (String × List Operation)}
    (hgroups : groups.Perm (ofPatch (edits keep (.object old) (.object new))).fields.entries) :
    applyAll? (groups.flatMap Prod.snd) (.object old) =
      some (edited keep (.object old) (.object new)) := by
  have hsorted := (Value.wellFormed_object_iff.1 hold).1
  have hsorted' := (Value.wellFormed_object_iff.1 hnew).1
  have hgroup : ∀ g ∈ groups,
      g.2 = editsAt keep (.member g.1) (old.lookup g.1) (new.lookup g.1) := by
    intro g hg
    obtain ⟨heq, _⟩ := mem_entries_ofPatch_iff.1 (hgroups.mem_iff.1 hg)
    rw [heq, onField_edits hsorted hsorted']
  have hflat : groups.flatMap Prod.snd = (groups.map Prod.fst).flatMap fun key =>
      editsAt keep (.member key) (old.lookup key) (new.lookup key) := by
    rw [List.flatMap_map]
    exact List.flatMap_congr hgroup
  have hnodup : (groups.map Prod.fst).Nodup := by
    rw [(hgroups.map Prod.fst).nodup_iff]
    exact SortedKeys.nodup (ofPatch _).fields.sorted
  rw [hflat]
  apply Json.applyAll?_edits_members hnodup hsorted hsorted'
  · intro key hkey
    by_contra hne
    rw [← onField_edits hsorted hsorted'] at hne
    have hmem := hgroups.mem_iff.2 (mem_entries_ofPatch_iff.2 ⟨rfl, hne⟩)
    exact hkey (List.mem_map_of_mem hmem)
  · intro key a b ha hb
    exact Json.applyAll?_edits (hold.lookup ha) (hnew.lookup hb)

/-- Applied to the old object, the groups of a structural diff give the new one, in any order of
the fields. -/
theorem structural_applies_in_any_order (old new : List (String × Value))
    (hold : (Value.object old).WellFormed) (hnew : (Value.object new).WellFormed)
    (groups : List (String × List Operation))
    (hgroups : groups.Perm (structural (.object old) (.object new)).fields.entries) :
    ∃ d, applyAll? (groups.flatMap Prod.snd) (.object old) = some d ∧
      d.same (.object new) = true := by
  rw [structural_eq_ofPatch] at hgroups
  exact ⟨_, applyAll?_groups hold hnew hgroups, Json.same_edited _ _⟩

theorem structural_applies_in_any_order_states :
    ∃ d, applyAll? ((structural (.object stateBefore) (.object stateAfter)).fields.entries.reverse
      |>.flatMap Prod.snd) (.object stateBefore) = some d ∧ d.same (.object stateAfter) = true :=
  structural_applies_in_any_order stateBefore stateAfter wellFormed_stateBefore
    wellFormed_stateAfter _ (List.reverse_perm _)

/-- A document `d` between an old and a new one. It has the positions of the new one and differs
from it only where the patch replaces a leaf by an equivalent one, and there it has the old leaf. -/
structure IsResidue (old new d : Value) : Prop where
  positions : ∀ p : Position, (d.at? p).isSome = (new.at? p).isSome
  differs : ∀ (p : Position) (x y : Value), d.at? p = some x → new.at? p = some y →
    Value.IsLeafPair x y → x.same y = false →
      old.at? p = some x ∧ x.equivalent y = true ∧
        .replace p.pointer y ∈ Json.changes [] old new
  keeps : ∀ (path : Pointer) (x y : Value), .replace path y ∈ Json.changes [] old new →
    old.pointed? path = some x → x.equivalent y = true → d.pointed? path = some x

private theorem isScalar_of_equivalent (a b : Value) (hpair : Value.IsLeafPair a b)
    (h : a.equivalent b = true) : a.IsScalar ∧ b.IsScalar :=
  hpair.isScalar_of_equivalent h

theorem sameMeaning_edited (old new : Value) : SameMeaning (edited Value.equivalent old new) new :=
  Json.agreeUpTo_edited Value.equivalent_refl old new

/-- What the edits make of the old document is such a document, where equivalent leaves are left
alone. -/
theorem isResidue_edited {old new : Value} (hnew : new.WellFormed) :
    IsResidue old new (edited Value.equivalent old new) where
  positions := (sameMeaning_edited old new).isSome_at? isScalar_of_equivalent
  differs := by
    intro p x y hx hy hpair hsame
    have hne : x ≠ y := by
      rintro rfl
      rw [x.same_refl] at hsame
      cases hsame
    obtain ⟨hold, hequivalent⟩ :=
      Json.keep_of_at?_edited isScalar_of_equivalent hx hy hpair hne
    refine ⟨hold, hequivalent, ?_⟩
    rw [Json.changes_nil_eq_edits]
    exact Json.replace_mem_edits hnew hold hy hpair hsame
  keeps := by
    intro path x y hmem hpointed hequivalent
    rw [Json.changes_nil_eq_edits] at hmem
    obtain ⟨p, a, rfl, hold, hat, hpair, _⟩ := (Json.isEdit_of_mem_edits hnew hmem).of_replace
    obtain rfl : a = x := by
      rw [Value.pointed?_pointer hold] at hpointed
      exact Option.some.inj hpointed
    have hedited : (edited Value.equivalent old new).at? p = some (edited Value.equivalent a y) :=
      Json.at?_edited_eq_some hold hat
    rw [Json.edited_of_isLeafPair hpair, if_pos hequivalent] at hedited
    exact Value.pointed?_pointer hedited

/-- Applied to the old object, the groups of a semantic diff give one without further difference to
the new one, in any order of the fields. What was left out are leaves that stay as they were. -/
theorem semantic_applies_in_any_order (old new : List (String × Value))
    (hold : (Value.object old).WellFormed) (hnew : (Value.object new).WellFormed)
    (groups : List (String × List Operation))
    (hgroups : groups.Perm (semantic (.object old) (.object new)).fields.entries) :
    ∃ d, applyAll? (groups.flatMap Prod.snd) (.object old) = some d ∧
      (semantic d (.object new)).isEmpty = true ∧ IsResidue (.object old) (.object new) d := by
  rw [semantic_eq_ofPatch] at hgroups
  refine ⟨_, applyAll?_groups hold hnew hgroups, ?_, isResidue_edited hnew⟩
  exact (semantic_isEmpty_iff hnew).2 (sameMeaning_edited _ _)

theorem semantic_applies_in_any_order_states :
    ∃ d, applyAll? ((semantic (.object stateBefore) (.object stateAfter)).fields.entries.reverse
      |>.flatMap Prod.snd) (.object stateBefore) = some d ∧
      (semantic d (.object stateAfter)).isEmpty = true ∧
      IsResidue (.object stateBefore) (.object stateAfter) d :=
  semantic_applies_in_any_order stateBefore stateAfter wellFormed_stateBefore
    wellFormed_stateAfter _ (List.reverse_perm _)

end ReconcileTrigger.Diff

import Mathlib.Data.List.Nodup
import ReconcileTrigger.Proofs.Diff.Semantic
import ReconcileTrigger.Proofs.Json.Equality

/-!
Structural diffs of two objects, field by field, and what is left of them without some fields. A
diff is fixed by the operations on its fields. They are those of the patch between the two values of
the field, and all groups together are the patch between the objects. Leaving fields out of a diff
afterwards is the same as leaving them out of both objects before.
-/

namespace ReconcileTrigger.Diff

open Json (Value Operation Pointer Step edits editsAt)
open Json.Value (samePart)

/-- Diffs with the same operations on every field are the same. -/
theorem ext_operations? {d e : Diff} (h : ∀ field, d.operations? field = e.operations? field) :
    d = e := by
  obtain ⟨fields⟩ := d
  obtain ⟨fields'⟩ := e
  exact congrArg Diff.mk (Dict.ext_get? h)

theorem isEmpty_iff_operations? {d : Diff} :
    d.isEmpty = true ↔ ∀ field, d.operations? field = none :=
  Dict.isEmpty_iff_get?

theorem operations?_without (d : Diff) (names : List String) (field : String) :
    (d.without names).operations? field = if field ∈ names then none else d.operations? field :=
  Dict.get?_foldl_erase d.fields names field

variable {old new : List (String × Value)}

/-- A key holds what is edited below it, and is not in the diff where that is nothing. -/
theorem operations?_structural (hold : SortedKeys old) (hnew : SortedKeys new) (key : String) :
    (structural (.object old) (.object new)).operations? key =
      if (editsAt Value.same (.member key) (old.lookup key) (new.lookup key)).isEmpty then none
      else some (editsAt Value.same (.member key) (old.lookup key) (new.lookup key)) := by
  rw [structural_eq_ofPatch, operations?_ofPatch, onField_edits hold hnew]

/-- What a patch does below one key of two objects. Between two values it is the patch of these,
with the key in front of every pointer. -/
def keyChanges (key : String) : Option Value → Option Value → List Operation
  | some old, some new =>
    (Json.changes [] old new).map (.under ('/' :: Pointer.escape key.toList))
  | none, some new => [.add ('/' :: Pointer.escape key.toList) new]
  | some _, none => [.remove ('/' :: Pointer.escape key.toList)]
  | none, none => []

theorem editsAt_eq_keyChanges (key : String) (old new : Option Value) :
    editsAt Value.same (.member key) old new = keyChanges key old new := by
  cases old with
  | none => cases new <;> rfl
  | some a =>
    cases new with
    | none => rfl
    | some b =>
      rw [keyChanges, Json.changes_nil_eq_edits]
      rfl

/-- A key is in the diff iff the objects differ there. -/
theorem operations?_structural_eq (hold : (Value.object old).WellFormed)
    (hnew : (Value.object new).WellFormed) (key : String) :
    (structural (.object old) (.object new)).operations? key =
      if samePart (old.lookup key) (new.lookup key) then none
      else some (keyChanges key (old.lookup key) (new.lookup key)) := by
  have hsame : editsAt Value.same (.member key) (old.lookup key) (new.lookup key) = [] ↔
      samePart (old.lookup key) (new.lookup key) = true :=
    Json.editsAt_eq_nil_iff_samePart (fun a => hold.lookup) (fun b => hnew.lookup)
  rw [operations?_structural (Value.wellFormed_object_iff.1 hold).1
    (Value.wellFormed_object_iff.1 hnew).1, ← editsAt_eq_keyChanges]
  exact if_congr (List.isEmpty_iff.trans hsame) rfl rfl

theorem contains_structural_iff (hold : (Value.object old).WellFormed)
    (hnew : (Value.object new).WellFormed) (key : String) :
    (structural (.object old) (.object new)).contains key = true ↔
      samePart (old.lookup key) (new.lookup key) = false := by
  have hcontains : (structural (.object old) (.object new)).contains key =
      ((structural (.object old) (.object new)).operations? key).isSome := rfl
  rw [hcontains, operations?_structural_eq hold hnew]
  cases samePart (old.lookup key) (new.lookup key) <;> simp

theorem isEmpty_structural_iff {old new : Value} (hold : old.WellFormed) (hnew : new.WellFormed) :
    (structural old new).isEmpty = true ↔ old.same new = true := by
  rw [structural_eq_ofPatch, isEmpty_ofPatch, List.isEmpty_iff]
  exact Json.edits_eq_nil_iff_same hold hnew

/-- A structural diff is empty iff the documents are equal. It has every operation of the patch
once, on the field that its pointer starts with and in the order of the patch. Between two objects
it has a key iff they differ there, and then the operations on the key are what the patch does below
it. -/
theorem structural_groups_by_key (old new : Value) (hold : old.WellFormed)
    (hnew : new.WellFormed) :
    ((structural old new).isEmpty = true ↔ old.same new = true) ∧
    ((structural old new).fields.entries.flatMap Prod.snd).Perm (Json.changes [] old new) ∧
    (∀ key, ((structural old new).operations? key).getD [] =
      (Json.changes [] old new).filter fun op => Pointer.topLevelField op.path == key) ∧
    (old.isObject = true → new.isObject = true → ∀ key,
      ((structural old new).contains key = true ↔
        samePart (old.member? key) (new.member? key) = false) ∧
      (structural old new).operations? key =
        if samePart (old.member? key) (new.member? key) then none
        else some (keyChanges key (old.member? key) (new.member? key))) := by
  refine ⟨isEmpty_structural_iff hold hnew, perm_groups_ofPatch _, ?_, ?_⟩
  · intro key
    rw [structural, operations?_ofPatch, ← onField]
    by_cases hnone : onField key (Json.changes [] old new) = []
    · simp [hnone]
    · simp [hnone]
  · intro hobject hobject' key
    cases old with
    | object old =>
      cases new with
      | object new =>
        exact ⟨contains_structural_iff hold hnew key, operations?_structural_eq hold hnew key⟩
      | _ => simp [Value.isObject] at hobject'
    | _ => simp [Value.isObject] at hobject

/-- The hosts have one element less, and the slash in their key is escaped. -/
theorem structural_groups_by_key_states :
    (structural (.object stateBefore) (.object stateAfter)).contains "hosts/b" = true ∧
    (structural (.object stateBefore) (.object stateAfter)).operations? "hosts/b" =
      some [.remove "/hosts~1b/1".toList] ∧
    (structural (.object stateBefore) (.object stateAfter)).operations? "~" =
      some [.remove "/~0".toList] ∧
    (structural (.object stateBefore) (.object stateAfter)).operations? "" =
      some [.replace "//memory".toList (.string "1024Mi")] := by
  obtain ⟨_, _, _, hkeys⟩ := structural_groups_by_key (.object stateBefore) (.object stateAfter)
    wellFormed_stateBefore wellFormed_stateAfter
  obtain ⟨hcontains, hhosts⟩ := hkeys rfl rfl "hosts/b"
  obtain ⟨_, htilde⟩ := hkeys rfl rfl "~"
  obtain ⟨_, hempty⟩ := hkeys rfl rfl ""
  exact ⟨hcontains.2 (by decide +kernel), hhosts, htilde, hempty⟩

/-- Fields may be left out of the diff or of both objects. -/
theorem structural_without (hold : SortedKeys old) (hnew : SortedKeys new) (names : List String) :
    (structural (.object old) (.object new)).without names =
      structural (.object (eraseEntries names old)) (.object (eraseEntries names new)) := by
  apply ext_operations?
  intro key
  rw [operations?_without, operations?_structural hold hnew,
    operations?_structural (sortedKeys_eraseEntries hold) (sortedKeys_eraseEntries hnew),
    lookup_eraseEntries, lookup_eraseEntries]
  by_cases hkey : key ∈ names
  · simp only [if_pos hkey]
    rfl
  · simp only [if_neg hkey]

/-- Without the named fields nothing is left iff the objects are equal at every other key. -/
theorem isEmpty_structural_without_iff (hold : (Value.object old).WellFormed)
    (hnew : (Value.object new).WellFormed) (names : List String) :
    ((structural (.object old) (.object new)).without names).isEmpty = true ↔
      ∀ key ∉ names, samePart (old.lookup key) (new.lookup key) = true := by
  have hsorted := (Value.wellFormed_object_iff.1 hold).1
  have hsorted' := (Value.wellFormed_object_iff.1 hnew).1
  rw [isEmpty_iff_operations?]
  apply forall_congr'
  intro key
  have hsame : editsAt Value.same (.member key) (old.lookup key) (new.lookup key) = [] ↔
      samePart (old.lookup key) (new.lookup key) = true :=
    Json.editsAt_eq_nil_iff_samePart (fun a => hold.lookup) (fun b => hnew.lookup)
  rw [operations?_without, operations?_structural hsorted hsorted', ← hsame]
  by_cases hkey : key ∈ names
  · simp [hkey]
  · simp [hkey]

end ReconcileTrigger.Diff

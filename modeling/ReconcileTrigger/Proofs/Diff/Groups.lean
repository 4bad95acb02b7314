import Mathlib.Data.List.Basic
import ReconcileTrigger.Diff
import ReconcileTrigger.Proofs.Json.EditSteps

/-!
The groups of a diff. Each field holds the operations of the patch on it, in their order, and a
field without operations is not in the diff, so nothing of the patch is lost or moved. Between two
objects the group of a key is what is edited below the key.
-/

namespace ReconcileTrigger.Diff

open Json (Value Operation Pointer Step edits editsAt)

def onField (field : String) (patch : List Operation) : List Operation :=
  patch.filter fun op => Pointer.topLevelField op.path == field

theorem operations?_push_self (d : Diff) (op : Operation) :
    (d.push op).operations? (Pointer.topLevelField op.path) =
      some ((d.operations? (Pointer.topLevelField op.path)).getD [] ++ [op]) :=
  Dict.get?_insert_self ..

theorem operations?_push_of_ne (d : Diff) {op : Operation} {field : String}
    (h : field ≠ Pointer.topLevelField op.path) :
    (d.push op).operations? field = d.operations? field :=
  Dict.get?_insert_of_ne _ h _

private theorem operations?_foldl_push (patch : List Operation) (d : Diff) (field : String) :
    (patch.foldl push d).operations? field =
      if (onField field patch).isEmpty then d.operations? field
      else some ((d.operations? field).getD [] ++ onField field patch) := by
  induction patch generalizing d with
  | nil => rfl
  | cons op rest ih =>
    rw [List.foldl_cons, ih]
    by_cases hfield : field = Pointer.topLevelField op.path
    · subst hfield
      have hcons : onField (Pointer.topLevelField op.path) (op :: rest) =
          op :: onField (Pointer.topLevelField op.path) rest := by simp [onField]
      rw [hcons, operations?_push_self]
      by_cases hrest : onField (Pointer.topLevelField op.path) rest = []
      · simp [hrest]
      · simp [hrest]
    · have hne : ¬ Pointer.topLevelField op.path = field := fun h => hfield h.symm
      have hcons : onField field (op :: rest) = onField field rest := by simp [onField, hne]
      rw [hcons, operations?_push_of_ne d hfield]

/-- A field holds the operations of the patch on it. -/
theorem operations?_ofPatch (patch : List Operation) (field : String) :
    (ofPatch patch).operations? field =
      if (onField field patch).isEmpty then none else some (onField field patch) := by
  rw [ofPatch, operations?_foldl_push]
  rfl

theorem contains_ofPatch_iff {patch : List Operation} {field : String} :
    (ofPatch patch).contains field = true ↔ onField field patch ≠ [] := by
  have hcontains : (ofPatch patch).contains field =
      ((ofPatch patch).operations? field).isSome := rfl
  rw [hcontains, operations?_ofPatch]
  by_cases h : onField field patch = []
  · simp [h]
  · simp [h]

theorem mem_entries_ofPatch_iff {patch : List Operation} {field : String}
    {operations : List Operation} :
    (field, operations) ∈ (ofPatch patch).fields.entries ↔
      operations = onField field patch ∧ operations ≠ [] := by
  rw [← lookup_eq_some_iff_mem (ofPatch patch).fields.sorted]
  have hlookup : (ofPatch patch).fields.entries.lookup field =
      (ofPatch patch).operations? field := rfl
  rw [hlookup, operations?_ofPatch]
  by_cases h : onField field patch = []
  · simp [h]
  · constructor
    · intro heq
      obtain rfl : onField field patch = operations := by simpa [h] using heq
      exact ⟨rfl, h⟩
    · rintro ⟨rfl, _⟩
      simp [h]

theorem isEmpty_ofPatch (patch : List Operation) : (ofPatch patch).isEmpty = patch.isEmpty := by
  rw [Bool.eq_iff_iff, List.isEmpty_iff]
  constructor
  · intro hempty
    have hentries : (ofPatch patch).fields.entries = [] := List.isEmpty_iff.1 hempty
    by_contra hne
    obtain ⟨op, rest, rfl⟩ := List.exists_cons_of_ne_nil hne
    have hgroup : onField (Pointer.topLevelField op.path) (op :: rest) ≠ [] := by simp [onField]
    have hmem := mem_entries_ofPatch_iff.2 ⟨rfl, hgroup⟩
    rw [hentries] at hmem
    exact absurd hmem List.not_mem_nil
  · rintro rfl
    rfl

private theorem perm_flatMap_onField {keys : List String} (hkeys : keys.Nodup)
    {patch : List Operation} (h : ∀ op ∈ patch, Pointer.topLevelField op.path ∈ keys) :
    (keys.flatMap fun key => onField key patch).Perm patch := by
  induction keys generalizing patch with
  | nil =>
    cases patch with
    | nil => exact .nil
    | cons op rest => exact absurd (h op (List.mem_cons_self ..)) List.not_mem_nil
  | cons key rest ih =>
    obtain ⟨hkey, hrest⟩ := List.nodup_cons.1 hkeys
    let others := patch.filter fun op => !(Pointer.topLevelField op.path == key)
    have hothers : ∀ op ∈ others, Pointer.topLevelField op.path ∈ rest := by
      intro op hop
      obtain ⟨hmem, hne⟩ := List.mem_filter.1 hop
      rcases List.mem_cons.1 (h op hmem) with heq | hlater
      · simp [heq] at hne
      · exact hlater
    -- the operations on the other fields do not change when those on this one are left out
    have hlater : (rest.flatMap fun field => onField field patch) =
        rest.flatMap fun field => onField field others := by
      apply List.flatMap_congr
      intro field hfield
      rw [onField, onField, List.filter_filter]
      apply List.filter_congr
      intro op _
      by_cases heq : Pointer.topLevelField op.path = field
      · have hne : field ≠ key := fun hsame => hkey (hsame ▸ hfield)
        simp [heq, hne]
      · simp [heq]
    rw [List.flatMap_cons, hlater]
    exact ((ih hrest hothers).append_left _).trans (List.filter_append_perm _ patch)

/-- The groups together are the operations of the patch, each of them in one group. -/
theorem perm_groups_ofPatch (patch : List Operation) :
    ((ofPatch patch).fields.entries.flatMap Prod.snd).Perm patch := by
  have hgroups : (ofPatch patch).fields.entries.flatMap Prod.snd =
      ((ofPatch patch).fields.entries.map Prod.fst).flatMap fun key => onField key patch := by
    rw [List.flatMap_map]
    apply List.flatMap_congr
    intro e he
    exact (mem_entries_ofPatch_iff.1 he).1
  rw [hgroups]
  apply perm_flatMap_onField (SortedKeys.nodup (ofPatch patch).fields.sorted)
  intro op hop
  have hgroup : onField (Pointer.topLevelField op.path) patch ≠ [] :=
    List.ne_nil_of_mem (List.mem_filter.2 ⟨hop, beq_self_eq_true _⟩)
  exact List.mem_map_of_mem (mem_entries_ofPatch_iff.2 ⟨rfl, hgroup⟩)

variable {keep : Value → Value → Bool}

theorem topLevelField_of_mem_editsAt {key : String} {old new : Option Value} {op : Operation}
    (h : op ∈ editsAt keep (.member key) old new) : Pointer.topLevelField op.path = key := by
  have hself : Pointer.topLevelField (Step.member key).pointer = key := by
    rw [← List.append_nil (Step.member key).pointer]
    exact Step.topLevelField_member_append key rfl
  unfold editsAt at h
  split at h
  · obtain ⟨op, hop, rfl⟩ := List.mem_map.1 h
    obtain ⟨keys, hkeys⟩ := (Json.isPlaced_of_mem_edits hop).exists_segments
    rw [Operation.path_under]
    exact Step.topLevelField_member_append key hkeys
  · obtain rfl := List.mem_singleton.1 h
    exact hself
  · obtain rfl := List.mem_singleton.1 h
    exact hself
  · simp at h

private theorem onField_flatMap {keys : List String} (hkeys : keys.Nodup) (key : String)
    (old new : List (String × Value)) :
    onField key (keys.flatMap fun k => editsAt keep (.member k) (old.lookup k) (new.lookup k)) =
      if key ∈ keys then editsAt keep (.member key) (old.lookup key) (new.lookup key) else [] := by
  induction keys with
  | nil => rfl
  | cons k rest ih =>
    obtain ⟨hk, hrest⟩ := List.nodup_cons.1 hkeys
    have hsplit : onField key ((k :: rest).flatMap fun k =>
        editsAt keep (.member k) (old.lookup k) (new.lookup k)) =
        onField key (editsAt keep (.member k) (old.lookup k) (new.lookup k)) ++
          if key ∈ rest then editsAt keep (.member key) (old.lookup key) (new.lookup key)
          else [] := by
      rw [List.flatMap_cons, onField, List.filter_append, ← onField, ← onField, ih hrest]
    rw [hsplit]
    by_cases heq : key = k
    · subst heq
      have hall : onField key (editsAt keep (.member key) (old.lookup key) (new.lookup key)) =
          editsAt keep (.member key) (old.lookup key) (new.lookup key) := by
        apply List.filter_eq_self.2
        intro op hop
        simpa using topLevelField_of_mem_editsAt hop
      rw [hall, if_neg hk, if_pos (List.mem_cons_self ..), List.append_nil]
    · have hnone : onField key (editsAt keep (.member k) (old.lookup k) (new.lookup k)) = [] := by
        apply List.filter_eq_nil_iff.2
        intro op hop
        rw [topLevelField_of_mem_editsAt hop]
        simpa using Ne.symm heq
      rw [hnone, List.nil_append]
      simp [heq]

/-- Between two objects, the group of a key is what is edited below the key. -/
theorem onField_edits {old new : List (String × Value)} (hold : SortedKeys old)
    (hnew : SortedKeys new) (key : String) :
    onField key (edits keep (.object old) (.object new)) =
      editsAt keep (.member key) (old.lookup key) (new.lookup key) := by
  rw [Json.edits_object_eq_flatMap hnew, onField_flatMap (Json.nodup_editedKeys hold hnew)]
  split
  · rfl
  · rename_i hkey
    exact (Json.editsAt_of_notMem_editedKeys hkey).symm

end ReconcileTrigger.Diff

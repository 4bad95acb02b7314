import ReconcileTrigger.Json.Value
import ReconcileTrigger.Proofs.Dict

/-!
The parts of documents, and induction over them: over one document from its parts, and over two
documents in parallel. Facts about all parts, such as well-formedness, are read off here.
-/

namespace ReconcileTrigger.Json

namespace Value

structure IsScalar (v : Value) : Prop where
  not_object : ∀ members, v ≠ .object members
  not_array : ∀ elements, v ≠ .array elements

/-- Induction over a document from its parts. -/
theorem inductionOnParts {P : Value → Prop}
    (object : ∀ members, (∀ e ∈ members, P e.2) → P (.object members))
    (array : ∀ elements, (∀ v ∈ elements, P v) → P (.array elements))
    (scalar : ∀ v, IsScalar v → P v) (v : Value) : P v :=
  match v with
  | .object members =>
    object members fun e _he => inductionOnParts object array scalar e.2
  | .array elements =>
    array elements fun e _he => inductionOnParts object array scalar e
  | .null => scalar _ ⟨nofun, nofun⟩
  | .bool _ => scalar _ ⟨nofun, nofun⟩
  | .number _ => scalar _ ⟨nofun, nofun⟩
  | .string _ => scalar _ ⟨nofun, nofun⟩
termination_by v
decreasing_by
  · have hmem := List.sizeOf_lt_of_mem _he
    have hpair : sizeOf e = 1 + sizeOf e.1 + sizeOf e.2 := rfl
    simp only [Value.object.sizeOf_spec]
    omega
  · have hmem := List.sizeOf_lt_of_mem _he
    simp only [Value.array.sizeOf_spec]
    omega

/-- The documents are compared as a whole: they are not two objects, and not two arrays. -/
structure IsLeafPair (old new : Value) : Prop where
  not_objects : ∀ a b, old = .object a → new = .object b → False
  not_arrays : ∀ a b, old = .array a → new = .array b → False

theorem IsScalar.isLeafPair_left {old new : Value} (h : IsScalar old) : IsLeafPair old new :=
  ⟨fun a _ ha _ => h.not_object a ha, fun a _ ha _ => h.not_array a ha⟩

theorem IsScalar.isLeafPair_right {old new : Value} (h : IsScalar new) : IsLeafPair old new :=
  ⟨fun _ b _ hb => h.not_object b hb, fun _ b _ hb => h.not_array b hb⟩

/-- Induction over two documents, in parallel as far as both are objects or both arrays. -/
theorem inductionOnPairs {P : Value → Value → Prop}
    (objects : ∀ old new,
      (∀ key a b, old.lookup key = some a → (key, b) ∈ new → P a b) → P (.object old) (.object new))
    (arrays : ∀ old new : List Value,
      (∀ (i : Nat) a b, old[i]? = some a → new[i]? = some b → P a b) → P (.array old) (.array new))
    (leaves : ∀ old new, IsLeafPair old new → P old new)
    (old new : Value) : P old new := by
  induction new using inductionOnParts generalizing old with
  | object new ih =>
    by_cases hold : ∃ members, old = .object members
    · obtain ⟨members, rfl⟩ := hold
      exact objects members new fun key a b _ hb => ih _ hb a
    · refine leaves _ _ ⟨fun a _ ha _ => hold ⟨a, ha⟩, ?_⟩
      intro _ _ _ hb
      cases hb
  | array new ih =>
    by_cases hold : ∃ elements, old = .array elements
    · obtain ⟨elements, rfl⟩ := hold
      exact arrays elements new fun i a b _ hb => ih b (List.mem_of_getElem? hb) a
    · refine leaves _ _ ⟨?_, fun a _ ha _ => hold ⟨a, ha⟩⟩
      intro _ _ _ hb
      cases hb
  | scalar new h => exact leaves _ _ h.isLeafPair_right

mutual

instance decidableWellFormed : (v : Value) → Decidable v.WellFormed
  | .array elements => decidableWellFormedElements elements
  | .object members =>
    have := decidableWellFormedMembers members
    inferInstanceAs (Decidable (SortedKeys members ∧ WellFormedMembers members))
  | .null => .isTrue trivial
  | .bool _ => .isTrue trivial
  | .number _ => .isTrue trivial
  | .string _ => .isTrue trivial

instance decidableWellFormedElements :
    (elements : List Value) → Decidable (WellFormedElements elements)
  | [] => .isTrue trivial
  | v :: rest =>
    have := decidableWellFormed v
    have := decidableWellFormedElements rest
    inferInstanceAs (Decidable (WellFormed v ∧ WellFormedElements rest))

instance decidableWellFormedMembers :
    (members : List (String × Value)) → Decidable (WellFormedMembers members)
  | [] => .isTrue trivial
  | (_, v) :: rest =>
    have := decidableWellFormed v
    have := decidableWellFormedMembers rest
    inferInstanceAs (Decidable (WellFormed v ∧ WellFormedMembers rest))

end

theorem wellFormedElements_iff {elements : List Value} :
    WellFormedElements elements ↔ ∀ v ∈ elements, v.WellFormed := by
  induction elements with
  | nil => simp [WellFormedElements]
  | cons v rest ih => simp [WellFormedElements, ih]

theorem wellFormedMembers_iff {members : List (String × Value)} :
    WellFormedMembers members ↔ ∀ e ∈ members, e.2.WellFormed := by
  induction members with
  | nil => simp [WellFormedMembers]
  | cons e rest ih => simp [WellFormedMembers, ih]

theorem wellFormed_object_iff {members : List (String × Value)} :
    WellFormed (.object members) ↔ SortedKeys members ∧ ∀ e ∈ members, e.2.WellFormed := by
  rw [WellFormed, wellFormedMembers_iff]

theorem wellFormed_array_iff {elements : List Value} :
    WellFormed (.array elements) ↔ ∀ v ∈ elements, v.WellFormed := by
  rw [WellFormed, wellFormedElements_iff]

theorem WellFormed.lookup {members : List (String × Value)} (h : WellFormed (.object members))
    {key : String} {v : Value} (hv : members.lookup key = some v) : v.WellFormed :=
  (wellFormed_object_iff.1 h).2 _ (mem_of_lookup_eq_some hv)

theorem wellFormed_insertEntry {members : List (String × Value)} (h : WellFormed (.object members))
    {v : Value} (hv : v.WellFormed) (key : String) :
    WellFormed (.object (insertEntry key v members)) := by
  obtain ⟨hsorted, hmembers⟩ := wellFormed_object_iff.1 h
  refine wellFormed_object_iff.2 ⟨sortedKeys_insertEntry hsorted, ?_⟩
  intro e he
  rcases mem_insertEntry he with rfl | hmem
  · exact hv
  · exact hmembers e hmem

theorem WellFormed.getElem? {elements : List Value} (h : WellFormed (.array elements))
    {i : Nat} {v : Value} (hv : elements[i]? = some v) : v.WellFormed :=
  wellFormed_array_iff.1 h v (List.mem_of_getElem? hv)

end Value

end ReconcileTrigger.Json

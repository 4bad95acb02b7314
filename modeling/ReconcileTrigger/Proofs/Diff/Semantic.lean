import ReconcileTrigger.Proofs.Diff.Groups

/-!
What a semantic diff reports. Replacements by an equivalent value are left out by looking the old
value up again through the pointer of the operation. The lookup always finds the value that is
replaced, so what remains are the edits that leave equivalent leaves alone, and a diff is empty
iff both documents mean the same.
-/

namespace ReconcileTrigger

open Json (Value Operation Pointer Step AgreeUpTo edits editsAt)

/-- Two documents mean the same: they have the same keys and lengths throughout, and equivalent
leaves. -/
def SameMeaning (old new : Value) : Prop :=
  AgreeUpTo (fun a b => a.equivalent b = true) old new

namespace Diff

theorem isSignificant_under {step : Step} {v child : Value} (h : step.child? v = some child)
    {op : Operation} (hop : op.IsPlaced) :
    isSignificant v (op.under step.pointer) = isSignificant child op := by
  cases op with
  | add => rfl
  | remove => rfl
  | replace path value =>
    obtain ⟨keys, hkeys⟩ := hop.exists_segments
    have hpointed : v.pointed? (step.pointer ++ path) = child.pointed? path :=
      Step.pointed?_append h hkeys
    simp only [Operation.under, isSignificant, hpointed]

private theorem filter_editsAt {v : Value} {step : Step} {old new : Option Value}
    (hold : ∀ a, old = some a → step.child? v = some a)
    (ih : ∀ a b, old = some a → new = some b →
      (edits Value.same a b).filter (isSignificant a) = edits Value.equivalent a b) :
    (editsAt Value.same step old new).filter (isSignificant v) =
      editsAt Value.equivalent step old new := by
  unfold editsAt
  split
  · rename_i a b
    rw [List.filter_map, ← ih a b rfl rfl]
    congr 1
    apply List.filter_congr
    intro op hop
    exact isSignificant_under (hold a rfl) (Json.isPlaced_of_mem_edits hop)
  · rfl
  · rfl
  · rfl

/-- The significant edits are those that leave equivalent leaves alone. -/
theorem filter_isSignificant_edits (old new : Value) :
    (edits Value.same old new).filter (isSignificant old) = edits Value.equivalent old new := by
  induction old, new using Value.inductionOnPairs with
  | objects old new ih =>
    rw [Json.edits_object, Json.edits_object, List.filter_append, List.filter_flatMap,
      List.filter_flatMap]
    congr 1
    · apply List.flatMap_congr
      intro e he
      apply filter_editsAt (fun a ha => ha)
      intro a b ha hb
      obtain rfl : e.2 = b := Option.some.inj hb
      exact ih e.1 a e.2 ha he
  | arrays old new ih =>
    rw [Json.edits_array, Json.edits_array, List.filter_append, List.filter_flatMap]
    congr 1
    · apply List.flatMap_congr
      intro i _
      exact filter_editsAt (fun a ha => ha) fun a b ha hb => ih i a b ha hb
    · apply List.filter_eq_self.2
      intro op hop
      obtain ⟨_, rfl⟩ := List.mem_replicate.1 hop
      rfl
  | leaves old new hpair =>
    rw [Json.edits_of_isLeafPair hpair, Json.edits_of_isLeafPair hpair]
    by_cases hsame : old.same new = true
    · have hequivalent : old.equivalent new = true := by simp [Value.equivalent, hsame]
      simp [hsame, hequivalent]
    · by_cases hequivalent : old.equivalent new = true
      · simp [hsame, hequivalent, isSignificant, Value.pointed?]
      · simp [hsame, hequivalent, isSignificant, Value.pointed?]

theorem semantic_eq_ofPatch (old new : Value) :
    semantic old new = ofPatch (edits Value.equivalent old new) := by
  rw [semantic, Json.changes_nil_eq_edits, filter_isSignificant_edits]

theorem structural_eq_ofPatch (old new : Value) :
    structural old new = ofPatch (edits Value.same old new) := by
  rw [structural, Json.changes_nil_eq_edits]

theorem sameMeaning_of_semantic_isEmpty {old new : Value}
    (h : (semantic old new).isEmpty = true) : SameMeaning old new := by
  rw [semantic_eq_ofPatch, isEmpty_ofPatch, List.isEmpty_iff] at h
  exact Json.agreeUpTo_of_edits_eq_nil h

theorem semantic_isEmpty_iff {old new : Value} (hnew : new.WellFormed) :
    (semantic old new).isEmpty = true ↔ SameMeaning old new := by
  rw [semantic_eq_ofPatch, isEmpty_ofPatch, List.isEmpty_iff]
  exact Json.edits_eq_nil_iff hnew

theorem semantic_contains_iff {old new : List (String × Value)}
    (hold : (Value.object old).WellFormed) (hnew : (Value.object new).WellFormed) (key : String) :
    (semantic (.object old) (.object new)).contains key = true ↔
      (old.lookup key).isSome ≠ (new.lookup key).isSome ∨
        ∃ a b, old.lookup key = some a ∧ new.lookup key = some b ∧ ¬ SameMeaning a b := by
  have hsorted := (Value.wellFormed_object_iff.1 hold).1
  have hsorted' := (Value.wellFormed_object_iff.1 hnew).1
  rw [semantic_eq_ofPatch, contains_ofPatch_iff, onField_edits hsorted hsorted', ne_eq,
    Json.editsAt_eq_nil_iff, not_and_or]
  refine or_congr_right ?_
  constructor
  · intro h
    push Not at h
    obtain ⟨a, b, ha, hb, hne⟩ := h
    exact ⟨a, b, ha, hb, fun hab => hne ((Json.edits_eq_nil_iff (hnew.lookup hb)).2 hab)⟩
  · rintro ⟨a, b, ha, hb, hne⟩ hall
    exact hne ((Json.edits_eq_nil_iff (hnew.lookup hb)).1 (hall a b ha hb))

/-- A semantic diff decides whether two documents mean the same. Between two objects it holds a key
iff one side lacks it or the values under it do not mean the same. -/
theorem semantic_decides_sameMeaning (old new : Value) (hold : old.WellFormed)
    (hnew : new.WellFormed) :
    ((semantic old new).isEmpty = true ↔ SameMeaning old new) ∧
      (old.isObject = true → new.isObject = true → ∀ key,
        ((semantic old new).contains key = true ↔
          (old.member? key).isSome ≠ (new.member? key).isSome ∨
            ∃ a b, old.member? key = some a ∧ new.member? key = some b ∧ ¬ SameMeaning a b)) := by
  refine ⟨semantic_isEmpty_iff hnew, ?_⟩
  intro hobject hobject' key
  cases old with
  | object old =>
    cases new with
    | object new => exact semantic_contains_iff hold hnew key
    | _ => simp [Value.isObject] at hobject'
  | _ => simp [Value.isObject] at hobject

/-- A desired state with keys that a pointer must escape. -/
def stateBefore : List (String × Value) :=
  [("", .object [("memory", .string "1Gi")]), ("hosts/b", .array [.string "x", .string "y"]),
    ("~", .null)]

def stateAfter : List (String × Value) :=
  [("", .object [("memory", .string "1024Mi")]), ("hosts/b", .array [.string "x"]),
    ("paused", .bool true)]

theorem wellFormed_stateBefore : (Value.object stateBefore).WellFormed := by
  decide +kernel

theorem wellFormed_stateAfter : (Value.object stateAfter).WellFormed := by
  decide +kernel

theorem semantic_decides_sameMeaning_states :
    ¬ SameMeaning (.object stateBefore) (.object stateAfter) ∧
      ((semantic (.object stateBefore) (.object stateAfter)).contains "hosts/b" = true ↔
        (stateBefore.lookup "hosts/b").isSome ≠ (stateAfter.lookup "hosts/b").isSome ∨
          ∃ a b, stateBefore.lookup "hosts/b" = some a ∧ stateAfter.lookup "hosts/b" = some b ∧
            ¬ SameMeaning a b) := by
  obtain ⟨hempty, hcontains⟩ := semantic_decides_sameMeaning (.object stateBefore)
    (.object stateAfter) wellFormed_stateBefore wellFormed_stateAfter
  have hdiffer : (semantic (.object stateBefore) (.object stateAfter)).isEmpty = false := by
    decide +kernel
  refine ⟨?_, hcontains rfl rfl "hosts/b"⟩
  intro h
  rw [hempty.2 h] at hdiffer
  cases hdiffer

end Diff

end ReconcileTrigger

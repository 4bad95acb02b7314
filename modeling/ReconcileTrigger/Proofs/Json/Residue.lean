import Mathlib.Data.List.Nodup
import ReconcileTrigger.Proofs.Json.Edited
import ReconcileTrigger.Proofs.Json.Equivalence

/-!
The edited document and the new one have the same positions, and differ only where a leaf was left
alone. There the edited document has the leaf of the old one.
-/

namespace ReconcileTrigger.Json

variable {keep : Value → Value → Bool}

private theorem editedAt_cases {old : Option Value} {x y : Value}
    (h : editedAt keep old (some y) = some x) :
    x = y ∨ ∃ a, old = some a ∧ x = edited keep a y := by
  cases old with
  | none => exact .inl (Option.some.inj h).symm
  | some a => exact .inr ⟨a, rfl, (Option.some.inj h).symm⟩

/-- The edited document agrees with the new one up to the leaves that are left alone. -/
theorem agreeUpTo_edited (hkeep : ∀ v, keep v v = true) (old new : Value) :
    AgreeUpTo (fun a b => keep a b = true) (edited keep old new) new := by
  induction old, new using Value.inductionOnPairs with
  | objects old new ih =>
    rw [edited]
    apply AgreeUpTo.object
    · intro key
      rw [lookup_editedMembers]
      cases old.lookup key <;> cases new.lookup key <;> rfl
    · intro key x b hx hb
      rw [lookup_editedMembers, hb] at hx
      rcases editedAt_cases hx with rfl | ⟨a, ha, rfl⟩
      · exact .refl hkeep x
      · exact ih key a b ha (mem_of_lookup_eq_some hb)
  | arrays old new ih =>
    rw [edited]
    apply AgreeUpTo.array (length_editedElements old new)
    intro i x b hx hb
    rw [getElem?_editedElements, hb] at hx
    rcases editedAt_cases hx with rfl | ⟨a, ha, rfl⟩
    · exact .refl hkeep x
    · exact ih i a b ha hb
  | leaves old new hpair =>
    rw [edited_of_isLeafPair hpair]
    split
    · rename_i h
      exact .leaf hpair h
    · exact .refl hkeep new

/-- After the edits that leave equal leaves alone the documents are equal. -/
theorem same_edited (old new : Value) : (edited Value.same old new).same new = true := by
  induction old, new using Value.inductionOnPairs with
  | objects old new ih =>
    rw [edited, Value.same]
    induction new with
    | nil => rfl
    | cons e rest ihrest =>
      obtain ⟨key, value⟩ := e
      have hrest := ihrest fun key a b ha hb => ih key a b ha (List.mem_cons_of_mem _ hb)
      rw [editedMembers, Value.sameMembers, beq_self_eq_true, hrest, Bool.true_and, Bool.and_true]
      cases ha : old.lookup key with
      | none => exact value.same_refl
      | some previous => exact ih key previous value ha (List.mem_cons_self ..)
  | arrays old new ih =>
    rw [edited, Value.same]
    induction new generalizing old with
    | nil =>
      rw [editedElements]
      rfl
    | cons value new ihnew =>
      cases old with
      | nil =>
        have hsame := (Value.array (value :: new)).same_refl
        rwa [Value.same] at hsame
      | cons previous old =>
        have hrest := ihnew old fun i a b ha hb => ih (i + 1) a b ha hb
        rw [editedElements, Value.sameElements, hrest, ih 0 previous value rfl rfl]
        rfl
  | leaves old new hpair =>
    rw [edited_of_isLeafPair hpair]
    split
    · rename_i h
      exact h
    · exact new.same_refl

/-- The part of the edited document below a step, from the parts of the two others. -/
theorem child?_edited_eq_some {step : Step} {old new a b : Value} (ha : step.child? old = some a)
    (hb : step.child? new = some b) :
    step.child? (edited keep old new) = some (edited keep a b) := by
  cases step with
  | member key =>
    cases old with
    | object old =>
      cases new with
      | object new =>
        have hlookup : old.lookup key = some a := ha
        have hlookup' : new.lookup key = some b := hb
        rw [edited, Step.child?, lookup_editedMembers, hlookup, hlookup']
        rfl
      | _ => contradiction
    | _ => contradiction
  | element index =>
    cases old with
    | array old =>
      cases new with
      | array new =>
        have hget : old[index]? = some a := ha
        have hget' : new[index]? = some b := hb
        rw [edited, Step.child?, getElem?_editedElements, hget, hget']
        rfl
      | _ => contradiction
    | _ => contradiction

/-- The part of the edited document at a position of both others. -/
theorem at?_edited_eq_some {old new a b : Value} {p : Position} (ha : old.at? p = some a)
    (hb : new.at? p = some b) : (edited keep old new).at? p = some (edited keep a b) := by
  induction p generalizing old new with
  | nil =>
    obtain rfl : old = a := Option.some.inj ha
    obtain rfl : new = b := Option.some.inj hb
    rfl
  | cons step rest ih =>
    obtain ⟨x, hx, ha⟩ := Value.at?_cons_eq_some_iff.1 ha
    obtain ⟨y, hy, hb⟩ := Value.at?_cons_eq_some_iff.1 hb
    exact Value.at?_cons_eq_some_iff.2 ⟨_, child?_edited_eq_some hx hy, ih ha hb⟩

theorem Step.child?_eq_none_of_isScalar {v : Value} (h : v.IsScalar) (step : Step) :
    step.child? v = none := by
  cases v with
  | object members => exact absurd rfl (h.not_object members)
  | array elements => exact absurd rfl (h.not_array elements)
  | _ => cases step <;> rfl

/-- A part of the edited document is that of the new one, or comes from the parts of both. -/
theorem child?_edited_cases
    (hscalar : ∀ a b, Value.IsLeafPair a b → keep a b = true → a.IsScalar ∧ b.IsScalar)
    {step : Step} {old new x y : Value} (hx : step.child? (edited keep old new) = some x)
    (hy : step.child? new = some y) :
    x = y ∨ ∃ a, step.child? old = some a ∧ x = edited keep a y := by
  induction old, new using Value.inductionOnPairs with
  | objects old new =>
    cases step with
    | member key =>
      have hlookup : new.lookup key = some y := hy
      rw [edited, Step.child?, lookup_editedMembers, hlookup] at hx
      exact editedAt_cases hx
    | element index => contradiction
  | arrays old new =>
    cases step with
    | member key => contradiction
    | element index =>
      have hget : new[index]? = some y := hy
      rw [edited, Step.child?, getElem?_editedElements, hget] at hx
      exact editedAt_cases hx
  | leaves old new hpair =>
    rw [edited_of_isLeafPair hpair] at hx
    split at hx
    · rename_i h
      rw [step.child?_eq_none_of_isScalar (hscalar old new hpair h).2] at hy
      contradiction
    · exact .inl (Option.some.inj (hx.symm.trans hy))

/-- Where a leaf of the edited document is not that of the new one, it is that of the old one, and
was left alone. -/
theorem keep_of_at?_edited
    (hscalar : ∀ a b, Value.IsLeafPair a b → keep a b = true → a.IsScalar ∧ b.IsScalar)
    {old new x y : Value} {p : Position} (hx : (edited keep old new).at? p = some x)
    (hy : new.at? p = some y) (hpair : Value.IsLeafPair x y) (hne : x ≠ y) :
    old.at? p = some x ∧ keep x y = true := by
  induction p generalizing old new with
  | nil =>
    obtain rfl : edited keep old new = x := Option.some.inj hx
    obtain rfl : new = y := Option.some.inj hy
    induction old, new using Value.inductionOnPairs with
    | objects old new =>
      rw [edited] at hpair
      exact (hpair.not_objects _ _ rfl rfl).elim
    | arrays old new =>
      rw [edited] at hpair
      exact (hpair.not_arrays _ _ rfl rfl).elim
    | leaves old new hleaf =>
      rw [edited_of_isLeafPair hleaf] at hne ⊢
      split at hne
      · rename_i h
        rw [if_pos h]
        exact ⟨rfl, h⟩
      · exact absurd rfl hne
  | cons step rest ih =>
    obtain ⟨x', hx', hx⟩ := Value.at?_cons_eq_some_iff.1 hx
    obtain ⟨y', hy', hy⟩ := Value.at?_cons_eq_some_iff.1 hy
    rcases child?_edited_cases hscalar hx' hy' with rfl | ⟨a, ha, rfl⟩
    · exact absurd (Option.some.inj (hx.symm.trans hy)) hne
    · obtain ⟨hold, hkeep⟩ := ih hx hy
      exact ⟨Value.at?_cons_eq_some_iff.2 ⟨a, ha, hold⟩, hkeep⟩

/-- Below one step there is no part in either of two documents that agree, or there are two that
agree as well. -/
theorem AgreeUpTo.child?_cases {leaf : Value → Value → Prop}
    (hscalar : ∀ a b, Value.IsLeafPair a b → leaf a b → a.IsScalar ∧ b.IsScalar)
    {a b : Value} (h : AgreeUpTo leaf a b) (step : Step) :
    (step.child? a = none ∧ step.child? b = none) ∨
      ∃ x y, step.child? a = some x ∧ step.child? b = some y ∧ AgreeUpTo leaf x y := by
  cases h with
  | @object old new keys members =>
    cases step with
    | member key =>
      have hkey := keys key
      cases ha : old.lookup key with
      | none =>
        rw [ha, Option.isSome_none] at hkey
        exact .inl ⟨ha, Option.isNone_iff_eq_none.1 (Option.isSome_eq_false_iff.1 hkey.symm)⟩
      | some x =>
        rw [ha, Option.isSome_some] at hkey
        obtain ⟨y, hb⟩ := Option.isSome_iff_exists.1 hkey.symm
        exact .inr ⟨x, y, ha, hb, members key x y ha hb⟩
    | element index => exact .inl ⟨rfl, rfl⟩
  | @array old new length elements =>
    cases step with
    | member key => exact .inl ⟨rfl, rfl⟩
    | element index =>
      by_cases hlt : index < old.length
      · have ha := List.getElem?_eq_getElem hlt
        have hb := List.getElem?_eq_getElem (length ▸ hlt : index < new.length)
        exact .inr ⟨_, _, ha, hb, elements index _ _ ha hb⟩
      · have hle : old.length ≤ index := Nat.le_of_not_lt hlt
        exact .inl ⟨List.getElem?_eq_none hle, List.getElem?_eq_none (length ▸ hle)⟩
  | leaf pair related =>
    obtain ⟨ha, hb⟩ := hscalar a b pair related
    exact .inl ⟨step.child?_eq_none_of_isScalar ha, step.child?_eq_none_of_isScalar hb⟩

/-- Documents that agree up to leaves without parts have the same positions. -/
theorem AgreeUpTo.isSome_at? {leaf : Value → Value → Prop}
    (hscalar : ∀ a b, Value.IsLeafPair a b → leaf a b → a.IsScalar ∧ b.IsScalar)
    {a b : Value} (h : AgreeUpTo leaf a b) (p : Position) :
    (a.at? p).isSome = (b.at? p).isSome := by
  induction p generalizing a b with
  | nil => rfl
  | cons step rest ih =>
    rw [Value.at?, Value.at?]
    rcases h.child?_cases hscalar step with ⟨ha, hb⟩ | ⟨x, y, ha, hb, hxy⟩
    · rw [ha, hb]
    · rw [ha, hb]
      exact ih hxy

end ReconcileTrigger.Json

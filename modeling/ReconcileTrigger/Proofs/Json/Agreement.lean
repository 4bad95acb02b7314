import ReconcileTrigger.Proofs.Json.Parts

/-!
Agreement of two documents up to their leaves. Objects agree on the same keys, arrays index by
index, and only at the leaves does a given relation decide. Equality of documents, equality of
their meaning and coarser relations are all of this kind.
-/

namespace ReconcileTrigger.Json

/-- Two documents with the same keys and lengths throughout, whose leaves are related. -/
inductive AgreeUpTo (leaf : Value → Value → Prop) : Value → Value → Prop
  | object {old new : List (String × Value)}
      (keys : ∀ key, (old.lookup key).isSome = (new.lookup key).isSome)
      (members : ∀ key a b, old.lookup key = some a → new.lookup key = some b →
        AgreeUpTo leaf a b) : AgreeUpTo leaf (.object old) (.object new)
  | array {old new : List Value} (length : old.length = new.length)
      (elements : ∀ (i : Nat) a b, old[i]? = some a → new[i]? = some b → AgreeUpTo leaf a b) :
      AgreeUpTo leaf (.array old) (.array new)
  | leaf {old new : Value} (pair : Value.IsLeafPair old new) (related : leaf old new) :
      AgreeUpTo leaf old new

namespace AgreeUpTo

variable {leaf : Value → Value → Prop}

theorem object_iff {old new : List (String × Value)} :
    AgreeUpTo leaf (.object old) (.object new) ↔
      (∀ key, (old.lookup key).isSome = (new.lookup key).isSome) ∧
        ∀ key a b, old.lookup key = some a → new.lookup key = some b → AgreeUpTo leaf a b := by
  constructor
  · intro h
    cases h with
    | object keys members => exact ⟨keys, members⟩
    | leaf pair _ => exact (pair.not_objects _ _ rfl rfl).elim
  · rintro ⟨keys, members⟩
    exact .object keys members

theorem array_iff {old new : List Value} :
    AgreeUpTo leaf (.array old) (.array new) ↔
      old.length = new.length ∧
        ∀ (i : Nat) a b, old[i]? = some a → new[i]? = some b → AgreeUpTo leaf a b := by
  constructor
  · intro h
    cases h with
    | array length elements => exact ⟨length, elements⟩
    | leaf pair _ => exact (pair.not_arrays _ _ rfl rfl).elim
  · rintro ⟨length, elements⟩
    exact .array length elements

theorem leaf_iff {old new : Value} (h : Value.IsLeafPair old new) :
    AgreeUpTo leaf old new ↔ leaf old new := by
  constructor
  · intro hagree
    cases hagree with
    | object => exact (h.not_objects _ _ rfl rfl).elim
    | array => exact (h.not_arrays _ _ rfl rfl).elim
    | leaf _ related => exact related
  · exact .leaf h

/-- A weaker relation of the leaves is a weaker agreement. -/
theorem mono {weaker : Value → Value → Prop}
    (h : ∀ a b, Value.IsLeafPair a b → leaf a b → weaker a b) {old new : Value}
    (hagree : AgreeUpTo leaf old new) : AgreeUpTo weaker old new := by
  induction hagree with
  | object keys _ ih => exact .object keys ih
  | array length _ ih => exact .array length ih
  | leaf pair related => exact .leaf pair (h _ _ pair related)

theorem refl (h : ∀ v, leaf v v) (v : Value) : AgreeUpTo leaf v v := by
  induction v using Value.inductionOnParts with
  | object members ih =>
    apply AgreeUpTo.object (fun _ => rfl)
    intro key a b ha hb
    obtain rfl : a = b := Option.some.inj (ha.symm.trans hb)
    exact ih _ (mem_of_lookup_eq_some ha)
  | array elements ih =>
    apply AgreeUpTo.array rfl
    intro i a b ha hb
    obtain rfl : a = b := Option.some.inj (ha.symm.trans hb)
    exact ih a (List.mem_of_getElem? ha)
  | scalar v hscalar => exact .leaf hscalar.isLeafPair_left (h v)

/-- Agreement is transitive where the relation of the leaves is, and relates scalars only. -/
theorem trans (hscalar : ∀ a b, Value.IsLeafPair a b → leaf a b → a.IsScalar ∧ b.IsScalar)
    (htrans : ∀ a b c, Value.IsScalar b → Value.IsScalar c → leaf a b → leaf b c → leaf a c)
    {a b c : Value}
    (hab : AgreeUpTo leaf a b) (hbc : AgreeUpTo leaf b c) : AgreeUpTo leaf a c := by
  induction hab generalizing c with
  | @object old middle keys members ih =>
    cases hbc with
    | object keys' members' =>
      apply AgreeUpTo.object (fun key => (keys key).trans (keys' key))
      intro key x z hx hz
      have hsome : (middle.lookup key).isSome = true := by rw [← keys key, hx, Option.isSome_some]
      obtain ⟨y, hy⟩ := Option.isSome_iff_exists.1 hsome
      exact ih key x y hx hy (members' key y z hy hz)
    | leaf pair related => exact ((hscalar _ _ pair related).1.not_object _ rfl).elim
  | @array old middle length elements ih =>
    cases hbc with
    | array length' elements' =>
      apply AgreeUpTo.array (length.trans length')
      intro i x z hx hz
      have hlt : i < middle.length := by
        rw [← length]
        exact (List.getElem?_eq_some_iff.1 hx).1
      have hy : middle[i]? = some middle[i] := List.getElem?_eq_getElem hlt
      exact ih i x middle[i] hx hy (elements' i middle[i] z hy hz)
    | leaf pair related => exact ((hscalar _ _ pair related).1.not_array _ rfl).elim
  | @leaf old middle pair related =>
    obtain ⟨hold, hmiddle⟩ := hscalar _ _ pair related
    cases hbc with
    | object => exact (hmiddle.not_object _ rfl).elim
    | array => exact (hmiddle.not_array _ rfl).elim
    | leaf pair' related' =>
      have hnew := (hscalar _ _ pair' related').2
      exact .leaf hold.isLeafPair_left (htrans _ _ _ hmiddle hnew related related')

end AgreeUpTo

end ReconcileTrigger.Json

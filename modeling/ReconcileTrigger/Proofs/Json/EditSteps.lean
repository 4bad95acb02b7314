import Mathlib.Data.List.Nodup
import ReconcileTrigger.Proofs.Json.Edits

/-!
What the edits say about the two documents. There are none iff the documents agree, those of an
object come key by key, and an edit replaces a leaf, adds or removes a part below one step, or is
an edit of two parts below the same step.
-/

namespace ReconcileTrigger.Json

variable {keep : Value → Value → Bool}

theorem edits_eq_nil_iff_of_isLeafPair {old new : Value} (h : Value.IsLeafPair old new) :
    edits keep old new = [] ↔ keep old new = true := by
  rw [edits_of_isLeafPair h]
  split <;> simp_all

/-- Below a step there are no edits iff there is no part in either container, or one in both and
no edits of them. -/
theorem editsAt_eq_nil_iff {step : Step} {old new : Option Value} :
    editsAt keep step old new = [] ↔
      old.isSome = new.isSome ∧ ∀ a b, old = some a → new = some b → edits keep a b = [] := by
  cases old <;> cases new <;> simp [editsAt]

theorem edits_object_eq_nil_iff {old new : List (String × Value)} :
    edits keep (.object old) (.object new) = [] ↔
      (∀ e ∈ new, ∃ a, old.lookup e.1 = some a ∧ edits keep a e.2 = []) ∧
        ∀ e ∈ old, (new.lookup e.1).isSome = true := by
  rw [edits_object, List.append_eq_nil_iff, List.flatMap_eq_nil_iff, List.flatMap_eq_nil_iff]
  apply and_congr
  · apply forall₂_congr
    intro e _
    cases old.lookup e.1 <;> simp [editsAt_eq_nil_iff]
  constructor
  · intro h e he
    by_contra hnone
    rw [Bool.not_eq_true, Option.isSome_eq_false_iff] at hnone
    exact List.cons_ne_nil _ _ (h e (List.mem_filter.2 ⟨he, hnone⟩))
  · intro h e he
    obtain ⟨hmem, hnone⟩ := List.mem_filter.1 he
    have hsome := h e hmem
    rw [Option.isNone_iff_eq_none.1 hnone] at hsome
    cases hsome

theorem edits_array_eq_nil_iff {old new : List Value} :
    edits keep (.array old) (.array new) = [] ↔
      old.length = new.length ∧
        ∀ (i : Nat) a b, old[i]? = some a → new[i]? = some b → edits keep a b = [] := by
  rw [edits_array, List.append_eq_nil_iff, List.flatMap_eq_nil_iff, List.replicate_eq_nil_iff]
  constructor
  · rintro ⟨hparts, hsurplus⟩
    have hle : new.length ≤ old.length := by
      by_contra hlt
      have hlast := (editsAt_eq_nil_iff.1 (hparts old.length (List.mem_range.2 (by omega)))).1
      rw [List.getElem?_eq_none (Nat.le_refl _), List.getElem?_eq_getElem (by omega)] at hlast
      cases hlast
    refine ⟨by omega, ?_⟩
    intro i a b ha hb
    have hi := (List.getElem?_eq_some_iff.1 hb).1
    exact (editsAt_eq_nil_iff.1 (hparts i (List.mem_range.2 hi))).2 a b ha hb
  · rintro ⟨hlength, hparts⟩
    refine ⟨?_, by omega⟩
    intro i hmem
    have hi := List.mem_range.1 hmem
    refine editsAt_eq_nil_iff.2 ⟨?_, hparts i⟩
    rw [List.getElem?_eq_getElem hi, List.getElem?_eq_getElem (by omega)]
    rfl

/-- Without edits the documents agree up to the leaves that are left alone. -/
theorem agreeUpTo_of_edits_eq_nil {old new : Value} (h : edits keep old new = []) :
    AgreeUpTo (fun a b => keep a b = true) old new := by
  induction old, new using Value.inductionOnPairs with
  | objects old new ih =>
    rw [edits_object_eq_nil_iff] at h
    obtain ⟨hmembers, hremovals⟩ := h
    apply AgreeUpTo.object
    · intro key
      rw [Bool.eq_iff_iff]
      constructor
      · intro hsome
        obtain ⟨a, ha⟩ := Option.isSome_iff_exists.1 hsome
        exact hremovals _ (mem_of_lookup_eq_some ha)
      · intro hsome
        obtain ⟨b, hb⟩ := Option.isSome_iff_exists.1 hsome
        obtain ⟨a, ha, _⟩ := hmembers _ (mem_of_lookup_eq_some hb)
        exact Option.isSome_of_eq_some ha
    · intro key a b ha hb
      have hmem := mem_of_lookup_eq_some hb
      obtain ⟨a', ha', hnil⟩ := hmembers _ hmem
      obtain rfl : a' = a := Option.some.inj (ha'.symm.trans ha)
      exact ih key a' b ha hmem hnil
  | arrays old new ih =>
    rw [edits_array_eq_nil_iff] at h
    exact .array h.1 fun i a b ha hb => ih i a b ha hb (h.2 i a b ha hb)
  | leaves old new hpair => exact .leaf hpair ((edits_eq_nil_iff_of_isLeafPair hpair).1 h)

/-- There are no edits iff the documents agree up to the leaves that are left alone. -/
theorem edits_eq_nil_iff {old new : Value} (hnew : new.WellFormed) :
    edits keep old new = [] ↔ AgreeUpTo (fun a b => keep a b = true) old new := by
  refine ⟨agreeUpTo_of_edits_eq_nil, ?_⟩
  intro h
  induction h with
  | @object old new keys members ih =>
    apply edits_object_eq_nil_iff.2
    constructor
    · intro e he
      have hlookup := (lookup_eq_some_iff_mem (Value.wellFormed_object_iff.1 hnew).1).2 he
      have hsome : (old.lookup e.1).isSome = true := by rw [keys e.1, hlookup, Option.isSome_some]
      obtain ⟨previous, hprevious⟩ := Option.isSome_iff_exists.1 hsome
      exact ⟨previous, hprevious, ih e.1 previous e.2 hprevious hlookup (hnew.lookup hlookup)⟩
    · intro e he
      rw [← keys e.1, lookup_isSome_iff_mem_keys]
      exact List.mem_map_of_mem he
  | array length _ ih =>
    exact edits_array_eq_nil_iff.2 ⟨length, fun i a b ha hb => ih i a b ha hb (hnew.getElem? hb)⟩
  | leaf pair related => exact (edits_eq_nil_iff_of_isLeafPair pair).2 related

/-- The keys in the order of their edits: those of the new object, then the ones it lacks. -/
def editedKeys (old new : List (String × Value)) : List String :=
  new.map Prod.fst ++ (old.filter fun (key, _) => (new.lookup key).isNone).map Prod.fst

theorem mem_editedKeys {old new : List (String × Value)} {key : String} :
    key ∈ editedKeys old new ↔
      (old.lookup key).isSome = true ∨ (new.lookup key).isSome = true := by
  rw [editedKeys, List.mem_append, ← lookup_isSome_iff_mem_keys]
  constructor
  · rintro (hnew | hold)
    · exact .inr hnew
    · obtain ⟨e, he, rfl⟩ := List.mem_map.1 hold
      exact .inl (lookup_isSome_iff_mem_keys.2 (List.mem_map_of_mem (List.mem_filter.1 he).1))
  · intro h
    by_cases hnew : (new.lookup key).isSome = true
    · exact .inl hnew
    · obtain ⟨a, ha⟩ := Option.isSome_iff_exists.1 (h.resolve_right hnew)
      refine .inr (List.mem_map.2 ⟨(key, a), ?_, rfl⟩)
      rw [Bool.not_eq_true, Option.isSome_eq_false_iff] at hnew
      exact List.mem_filter.2 ⟨mem_of_lookup_eq_some ha, hnew⟩

/-- Below the other keys there is nothing to edit. -/
theorem editsAt_of_notMem_editedKeys {old new : List (String × Value)} {key : String}
    (h : key ∉ editedKeys old new) :
    editsAt keep (.member key) (old.lookup key) (new.lookup key) = [] := by
  rw [mem_editedKeys, not_or, Bool.not_eq_true, Bool.not_eq_true, Option.isSome_eq_false_iff,
    Option.isSome_eq_false_iff, Option.isNone_iff_eq_none, Option.isNone_iff_eq_none] at h
  rw [h.1, h.2]
  rfl

theorem nodup_editedKeys {old new : List (String × Value)} (hold : SortedKeys old)
    (hnew : SortedKeys new) : (editedKeys old new).Nodup := by
  refine List.Nodup.append hnew.nodup ?_ ?_
  · exact List.Nodup.sublist (List.filter_sublist.map _) hold.nodup
  · intro key hkey hmissing
    obtain ⟨e, he, rfl⟩ := List.mem_map.1 hmissing
    have hnone := (List.mem_filter.1 he).2
    have hsome := lookup_isSome_iff_mem_keys.2 hkey
    cases hlookup : new.lookup e.1 with
    | none => simp [hlookup] at hsome
    | some v => simp [hlookup] at hnone

/-- The edits of an object, key by key. -/
theorem edits_object_eq_flatMap {old new : List (String × Value)} (hnew : SortedKeys new) :
    edits keep (.object old) (.object new) =
      (editedKeys old new).flatMap fun key =>
        editsAt keep (.member key) (old.lookup key) (new.lookup key) := by
  rw [edits_object, editedKeys, List.flatMap_append, List.flatMap_map, List.flatMap_map]
  congr 1
  · apply List.flatMap_congr
    intro e he
    rw [(lookup_eq_some_iff_mem hnew).2 he]
  · apply List.flatMap_congr
    intro e he
    obtain ⟨hmem, hnone⟩ := List.mem_filter.1 he
    have hsome := lookup_isSome_iff_mem_keys.2 (List.mem_map_of_mem hmem)
    obtain ⟨a, ha⟩ := Option.isSome_iff_exists.1 hsome
    rw [ha, Option.isNone_iff_eq_none.1 hnone]
    rfl

/-- What an edit can do: replace a leaf, add or remove a part below one step, or do any of this to
two parts below the same step. -/
inductive IsEdit (keep : Value → Value → Bool) : Value → Value → Operation → Prop
  | replace {old new : Value} (pair : Value.IsLeafPair old new) (differ : keep old new = false) :
      IsEdit keep old new (.replace [] new)
  | add {old new value : Value} (step : Step) (missing : step.child? old = none)
      (present : step.child? new = some value) : IsEdit keep old new (.add step.pointer value)
  | remove {old new value : Value} (step : Step) (present : step.child? old = some value)
      (missing : step.child? new = none) : IsEdit keep old new (.remove step.pointer)
  | inside {old new a b : Value} {op : Operation} (step : Step) (hold : step.child? old = some a)
      (hnew : step.child? new = some b) (edit : IsEdit keep a b op) :
      IsEdit keep old new (op.under step.pointer)

private theorem isEdit_of_mem_editsAt (step : Step) {old new : Value} {op : Operation}
    (h : op ∈ editsAt keep step (step.child? old) (step.child? new))
    (ih : ∀ a b, step.child? old = some a → step.child? new = some b →
      ∀ op ∈ edits keep a b, IsEdit keep a b op) : IsEdit keep old new op := by
  cases hold : step.child? old with
  | none =>
    cases hnew : step.child? new with
    | none => simp [hold, hnew, editsAt] at h
    | some b =>
      rw [hold, hnew] at h
      obtain rfl := List.mem_singleton.1 h
      exact .add step hold hnew
  | some a =>
    cases hnew : step.child? new with
    | none =>
      rw [hold, hnew] at h
      obtain rfl := List.mem_singleton.1 h
      exact .remove step hold hnew
    | some b =>
      rw [hold, hnew] at h
      obtain ⟨op, hop, rfl⟩ := List.mem_map.1 h
      exact .inside step hold hnew (ih a b hold hnew op hop)

theorem isEdit_of_mem_edits {old new : Value} (hnew : new.WellFormed) {op : Operation}
    (h : op ∈ edits keep old new) : IsEdit keep old new op := by
  induction old, new using Value.inductionOnPairs generalizing op with
  | objects old new ih =>
    rw [edits_object_eq_flatMap (Value.wellFormed_object_iff.1 hnew).1] at h
    obtain ⟨key, _, hop⟩ := List.mem_flatMap.1 h
    apply isEdit_of_mem_editsAt (.member key) hop
    intro a b ha hb op hop
    exact ih key a b ha (mem_of_lookup_eq_some hb) (hnew.lookup hb) hop
  | arrays old new ih =>
    rw [edits_array] at h
    rcases List.mem_append.1 h with h | h
    · obtain ⟨i, _, hop⟩ := List.mem_flatMap.1 h
      apply isEdit_of_mem_editsAt (.element i) hop
      intro a b ha hb op hop
      exact ih i a b ha hb (hnew.getElem? hb) hop
    · obtain ⟨hsurplus, rfl⟩ := List.mem_replicate.1 h
      have hlt : new.length < old.length := by omega
      exact .remove (.element new.length) (List.getElem?_eq_getElem hlt)
        (List.getElem?_eq_none (Nat.le_refl _))
  | leaves old new hpair =>
    rw [edits_of_isLeafPair hpair] at h
    split at h
    · simp at h
    · rename_i hkeep
      obtain rfl := List.mem_singleton.1 h
      exact .replace hpair (Bool.not_eq_true _ ▸ hkeep)

/-- An edit of two parts below the same step is an edit of the containers. -/
theorem under_mem_edits {old new a b : Value} (hwf : new.WellFormed) {step : Step}
    (hold : step.child? old = some a) (hnew : step.child? new = some b) {op : Operation}
    (h : op ∈ edits keep a b) : op.under step.pointer ∈ edits keep old new := by
  have hstep : op.under step.pointer ∈ editsAt keep step (step.child? old) (step.child? new) := by
    rw [hold, hnew]
    exact List.mem_map_of_mem h
  cases step with
  | member key =>
    cases old with
    | object old =>
      cases new with
      | object new =>
        rw [edits_object_eq_flatMap (Value.wellFormed_object_iff.1 hwf).1]
        refine List.mem_flatMap.2 ⟨key, mem_editedKeys.2 (.inl ?_), hstep⟩
        exact Option.isSome_of_eq_some hold
      | _ => contradiction
    | _ => contradiction
  | element i =>
    cases old with
    | array old =>
      cases new with
      | array new =>
        rw [edits_array]
        refine List.mem_append_left _ (List.mem_flatMap.2 ⟨i, ?_, hstep⟩)
        exact List.mem_range.2 (List.getElem?_eq_some_iff.1 hnew).1
      | _ => contradiction
    | _ => contradiction

namespace IsEdit

/-- A replacement is at a position where two leaves differ. -/
theorem of_replace {old new value : Value} {path : Pointer}
    (h : IsEdit keep old new (.replace path value)) :
    ∃ (p : Position) (a : Value), path = p.pointer ∧ old.at? p = some a ∧
      new.at? p = some value ∧ Value.IsLeafPair a value ∧ keep a value = false := by
  generalize hop : Operation.replace path value = op at h
  induction h generalizing path with
  | @replace old new pair differ =>
    obtain ⟨rfl, rfl⟩ := Operation.replace.inj hop
    exact ⟨[], old, rfl, rfl, rfl, pair, differ⟩
  | add => cases hop
  | remove => cases hop
  | @inside old new a b op step hold hnew edit ih =>
    cases op with
    | replace below value' =>
      obtain ⟨rfl, rfl⟩ := Operation.replace.inj hop
      obtain ⟨p, x, rfl, ha, hb, pair, differ⟩ := ih rfl
      exact ⟨step :: p, x, rfl, Value.at?_cons_eq_some_iff.2 ⟨a, hold, ha⟩,
        Value.at?_cons_eq_some_iff.2 ⟨b, hnew, hb⟩, pair, differ⟩
    | _ => cases hop

end IsEdit

/-- Where two leaves differ, there is a replacement. -/
theorem replace_mem_edits {old new a b : Value} (hwf : new.WellFormed) {p : Position}
    (hold : old.at? p = some a) (hnew : new.at? p = some b) (hpair : Value.IsLeafPair a b)
    (hkeep : keep a b = false) : Operation.replace p.pointer b ∈ edits keep old new := by
  induction p generalizing old new with
  | nil =>
    obtain rfl : old = a := Option.some.inj hold
    obtain rfl : new = b := Option.some.inj hnew
    rw [edits_of_isLeafPair hpair, hkeep]
    exact List.mem_singleton_self _
  | cons step rest ih =>
    obtain ⟨x, hx, hold⟩ := Value.at?_cons_eq_some_iff.1 hold
    obtain ⟨y, hy, hnew⟩ := Value.at?_cons_eq_some_iff.1 hnew
    exact under_mem_edits hwf hx hy (ih (hwf.child? hy) hold hnew)

end ReconcileTrigger.Json

import Mathlib.Data.List.Nodup
import ReconcileTrigger.Proofs.Json.Residue

/-!
Equality of documents, which is decided entry by entry, is agreement up to equal leaves, which is
stated key by key. So there is nothing to edit between two documents iff they are equal.
-/

namespace ReconcileTrigger.Json

namespace Value

def samePart : Option Value → Option Value → Bool
  | none, none => true
  | some a, some b => a.same b
  | _, _ => false

theorem samePart_eq_true_iff {a b : Option Value} :
    samePart a b = true ↔
      a.isSome = b.isSome ∧ ∀ x y, a = some x → b = some y → x.same y = true := by
  cases a <;> cases b <;> simp [samePart]

theorem samePart_refl (a : Option Value) : samePart a a = true := by
  cases a with
  | none => rfl
  | some v => exact v.same_refl

theorem samePart_trans {a b c : Option Value} (hab : samePart a b = true)
    (hbc : samePart b c = true) : samePart a c = true := by
  cases b with
  | none =>
    cases a with
    | none => exact hbc
    | some x => contradiction
  | some y =>
    cases a with
    | none => contradiction
    | some x =>
      cases c with
      | none => contradiction
      | some z => exact same_trans hab hbc

theorem samePart_of_sameMembers {a b : List (String × Value)} (h : sameMembers a b = true)
    (key : String) : samePart (a.lookup key) (b.lookup key) = true := by
  induction a generalizing b with
  | nil =>
    cases b with
    | nil => rfl
    | cons => simp [sameMembers] at h
  | cons e rest ih =>
    obtain ⟨k, x⟩ := e
    cases b with
    | nil => simp [sameMembers] at h
    | cons e' rest' =>
      obtain ⟨l, y⟩ := e'
      rw [sameMembers, Bool.and_eq_true, Bool.and_eq_true, beq_iff_eq] at h
      obtain ⟨⟨rfl, hfirst⟩, hrest⟩ := h
      by_cases hkey : key = k
      · subst hkey
        rw [List.lookup_cons_self, List.lookup_cons_self]
        exact hfirst
      · have hne : (key == k) = false := by simpa using hkey
        simp only [List.lookup_cons, hne]
        exact ih hrest

theorem samePart_of_sameElements {a b : List Value} (h : sameElements a b = true) (i : Nat) :
    samePart a[i]? b[i]? = true := by
  induction a generalizing b i with
  | nil =>
    cases b with
    | nil => rfl
    | cons => simp [sameElements] at h
  | cons x rest ih =>
    cases b with
    | nil => simp [sameElements] at h
    | cons y rest' =>
      rw [sameElements, Bool.and_eq_true] at h
      cases i with
      | zero => exact h.1
      | succ i => exact ih h.2 i

theorem length_eq_of_sameElements {a b : List Value} (h : sameElements a b = true) :
    a.length = b.length := by
  induction a generalizing b with
  | nil =>
    cases b with
    | nil => rfl
    | cons => simp [sameElements] at h
  | cons x rest ih =>
    cases b with
    | nil => simp [sameElements] at h
    | cons y rest' =>
      rw [sameElements, Bool.and_eq_true] at h
      rw [List.length_cons, List.length_cons, ih h.2]

theorem agreeUpTo_of_same {a b : Value} (h : a.same b = true) :
    AgreeUpTo (fun x y => x.same y = true) a b := by
  induction a, b using inductionOnPairs with
  | objects a b ih =>
    rw [same] at h
    apply AgreeUpTo.object
    · intro key
      exact (samePart_eq_true_iff.1 (samePart_of_sameMembers h key)).1
    · intro key x y hx hy
      have hsame := (samePart_eq_true_iff.1 (samePart_of_sameMembers h key)).2 x y hx hy
      exact ih key x y hx (mem_of_lookup_eq_some hy) hsame
  | arrays a b ih =>
    rw [same] at h
    apply AgreeUpTo.array (length_eq_of_sameElements h)
    intro i x y hx hy
    have hsame := (samePart_eq_true_iff.1 (samePart_of_sameElements h i)).2 x y hx hy
    exact ih i x y hx hy hsame
  | leaves a b hpair => exact .leaf hpair h

end Value

open Value (samePart)

/-- Without edits the edited document is the old one, and that is equal to the new one. -/
theorem same_of_edits_eq_nil {old new : Value} (hold : old.WellFormed) (hnew : new.WellFormed)
    (h : edits Value.same old new = []) : old.same new = true := by
  have happly : Operation.applyAll? (edits Value.same old new) old =
      some (edited Value.same old new) := applyAll?_edits hold hnew
  rw [h] at happly
  have hedited : old = edited Value.same old new := Option.some.inj happly
  rw [hedited]
  exact same_edited old new

/-- There is nothing to edit between two documents iff they are equal. -/
theorem edits_eq_nil_iff_same {old new : Value} (hold : old.WellFormed) (hnew : new.WellFormed) :
    edits Value.same old new = [] ↔ old.same new = true :=
  ⟨same_of_edits_eq_nil hold hnew, fun h => (edits_eq_nil_iff hnew).2 (Value.agreeUpTo_of_same h)⟩

theorem editsAt_eq_nil_iff_samePart {step : Step} {old new : Option Value}
    (hold : ∀ a, old = some a → a.WellFormed) (hnew : ∀ b, new = some b → b.WellFormed) :
    editsAt Value.same step old new = [] ↔ samePart old new = true := by
  rw [editsAt_eq_nil_iff, Value.samePart_eq_true_iff]
  apply and_congr_right
  intro _
  constructor
  · intro h a b ha hb
    exact same_of_edits_eq_nil (hold a ha) (hnew b hb) (h a b ha hb)
  · intro h a b ha hb
    exact (edits_eq_nil_iff_same (hold a ha) (hnew b hb)).2 (h a b ha hb)

end ReconcileTrigger.Json

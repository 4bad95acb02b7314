import Mathlib.Data.List.Basic
import ReconcileTrigger.Proofs.Json.Agreement
import ReconcileTrigger.Proofs.Json.Encoding

/-!
Leaves of the same amount. Equivalence of leaves is not transitive: `1.0` and `1` are both
equivalent to `1000m`, but not to each other, since neither has a suffix. Being of the same amount
is the least that every chain of equivalent leaves keeps.
-/

namespace ReconcileTrigger.Json

/-- The leaves are equal, or numbers of the same decimal value, or texts that are quantities of the
same amount. -/
inductive SameAmount : Value → Value → Prop
  | same {a b : Value} (h : a.same b = true) : SameAmount a b
  | number {m n : Number} (h : m.decimal = n.decimal) : SameAmount (.number m) (.number n)
  | string {s t : String} {p q : Quantity} (hs : Quantity.parse s = .ok p)
      (ht : Quantity.parse t = .ok q) (h : p.amount.value = q.amount.value) :
      SameAmount (.string s) (.string t)

namespace SameAmount

theorem of_equivalent {a b : Value} (h : a.equivalent b = true) : SameAmount a b := by
  rcases Value.cases_of_equivalent h with ⟨m, n, rfl, rfl, hvalue⟩ | ⟨s, t, rfl, rfl, htext⟩ |
    ⟨_, _, hsame⟩
  · exact .number hvalue
  · rcases htext with rfl | ⟨p, q, hp, hq, _, hvalue⟩
    · exact .same (Value.same_refl _)
    · exact .string hp hq hvalue
  · exact .same hsame

theorem isScalar {a b : Value} (hpair : Value.IsLeafPair a b) (h : SameAmount a b) :
    a.IsScalar ∧ b.IsScalar := by
  cases h with
  | same h => exact hpair.isScalar_of_same h
  | number h => exact ⟨⟨nofun, nofun⟩, ⟨nofun, nofun⟩⟩
  | string hs ht h => exact ⟨⟨nofun, nofun⟩, ⟨nofun, nofun⟩⟩

/-- Equal leaves are identical, or numbers of the same decimal value. -/
private theorem cases_of_same {a b : Value} (hb : b.IsScalar) (h : a.same b = true) :
    a = b ∨ ∃ m n, a = .number m ∧ b = .number n ∧ m.decimal = n.decimal := by
  cases b with
  | object members => exact absurd rfl (hb.not_object members)
  | array elements => exact absurd rfl (hb.not_array elements)
  | number n =>
    cases a with
    | number m => exact .inr ⟨m, n, rfl, rfl, Number.decimal_eq_of_same h⟩
    | _ => contradiction
  | null =>
    cases a with
    | null => exact .inl rfl
    | _ => contradiction
  | bool y =>
    cases a with
    | bool x => exact .inl (congrArg Value.bool (eq_of_beq h))
    | _ => contradiction
  | string t =>
    cases a with
    | string s => exact .inl (congrArg Value.string (eq_of_beq h))
    | _ => contradiction

theorem trans {a b c : Value} (hb : b.IsScalar) (hc : c.IsScalar) (hab : SameAmount a b)
    (hbc : SameAmount b c) : SameAmount a c := by
  cases hab with
  | same h =>
    rcases cases_of_same hb h with rfl | ⟨m, n, rfl, rfl, hmn⟩
    · exact hbc
    · cases hbc with
      | same h' =>
        rcases cases_of_same hc h' with rfl | ⟨n', k, hn, rfl, hnk⟩
        · exact .number hmn
        · obtain rfl := Value.number.inj hn
          exact .number (hmn.trans hnk)
      | number h' => exact .number (hmn.trans h')
  | number h =>
    cases hbc with
    | same h' =>
      rcases cases_of_same hc h' with rfl | ⟨n, k, hn, rfl, hnk⟩
      · exact .number h
      · obtain rfl := Value.number.inj hn
        exact .number (h.trans hnk)
    | number h' => exact .number (h.trans h')
  | string hs ht h =>
    cases hbc with
    | same h' =>
      rcases cases_of_same hc h' with rfl | ⟨n, k, hn, _⟩
      · exact .string hs ht h
      · contradiction
    | string ht' hu h' =>
      obtain rfl := Except.ok.inj (ht.symm.trans ht')
      exact .string hs hu (h.trans h')

example : Value.equivalent (.string "1.0") (.string "1000m") = true ∧
    Value.equivalent (.string "1000m") (.string "1") = true ∧
    Value.equivalent (.string "1.0") (.string "1") = false := by
  decide +kernel

end SameAmount

/-- Documents that agree up to leaves of the same amount form a chain without loss. -/
theorem AgreeUpTo.trans_sameAmount {a b c : Value} (hab : AgreeUpTo SameAmount a b)
    (hbc : AgreeUpTo SameAmount b c) : AgreeUpTo SameAmount a c :=
  hab.trans (fun _ _ => SameAmount.isScalar) (fun _ _ _ => SameAmount.trans) hbc

end ReconcileTrigger.Json

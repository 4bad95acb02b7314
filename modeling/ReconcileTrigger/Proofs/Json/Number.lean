import Mathlib.Data.List.TakeWhile
import ReconcileTrigger.Equivalence
import ReconcileTrigger.Proofs.Binary64.Shortest
import ReconcileTrigger.Proofs.Quantity.Scientific

/-!
The decimal value of a number is what its written form says. Whatever form is chosen, positional or
with an exponent, it is read back as the coefficient times the power of ten that it was made from.
No number needs an exponent that is too large, so every written form is a quantity.
-/

namespace ReconcileTrigger.Json.Number

open Quantity (Exponent Magnitude Scientific)

def pointPlace (m : Decimal) : Int :=
  (Nat.toDigits 10 m.coefficient.natAbs).length + m.exponent

/-- The exponent in the written form of a magnitude, zero where the form is positional. -/
def magnitudeExponent (m : Decimal) : Int :=
  if m.coefficient = 0 ∨ (-5 < pointPlace m ∧ pointPlace m ≤ 16) then 0 else pointPlace m - 1

private theorem exponent_magnitudeExponent (place : Int) :
    Exponent ('e' :: (if place < 1 then '-' else '+') :: Nat.toDigits 10 (place - 1).natAbs)
      (place - 1) := by
  split
  · have h := Quantity.exponent_minus (.inl rfl) (place - 1).natAbs
    rwa [show -((place - 1).natAbs : Int) = place - 1 by omega] at h
  · have h := Quantity.exponent_plus (place - 1).natAbs
    rwa [show ((place - 1).natAbs : Int) = place - 1 by omega] at h

private theorem magnitudeChars_eq (n : Nat) (e : Int) :
    magnitudeChars ⟨n, e⟩ =
      if (n : Int) = 0 then ['0', '.', '0']
      else if -5 < pointPlace ⟨n, e⟩ ∧ pointPlace ⟨n, e⟩ ≤ 16 then
        if 0 ≤ e then Nat.toDigits 10 n ++ List.replicate e.toNat '0' ++ ['.', '0']
        else Decimal.withPoint (Nat.toDigits 10 n) (-e).toNat
      else
        Decimal.withLeadingPoint (Nat.toDigits 10 n) ++
          'e' :: (if pointPlace ⟨n, e⟩ < 1 then '-' else '+') ::
            Nat.toDigits 10 (pointPlace ⟨n, e⟩ - 1).natAbs := rfl

/-- A magnitude is written as what it is. -/
theorem magnitude_magnitudeChars {m : Decimal} (hm : 0 ≤ m.coefficient) :
    Magnitude (magnitudeChars m) m.value (magnitudeExponent m) := by
  obtain ⟨n, hn⟩ := Int.eq_ofNat_of_zero_le hm
  obtain ⟨coefficient, exponent⟩ := m
  obtain rfl : coefficient = n := hn
  by_cases hzero : (n : Int) = 0
  · have hwritten : magnitudeExponent ⟨n, exponent⟩ = 0 := if_pos (.inl hzero)
    have hvalue : Decimal.value ⟨n, exponent⟩ = 0 := Decimal.value_eq_zero_iff.2 hzero
    have h := Magnitude.of_numeral (Quantity.numeral_zeros_point 0 0)
    rw [Nat.cast_zero, zero_mul] at h
    rw [magnitudeChars_eq, if_pos hzero, hwritten, hvalue]
    exact h
  · by_cases hplace : -5 < pointPlace ⟨n, exponent⟩ ∧ pointPlace ⟨n, exponent⟩ ≤ 16
    · have hwritten : magnitudeExponent ⟨n, exponent⟩ = 0 := if_pos (.inr hplace)
      rw [magnitudeChars_eq, if_neg hzero, if_pos hplace, hwritten]
      split
      · rename_i hexponent
        have h := Magnitude.of_numeral (Quantity.numeral_zeros_point n exponent.toNat)
        rwa [← zpow_natCast, Int.toNat_of_nonneg hexponent] at h
      · rename_i hexponent
        exact Quantity.magnitude_withPoint n (Int.lt_of_not_ge hexponent)
    · have hwritten : magnitudeExponent ⟨n, exponent⟩ = pointPlace ⟨n, exponent⟩ - 1 :=
        if_neg (not_or.2 ⟨hzero, hplace⟩)
      rw [magnitudeChars_eq, if_neg hzero, if_neg hplace, hwritten]
      exact Quantity.magnitude_withLeadingPoint n (exponent_magnitudeExponent _) rfl

/-- The decimal value of a number, for a binary number that of the shortest decimal that reads
back. -/
def decimal : Number → ℚ
  | .integer value => value
  | .binary x =>
    if x.negative then -(x.shortest .toEven).value else (x.shortest .toEven).value

def writtenExponent : Number → Int
  | .integer _ => 0
  | .binary x => magnitudeExponent (x.shortest .toEven)

/-- The written form of a number says its decimal value. -/
theorem scientific_chars (n : Number) : Scientific n.chars n.decimal n.writtenExponent := by
  cases n with
  | integer value =>
    have hnumeral := Quantity.numeral_zeros value.natAbs 0
    rw [List.replicate_zero, List.append_nil, pow_zero, mul_one] at hnumeral
    have h := Scientific.signed (.of_numeral hnumeral) (decide (value < 0))
    have hvalue : (if decide (value < 0) = true then -(value.natAbs : ℚ) else value.natAbs) =
        value := by
      have habs : (value.natAbs : ℚ) = ((value.natAbs : Int) : ℚ) := (Int.cast_natCast _).symm
      rw [habs]
      split
      · rename_i hneg
        rw [← Int.cast_neg, show -(value.natAbs : Int) = value by simp at hneg; omega]
      · rename_i hnonneg
        rw [show (value.natAbs : Int) = value by simp at hnonneg; omega]
    rwa [hvalue] at h
  | binary x =>
    exact .signed (magnitude_magnitudeChars (x.coefficient_shortest_nonneg .toEven)) x.negative

/-- The exponent in a written form is far from the limit. -/
theorem natAbs_writtenExponent_le (n : Number) :
    n.writtenExponent.natAbs ≤ Quantity.exponentLimit := by
  cases n with
  | integer value => exact Nat.zero_le _
  | binary x =>
    rw [writtenExponent, magnitudeExponent]
    split
    · exact Nat.zero_le _
    · rename_i hexponent
      by_cases hx : x.isZero = true
      · rw [x.shortest_of_isZero .toEven hx] at hexponent
        exact absurd (.inl rfl) hexponent
      · rw [Bool.not_eq_true] at hx
        obtain ⟨hleast, hgreatest⟩ := (Binary64.readsBack_shortest .toEven hx).place_bounds hx
        unfold pointPlace Quantity.exponentLimit
        omega

/-- The written form of a number is a quantity of its decimal value. -/
theorem exists_ofChars?_chars (n : Number) :
    ∃ q : Quantity, Quantity.ofChars? n.chars = some q ∧ q.amount.value = n.decimal := by
  obtain ⟨q, hread, hvalue⟩ := n.scientific_chars.ofChars?_eq
  rw [if_pos n.natAbs_writtenExponent_le] at hread
  exact ⟨q, hread, hvalue⟩

theorem sameValue_iff {a b : Number} : a.sameValue b = true ↔ a.decimal = b.decimal := by
  obtain ⟨p, hp, hvalue⟩ := a.exists_ofChars?_chars
  obtain ⟨q, hq, hvalue'⟩ := b.exists_ofChars?_chars
  rw [← hvalue, ← hvalue', ← Decimal.sameValue_iff]
  simp only [sameValue, hp, hq, Quantity.sameAmount]

theorem decimal_of_isZero {x : Binary64} (h : x.isZero = true) : decimal (.binary x) = 0 := by
  have hzero : (x.shortest .toEven).value = 0 := by
    rw [x.shortest_of_isZero .toEven h, Decimal.value_of_exponent_zero, Int.cast_zero]
  rw [decimal, hzero, neg_zero, ite_self]

theorem decimal_eq_of_same {a b : Number} (h : a.same b = true) : a.decimal = b.decimal := by
  cases a with
  | integer m =>
    cases b with
    | integer n => rw [eq_of_beq h]
    | binary y => contradiction
  | binary x =>
    cases b with
    | integer n => contradiction
    | binary y =>
      rw [same, Binary64.sameValue, Bool.or_eq_true, Bool.and_eq_true] at h
      rcases h with h | ⟨hx, hy⟩
      · rw [eq_of_beq h]
      · rw [decimal_of_isZero hx, decimal_of_isZero hy]

end ReconcileTrigger.Json.Number

import Mathlib.Algebra.Field.Rat
import Mathlib.Algebra.GroupWithZero.Basic
import Mathlib.Tactic.FieldSimp
import Mathlib.Tactic.NormNum
import Mathlib.Tactic.Ring
import ReconcileTrigger.Decimal

/-!
The rational value of a decimal number. Equality of decimals is equality of their values, whatever
exponents they are written with, and the product of decimals is exact. Without the zeros at its end
a coefficient is the only one of its value.
-/

namespace ReconcileTrigger.Decimal

def value (a : Decimal) : ℚ :=
  a.coefficient * 10 ^ a.exponent

theorem value_of_exponent_zero (n : Int) : value ⟨n, 0⟩ = n := by
  rw [value, zpow_zero, mul_one]

theorem value_mul (a b : Decimal) : (a.mul b).value = a.value * b.value := by
  have hpow : (10 : ℚ) ^ (a.exponent + b.exponent) = 10 ^ a.exponent * 10 ^ b.exponent :=
    zpow_add₀ (by norm_num) _ _
  simp only [value, mul, Int.cast_mul, hpow]
  ring

theorem value_neg (a : Decimal) : value ⟨-a.coefficient, a.exponent⟩ = -a.value := by
  rw [value, value, Int.cast_neg, neg_mul]

theorem value_neg_exponent (n : Int) (k : ℕ) : value ⟨n, -(k : Int)⟩ = n / 10 ^ k := by
  rw [value, zpow_neg, zpow_natCast, div_eq_mul_inv]

/-- Zeros at the end of the coefficient make up for a smaller exponent. -/
theorem value_shift (n : Int) (zeros : ℕ) (e : Int) :
    value ⟨n * 10 ^ zeros, e - zeros⟩ = value ⟨n, e⟩ := by
  have hpow : (10 : ℚ) ^ e = 10 ^ zeros * 10 ^ (e - zeros) := by
    rw [← zpow_natCast, ← zpow_add₀ (by norm_num)]
    congr 1
    omega
  simp only [value, hpow, Int.cast_mul, Int.cast_pow, Int.cast_ofNat]
  ring

theorem scaledTo_mul {e : Int} {a : Decimal} (h : e ≤ a.exponent) :
    (a.scaledTo e : ℚ) * 10 ^ e = a.value := by
  have hzeros : a.exponent - ((a.exponent - e).toNat : Int) = e := by omega
  have hshift := value_shift a.coefficient (a.exponent - e).toNat a.exponent
  rw [hzeros] at hshift
  have hscaled : a.scaledTo e = a.coefficient * 10 ^ (a.exponent - e).toNat := by
    rw [scaledTo, Nat.pow_eq]
    push_cast
    rfl
  rw [hscaled]
  exact hshift

/-- Decimals are the same iff their values are. -/
theorem sameValue_iff (a b : Decimal) : a.sameValue b = true ↔ a.value = b.value := by
  have hten : (10 : ℚ) ^ min a.exponent b.exponent ≠ 0 := zpow_ne_zero _ (by norm_num)
  rw [sameValue, beq_iff_eq, ← scaledTo_mul (min_le_left a.exponent b.exponent),
    ← scaledTo_mul (min_le_right a.exponent b.exponent), mul_left_inj' hten, Int.cast_inj]

theorem value_add_exponent (n a b : Int) : value ⟨n, a + b⟩ = value ⟨n, a⟩ * 10 ^ b := by
  rw [value, value, zpow_add₀ (by norm_num), mul_assoc]

theorem stripZeros_mul_pow (n : ℕ) : (stripZeros n).1 * 10 ^ (stripZeros n).2 = n := by
  fun_induction stripZeros n with
  | case1 n h m zeros hstrip ih =>
    rw [hstrip] at ih
    rw [pow_succ, ← mul_assoc, ih]
    omega
  | case2 n h => rw [pow_zero, mul_one]

theorem stripZeros_mod_ten {n : ℕ} (hn : n ≠ 0) : (stripZeros n).1 % 10 ≠ 0 := by
  fun_induction stripZeros n with
  | case1 n h m zeros hstrip ih =>
    rw [hstrip] at ih
    exact ih (by omega)
  | case2 n h => exact fun hmod => h ⟨hn, hmod⟩

/-- The zeros at the end of the coefficient go into the exponent. -/
theorem exists_normalize_eq {a : Decimal} (h : a.coefficient ≠ 0) :
    ∃ (m : Int) (zeros : ℕ), a.normalize = ⟨m, a.exponent + zeros⟩ ∧
      a.coefficient = m * 10 ^ zeros ∧ m % 10 ≠ 0 := by
  have hpow := stripZeros_mul_pow a.coefficient.natAbs
  have hmod := stripZeros_mod_ten (Int.natAbs_ne_zero.2 h)
  rw [normalize, if_neg h]
  generalize stripZeros a.coefficient.natAbs = stripped at hpow hmod ⊢
  obtain ⟨m, zeros⟩ := stripped
  have habs : (a.coefficient.natAbs : Int) = m * 10 ^ zeros := by
    rw [← hpow]
    push_cast
    rfl
  by_cases hneg : a.coefficient < 0
  · refine ⟨-m, zeros, by simp only [if_pos hneg], ?_, by omega⟩
    rw [neg_mul, ← habs]
    omega
  · refine ⟨m, zeros, by simp only [if_neg hneg], ?_, by omega⟩
    rw [← habs]
    omega

theorem value_normalize (a : Decimal) : a.normalize.value = a.value := by
  by_cases h : a.coefficient = 0
  · rw [normalize, if_pos h, value, value, h, Int.cast_zero, zero_mul, zero_mul]
  · obtain ⟨m, zeros, hnormalize, hcoefficient, _⟩ := exists_normalize_eq h
    have hshift := value_shift m zeros (a.exponent + zeros)
    rw [← hcoefficient, add_sub_cancel_right] at hshift
    rw [hnormalize, ← hshift]

/-- The coefficient does not end in a zero, except for zero itself with the exponent zero. -/
def IsCanonical (a : Decimal) : Prop :=
  a = ⟨0, 0⟩ ∨ a.coefficient % 10 ≠ 0

theorem isCanonical_normalize (a : Decimal) : a.normalize.IsCanonical := by
  by_cases h : a.coefficient = 0
  · exact .inl (if_pos h)
  · obtain ⟨m, zeros, hnormalize, _, hmod⟩ := exists_normalize_eq h
    rw [hnormalize]
    exact .inr hmod

/-- On the grid of a greater exponent a number would end in a zero. -/
theorem not_value_eq_of_exponent_lt {a b : Decimal} (ha : a.coefficient % 10 ≠ 0)
    (hlt : a.exponent < b.exponent) : a.value ≠ b.value := by
  intro hvalue
  obtain ⟨zeros, hzeros⟩ : ∃ zeros : ℕ, b.exponent - ((zeros + 1 : ℕ) : Int) = a.exponent :=
    ⟨(b.exponent - a.exponent - 1).toNat, by omega⟩
  have hshift := value_shift b.coefficient (zeros + 1) b.exponent
  rw [hzeros, ← hvalue, value, value] at hshift
  have hcoefficient : b.coefficient * 10 ^ (zeros + 1) = a.coefficient := by
    exact_mod_cast mul_right_cancel₀ (zpow_ne_zero _ (by norm_num)) hshift
  rw [← hcoefficient, pow_succ, ← mul_assoc] at ha
  exact ha (Int.mul_emod_left ..)

theorem value_eq_zero_iff {a : Decimal} : a.value = 0 ↔ a.coefficient = 0 := by
  have hten : (10 : ℚ) ^ a.exponent ≠ 0 := zpow_ne_zero _ (by norm_num)
  rw [value, mul_eq_zero_iff_right hten, Int.cast_eq_zero]

/-- A value has one canonical form. -/
theorem IsCanonical.eq_of_value_eq {a b : Decimal} (ha : a.IsCanonical) (hb : b.IsCanonical)
    (h : a.value = b.value) : a = b := by
  have hzero : ∀ c : Decimal, c.coefficient % 10 ≠ 0 → c.value ≠ 0 := by
    intro c hc hvalue
    rw [value_eq_zero_iff.1 hvalue] at hc
    exact hc rfl
  rcases ha with rfl | ha
  · rcases hb with rfl | hb
    · rfl
    · exact absurd (h ▸ value_eq_zero_iff.2 rfl) (hzero b hb)
  · rcases hb with rfl | hb
    · exact absurd (h ▸ value_eq_zero_iff.2 rfl) (hzero a ha)
    · obtain hlt | heq | hgt := lt_trichotomy a.exponent b.exponent
      · exact absurd h (not_value_eq_of_exponent_lt ha hlt)
      · have hcoefficient : a.coefficient = b.coefficient := by
          rw [value, value, heq] at h
          exact_mod_cast mul_right_cancel₀ (zpow_ne_zero _ (by norm_num)) h
        obtain ⟨_, _⟩ := a
        obtain ⟨_, _⟩ := b
        congr
      · exact absurd h.symm (not_value_eq_of_exponent_lt hb hgt)

theorem normalize_eq_iff {a b : Decimal} : a.normalize = b.normalize ↔ a.value = b.value := by
  rw [← value_normalize a, ← value_normalize b]
  exact ⟨congrArg value, (isCanonical_normalize a).eq_of_value_eq (isCanonical_normalize b)⟩

end ReconcileTrigger.Decimal

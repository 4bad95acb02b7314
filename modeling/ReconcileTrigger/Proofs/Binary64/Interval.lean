import Mathlib.Algebra.Order.Field.Power
import Mathlib.Data.Rat.Cast.Order
import Mathlib.Tactic.Linarith
import Mathlib.Tactic.Positivity
import ReconcileTrigger.Binary64.Shortest
import ReconcileTrigger.Proofs.Decimal

/-!
The magnitude of a binary64 number and the rationals that read back as it. They form an interval
around the magnitude that is wider than a unit in the seventeenth digit. The comparisons on a
decimal grid, made on natural numbers, decide which points of the grid are among them.
-/

namespace ReconcileTrigger.Binary64

def quarter (x : Binary64) : ℚ :=
  2 ^ ((x.scale : ℤ) - 1076)

def magnitude (x : Binary64) : ℚ :=
  x.mantissa * 2 ^ ((x.scale : ℤ) - 1074)

namespace Interval

/-- The ends belong to a closed interval only. -/
def Contains (i : Interval) (q : ℚ) : Prop :=
  if i.closed then i.low ≤ q ∧ q ≤ i.high else i.low < q ∧ q < i.high

theorem contains_of_lt {i : Interval} {q : ℚ} (hlow : i.low < q) (hhigh : q < i.high) :
    i.Contains q := by
  unfold Contains
  split
  · exact ⟨hlow.le, hhigh.le⟩
  · exact ⟨hlow, hhigh⟩

theorem Contains.bounds {i : Interval} {q : ℚ} (h : i.Contains q) : i.low ≤ q ∧ q ≤ i.high := by
  unfold Contains at h
  split at h
  · exact h
  · exact ⟨h.1.le, h.2.le⟩

theorem Contains.between {i : Interval} {a b q : ℚ} (ha : i.Contains a) (hb : i.Contains b)
    (haq : a ≤ q) (hqb : q ≤ b) : i.Contains q := by
  unfold Contains at *
  split
  · rename_i hclosed
    rw [if_pos hclosed] at ha hb
    exact ⟨ha.1.trans haq, hqb.trans hb.2⟩
  · rename_i hopen
    rw [if_neg hopen] at ha hb
    exact ⟨ha.1.trans_le haq, hqb.trans_lt hb.2⟩

end Interval

/-- The rational is nearest to the magnitude among all of them, a tie going to an even mantissa. -/
def ReadsBack (x : Binary64) (v : ℚ) : Prop :=
  x.interval.Contains (v / x.quarter)

theorem quarter_pos (x : Binary64) : 0 < x.quarter :=
  zpow_pos (by norm_num) _

theorem magnitude_eq (x : Binary64) : x.magnitude = x.interval.value * x.quarter := by
  have hpow : (2 : ℚ) ^ ((x.scale : ℤ) - 1074) = 4 * 2 ^ ((x.scale : ℤ) - 1076) := by
    rw [show (x.scale : ℤ) - 1074 = 2 + (x.scale - 1076) by omega, zpow_add₀ (by norm_num)]
    norm_num only
  rw [magnitude, quarter, interval, hpow]
  push_cast
  ring

theorem mantissa_pos {x : Binary64} (h : x.isZero = false) : 0 < x.mantissa := by
  unfold isZero at h
  exact Nat.pos_of_ne_zero (beq_eq_false_iff_ne.1 h)

/-- Both ends are at a distance from the value between them. -/
theorem interval_bounds {x : Binary64} (h : x.isZero = false) :
    2 ≤ x.interval.low ∧ x.interval.low < x.interval.value ∧
      x.interval.value < x.interval.high ∧ x.interval.high < 2 ^ 55 := by
  have hpos := mantissa_pos h
  have hlt := x.mantissa_lt
  dsimp only [interval]
  unfold leastFull at *
  split <;> omega

/-- The interval is wider than a unit in the seventeenth digit of its value. -/
theorem value_lt_width {x : Binary64} (h : x.isZero = false) :
    x.interval.value < (x.interval.high - x.interval.low) * 10 ^ 16 := by
  have hpos := mantissa_pos h
  have hlt := x.mantissa_lt
  dsimp only [interval]
  unfold leastFull at *
  split <;> omega

theorem readsBack_magnitude {x : Binary64} (h : x.isZero = false) : x.ReadsBack x.magnitude := by
  obtain ⟨_, hlow, hhigh, _⟩ := interval_bounds h
  rw [ReadsBack, magnitude_eq, mul_div_cancel_right₀ _ x.quarter_pos.ne']
  exact Interval.contains_of_lt (Nat.cast_lt.2 hlow) (Nat.cast_lt.2 hhigh)

theorem ReadsBack.between {x : Binary64} {a b v : ℚ} (ha : x.ReadsBack a) (hb : x.ReadsBack b)
    (hav : a ≤ v) (hvb : v ≤ b) : x.ReadsBack v :=
  Interval.Contains.between ha hb (div_le_div_of_nonneg_right hav x.quarter_pos.le)
    (div_le_div_of_nonneg_right hvb x.quarter_pos.le)

theorem ReadsBack.bounds {x : Binary64} {v : ℚ} (h : x.ReadsBack v) :
    x.interval.low * x.quarter ≤ v ∧ v ≤ x.interval.high * x.quarter := by
  obtain ⟨hlow, hhigh⟩ := Interval.Contains.bounds h
  exact ⟨(le_div_iff₀ x.quarter_pos).1 hlow, (div_le_iff₀ x.quarter_pos).1 hhigh⟩

theorem ReadsBack.pos {x : Binary64} {v : ℚ} (hx : x.isZero = false) (h : x.ReadsBack v) :
    0 < v := by
  have hlow : 0 < x.interval.low := Nat.lt_of_lt_of_le (by decide) (interval_bounds hx).1
  exact (mul_pos (Nat.cast_pos.2 hlow) x.quarter_pos).trans_le h.bounds.1

theorem readsBack_of_lt {x : Binary64} {v : ℚ} (hlow : x.interval.low * x.quarter < v)
    (hhigh : v < x.interval.high * x.quarter) : x.ReadsBack v :=
  Interval.contains_of_lt ((lt_div_iff₀ x.quarter_pos).2 hlow)
    ((div_lt_iff₀ x.quarter_pos).2 hhigh)

/-! ### Decimal grids -/

def gridValue (point : ℕ) (e : ℤ) : ℚ :=
  point * 10 ^ e

/-- The denominator of all numbers, too large to be evaluated. -/
@[irreducible]
def denominator : ℕ :=
  Nat.pow 2 1074

def quarters : ℕ :=
  4 * denominator

def gridUnit (x : Binary64) (e : ℤ) : ℕ :=
  Nat.pow 2 x.scale * Nat.pow 10 (-e).toNat

def gridFloor (x : Binary64) (e : ℤ) : ℕ :=
  x.interval.value * x.gridUnit e / (quarters * Nat.pow 10 e.toNat)

/-- Whether a point of the grid reads back, decided on natural numbers. -/
def insideGrid (x : Binary64) (e : ℤ) (point : ℕ) : Bool :=
  if x.interval.closed then
    x.interval.low * x.gridUnit e ≤ onGrid point e quarters &&
      onGrid point e quarters ≤ x.interval.high * x.gridUnit e
  else
    x.interval.low * x.gridUnit e < onGrid point e quarters &&
      onGrid point e quarters < x.interval.high * x.gridUnit e

def gridDenominator (e : ℤ) : ℚ :=
  quarters * 10 ^ (-e).toNat

theorem cast_denominator : (denominator : ℚ) = 2 ^ (1074 : ℤ) := by
  unfold denominator
  generalize hk : 1074 = k
  rw [Nat.pow_eq, Nat.cast_pow, Nat.cast_ofNat, ← zpow_natCast, ← hk, Nat.cast_ofNat]

theorem denominator_pos : 0 < denominator := by
  rw [← Nat.cast_pos (α := ℚ), cast_denominator]
  exact zpow_pos (by norm_num) _

theorem quarters_pos : 0 < quarters :=
  Nat.mul_pos (by decide) denominator_pos

theorem cast_quarters : (quarters : ℚ) = 2 ^ (1076 : ℤ) := by
  rw [quarters, Nat.cast_mul, cast_denominator, show (1076 : ℤ) = 2 + 1074 by decide,
    zpow_add₀ (by norm_num)]
  norm_num only

theorem gridDenominator_pos (e : ℤ) : 0 < gridDenominator e :=
  mul_pos (Nat.cast_pos.2 quarters_pos) (by positivity)

theorem ten_zpow_mul_pow (e : ℤ) : (10 : ℚ) ^ e * 10 ^ (-e).toNat = 10 ^ e.toNat := by
  rw [← zpow_natCast, ← zpow_natCast, ← zpow_add₀ (by norm_num)]
  congr 1
  omega

theorem quarter_mul_quarters (x : Binary64) : x.quarter * quarters = 2 ^ x.scale := by
  rw [quarter, cast_quarters, ← zpow_add₀ (by norm_num), sub_add_cancel, zpow_natCast]

theorem cast_gridUnit (x : Binary64) (e : ℤ) :
    (x.gridUnit e : ℚ) = x.quarter * gridDenominator e := by
  rw [gridDenominator, ← mul_assoc, quarter_mul_quarters, gridUnit, Nat.pow_eq, Nat.pow_eq]
  push_cast
  rfl

theorem cast_onGrid (point : ℕ) (e : ℤ) :
    (onGrid point e quarters : ℚ) = gridValue point e * gridDenominator e := by
  rw [onGrid, Nat.pow_eq, gridValue, gridDenominator]
  push_cast
  rw [← ten_zpow_mul_pow]
  ring

theorem mul_gridUnit_le_iff (x : Binary64) (e : ℤ) (a point : ℕ) :
    a * x.gridUnit e ≤ onGrid point e quarters ↔ a ≤ gridValue point e / x.quarter := by
  rw [← Nat.cast_le (α := ℚ), Nat.cast_mul, cast_gridUnit, cast_onGrid, ← mul_assoc,
    mul_le_mul_iff_of_pos_right (gridDenominator_pos e), le_div_iff₀ x.quarter_pos]

theorem le_mul_gridUnit_iff (x : Binary64) (e : ℤ) (a point : ℕ) :
    onGrid point e quarters ≤ a * x.gridUnit e ↔ gridValue point e / x.quarter ≤ a := by
  rw [← Nat.cast_le (α := ℚ), Nat.cast_mul, cast_gridUnit, cast_onGrid, ← mul_assoc,
    mul_le_mul_iff_of_pos_right (gridDenominator_pos e), div_le_iff₀ x.quarter_pos]

theorem insideGrid_iff (x : Binary64) (e : ℤ) (point : ℕ) :
    x.insideGrid e point = true ↔ x.ReadsBack (gridValue point e) := by
  have hlt := (x.le_mul_gridUnit_iff e x.interval.low point).not
  have hgt := (x.mul_gridUnit_le_iff e x.interval.high point).not
  rw [not_le, not_le] at hlt hgt
  unfold insideGrid ReadsBack Interval.Contains
  split
  · rw [Bool.and_eq_true, decide_eq_true_eq, decide_eq_true_eq, mul_gridUnit_le_iff,
      le_mul_gridUnit_iff]
  · rw [Bool.and_eq_true, decide_eq_true_eq, decide_eq_true_eq, hlt, hgt]

theorem onGrid_gridFloor_le (x : Binary64) (e : ℤ) :
    onGrid (x.gridFloor e) e quarters ≤ x.interval.value * x.gridUnit e := by
  rw [onGrid, mul_assoc, gridFloor]
  exact Nat.div_mul_le_self _ _

theorem lt_onGrid_gridFloor_succ (x : Binary64) (e : ℤ) :
    x.interval.value * x.gridUnit e < onGrid (x.gridFloor e + 1) e quarters := by
  rw [onGrid, mul_assoc, Nat.mul_comm (x.gridFloor e + 1), gridFloor]
  exact Nat.lt_mul_div_succ _ (Nat.mul_pos quarters_pos (Nat.pow_pos (by decide)))

theorem cast_value_mul_gridUnit (x : Binary64) (e : ℤ) :
    ((x.interval.value * x.gridUnit e : ℕ) : ℚ) = x.magnitude * gridDenominator e := by
  rw [Nat.cast_mul, cast_gridUnit, magnitude_eq, mul_assoc]

/-- The magnitude lies between two points of the grid. -/
theorem magnitude_between_gridFloor (x : Binary64) (e : ℤ) :
    gridValue (x.gridFloor e) e ≤ x.magnitude ∧
      x.magnitude < gridValue (x.gridFloor e + 1) e := by
  have hfloor := Nat.cast_le (α := ℚ).2 (x.onGrid_gridFloor_le e)
  have hnext := Nat.cast_lt (α := ℚ).2 (x.lt_onGrid_gridFloor_succ e)
  rw [cast_onGrid, cast_value_mul_gridUnit] at hfloor hnext
  exact ⟨le_of_mul_le_mul_right hfloor (gridDenominator_pos e),
    lt_of_mul_lt_mul_right hnext (gridDenominator_pos e).le⟩

theorem ReadsBack.natCast_pos {x : Binary64} {c : ℕ} {e : ℤ} (hx : x.isZero = false)
    (h : x.ReadsBack (gridValue c e)) : 0 < c := by
  refine Nat.pos_of_ne_zero fun hzero => ?_
  have hpos := h.pos hx
  rw [hzero, gridValue, Nat.cast_zero, zero_mul] at hpos
  exact lt_irrefl _ hpos

/-- A decimal that reads back is a point of its grid. -/
theorem ReadsBack.exists_natCast {x : Binary64} {d : Decimal} (hx : x.isZero = false)
    (h : x.ReadsBack d.value) :
    ∃ c : ℕ, d.coefficient = c ∧ d.value = gridValue c d.exponent := by
  have hnonneg : 0 ≤ d.coefficient := by
    by_contra hneg
    have hvalue : d.value ≤ 0 :=
      mul_nonpos_of_nonpos_of_nonneg (Int.cast_nonpos.2 (not_le.1 hneg).le) (by positivity)
    exact absurd (h.pos hx) (not_lt.2 hvalue)
  obtain ⟨c, hc⟩ := Int.eq_ofNat_of_zero_le hnonneg
  exact ⟨c, hc, by rw [Decimal.value, hc, Int.cast_natCast, gridValue]⟩

theorem gridValue_mul_pow (point zeros : ℕ) (e : ℤ) :
    gridValue (point * 10 ^ zeros) e = gridValue point (e + zeros) := by
  rw [gridValue, gridValue, zpow_add₀ (by norm_num), zpow_natCast]
  push_cast
  ring

theorem gridValue_strictMono (e : ℤ) : StrictMono fun point => gridValue point e := by
  intro p q h
  exact mul_lt_mul_of_pos_right (Nat.cast_lt.2 h) (zpow_pos (by norm_num) _)

end ReconcileTrigger.Binary64

import Mathlib.Algebra.Order.Field.Power
import ReconcileTrigger.Proofs.Binary64.Interval
import ReconcileTrigger.Proofs.Text.Digits

/-!
The shortest decimal of a binary64 number reads back, no decimal with fewer digits does, and none
with as many digits that does is nearer. The search starts at the first digit of the magnitude, and
the seventeenth grid has a point that reads back, so it is never without a result.
-/

namespace ReconcileTrigger.Binary64

/-! ### One grid -/

def nearer (tie : Tie) (x : Binary64) (e : ℤ) : ℕ :=
  let below := x.interval.value * x.gridUnit e - onGrid (x.gridFloor e) e quarters
  let above := onGrid (x.gridFloor e + 1) e quarters - x.interval.value * x.gridUnit e
  if below < above then x.gridFloor e
  else if above < below then x.gridFloor e + 1
  else
    match tie with
    | .up => x.gridFloor e + 1
    | .toEven => if x.gridFloor e % 2 = 0 then x.gridFloor e else x.gridFloor e + 1

theorem gridPoint?_eq (tie : Tie) (x : Binary64) (e : ℤ) :
    gridPoint? tie x e =
      match x.insideGrid e (x.gridFloor e), x.insideGrid e (x.gridFloor e + 1) with
      | true, true => some (nearer tie x e)
      | true, false => some (x.gridFloor e)
      | false, true => some (x.gridFloor e + 1)
      | false, false => none := by
  unfold gridPoint? nearer insideGrid gridFloor gridUnit quarters denominator
  generalize Nat.pow 2 1074 = den
  cases tie
  all_goals
    rewrite [apply_ite some, apply_ite some]
    rfl

/-- The point is next to the magnitude and reads back, and no neighbour that does is nearer. -/
structure IsTaken (x : Binary64) (e : ℤ) (point : ℕ) : Prop where
  neighbour : point = x.gridFloor e ∨ point = x.gridFloor e + 1
  readsBack : x.ReadsBack (gridValue point e)
  nearest : ∀ p, p = x.gridFloor e ∨ p = x.gridFloor e + 1 → x.ReadsBack (gridValue p e) →
    |gridValue point e - x.magnitude| ≤ |gridValue p e - x.magnitude|

theorem abs_gridFloor_sub (x : Binary64) (e : ℤ) :
    |gridValue (x.gridFloor e) e - x.magnitude| = x.magnitude - gridValue (x.gridFloor e) e := by
  rw [abs_sub_comm]
  exact abs_of_nonneg (sub_nonneg.2 (x.magnitude_between_gridFloor e).1)

theorem abs_gridFloor_succ_sub (x : Binary64) (e : ℤ) :
    |gridValue (x.gridFloor e + 1) e - x.magnitude| =
      gridValue (x.gridFloor e + 1) e - x.magnitude :=
  abs_of_nonneg (sub_nonneg.2 (x.magnitude_between_gridFloor e).2.le)

/-- The neighbours are compared by their distances, over the denominator of the grid. -/
theorem nearer_cases (tie : Tie) (x : Binary64) (e : ℤ) :
    (nearer tie x e = x.gridFloor e ∧
      |gridValue (x.gridFloor e) e - x.magnitude| ≤
        |gridValue (x.gridFloor e + 1) e - x.magnitude|) ∨
    (nearer tie x e = x.gridFloor e + 1 ∧
      |gridValue (x.gridFloor e + 1) e - x.magnitude| ≤
        |gridValue (x.gridFloor e) e - x.magnitude|) := by
  have hden := gridDenominator_pos e
  have hbelow : ((x.interval.value * x.gridUnit e - onGrid (x.gridFloor e) e quarters : ℕ) : ℚ) =
      |gridValue (x.gridFloor e) e - x.magnitude| * gridDenominator e := by
    rw [Nat.cast_sub (x.onGrid_gridFloor_le e), cast_value_mul_gridUnit, cast_onGrid,
      abs_gridFloor_sub, sub_mul]
  have habove :
      ((onGrid (x.gridFloor e + 1) e quarters - x.interval.value * x.gridUnit e : ℕ) : ℚ) =
        |gridValue (x.gridFloor e + 1) e - x.magnitude| * gridDenominator e := by
    rw [Nat.cast_sub (x.lt_onGrid_gridFloor_succ e).le, cast_value_mul_gridUnit, cast_onGrid,
      abs_gridFloor_succ_sub, sub_mul]
  rw [← mul_le_mul_iff_of_pos_right hden, ← hbelow, ← habove, Nat.cast_le,
    ← mul_le_mul_iff_of_pos_right hden, ← hbelow, ← habove, Nat.cast_le]
  unfold nearer
  dsimp only
  generalize x.interval.value * x.gridUnit e - onGrid (x.gridFloor e) e quarters = below
  generalize onGrid (x.gridFloor e + 1) e quarters - x.interval.value * x.gridUnit e = above
  split
  · exact .inl ⟨rfl, by omega⟩
  · split
    · exact .inr ⟨rfl, by omega⟩
    · cases tie
      · dsimp only
        split
        · exact .inl ⟨rfl, by omega⟩
        · exact .inr ⟨rfl, by omega⟩
      · exact .inr ⟨rfl, by omega⟩

/-- What is chosen on a grid. -/
theorem isTaken_of_gridPoint? {tie : Tie} {x : Binary64} {e : ℤ} {point : ℕ}
    (h : gridPoint? tie x e = some point) : x.IsTaken e point := by
  rw [gridPoint?_eq] at h
  split at h
  · rename_i hfloor hnext
    obtain rfl := Option.some.inj h
    rw [insideGrid_iff] at hfloor hnext
    rcases nearer_cases tie x e with ⟨heq, hle⟩ | ⟨heq, hle⟩
    · rw [heq]
      refine ⟨.inl rfl, hfloor, ?_⟩
      rintro p (rfl | rfl) _
      · exact le_refl _
      · exact hle
    · rw [heq]
      refine ⟨.inr rfl, hnext, ?_⟩
      rintro p (rfl | rfl) _
      · exact hle
      · exact le_refl _
  · rename_i hfloor hnext
    obtain rfl := Option.some.inj h
    refine ⟨.inl rfl, (x.insideGrid_iff _ _).1 hfloor, ?_⟩
    rintro p (rfl | rfl) hp
    · exact le_refl _
    · rw [← insideGrid_iff, hnext] at hp
      contradiction
  · rename_i hfloor hnext
    obtain rfl := Option.some.inj h
    refine ⟨.inr rfl, (x.insideGrid_iff _ _).1 hnext, ?_⟩
    rintro p (rfl | rfl) hp
    · rw [← insideGrid_iff, hfloor] at hp
      contradiction
    · exact le_refl _
  · contradiction

theorem gridPoint?_eq_none {tie : Tie} {x : Binary64} {e : ℤ} (h : gridPoint? tie x e = none) :
    ¬ x.ReadsBack (gridValue (x.gridFloor e) e) ∧
      ¬ x.ReadsBack (gridValue (x.gridFloor e + 1) e) := by
  rw [gridPoint?_eq] at h
  split at h
  · contradiction
  · contradiction
  · contradiction
  · rename_i hfloor hnext
    rw [← insideGrid_iff, ← insideGrid_iff, hfloor, hnext]
    exact ⟨Bool.false_ne_true, Bool.false_ne_true⟩

/-- No point reads back where none is taken: the neighbours of the magnitude are between it and
every other point. -/
theorem not_readsBack_of_gridPoint?_eq_none {tie : Tie} {x : Binary64} {e : ℤ}
    (hx : x.isZero = false) (h : gridPoint? tie x e = none) (point : ℕ) :
    ¬ x.ReadsBack (gridValue point e) := by
  intro hpoint
  obtain ⟨hfloor, hnext⟩ := gridPoint?_eq_none h
  obtain ⟨hbelow, habove⟩ := x.magnitude_between_gridFloor e
  have hmagnitude := readsBack_magnitude hx
  by_cases hle : point ≤ x.gridFloor e
  · exact hfloor (hpoint.between hmagnitude ((gridValue_strictMono e).monotone hle) hbelow)
  · have hge : x.gridFloor e + 1 ≤ point := by omega
    exact hnext (hmagnitude.between hpoint habove.le ((gridValue_strictMono e).monotone hge))

/-- A grid as fine as the seventeenth digit has a point that reads back. -/
theorem gridPoint?_ne_none {tie : Tie} {x : Binary64} {e : ℤ} (hx : x.isZero = false)
    (he : 10 ^ 16 * (10 : ℚ) ^ e ≤ x.magnitude) : gridPoint? tie x e ≠ none := by
  intro h
  obtain ⟨hfloor, hnext⟩ := gridPoint?_eq_none h
  obtain ⟨hbelow, habove⟩ := x.magnitude_between_gridFloor e
  obtain ⟨_, hlow, hhigh, _⟩ := interval_bounds hx
  have hquarter := x.quarter_pos
  -- both neighbours are outside, so the whole interval lies between them
  have hlowest : gridValue (x.gridFloor e) e ≤ x.interval.low * x.quarter := by
    by_contra hlt
    refine hfloor (readsBack_of_lt (not_le.1 hlt) (hbelow.trans_lt ?_))
    rw [magnitude_eq]
    exact mul_lt_mul_of_pos_right (Nat.cast_lt.2 hhigh) hquarter
  have hhighest : x.interval.high * x.quarter ≤ gridValue (x.gridFloor e + 1) e := by
    by_contra hlt
    refine hnext (readsBack_of_lt (lt_trans ?_ habove) (not_le.1 hlt))
    rw [magnitude_eq]
    exact mul_lt_mul_of_pos_right (Nat.cast_lt.2 hlow) hquarter
  have hstep : gridValue (x.gridFloor e + 1) e = gridValue (x.gridFloor e) e + 10 ^ e := by
    rw [gridValue, gridValue, Nat.cast_succ, add_one_mul]
  have hwidth : ((x.interval.high - x.interval.low : ℕ) : ℚ) * x.quarter ≤ 10 ^ e := by
    rw [Nat.cast_sub (hlow.trans hhigh).le, sub_mul]
    linarith
  have hvalue : (x.interval.value : ℚ) <
      ((x.interval.high - x.interval.low : ℕ) : ℚ) * 10 ^ 16 := by
    exact_mod_cast value_lt_width hx
  have hmagnitude : x.magnitude < 10 ^ 16 * (10 : ℚ) ^ e := by
    rw [magnitude_eq]
    calc x.interval.value * x.quarter
        < ((x.interval.high - x.interval.low : ℕ) : ℚ) * 10 ^ 16 * x.quarter :=
          mul_lt_mul_of_pos_right hvalue hquarter
      _ = 10 ^ 16 * (((x.interval.high - x.interval.low : ℕ) : ℚ) * x.quarter) := by ring
      _ ≤ 10 ^ 16 * (10 : ℚ) ^ e := by gcongr
  exact absurd he (not_le.2 hmagnitude)

/-! ### The first digit -/

/-- The decimal exponent is that of the first digit. -/
theorem decimalExponent_bounds {num den : ℕ} (hnum : 0 < num) (hden : 0 < den) :
    (10 : ℚ) ^ decimalExponent num den ≤ num / den ∧
      (num / den : ℚ) < 10 ^ (decimalExponent num den + 1) := by
  have hnum' : (0 : ℚ) < num := Nat.cast_pos.2 hnum
  have hden' : (0 : ℚ) < den := Nat.cast_pos.2 hden
  unfold decimalExponent
  split
  · rename_i hle
    have hquotient : num / den ≠ 0 := (Nat.div_pos hle hden).ne'
    have hlength := Text.length_toDigits_pos (num / den)
    have hfirst := Text.pow_length_toDigits_le hquotient
    have hlast := Text.lt_pow_length_toDigits (num / den)
    rw [Nat.le_div_iff_mul_le hden] at hfirst
    rw [Nat.div_lt_iff_lt_mul hden] at hlast
    generalize (Nat.toDigits 10 (num / den)).length = length at *
    rw [show (length : ℤ) - 1 = ((length - 1 : ℕ) : ℤ) by omega, zpow_natCast,
      show ((length - 1 : ℕ) : ℤ) + 1 = (length : ℕ) by omega, zpow_natCast, le_div_iff₀ hden',
      div_lt_iff₀ hden']
    exact ⟨by exact_mod_cast hfirst, by exact_mod_cast hlast⟩
  · rename_i hlt
    have hquotient : (den - 1) / num ≠ 0 := (Nat.div_pos (by omega) hnum).ne'
    have hlength := Text.length_toDigits_pos ((den - 1) / num)
    have hfirst := Text.pow_length_toDigits_le hquotient
    have hlast := Text.lt_pow_length_toDigits ((den - 1) / num)
    rw [Nat.le_div_iff_mul_le hnum] at hfirst
    rw [Nat.div_lt_iff_lt_mul hnum] at hlast
    generalize (Nat.toDigits 10 ((den - 1) / num)).length = length at *
    have hlower : den ≤ 10 ^ length * num := by omega
    have hupper : 10 ^ (length - 1) * num < den := by omega
    rw [show -(length : ℤ) + 1 = -((length - 1 : ℕ) : ℤ) by omega, zpow_neg, zpow_neg,
      zpow_natCast, zpow_natCast, inv_le_comm₀ (by positivity) (by positivity), inv_div,
      lt_inv_comm₀ (by positivity) (by positivity), inv_div, div_le_iff₀ hnum',
      lt_div_iff₀ hnum']
    exact ⟨by exact_mod_cast hlower, by exact_mod_cast hupper⟩

def leadingExponent (x : Binary64) : ℤ :=
  decimalExponent x.units denominator

theorem units_div (x : Binary64) : (x.units : ℚ) / denominator = x.magnitude := by
  have hscale := x.quarter_mul_quarters
  have hden : (denominator : ℚ) ≠ 0 := Nat.cast_ne_zero.2 denominator_pos.ne'
  rw [div_eq_iff hden, units, magnitude_eq, interval, Nat.pow_eq]
  push_cast
  rw [← hscale, quarters]
  push_cast
  ring

theorem leadingExponent_bounds {x : Binary64} (hx : x.isZero = false) :
    (10 : ℚ) ^ x.leadingExponent ≤ x.magnitude ∧
      x.magnitude < 10 ^ (x.leadingExponent + 1) := by
  have hunits : 0 < x.units := Nat.mul_pos (mantissa_pos hx) (Nat.pow_pos (by decide))
  have hbounds := decimalExponent_bounds hunits denominator_pos
  rw [units_div] at hbounds
  exact hbounds

theorem shortest_eq (tie : Tie) {x : Binary64} (hx : x.isZero = false) :
    x.shortest tie = (x.shortestFrom tie x.leadingExponent 17).normalize := by
  unfold shortest leadingExponent denominator
  rw [hx, if_neg Bool.false_ne_true]

/-! ### The search -/

/-- The search ends on the first grid that has a point. -/
theorem exists_shortestFrom_eq {tie : Tie} {x : Binary64} {e : ℤ} {grids : ℕ}
    (h : ∃ k < grids, gridPoint? tie x (e - k) ≠ none) :
    ∃ k point : ℕ, x.shortestFrom tie e grids = ⟨point, e - k⟩ ∧
      gridPoint? tie x (e - k) = some point ∧ ∀ j < k, gridPoint? tie x (e - j) = none := by
  induction grids generalizing e with
  | zero =>
    obtain ⟨_, hlt, _⟩ := h
    exact absurd hlt (Nat.not_lt_zero _)
  | succ grids ih =>
    rw [shortestFrom]
    cases hfirst : gridPoint? tie x e with
    | some point =>
      refine ⟨0, point, ?_, ?_, fun j hj => absurd hj (Nat.not_lt_zero j)⟩
      · rw [Nat.cast_zero, sub_zero]
      · rw [Nat.cast_zero, sub_zero, hfirst]
    | none =>
      have hnext : ∀ j : ℕ, e - ((j + 1 : ℕ) : ℤ) = e - 1 - j := fun j => by omega
      obtain ⟨k, hk, hpoint⟩ := h
      obtain ⟨k, rfl⟩ : ∃ k', k = k' + 1 := by
        refine Nat.exists_eq_succ_of_ne_zero fun hzero => hpoint ?_
        rw [hzero, Nat.cast_zero, sub_zero, hfirst]
      rw [hnext] at hpoint
      obtain ⟨k', point, hresult, hsome, hnone⟩ := ih ⟨k, by omega, hpoint⟩
      refine ⟨k' + 1, point, ?_, ?_, ?_⟩
      · rw [hnext]
        exact hresult
      · rw [hnext]
        exact hsome
      · intro j hj
        cases j with
        | zero => rw [Nat.cast_zero, sub_zero, hfirst]
        | succ j =>
          rw [hnext]
          exact hnone j (by omega)

/-- The shortest decimal is a point of the first grid with one that reads back. -/
theorem exists_shortest_eq (tie : Tie) {x : Binary64} (hx : x.isZero = false) :
    ∃ k point : ℕ, x.shortest tie = Decimal.normalize ⟨point, x.leadingExponent - k⟩ ∧
      gridPoint? tie x (x.leadingExponent - k) = some point ∧
        ∀ j < k, gridPoint? tie x (x.leadingExponent - j) = none := by
  have hlast : ∃ k < 17, gridPoint? tie x (x.leadingExponent - (k : ℕ)) ≠ none := by
    refine ⟨16, by decide, gridPoint?_ne_none hx ?_⟩
    rw [← zpow_natCast, ← zpow_add₀ (by norm_num), add_sub_cancel]
    exact (leadingExponent_bounds hx).1
  obtain ⟨k, point, hresult, hpoint, hnone⟩ := exists_shortestFrom_eq hlast
  refine ⟨k, point, ?_, hpoint, hnone⟩
  rw [shortest_eq tie hx, hresult]

/-- The shortest decimal reads back. -/
theorem readsBack_value_shortest (tie : Tie) {x : Binary64} (hx : x.isZero = false) :
    x.ReadsBack (x.shortest tie).value := by
  obtain ⟨k, point, hresult, hpoint, _⟩ := exists_shortest_eq tie hx
  rw [hresult, Decimal.value_normalize, Decimal.value, Int.cast_natCast]
  exact (isTaken_of_gridPoint? hpoint).readsBack

theorem gridValue_shortest (tie : Tie) {x : Binary64} (hx : x.isZero = false) :
    gridValue (x.shortest tie).coefficient.natAbs (x.shortest tie).exponent =
      (x.shortest tie).value := by
  obtain ⟨c, hcoefficient, hgrid⟩ := (readsBack_value_shortest tie hx).exists_natCast hx
  rw [hgrid, hcoefficient, Int.natAbs_natCast]

theorem readsBack_shortest (tie : Tie) {x : Binary64} (hx : x.isZero = false) :
    x.ReadsBack
      (gridValue (x.shortest tie).coefficient.natAbs (x.shortest tie).exponent) := by
  rw [gridValue_shortest tie hx]
  exact readsBack_value_shortest tie hx

theorem shortest_of_isZero (tie : Tie) {x : Binary64} (hx : x.isZero = true) :
    x.shortest tie = ⟨0, 0⟩ :=
  if_pos hx

theorem coefficient_shortest_nonneg (tie : Tie) (x : Binary64) :
    0 ≤ (x.shortest tie).coefficient := by
  by_cases hx : x.isZero = true
  · rw [shortest_of_isZero tie hx]
  · rw [Bool.not_eq_true] at hx
    obtain ⟨c, hcoefficient, _⟩ := (readsBack_value_shortest tie hx).exists_natCast hx
    rw [hcoefficient]
    exact Int.natCast_nonneg c

/-! ### Places of the point -/

/-- The place of the point in the digits of a decimal. -/
theorem gridValue_bounds {c : ℕ} (hc : 0 < c) (e : ℤ) :
    (10 : ℚ) ^ ((Nat.toDigits 10 c).length + e - 1) ≤ gridValue c e ∧
      gridValue c e < 10 ^ ((Nat.toDigits 10 c).length + e) := by
  have hlength := Text.length_toDigits_pos c
  have hfirst := Text.pow_length_toDigits_le hc.ne'
  have hlast := Text.lt_pow_length_toDigits c
  generalize (Nat.toDigits 10 c).length = length at *
  have hten : (0 : ℚ) < 10 ^ e := by positivity
  constructor
  · rw [show (length : ℤ) + e - 1 = ((length - 1 : ℕ) : ℤ) + e by omega,
      zpow_add₀ (by norm_num), zpow_natCast]
    exact mul_le_mul_of_nonneg_right (by exact_mod_cast hfirst) hten.le
  · rw [zpow_add₀ (by norm_num), zpow_natCast]
    exact mul_lt_mul_of_pos_right (by exact_mod_cast hlast) hten

theorem quarter_bounds (x : Binary64) :
    (2 : ℚ) ^ (-1076 : ℤ) ≤ x.quarter ∧ x.quarter ≤ 2 ^ (969 : ℤ) := by
  have hscale := x.scale_le
  exact ⟨zpow_le_zpow_right₀ (by norm_num) (by omega), zpow_le_zpow_right₀ (by norm_num) (by omega)⟩

private theorem two_zpow_le_ten_zpow (k : ℕ) : (2 : ℚ) ^ (3 * k : ℤ) ≤ 10 ^ (k : ℤ) := by
  rw [zpow_mul, zpow_natCast, zpow_natCast]
  exact pow_le_pow_left₀ (by norm_num) (by norm_num) k

/-- What reads back is neither very small nor very large. -/
theorem ReadsBack.extent {x : Binary64} {v : ℚ} (hx : x.isZero = false) (h : x.ReadsBack v) :
    (10 : ℚ) ^ (-400 : ℤ) < v ∧ v < 10 ^ (399 : ℤ) := by
  obtain ⟨hlow, _, _, hhigh⟩ := interval_bounds hx
  obtain ⟨hleast, hgreatest⟩ := x.quarter_bounds
  constructor
  · have hpow : (10 : ℚ) ^ (-400 : ℤ) ≤ 2 ^ (-1200 : ℤ) := by
      rw [zpow_neg, zpow_neg]
      exact inv_anti₀ (by positivity) (two_zpow_le_ten_zpow 400)
    calc (10 : ℚ) ^ (-400 : ℤ)
        ≤ 2 ^ (-1200 : ℤ) := hpow
      _ < 2 ^ (-1076 : ℤ) := zpow_lt_zpow_right₀ (by norm_num) (by norm_num)
      _ ≤ x.quarter := hleast
      _ ≤ x.interval.low * x.quarter :=
        le_mul_of_one_le_left x.quarter_pos.le (by exact_mod_cast (by omega : 1 ≤ x.interval.low))
      _ ≤ v := h.bounds.1
  · calc v
        ≤ x.interval.high * x.quarter := h.bounds.2
      _ ≤ 2 ^ (55 : ℤ) * 2 ^ (969 : ℤ) :=
        mul_le_mul (by exact_mod_cast hhigh.le) hgreatest x.quarter_pos.le (by positivity)
      _ = 2 ^ (55 + 969 : ℤ) := (zpow_add₀ (by norm_num) _ _).symm
      _ < 2 ^ (3 * 399 : ℤ) := zpow_lt_zpow_right₀ (by norm_num) (by norm_num)
      _ ≤ 10 ^ (399 : ℤ) := two_zpow_le_ten_zpow 399

/-- The place of the point in a decimal that reads back. -/
theorem ReadsBack.place_bounds {x : Binary64} {c : ℕ} {e : ℤ} (hx : x.isZero = false)
    (h : x.ReadsBack (gridValue c e)) :
    -400 < (Nat.toDigits 10 c).length + e ∧ (Nat.toDigits 10 c).length + e < 400 := by
  obtain ⟨hleast, hgreatest⟩ := h.extent hx
  obtain ⟨hfirst, hlast⟩ := gridValue_bounds (h.natCast_pos hx) e
  have hlower := (zpow_lt_zpow_iff_right₀ (by norm_num)).1 (hleast.trans hlast)
  have hupper := (zpow_lt_zpow_iff_right₀ (by norm_num)).1 (hfirst.trans_lt hgreatest)
  exact ⟨hlower, by omega⟩

/-! ### Fewest digits -/

theorem gridFloor_lt {x : Binary64} (hx : x.isZero = false) (k : ℕ) :
    x.gridFloor (x.leadingExponent - k) < 10 ^ (k + 1) := by
  have hfloor := (x.magnitude_between_gridFloor (x.leadingExponent - k)).1
  have hbound : x.magnitude < gridValue (10 ^ (k + 1)) (x.leadingExponent - k) := by
    rw [← one_mul (10 ^ (k + 1)), gridValue_mul_pow, gridValue, Nat.cast_one, one_mul,
      show x.leadingExponent - k + ((k + 1 : ℕ) : ℤ) = x.leadingExponent + 1 by omega]
    exact (leadingExponent_bounds hx).2
  exact (gridValue_strictMono (x.leadingExponent - k)).lt_iff_lt.1 (hfloor.trans_lt hbound)

/-- A power of ten next to the magnitude loses its zeros, so one digit for each grid is enough. -/
theorem coefficient_normalize_lt {point k : ℕ} (hpoint : point ≤ 10 ^ (k + 1)) (e : ℤ) :
    (Decimal.normalize ⟨point, e⟩).coefficient.natAbs < 10 ^ (k + 1) := by
  by_cases hzero : (point : ℤ) = 0
  · rw [Decimal.normalize, if_pos hzero]
    exact Nat.pow_pos (by decide)
  · obtain ⟨m, zeros, hnormalize, hcoefficient, hmod⟩ :=
      Decimal.exists_normalize_eq (a := ⟨point, e⟩) hzero
    rw [hnormalize]
    have hle : m.natAbs ≤ point := by
      have habs : point = m.natAbs * 10 ^ zeros := by
        have hcoefficient : (point : ℤ) = m * 10 ^ zeros := hcoefficient
        rw [← Int.natAbs_natCast point, hcoefficient, Int.natAbs_mul, Int.natAbs_pow]
        rfl
      rw [habs]
      exact Nat.le_mul_of_pos_right _ (Nat.pow_pos (by decide))
    refine lt_of_le_of_ne (hle.trans hpoint) fun heq => ?_
    rw [pow_succ] at heq
    dsimp only at heq
    omega

theorem length_shortest_le_of_taken {tie : Tie} {x : Binary64} {k point : ℕ}
    (hx : x.isZero = false)
    (hresult : x.shortest tie = Decimal.normalize ⟨point, x.leadingExponent - k⟩)
    (htaken : x.IsTaken (x.leadingExponent - k) point) :
    (Nat.toDigits 10 (x.shortest tie).coefficient.natAbs).length ≤ k + 1 := by
  have hfloor := gridFloor_lt hx k
  have hpoint := htaken.neighbour
  rw [Nat.length_toDigits_le_iff (by decide) (Nat.succ_pos k), hresult]
  exact coefficient_normalize_lt (by omega) _

/-- The power of ten at the first digit is a point of every grid. -/
theorem gridValue_pow (x : Binary64) (k : ℕ) :
    gridValue (10 ^ k) (x.leadingExponent - k) = 10 ^ x.leadingExponent := by
  rw [← one_mul (10 ^ k), gridValue_mul_pow, sub_add_cancel, gridValue, Nat.cast_one, one_mul]

/-- Between a grid and the next finer one, too few digits do not reach the magnitude. -/
theorem gridValue_le_pow {x : Binary64} {c k : ℕ} {e : ℤ} (hc : c ≤ 10 ^ (k + 1))
    (he : e < x.leadingExponent - k) : gridValue c e ≤ 10 ^ x.leadingExponent := by
  have hexponent : (10 : ℚ) ^ e ≤ 10 ^ (x.leadingExponent - ((k + 1 : ℕ) : ℤ)) :=
    zpow_le_zpow_right₀ (by norm_num) (by omega)
  calc gridValue c e
      ≤ gridValue (10 ^ (k + 1)) (x.leadingExponent - ((k + 1 : ℕ) : ℤ)) :=
        mul_le_mul (Nat.cast_le.2 hc) hexponent (by positivity) (by positivity)
    _ = 10 ^ x.leadingExponent := x.gridValue_pow (k + 1)

/-- A decimal that reads back reaches down to the first grid with a point that does. -/
theorem pow_le_of_readsBack {tie : Tie} {x : Binary64} {c k : ℕ} {e : ℤ}
    (hx : x.isZero = false) (hc : x.ReadsBack (gridValue c e))
    (hnone : ∀ j < k, gridPoint? tie x (x.leadingExponent - j) = none) : 10 ^ k ≤ c := by
  have hpositive := hc.natCast_pos hx
  by_contra hlt
  obtain ⟨j, rfl⟩ : ∃ j, k = j + 1 := by
    refine Nat.exists_eq_succ_of_ne_zero ?_
    rintro rfl
    omega
  have hgrid := not_readsBack_of_gridPoint?_eq_none hx (hnone j (Nat.lt_succ_self j))
  by_cases hexponent : x.leadingExponent - j ≤ e
  · -- the decimal is a point of the grid before
    refine hgrid (c * 10 ^ (e - (x.leadingExponent - j)).toNat) ?_
    rwa [gridValue_mul_pow, Int.toNat_of_nonneg (by omega), add_sub_cancel]
  · -- the power of ten at the first digit is between the decimal and the magnitude
    have hmagnitude := (leadingExponent_bounds hx).1
    refine hgrid (10 ^ j) ?_
    rw [gridValue_pow]
    exact hc.between (readsBack_magnitude hx)
      (gridValue_le_pow (not_le.1 hlt).le (not_le.1 hexponent)) hmagnitude

/-- No decimal with fewer digits than the shortest one reads back. -/
theorem length_shortest_le (tie : Tie) {x : Binary64} {c : ℕ} {e : ℤ} (hx : x.isZero = false)
    (h : x.ReadsBack (gridValue c e)) :
    (Nat.toDigits 10 (x.shortest tie).coefficient.natAbs).length ≤ (Nat.toDigits 10 c).length := by
  obtain ⟨k, point, hresult, hpoint, hnone⟩ := exists_shortest_eq tie hx
  have hlength : k < (Nat.toDigits 10 c).length :=
    (Nat.pow_lt_pow_iff_right (by decide)).1
      ((pow_le_of_readsBack hx h hnone).trans_lt (Text.lt_pow_length_toDigits c))
  exact (length_shortest_le_of_taken hx hresult (isTaken_of_gridPoint? hpoint)).trans hlength

/-! ### The nearest -/

/-- Decimals with one digit for each grid do not lie between the neighbours of the magnitude. -/
theorem gridValue_not_between {x : Binary64} {c k : ℕ} (hx : x.isZero = false)
    (hc : c < 10 ^ (k + 1)) (e : ℤ) :
    gridValue c e ≤ gridValue (x.gridFloor (x.leadingExponent - k)) (x.leadingExponent - k) ∨
      gridValue (x.gridFloor (x.leadingExponent - k) + 1) (x.leadingExponent - k) ≤
        gridValue c e := by
  have hmono := (gridValue_strictMono (x.leadingExponent - k)).monotone
  by_cases hexponent : x.leadingExponent - k ≤ e
  · have hgrid : gridValue (c * 10 ^ (e - (x.leadingExponent - k)).toNat) (x.leadingExponent - k) =
        gridValue c e := by
      rw [gridValue_mul_pow, Int.toNat_of_nonneg (by omega), add_sub_cancel]
    rw [← hgrid]
    rcases Nat.lt_or_ge (x.gridFloor (x.leadingExponent - k))
        (c * 10 ^ (e - (x.leadingExponent - k)).toNat) with hlt | hge
    · exact .inr (hmono hlt)
    · exact .inl (hmono hge)
  · have hpow : 10 ^ k ≤ x.gridFloor (x.leadingExponent - k) := by
      have hnext := (x.magnitude_between_gridFloor (x.leadingExponent - k)).2
      have hlt := (leadingExponent_bounds hx).1.trans_lt hnext
      rw [← x.gridValue_pow k] at hlt
      exact Nat.lt_succ_iff.1 ((gridValue_strictMono (x.leadingExponent - k)).lt_iff_lt.1 hlt)
    have hfirst := hmono hpow
    dsimp only at hfirst
    rw [gridValue_pow] at hfirst
    exact .inl ((gridValue_le_pow hc.le (not_le.1 hexponent)).trans hfirst)

/-- Of the decimals with as many digits that read back, none is nearer than the shortest one. -/
theorem abs_shortest_sub_le (tie : Tie) {x : Binary64} {c : ℕ} {e : ℤ} (hx : x.isZero = false)
    (h : x.ReadsBack (gridValue c e))
    (hlength : (Nat.toDigits 10 c).length =
      (Nat.toDigits 10 (x.shortest tie).coefficient.natAbs).length) :
    |gridValue (x.shortest tie).coefficient.natAbs (x.shortest tie).exponent - x.magnitude| ≤
      |gridValue c e - x.magnitude| := by
  obtain ⟨k, point, hresult, hpoint, hnone⟩ := exists_shortest_eq tie hx
  have htaken := isTaken_of_gridPoint? hpoint
  have hmagnitude := readsBack_magnitude hx
  obtain ⟨hbelow, habove⟩ := x.magnitude_between_gridFloor (x.leadingExponent - k)
  have hvalue : gridValue (x.shortest tie).coefficient.natAbs (x.shortest tie).exponent =
      gridValue point (x.leadingExponent - k) := by
    rw [gridValue_shortest tie hx, hresult, Decimal.value_normalize, Decimal.value,
      Int.cast_natCast, gridValue]
  have hc : c < 10 ^ (k + 1) := by
    rw [← Nat.length_toDigits_le_iff (by decide) (Nat.succ_pos k), hlength]
    exact length_shortest_le_of_taken hx hresult htaken
  rw [hvalue]
  rcases gridValue_not_between hx hc e with hle | hge
  · refine (htaken.nearest _ (.inl rfl) (h.between hmagnitude hle hbelow)).trans ?_
    rw [abs_gridFloor_sub, abs_sub_comm, abs_of_nonneg (sub_nonneg.2 (hle.trans hbelow))]
    exact sub_le_sub_left hle _
  · refine (htaken.nearest _ (.inr rfl) (hmagnitude.between h habove.le hge)).trans ?_
    rw [abs_gridFloor_succ_sub, abs_of_nonneg (sub_nonneg.2 (habove.le.trans hge))]
    exact sub_le_sub_right hge _

end ReconcileTrigger.Binary64

import Mathlib.Algebra.Order.Field.Power
import ReconcileTrigger.Proofs.Binary64.Shortest

/-!
A quotient is rounded to a binary64 number iff it lies in the interval of the number. So the
shortest decimal is read as the number that it was written for, the two zeros with their sign, and
among the decimals that are it has the fewest digits and is the nearest with as many.
-/

namespace ReconcileTrigger.Binary64

/-! ### Rounding to natural numbers -/

/-- A quotient is rounded to a natural number at most a half away, and to one exactly a half away
only if the number is even. -/
theorem roundDiv_eq_iff {n d m : ℕ} (hd : 0 < d) :
    roundDiv n d = m ↔
      2 * (m * d) ≤ 2 * n + d ∧ 2 * n ≤ 2 * (m * d) + d ∧
        (m % 2 = 1 → 2 * (m * d) < 2 * n + d ∧ 2 * n < 2 * (m * d) + d) := by
  have hsplit : n / d * d + n % d = n := Nat.div_add_mod' n d
  have hrest : n % d < d := Nat.mod_lt n hd
  have hstep : (n / d + 1) * d = n / d * d + d := Nat.succ_mul _ _
  unfold roundDiv
  dsimp only
  constructor
  · rintro rfl
    split <;> omega
  · rintro ⟨hlow, hhigh, hodd⟩
    have hle : n / d ≤ m := by
      by_contra hlt
      have hmul : (m + 1) * d ≤ n / d * d := Nat.mul_le_mul_right d (by omega)
      rw [Nat.succ_mul] at hmul
      omega
    have hge : m ≤ n / d + 1 := by
      by_contra hlt
      have hmul : (n / d + 2) * d ≤ m * d := Nat.mul_le_mul_right d (by omega)
      rw [Nat.add_mul] at hmul
      omega
    rcases Nat.eq_or_lt_of_le hle with heq | hlt
    · rw [heq] at hsplit
      rw [heq, if_neg]
      omega
    · obtain rfl : m = n / d + 1 := by omega
      rw [if_pos]
      omega

/-- The scale of a quotient and its first bit. -/
theorem log2_sub_eq_iff {q s : ℕ} :
    q.log2 - 52 = s ↔ (s = 0 ∨ leastFull * 2 ^ s ≤ q) ∧ q < 2 * leastFull * 2 ^ s := by
  have hfull : leastFull = 2 ^ 52 := by decide
  rw [hfull, ← pow_succ', ← pow_add, ← pow_add]
  by_cases hq : q = 0
  · subst hq
    have hfirst : 0 < 2 ^ (52 + s) := Nat.two_pow_pos _
    have hnext : 0 < 2 ^ (52 + 1 + s) := Nat.two_pow_pos _
    rw [Nat.log2_zero]
    omega
  · rw [← Nat.le_log2 hq, ← Nat.log2_lt hq]
    omega

/-- The scale of a quotient, compared without the division. -/
theorem scale_eq_iff {n den s : ℕ} (hden : 0 < den) :
    (n / den).log2 - 52 = s ↔
      (s = 0 ∨ leastFull * (den * 2 ^ s) ≤ n) ∧ n < 2 * leastFull * (den * 2 ^ s) := by
  have hquotient : ∀ a, a * 2 ^ s * den = a * (den * 2 ^ s) := fun a => by ring
  rw [log2_sub_eq_iff, Nat.le_div_iff_mul_le hden, Nat.div_lt_iff_lt_mul hden, hquotient,
    hquotient]

/-! ### Rounding to numbers -/

theorem ofParts?_eq_some_iff {x : Binary64} {negative : Bool} {mantissa scale : ℕ} :
    ofParts? negative mantissa scale = some x ↔
      x.negative = negative ∧ x.mantissa = mantissa ∧ x.scale = scale := by
  unfold ofParts?
  constructor
  · intro h
    split at h
    · obtain rfl := Option.some.inj h
      exact ⟨rfl, rfl, rfl⟩
    · contradiction
  · rintro ⟨rfl, rfl, rfl⟩
    exact dif_pos ⟨x.mantissa_lt, x.scale_le, x.full⟩

theorem ofRatio?_eq (negative : Bool) (num den : ℕ) :
    ofRatio? negative num den =
      let scale := (num * denominator / den).log2 - 52
      let mantissa := roundDiv (num * denominator) (den * 2 ^ scale)
      if mantissa = 2 * leastFull then ofParts? negative leastFull (scale + 1)
      else ofParts? negative mantissa scale := by
  unfold ofRatio? denominator
  generalize Nat.pow 2 1074 = power
  rfl

theorem div_quarter (x : Binary64) {num den : ℕ} (hden : 0 < den) :
    (num / den : ℚ) / x.quarter =
      ((4 * (num * denominator) : ℕ) : ℚ) / ((den * 2 ^ x.scale : ℕ) : ℚ) := by
  have hscale := x.quarter_mul_quarters
  have hden' : (den : ℚ) ≠ 0 := Nat.cast_ne_zero.2 hden.ne'
  rw [quarters] at hscale
  push_cast at *
  rw [← hscale, div_div, div_eq_div_iff (mul_ne_zero hden' x.quarter_pos.ne')
    (mul_ne_zero hden' (hscale ▸ by positivity))]
  ring

def NearTo (x : Binary64) (n d : ℕ) : Prop :=
  x.interval.low * d ≤ 4 * n ∧ 4 * n ≤ x.interval.high * d ∧
    (x.mantissa % 2 = 1 → x.interval.low * d < 4 * n ∧ 4 * n < x.interval.high * d)

theorem readsBack_ratio_iff {x : Binary64} {num den : ℕ} (hden : 0 < den) :
    x.ReadsBack (num / den) ↔ x.NearTo (num * denominator) (den * 2 ^ x.scale) := by
  have hpos : (0 : ℚ) < ((den * 2 ^ x.scale : ℕ) : ℚ) :=
    Nat.cast_pos.2 (Nat.mul_pos hden (Nat.pow_pos (by decide)))
  rw [ReadsBack, div_quarter x hden, NearTo, Interval.Contains, le_div_iff₀ hpos,
    div_le_iff₀ hpos, lt_div_iff₀ hpos, div_lt_iff₀ hpos]
  norm_cast
  have hclosed : x.interval.closed = (x.mantissa % 2 == 0) := rfl
  split
  · rename_i heven
    rw [hclosed, beq_iff_eq] at heven
    omega
  · rename_i hodd
    rw [hclosed, beq_iff_eq] at hodd
    omega

theorem high_mul (x : Binary64) (d : ℕ) : x.interval.high * d = 4 * (x.mantissa * d) + 2 * d := by
  rw [← Nat.mul_assoc, ← Nat.add_mul]
  rfl

theorem low_mul_of_ne {x : Binary64} (h : ¬ (x.mantissa = leastFull ∧ x.scale ≠ 0)) (d : ℕ) :
    x.interval.low * d = 4 * (x.mantissa * d) - 2 * d := by
  rw [← Nat.mul_assoc, ← Nat.sub_mul]
  dsimp only [interval]
  rw [if_neg h]

theorem low_mul_of_eq {x : Binary64} (h : x.mantissa = leastFull ∧ x.scale ≠ 0) (d : ℕ) :
    x.interval.low * d = 4 * (leastFull * d) - d := by
  rw [← Nat.mul_assoc, ← Nat.sub_one_mul]
  dsimp only [interval]
  rw [if_pos h, h.1]

/-- In the binade of a number, the quotients near to it are those that are rounded to it. -/
theorem nearTo_iff_of_binade {x : Binary64} {n d : ℕ} (hd : 0 < d)
    (hbinade : x.scale = 0 ∨ leastFull * d ≤ n) :
    x.NearTo n d ↔ roundDiv n d = x.mantissa := by
  rw [roundDiv_eq_iff hd, NearTo, high_mul]
  by_cases hleast : x.mantissa = leastFull ∧ x.scale ≠ 0
  · have hle := hbinade.resolve_left hleast.2
    rw [low_mul_of_eq hleast, hleast.1]
    unfold leastFull at *
    omega
  · have hodd : x.mantissa % 2 = 1 → d ≤ x.mantissa * d := fun h =>
      Nat.le_mul_of_pos_left d (by omega)
    rw [low_mul_of_ne hleast]
    omega

/-- Below the binade of a number, the quotients near to it are those that are rounded up to the end
of the binade below, where units are half as large. -/
theorem nearTo_iff_of_lt {x : Binary64} {n d : ℕ} (hd : 0 < d) (hscale : x.scale ≠ 0)
    (hlt : n < leastFull * (2 * d)) :
    x.NearTo n (2 * d) ↔ x.mantissa = leastFull ∧ roundDiv n d = 2 * leastFull := by
  rw [roundDiv_eq_iff hd]
  constructor
  · intro h
    have hmul : x.interval.low * (2 * d) < 4 * leastFull * (2 * d) := by
      rw [Nat.mul_assoc 4]
      exact h.1.trans_lt (by omega)
    have hlow := Nat.lt_of_mul_lt_mul_right hmul
    have hmantissa : x.mantissa = leastFull := by
      have hfull := x.full.resolve_left hscale
      dsimp only [interval] at hlow
      split at hlow <;> omega
    rw [NearTo, high_mul, low_mul_of_eq ⟨hmantissa, hscale⟩] at h
    unfold leastFull at *
    omega
  · rintro ⟨hmantissa, hround⟩
    rw [NearTo, high_mul, low_mul_of_eq ⟨hmantissa, hscale⟩, hmantissa]
    unfold leastFull at *
    omega

theorem NearTo.lt {x : Binary64} {n d : ℕ} (hd : 0 < d) (h : x.NearTo n d) :
    n < 2 * leastFull * d := by
  have hhigh : x.interval.high < 4 * (2 * leastFull) := by
    have hlt := x.mantissa_lt
    dsimp only [interval]
    omega
  have hmul := Nat.mul_lt_mul_of_pos_right hhigh hd
  rw [Nat.mul_assoc 4] at hmul
  have hle := h.2.1
  omega

/-- A quotient is rounded to a number iff it lies in the interval of the number. -/
theorem ofRatio?_eq_some_iff {x : Binary64} {num den : ℕ} (hden : 0 < den) :
    ofRatio? x.negative num den = some x ↔ x.ReadsBack (num / den) := by
  rw [ofRatio?_eq, readsBack_ratio_iff hden]
  dsimp only
  generalize num * denominator = n
  have hpos : ∀ t, 0 < den * 2 ^ t := fun t => Nat.mul_pos hden (Nat.pow_pos (by decide))
  have hdouble : ∀ t, den * 2 ^ (t + 1) = 2 * (den * 2 ^ t) := fun t => by ring
  constructor
  · intro h
    generalize hs : (n / den).log2 - 52 = s at h
    obtain ⟨hlow, hhigh⟩ := (scale_eq_iff hden).1 hs
    split at h
    · rename_i hcarry
      obtain ⟨_, hmantissa, hx⟩ := ofParts?_eq_some_iff.1 h
      rw [hx, hdouble]
      refine (nearTo_iff_of_lt (hpos s) (by omega) ?_).2 ⟨hmantissa, hcarry⟩
      rwa [Nat.mul_left_comm, ← Nat.mul_assoc]
    · obtain ⟨_, hmantissa, rfl⟩ := ofParts?_eq_some_iff.1 h
      exact (nearTo_iff_of_binade (hpos _) hlow).2 hmantissa.symm
  · intro h
    by_cases hbinade : x.scale = 0 ∨ leastFull * (den * 2 ^ x.scale) ≤ n
    · rw [(scale_eq_iff hden).2 ⟨hbinade, h.lt (hpos _)⟩,
        (nearTo_iff_of_binade (hpos _) hbinade).1 h, if_neg x.mantissa_lt.ne]
      exact ofParts?_eq_some_iff.2 ⟨rfl, rfl, rfl⟩
    · rw [not_or, not_le] at hbinade
      obtain ⟨hnonzero, hlt⟩ := hbinade
      obtain ⟨t, ht⟩ := Nat.exists_eq_succ_of_ne_zero hnonzero
      rw [ht, Nat.succ_eq_add_one, hdouble] at h hlt
      obtain ⟨hmantissa, hround⟩ := (nearTo_iff_of_lt (hpos t) hnonzero hlt).1 h
      have hbits := ((roundDiv_eq_iff (hpos t)).1 hround).1
      have hs : (n / den).log2 - 52 = t := by
        rw [scale_eq_iff hden]
        have hd := hpos t
        unfold leastFull at *
        omega
      rw [hs, hround, if_pos rfl]
      exact ofParts?_eq_some_iff.2 ⟨rfl, hmantissa, ht⟩

/-! ### Rounding of decimals -/

theorem gridValue_eq_ratio (c : ℕ) (e : ℤ) :
    gridValue c e = ((c * 10 ^ e.toNat : ℕ) : ℚ) / ((10 ^ (-e).toNat : ℕ) : ℚ) := by
  rw [eq_div_iff (Nat.cast_ne_zero.2 (Nat.pow_pos (by decide)).ne'), gridValue, Nat.cast_mul,
    Nat.cast_pow, Nat.cast_pow, Nat.cast_ofNat, mul_assoc, ten_zpow_mul_pow]

/-- Within the range of all numbers, a decimal is rounded as the quotient that it is. -/
theorem ofDecimal?_eq_ofRatio? {negative : Bool} {c : ℕ} {e : ℤ} (hc : c ≠ 0)
    (hleast : -400 ≤ (Nat.toDigits 10 c).length + e)
    (hgreatest : (Nat.toDigits 10 c).length + e ≤ 400) :
    ofDecimal? negative c e =
      ofRatio? negative (c * 10 ^ e.toNat) (10 ^ (-e).toNat) := by
  unfold ofDecimal?
  dsimp only
  rw [if_neg (by omega), if_neg (by omega)]
  split
  · rw [show (-e).toNat = 0 by omega, Nat.pow_zero]
    rfl
  · rw [show e.toNat = 0 by omega, Nat.pow_zero, Nat.mul_one]
    rfl

/-- A decimal is rounded to a number other than zero iff it lies in the interval of the number. -/
theorem ofDecimal?_eq_some_iff {x : Binary64} {c : ℕ} {e : ℤ} (hx : x.isZero = false) :
    ofDecimal? x.negative c e = some x ↔ x.ReadsBack (gridValue c e) := by
  have hratio : ofRatio? x.negative (c * 10 ^ e.toNat) (10 ^ (-e).toNat) = some x ↔
      x.ReadsBack (gridValue c e) := by
    rw [gridValue_eq_ratio]
    exact ofRatio?_eq_some_iff (Nat.pow_pos (by decide))
  constructor
  · intro h
    by_cases hzero : c = 0 ∨ (Nat.toDigits 10 c).length + e < -400
    · rw [ofDecimal?, if_pos hzero] at h
      rw [← Option.some.inj h] at hx
      contradiction
    · by_cases hlarge : 400 < (Nat.toDigits 10 c).length + e
      · rw [ofDecimal?, if_neg hzero, if_pos hlarge] at h
        contradiction
      · rw [ofDecimal?_eq_ofRatio? (by omega) (by omega) (by omega)] at h
        exact hratio.1 h
  · intro h
    obtain ⟨hleast, hgreatest⟩ := h.place_bounds hx
    rw [ofDecimal?_eq_ofRatio? (h.natCast_pos hx).ne' hleast.le hgreatest.le]
    exact hratio.2 h

theorem eq_zero_of_isZero {x : Binary64} (hx : x.isZero = true) : x = zero x.negative := by
  have hmantissa : x.mantissa = 0 := eq_of_beq hx
  have hscale : x.scale = 0 := by
    rcases x.full with hscale | hfull
    · exact hscale
    · rw [hmantissa] at hfull
      contradiction
  obtain ⟨_, _, _, _, _, _⟩ := x
  subst hmantissa hscale
  rfl

/-- The decimal is rounded to the number. No decimal with fewer digits is, and none with as many
digits that is lies nearer to the number. -/
structure IsShortest (x : Binary64) (d : Decimal) : Prop where
  readsBack : ofDecimal? x.negative d.coefficient.natAbs d.exponent = some x
  fewest : ∀ c e, ofDecimal? x.negative c e = some x →
    (Nat.toDigits 10 d.coefficient.natAbs).length ≤ (Nat.toDigits 10 c).length
  nearest : ∀ c e, ofDecimal? x.negative c e = some x →
    (Nat.toDigits 10 c).length = (Nat.toDigits 10 d.coefficient.natAbs).length →
      |gridValue d.coefficient.natAbs d.exponent - x.magnitude| ≤ |gridValue c e - x.magnitude|

theorem isShortest_zero (negative : Bool) : (zero negative).IsShortest ⟨0, 0⟩ where
  readsBack := rfl
  fewest c _ _ := Text.length_toDigits_pos c
  nearest c e _ _ := by
    have hzero : gridValue (Int.natAbs 0) 0 - (zero negative).magnitude = 0 := by
      rw [gridValue, magnitude, zero, Int.natAbs_zero, Nat.cast_zero, zero_mul, zero_mul, sub_zero]
    rw [hzero, abs_zero]
    exact abs_nonneg _

theorem isShortest_shortest (tie : Tie) (x : Binary64) : x.IsShortest (x.shortest tie) := by
  by_cases hx : x.isZero = true
  · rw [shortest_of_isZero tie hx, eq_zero_of_isZero hx]
    exact isShortest_zero x.negative
  · rw [Bool.not_eq_true] at hx
    refine ⟨(ofDecimal?_eq_some_iff hx).2 (readsBack_shortest tie hx), ?_, ?_⟩
    · intro c e h
      exact length_shortest_le tie hx ((ofDecimal?_eq_some_iff hx).1 h)
    · intro c e h hlength
      exact abs_shortest_sub_le tie hx ((ofDecimal?_eq_some_iff hx).1 h) hlength

end ReconcileTrigger.Binary64

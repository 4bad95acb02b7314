/-!
Finite binary64 numbers as sign, mantissa and scale, with exact arithmetic on natural numbers.
Rounding is to the nearest number, a tie to the even mantissa, and too large a quotient has no
rounding.
-/

namespace ReconcileTrigger

abbrev Binary64.leastFull : Nat :=
  4503599627370496

/-- The number `± mantissa * 2 ^ scale / 2 ^ 1074`. Only the least scale admits a mantissa
below `2 ^ 52`, so a value other than zero has one representation. -/
structure Binary64 where
  negative : Bool
  mantissa : Nat
  scale : Nat
  mantissa_lt : mantissa < 2 * Binary64.leastFull
  scale_le : scale ≤ 2045
  full : scale = 0 ∨ Binary64.leastFull ≤ mantissa
  deriving DecidableEq

namespace Binary64

def zero (negative : Bool) : Binary64 :=
  ⟨negative, 0, 0, by decide, by decide, .inl rfl⟩

def isZero (x : Binary64) : Bool :=
  x.mantissa == 0

/-- Both numbers have the same value; the two zeros are equal. -/
def sameValue (x y : Binary64) : Bool :=
  x == y || (x.isZero && y.isZero)

/-- The magnitude in units of `2 ^ -1074`. -/
def units (x : Binary64) : Nat :=
  x.mantissa * Nat.pow 2 x.scale

def neg (x : Binary64) : Binary64 :=
  { x with negative := !x.negative }

def ofParts? (negative : Bool) (mantissa scale : Nat) : Option Binary64 :=
  if h : mantissa < 2 * leastFull ∧ scale ≤ 2045 ∧ (scale = 0 ∨ leastFull ≤ mantissa) then
    some ⟨negative, mantissa, scale, h.1, h.2.1, h.2.2⟩
  else none

/-- The quotient rounded to the nearest natural number, a tie to the even one. -/
def roundDiv (n d : Nat) : Nat :=
  let q := n / d
  let r := n % d
  if d < 2 * r ∨ (2 * r = d ∧ q % 2 = 1) then q + 1 else q

/-- The number nearest to `num / den`, or nothing where that lies beyond the largest one. -/
def ofRatio? (negative : Bool) (num den : Nat) : Option Binary64 :=
  let units := num * Nat.pow 2 1074
  let scale := (units / den).log2 - 52
  let mantissa := roundDiv units (den * Nat.pow 2 scale)
  if mantissa = 2 * leastFull then ofParts? negative leastFull (scale + 1)
  else ofParts? negative mantissa scale

def ofNat? (n : Nat) : Option Binary64 :=
  ofRatio? false n 1

def mul? (x y : Binary64) : Option Binary64 :=
  ofRatio? (x.negative != y.negative) (x.units * y.units) (Nat.pow 2 2148)

def div? (x y : Binary64) : Option Binary64 :=
  ofRatio? (x.negative != y.negative) x.units y.units

/-- The number nearest to `± digits * 10 ^ exponent`, or nothing where that lies beyond the
largest one. Exponents far outside the range are settled without computing the power. -/
def ofDecimal? (negative : Bool) (digits : Nat) (exponent : Int) : Option Binary64 :=
  let magnitude := (Nat.toDigits 10 digits).length + exponent
  if digits = 0 ∨ magnitude < -400 then some (zero negative)
  else if 400 < magnitude then none
  else if 0 ≤ exponent then ofRatio? negative (digits * Nat.pow 10 exponent.toNat) 1
  else ofRatio? negative digits (Nat.pow 10 (-exponent).toNat)

end Binary64

end ReconcileTrigger

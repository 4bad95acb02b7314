import ReconcileTrigger.Binary64.Basic
import ReconcileTrigger.Decimal

/-!
The shortest decimal that reads back as a given binary64 number. Among the decimals in the
interval of reals that round to the number, the ones with the fewest digits are taken, of
these the nearest.
-/

namespace ReconcileTrigger.Binary64

/-- Which of two shortest decimals is taken where a number lies halfway between them. -/
inductive Tie
  | toEven
  | up
  deriving DecidableEq

/-- The reals that round to a positive number, in quarters of `2 ^ (scale - 1074)`: the ends
belong to it iff the mantissa is even. The gap below a power of two is half as wide. -/
structure Interval where
  low : Nat
  value : Nat
  high : Nat
  closed : Bool

def interval (x : Binary64) : Interval where
  low := 4 * x.mantissa - (if x.mantissa = leastFull ∧ x.scale ≠ 0 then 1 else 2)
  value := 4 * x.mantissa
  high := 4 * x.mantissa + 2
  closed := x.mantissa % 2 == 0

/-- The decimal exponent `k` of a positive quotient: `10 ^ k ≤ num / den < 10 ^ (k + 1)`. -/
def decimalExponent (num den : Nat) : Int :=
  if den ≤ num then ((Nat.toDigits 10 (num / den)).length : Int) - 1
  else -((Nat.toDigits 10 ((den - 1) / num)).length : Int)

/-- The point `point * 10 ^ exponent` of a decimal grid, compared with quotients by `den`. -/
def onGrid (point : Nat) (exponent : Int) (den : Nat) : Nat :=
  point * den * Nat.pow 10 exponent.toNat

/-- One decimal grid: the neighbours of the number on it, of which the one that reads back is
taken, of two such the nearer. -/
def gridPoint? (tie : Tie) (x : Binary64) (exponent : Int) : Option Nat :=
  let i := x.interval
  let unit := Nat.pow 2 x.scale * Nat.pow 10 (-exponent).toNat
  let den := 4 * Nat.pow 2 1074
  let floor := i.value * unit / (den * Nat.pow 10 exponent.toNat)
  let place (point : Nat) := onGrid point exponent den
  let inside (point : Nat) : Bool :=
    if i.closed then i.low * unit ≤ place point && place point ≤ i.high * unit
    else i.low * unit < place point && place point < i.high * unit
  let below := i.value * unit - place floor
  let above := place (floor + 1) - i.value * unit
  match inside floor, inside (floor + 1) with
  | true, true =>
    if below < above then some floor
    else if above < below then some (floor + 1)
    else
      match tie with
      | .up => some (floor + 1)
      | .toEven => some (if floor % 2 = 0 then floor else floor + 1)
  | true, false => some floor
  | false, true => some (floor + 1)
  | false, false => none

/-- The first grid with a point that reads back, from `exponent` downwards. Seventeen digits
always suffice. -/
def shortestFrom (tie : Tie) (x : Binary64) (exponent : Int) : Nat → Decimal
  | 0 => ⟨0, 0⟩
  | grids + 1 =>
    match gridPoint? tie x exponent with
    | some point => ⟨point, exponent⟩
    | none => shortestFrom tie x (exponent - 1) grids

def shortest (tie : Tie) (x : Binary64) : Decimal :=
  if x.isZero then ⟨0, 0⟩
  else (shortestFrom tie x (decimalExponent x.units (Nat.pow 2 1074)) 17).normalize

end ReconcileTrigger.Binary64

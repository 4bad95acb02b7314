/-!
Exact decimal numbers, a coefficient times a power of ten. Equality is by value, so `10` and
`1.0e1` are the same number. The written form is canonical: it depends on the value alone.
-/

namespace ReconcileTrigger

/-- The number `coefficient * 10 ^ exponent`. -/
structure Decimal where
  coefficient : Int
  exponent : Int
  deriving DecidableEq, Repr

namespace Decimal

def mul (a b : Decimal) : Decimal :=
  ⟨a.coefficient * b.coefficient, a.exponent + b.exponent⟩

/-- The coefficient on the grid of the smaller or equal exponent `e`. -/
def scaledTo (e : Int) (a : Decimal) : Int :=
  a.coefficient * (Nat.pow 10 (a.exponent - e).toNat : Nat)

def sameValue (a b : Decimal) : Bool :=
  let e := min a.exponent b.exponent
  a.scaledTo e == b.scaledTo e

/-- The number without its trailing zeros, and how many there were; zero stays as it is. -/
def stripZeros (n : Nat) : Nat × Nat :=
  if n ≠ 0 ∧ n % 10 = 0 then
    let (m, zeros) := stripZeros (n / 10)
    (m, zeros + 1)
  else (n, 0)
decreasing_by omega

/-- The same value with a coefficient that does not end in zero; zero has exponent zero. -/
def normalize (a : Decimal) : Decimal :=
  if a.coefficient = 0 then ⟨0, 0⟩
  else
    let (m, zeros) := stripZeros a.coefficient.natAbs
    ⟨if a.coefficient < 0 then -m else m, a.exponent + zeros⟩

/-- Digits with `fraction` of them after the point, zeros in front where there are too few. -/
def withPoint (digits : List Char) (fraction : Nat) : List Char :=
  if fraction = 0 then digits
  else if fraction < digits.length then
    digits.take (digits.length - fraction) ++ '.' :: digits.drop (digits.length - fraction)
  else ['0', '.'] ++ List.replicate (fraction - digits.length) '0' ++ digits

def withLeadingPoint : List Char → List Char
  | [] => []
  | [d] => [d]
  | d :: rest => d :: '.' :: rest

/-- The written form of the magnitude `coefficient * 10 ^ exponent`. More than fifteen zeros at
the end are written as an exponent; more than five zeros after the point turn the number into
scientific notation. -/
def magnitudeText (coefficient : Nat) (exponent : Int) : List Char :=
  let digits := Nat.toDigits 10 coefficient
  if 15 < exponent then
    digits ++ ['e', '+'] ++ Nat.toDigits 10 exponent.toNat
  else if 0 ≤ exponent then
    digits ++ List.replicate exponent.toNat '0'
  else
    let fraction := (-exponent).toNat
    if digits.length + 5 < fraction then
      withLeadingPoint digits ++ ['E', '-'] ++
        Nat.toDigits 10 (fraction + 1 - digits.length)
    else withPoint digits fraction

def chars (a : Decimal) : List Char :=
  let n := a.normalize
  let magnitude := magnitudeText n.coefficient.natAbs n.exponent
  if n.coefficient < 0 then '-' :: magnitude else magnitude

def text (a : Decimal) : String :=
  String.ofList a.chars

end Decimal

end ReconcileTrigger

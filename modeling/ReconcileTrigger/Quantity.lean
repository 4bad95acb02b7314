import ReconcileTrigger.Decimal
import ReconcileTrigger.Failure
import ReconcileTrigger.Text.Digits

/-!
Resource quantities such as `500m`, `1Gi` and `1e3`. A quantity is a number and a unit, and
only their exact product counts: two encodings of one amount are the same quantity.
-/

namespace ReconcileTrigger

open Text (digitsValue? signedValue? splitSign)

/-- An amount, and whether it was written with a unit or an exponent. -/
structure Quantity where
  amount : Decimal
  hasSuffix : Bool
  deriving DecidableEq, Repr

namespace Quantity

def binaryUnit (exponent : Nat) : Decimal :=
  ⟨(Nat.pow 1024 exponent : Nat), 0⟩

def decimalUnit (exponent : Int) : Decimal :=
  ⟨1, exponent⟩

def units : List (List Char × Decimal) :=
  [ (['K', 'i'], binaryUnit 1), (['M', 'i'], binaryUnit 2), (['G', 'i'], binaryUnit 3),
    (['T', 'i'], binaryUnit 4), (['P', 'i'], binaryUnit 5), (['E', 'i'], binaryUnit 6),
    (['n'], decimalUnit (-9)), (['u'], decimalUnit (-6)), (['m'], decimalUnit (-3)),
    (['k'], decimalUnit 3), (['M'], decimalUnit 6), (['G'], decimalUnit 9),
    (['T'], decimalUnit 12), (['P'], decimalUnit 15), (['E'], decimalUnit 18) ]

def exponentLimit : Nat := 1024

def multiplier? (suffix : List Char) : Option Decimal :=
  match suffix with
  | [] => some (decimalUnit 0)
  | letter :: exponent =>
    match units.lookup suffix with
    | some unit => some unit
    | none =>
      if letter = 'e' ∨ letter = 'E' then
        match signedValue? exponent with
        | some e => if e.natAbs ≤ exponentLimit then some (decimalUnit e) else none
        | none => none
      else none

/-- The value of digits with at most one point among them, and at least one digit. -/
def magnitude? (cs : List Char) : Option Decimal :=
  let whole := cs.takeWhile Char.isDigit
  let fraction :=
    match cs.dropWhile Char.isDigit with
    | '.' :: rest => some rest
    | [] => some []
    | _ => none
  match fraction with
  | some fraction =>
    (digitsValue? (whole ++ fraction)).map fun n => ⟨n, -(fraction.length : Int)⟩
  | none => none

def number? (cs : List Char) : Option Decimal := do
  let (negative, digits) := splitSign cs
  let m ← magnitude? digits
  return if negative then ⟨-m.coefficient, m.exponent⟩ else m

def isNumberChar (c : Char) : Bool :=
  c.isDigit || c = '.' || c = '+' || c = '-'

def ofChars? (cs : List Char) : Option Quantity := do
  let suffix := cs.dropWhile isNumberChar
  let number ← number? (cs.takeWhile isNumberChar)
  let multiplier ← multiplier? suffix
  return ⟨number.mul multiplier, !suffix.isEmpty⟩

def parse (raw : String) : Except Failure Quantity :=
  match ofChars? raw.toList with
  | some q => .ok q
  | none => .error (.invalidQuantity raw)

def sameAmount (a b : Quantity) : Bool :=
  a.amount.sameValue b.amount

def text (q : Quantity) : String :=
  q.amount.text

end Quantity

end ReconcileTrigger

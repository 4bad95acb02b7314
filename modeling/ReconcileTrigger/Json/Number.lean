import ReconcileTrigger.Binary64.Shortest

/-!
Numbers of JSON documents. A literal without fraction and exponent that fits a 64-bit word,
signed or unsigned, is an integer; every other number is a binary64 number. The two kinds are
never equal, whatever their values.
-/

namespace ReconcileTrigger.Json

inductive Number
  | integer (value : Int)
  | binary (value : Binary64)
  deriving DecidableEq

namespace Number

/-- Equal numbers of the same kind; the two binary zeros are equal. -/
def same : Number → Number → Bool
  | .integer a, .integer b => a == b
  | .binary x, .binary y => x.sameValue y
  | _, _ => false

def signed (negative : Bool) (magnitude : List Char) : List Char :=
  if negative then '-' :: magnitude else magnitude

def integerChars (value : Int) : List Char :=
  signed (value < 0) (Nat.toDigits 10 value.natAbs)

/-- A decimal magnitude as a binary number is written: positional with a fraction from
`0.00001` up to below `10 ^ 16`, else with a signed exponent. -/
def magnitudeChars (magnitude : Decimal) : List Char :=
  let digits := Nat.toDigits 10 magnitude.coefficient.natAbs
  let point := digits.length + magnitude.exponent
  if magnitude.coefficient = 0 then ['0', '.', '0']
  else if -5 < point ∧ point ≤ 16 then
    if 0 ≤ magnitude.exponent then
      digits ++ List.replicate magnitude.exponent.toNat '0' ++ ['.', '0']
    else Decimal.withPoint digits (-magnitude.exponent).toNat
  else
    Decimal.withLeadingPoint digits ++ 'e' :: (if point < 1 then '-' else '+') ::
      Nat.toDigits 10 (point - 1).natAbs

/-- The written form. A binary number is written with the fewest digits that read back. -/
def chars : Number → List Char
  | .integer value => integerChars value
  | .binary value => signed value.negative (magnitudeChars (value.shortest .toEven))

def text (n : Number) : String :=
  String.ofList n.chars

end Number

end ReconcileTrigger.Json

import ReconcileTrigger.Binary64.Shortest

/-!
Binary64 data: finite numbers, the two infinities, and the datum that is not a number. The
written form is positional whatever the magnitude, with the fewest digits that read back.
-/

namespace ReconcileTrigger.Binary64

inductive Datum
  | nan
  | infinite (negative : Bool)
  | finite (value : Binary64)
  deriving DecidableEq

namespace Datum

def ofDecimal (negative : Bool) (digits : Nat) (exponent : Int) : Datum :=
  match ofDecimal? negative digits exponent with
  | some x => .finite x
  | none => .infinite negative

def isInfinite : Datum → Bool
  | .infinite _ => true
  | _ => false

def isZero : Datum → Bool
  | .finite x => x.isZero
  | _ => false

def positionalChars (magnitude : Decimal) : List Char :=
  let digits := Nat.toDigits 10 magnitude.coefficient.natAbs
  if 0 ≤ magnitude.exponent then digits ++ List.replicate magnitude.exponent.toNat '0'
  else Decimal.withPoint digits (-magnitude.exponent).toNat

def signed (negative : Bool) (magnitude : List Char) : List Char :=
  if negative then '-' :: magnitude else magnitude

def chars : Datum → List Char
  | .nan => ['N', 'a', 'N']
  | .infinite negative => signed negative ['i', 'n', 'f']
  | .finite x => signed x.negative (positionalChars (x.shortest .up))

def text (d : Datum) : String :=
  String.ofList d.chars

end Datum

end ReconcileTrigger.Binary64

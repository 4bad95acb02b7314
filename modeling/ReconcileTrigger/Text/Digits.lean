/-!
Digits in texts, decimal and hexadecimal.
-/

namespace ReconcileTrigger.Text

def digitsValue? (cs : List Char) : Option Nat :=
  if cs.isEmpty then none
  else if cs.all Char.isDigit then some (Nat.ofDigitChars 10 cs 0)
  else none

/-- A sign at the front, true for a minus, and what follows. -/
def splitSign : List Char → Bool × List Char
  | '-' :: rest => (true, rest)
  | '+' :: rest => (false, rest)
  | cs => (false, cs)

def signedValue? (cs : List Char) : Option Int := do
  let (negative, digits) := splitSign cs
  let magnitude : Int ← digitsValue? digits
  return if negative then -magnitude else magnitude

/-- Digits that stand for a number without superfluous zeros: more than one of them do not start
with zero. -/
def isWholePart : List Char → Bool
  | [] => false
  | d :: rest => d ≠ '0' || rest.isEmpty

def hexDigit? (c : Char) : Option Nat :=
  if c.isDigit then some (c.toNat - '0'.toNat)
  else if 'a' ≤ c ∧ c ≤ 'f' then some (c.toNat - 'a'.toNat + 10)
  else if 'A' ≤ c ∧ c ≤ 'F' then some (c.toNat - 'A'.toNat + 10)
  else none

def hexValue? (digits : List Char) : Option Nat :=
  digits.foldlM (fun value c => (hexDigit? c).map (value * 16 + ·)) 0

def paddedDigits (width n : Nat) : List Char :=
  let digits := Nat.toDigits 10 n
  List.replicate (width - digits.length) '0' ++ digits

end ReconcileTrigger.Text

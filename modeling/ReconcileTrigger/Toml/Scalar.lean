import ReconcileTrigger.Document
import ReconcileTrigger.Text.Digits
import ReconcileTrigger.Timestamp
import ReconcileTrigger.Word

/-!
Unquoted scalars of TOML: flags, numbers, dates and times. Integers fit a signed 64-bit word, other
numbers are rounded to the nearest binary64 number, and a date or time stands for its text.
-/

namespace ReconcileTrigger.Toml

open Binary64 (Datum)
open Text (digitsValue? isWholePart splitSign)

/-- The digits of a run in which single underscores may stand between two digits. -/
def groupedDigits? (isDigit : Char → Bool) : List Char → Option (List Char)
  | [] => none
  | [d] => if isDigit d then some [d] else none
  | d :: '_' :: rest =>
    if isDigit d then (groupedDigits? isDigit rest).map (d :: ·) else none
  | d :: rest => if isDigit d then (groupedDigits? isDigit rest).map (d :: ·) else none

def isDigitOf (base : Nat) (c : Char) : Bool :=
  match Text.hexDigit? c with
  | some d => d < base
  | none => false

def magnitude? (base : Nat) (cs : List Char) : Option Nat := do
  let digits ← groupedDigits? (isDigitOf base) cs
  return digits.foldl (fun value d => value * base + (Text.hexDigit? d).getD 0) 0

def decimal? (cs : List Char) : Option Int := do
  let (negative, cs) := splitSign cs
  let digits ← groupedDigits? Char.isDigit cs
  guard (isWholePart digits)
  let magnitude := Nat.ofDigitChars 10 digits 0
  return if negative then -magnitude else magnitude

/-- An integer: decimal, or without a sign in base sixteen, eight or two. -/
def integer? (cs : List Char) : Option Int := do
  let n : Int ← match cs with
    | '0' :: 'x' :: rest => magnitude? 16 rest
    | '0' :: 'o' :: rest => magnitude? 8 rest
    | '0' :: 'b' :: rest => magnitude? 2 rest
    | cs => decimal? cs
  guard (Word.FitsSigned n)
  return n

def exponent? (cs : List Char) : Option Int := do
  let (negative, cs) := splitSign cs
  let digits ← groupedDigits? Char.isDigit cs
  let magnitude : Int := Nat.ofDigitChars 10 digits 0
  return if negative then -magnitude else magnitude

/-- A number with a fraction, an exponent or both. Too large a number has no datum. -/
def fractional? (negative : Bool) (cs : List Char) : Option Datum := do
  let isExponentMark (c : Char) : Bool := c = 'e' || c = 'E'
  let significand := cs.takeWhile fun c => !isExponentMark c
  let tail := cs.dropWhile fun c => !isExponentMark c
  let fraction := significand.dropWhile fun c => c ≠ '.'
  guard !(tail.isEmpty && fraction.isEmpty)
  let whole ← groupedDigits? Char.isDigit (significand.takeWhile fun c => c ≠ '.')
  guard (isWholePart whole)
  let decimals ← if fraction.isEmpty then some [] else groupedDigits? Char.isDigit fraction.tail
  let exponent ← if tail.isEmpty then some 0 else exponent? tail.tail
  let datum := Datum.ofDecimal negative (Nat.ofDigitChars 10 (whole ++ decimals) 0)
    (exponent - decimals.length)
  if datum.isInfinite then none else some datum

def real? (cs : List Char) : Option Datum :=
  let (negative, cs) := splitSign cs
  if cs = ['i', 'n', 'f'] then some (.infinite negative)
  else if cs = ['n', 'a', 'n'] then some .nan
  else fractional? negative cs

def scanDate : List Char → Option (List Char × List Char)
  | y₁ :: y₂ :: y₃ :: y₄ :: '-' :: m₁ :: m₂ :: '-' :: d₁ :: d₂ :: rest => do
    let year ← digitsValue? [y₁, y₂, y₃, y₄]
    let month ← digitsValue? [m₁, m₂]
    let day ← digitsValue? [d₁, d₂]
    guard (1 ≤ day ∧ day ≤ Calendar.monthLength year month)
    return ([y₁, y₂, y₃, y₄, '-', m₁, m₂, '-', d₁, d₂], rest)
  | _ => none

/-- The written form of the digits of a fraction: to the ninth at most, without the zeros at the
end except for the first digit. -/
def fractionDigits (digits : List Char) : List Char :=
  match Timestamp.dropTrailingZeros (digits.take 9) with
  | [] => ['0']
  | kept => kept

def scanFraction : List Char → Option (List Char × List Char)
  | '.' :: rest =>
    let digits := rest.takeWhile Char.isDigit
    if digits.isEmpty then none
    else some ('.' :: fractionDigits digits, rest.dropWhile Char.isDigit)
  | rest => some ([], rest)

def scanSeconds : List Char → Option (List Char × List Char)
  | ':' :: s₁ :: s₂ :: rest => do
    let second ← digitsValue? [s₁, s₂]
    guard (second ≤ 60)
    let (fraction, rest) ← scanFraction rest
    return (':' :: s₁ :: s₂ :: fraction, rest)
  | rest => some ([], rest)

def scanTime : List Char → Option (List Char × List Char)
  | h₁ :: h₂ :: ':' :: n₁ :: n₂ :: rest => do
    let hour ← digitsValue? [h₁, h₂]
    let minute ← digitsValue? [n₁, n₂]
    guard (hour < 24 ∧ minute < 60)
    let (seconds, rest) ← scanSeconds rest
    return (h₁ :: h₂ :: ':' :: n₁ :: n₂ :: seconds, rest)
  | _ => none

/-- The offset from UTC in its written form. The offset zero has a plus sign. -/
def offset? : List Char → Option (List Char)
  | [] => some []
  | ['Z'] | ['z'] => some ['Z']
  | [sign, h₁, h₂, ':', n₁, n₂] => do
    let hours ← digitsValue? [h₁, h₂]
    let minutes ← digitsValue? [n₁, n₂]
    guard ((sign = '+' ∨ sign = '-') ∧ hours < 24 ∧ minutes < 60)
    let sign := if hours = 0 ∧ minutes = 0 then '+' else sign
    return [sign, h₁, h₂, ':', n₁, n₂]
  | _ => none

def moment? (cs : List Char) : Option (List Char) :=
  match scanDate cs with
  | some (date, []) => some date
  | some (date, separator :: rest) => do
    guard (separator = 'T' ∨ separator = 't' ∨ separator = ' ')
    let (time, rest) ← scanTime rest
    return date ++ 'T' :: time ++ (← offset? rest)
  | none =>
    match scanTime cs with
    | some (time, []) => some time
    | _ => none

def scalar? (cs : List Char) : Option Document :=
  if cs = ['t', 'r', 'u', 'e'] then some (.flag true)
  else if cs = ['f', 'a', 'l', 's', 'e'] then some (.flag false)
  else
    (integer? cs).map .integer <|> (real? cs).map .real <|>
      (moment? cs).map fun text => .text (String.ofList text)

def isScalarChar (c : Char) : Bool :=
  c.isAlphanum || c = '_' || c = '+' || c = '-' || c = '.' || c = ':'

def startsTime : List Char → Bool
  | h₁ :: h₂ :: ':' :: _ => h₁.isDigit && h₂.isDigit
  | _ => false

/-- The characters of an unquoted scalar, and what follows. A blank between a date and a time
belongs to the scalar. -/
def splitScalar (cs : List Char) : List Char × List Char :=
  let word := cs.takeWhile isScalarChar
  let rest := cs.dropWhile isScalarChar
  match scanDate word, rest with
  | some (_, []), ' ' :: more =>
    if startsTime more then
      (word ++ ' ' :: more.takeWhile isScalarChar, more.dropWhile isScalarChar)
    else (word, rest)
  | _, _ => (word, rest)

def scanScalar (cs : List Char) : Option (Document × List Char) :=
  let (word, rest) := splitScalar cs
  (scalar? word).map (·, rest)

end ReconcileTrigger.Toml

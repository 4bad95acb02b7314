import ReconcileTrigger.Json.Number
import ReconcileTrigger.Text.Digits
import ReconcileTrigger.Word

/-!
Number literals. A literal is read in two roundings: its leading digits that fit an unsigned
64-bit word are rounded to a binary64 number, and that number is multiplied or divided by the
rounded power of ten that remains.
-/

namespace ReconcileTrigger.Json

open Text (isWholePart)

/-- The value of the digits after `value`, up to the first digit that would leave an unsigned
64-bit word, and the digits left over. -/
def fittingDigits (value : Nat) : List Char → Nat × List Char
  | [] => (value, [])
  | d :: rest =>
    let next := value * 10 + (d.toNat - '0'.toNat)
    if Word.FitsUnsigned next then fittingDigits next rest else (value, d :: rest)

def powerOfTen? (exponent : Nat) : Option Binary64 :=
  Binary64.ofDecimal? false 1 exponent

def timesPower? (x : Binary64) (exponent : Nat) : Option Binary64 := do
  x.mul? (← powerOfTen? exponent)

def overPower? (x : Binary64) (exponent : Nat) : Option Binary64 := do
  x.div? (← powerOfTen? exponent)

/-- A number below `2 ^ 64` times `10 ^ exponent`. A power too small for one division is split
into `10 ^ -308` and the rest, each step rounded; beyond two divisions nothing remains. -/
def shiftPoint? (x : Binary64) (exponent : Int) : Option Binary64 :=
  if x.isZero then some x
  else if 308 < exponent then none
  else if 0 ≤ exponent then timesPower? x exponent.toNat
  else if -308 ≤ exponent then overPower? x (-exponent).toNat
  else if -616 ≤ exponent then do overPower? (← overPower? x 308) (-exponent - 308).toNat
  else some (Binary64.zero false)

structure Literal where
  negative : Bool
  whole : List Char
  fraction : Option (List Char)
  exponent : Option Int

namespace Literal

def binary? (l : Literal) : Option Binary64 := do
  let (leading, skipped) := fittingDigits 0 l.whole
  let fraction := l.fraction.getD []
  let (significand, dropped) := fittingDigits leading fraction
  let exponent : Int :=
    l.exponent.getD 0 + skipped.length - (fraction.length - dropped.length : Nat)
  let magnitude ← shiftPoint? (← Binary64.ofNat? significand) exponent
  return if l.negative then magnitude.neg else magnitude

/-- The number of a literal. A minus sign before zero makes it a binary zero. -/
def number? (l : Literal) : Option Number :=
  let magnitude := Nat.ofDigitChars 10 l.whole 0
  let isInteger := l.fraction.isNone && l.exponent.isNone
  if isInteger && !l.negative && Word.FitsUnsigned magnitude then some (.integer magnitude)
  else if isInteger && l.negative && magnitude ≠ 0 && Word.FitsSigned (-magnitude) then
    some (.integer (-magnitude))
  else l.binary?.map .binary

end Literal

def digitRun (cs : List Char) : List Char × List Char :=
  (cs.takeWhile Char.isDigit, cs.dropWhile Char.isDigit)

def scanExponent (cs : List Char) : Option (Option Int × List Char) :=
  match cs with
  | c :: rest =>
    if c = 'e' ∨ c = 'E' then
      let (negative, rest) :=
        match rest with
        | '-' :: rest => (true, rest)
        | '+' :: rest => (false, rest)
        | rest => (false, rest)
      let (digits, rest) := digitRun rest
      let magnitude : Int := Nat.ofDigitChars 10 digits 0
      if digits.isEmpty then none
      else some (some (if negative then -magnitude else magnitude), rest)
    else some (none, cs)
  | [] => some (none, [])

def scanFraction (cs : List Char) : Option (Option (List Char) × List Char) :=
  match cs with
  | '.' :: rest =>
    let (digits, rest) := digitRun rest
    if digits.isEmpty then none else some (some digits, rest)
  | cs => some (none, cs)

def scanMagnitude (negative : Bool) (cs : List Char) : Option (Literal × List Char) :=
  let (whole, rest) := digitRun cs
  if isWholePart whole then do
    let (fraction, rest) ← scanFraction rest
    let (exponent, rest) ← scanExponent rest
    return (⟨negative, whole, fraction, exponent⟩, rest)
  else none

def scanLiteral : List Char → Option (Literal × List Char)
  | '-' :: rest => scanMagnitude true rest
  | cs => scanMagnitude false cs

theorem length_digitRun (cs : List Char) :
    (digitRun cs).1.length + (digitRun cs).2.length = cs.length := by
  rw [← List.length_append]
  exact congrArg List.length List.takeWhile_append_dropWhile

theorem length_scanExponent {cs rest : List Char} {e : Option Int}
    (h : scanExponent cs = some (e, rest)) : rest.length ≤ cs.length := by
  unfold scanExponent at h
  grind [length_digitRun]

theorem length_scanFraction {cs rest : List Char} {f : Option (List Char)}
    (h : scanFraction cs = some (f, rest)) : rest.length ≤ cs.length := by
  unfold scanFraction at h
  grind [length_digitRun]

theorem ne_nil_of_isWholePart {cs : List Char} (h : isWholePart cs = true) : cs ≠ [] := by
  rintro rfl
  simp [isWholePart] at h

theorem length_scanMagnitude {negative : Bool} {cs rest : List Char} {l : Literal}
    (h : scanMagnitude negative cs = some (l, rest)) : rest.length < cs.length := by
  have hrun := length_digitRun cs
  simp only [scanMagnitude] at h
  split at h
  · rename_i hwhole
    have hpos := List.length_pos_iff.2 (ne_nil_of_isWholePart hwhole)
    simp only [Option.bind_eq_bind, Option.bind_eq_some_iff, Option.pure_def, Option.some.injEq,
      Prod.mk.injEq] at h
    obtain ⟨fraction, hfraction, exponent, hexponent, _, rfl⟩ := h
    have hfraction := length_scanFraction hfraction
    have hexponent := length_scanExponent hexponent
    omega
  · contradiction

/-- A literal has at least one character. -/
theorem length_scanLiteral {cs rest : List Char} {l : Literal}
    (h : scanLiteral cs = some (l, rest)) : rest.length < cs.length := by
  unfold scanLiteral at h
  split at h
  · exact Nat.lt_succ_of_lt (length_scanMagnitude h)
  · exact length_scanMagnitude h

end ReconcileTrigger.Json

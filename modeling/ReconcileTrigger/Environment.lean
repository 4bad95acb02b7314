import ReconcileTrigger.Document
import ReconcileTrigger.Text.Digits
import ReconcileTrigger.Text.Words
import ReconcileTrigger.Word

/-!
Settings in environment variables. A name with the lead `KGATE__`, in any case, gives a path, two
underscores standing between its names. A value is taken as a flag or a number where it can be
read as one, and the lists of names are split at commas.
-/

namespace ReconcileTrigger

abbrev Environment := List (String × String)

namespace Environment

open Binary64 (Datum)
open Text (digitsValue? signedValue? splitSign)

/-- The small letter of an ASCII letter or of the Kelvin sign; no other character has an ASCII
letter as its small letter. -/
def lowered (c : Char) : Char :=
  if c = '\u212a' then 'k' else c.toLower

/-- The characters with a point for every two underscores. -/
def pointed : List Char → List Char
  | '_' :: '_' :: rest => '.' :: pointed rest
  | c :: rest => c :: pointed rest
  | [] => []

def lead : List Char := ['k', 'g', 'a', 't', 'e', '_', '_']

def key? (name : String) : Option String :=
  let name := name.toList.map lowered
  if lead.isPrefixOf name then some (String.ofList (pointed (name.drop lead.length))) else none

def integer? (cs : List Char) : Option Int := do
  let n ← signedValue? cs
  guard (Word.FitsSigned n)
  return n

def decimal? (negative : Bool) (cs : List Char) : Option Datum := do
  let isExponentMark (c : Char) : Bool := c = 'e' || c = 'E'
  let significand := cs.takeWhile fun c => !isExponentMark c
  let tail := cs.dropWhile fun c => !isExponentMark c
  let whole := significand.takeWhile fun c => c ≠ '.'
  let fraction := (significand.dropWhile fun c => c ≠ '.').drop 1
  let digits ← digitsValue? (whole ++ fraction)
  let exponent ← if tail.isEmpty then some 0 else signedValue? tail.tail
  return Datum.ofDecimal negative digits (exponent - fraction.length)

def real? (cs : List Char) : Option Datum :=
  let (negative, cs) := splitSign cs
  let word := Text.lowerCase cs
  if word = "inf" ∨ word = "infinity" then some (.infinite negative)
  else if word = "nan" then some .nan
  else decimal? negative cs

def listKeys : List String :=
  ["exclusions.ignorable_secret_names", "diff.volatile_fields"]

def document (key value : String) : Document :=
  let cs := value.toList
  let word := Text.lowerCase cs
  if word = "true" then .flag true
  else if word = "false" then .flag false
  else
    match integer? cs, real? cs with
    | some n, _ => .integer n
    | none, some x => .real x
    | none, none =>
      if listKeys.contains key then
        .list ((Text.split ',' cs).map fun part => .text (String.ofList part))
      else .text value

def fields (e : Environment) : Fields Document :=
  e.filterMap fun (name, value) => (key? name).map fun key => (key, document key value)

end Environment

end ReconcileTrigger

import ReconcileTrigger.Json.Value
import ReconcileTrigger.Text.Words

/-!
JSON pointers, the paths of RFC 6901. A pointer is a run of segments, each after a slash; inside
a segment `~0` stands for a tilde and `~1` for a slash.
-/

namespace ReconcileTrigger.Json

abbrev Pointer := List Char

namespace Pointer

def escapeChar (c : Char) : List Char :=
  if c = '~' then ['~', '0'] else if c = '/' then ['~', '1'] else [c]

def escape (key : List Char) : List Char :=
  key.flatMap escapeChar

/-- The text with every tilde before `digit` replaced, together with the digit, by `c`. -/
def replaceTilde (digit c : Char) : List Char → List Char
  | '~' :: d :: rest =>
    if d = digit then c :: replaceTilde digit c rest else '~' :: replaceTilde digit c (d :: rest)
  | x :: rest => x :: replaceTilde digit c rest
  | [] => []

/-- The key that a segment writes. Slashes are put back first, so `~01` is a tilde and a one. -/
def unescape (segment : List Char) : List Char :=
  replaceTilde '0' '~' (replaceTilde '1' '/' segment)

def member (path : Pointer) (key : String) : Pointer :=
  path ++ '/' :: escape key.toList

def element (path : Pointer) (index : Nat) : Pointer :=
  path ++ '/' :: Nat.toDigits 10 index

/-- The key of the first segment, empty for the pointer to the whole document. -/
def topLevelField : Pointer → String
  | '/' :: rest => String.ofList (unescape (rest.takeWhile (· ≠ '/')))
  | _ => ""

/-- The index that a segment writes: digits without a leading zero. -/
def index? (segment : List Char) : Option Nat :=
  if segment.isEmpty || !segment.all Char.isDigit then none
  else if segment.head? == some '0' && segment.length ≠ 1 then none
  else some (Nat.ofDigitChars 10 segment 0)

end Pointer

namespace Value

def descend? : List (List Char) → Value → Option Value
  | [], v => some v
  | key :: keys, .object members =>
    match members.lookup (String.ofList key) with
    | some v => descend? keys v
    | none => none
  | key :: keys, .array elements =>
    match (Pointer.index? key).bind (elements[·]?) with
    | some v => descend? keys v
    | none => none
  | _ :: _, _ => none

def pointed? : Pointer → Value → Option Value
  | [], v => some v
  | '/' :: rest, v => descend? ((Text.split '/' rest).map Pointer.unescape) v
  | _, _ => none

end Value

end ReconcileTrigger.Json

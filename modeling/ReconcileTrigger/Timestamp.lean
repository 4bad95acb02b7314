import ReconcileTrigger.Text.Digits

/-!
Timestamps as RFC 3339 writes them: a local date and time with its offset from UTC. The offset
is kept, but timestamps are compared as instants.
-/

namespace ReconcileTrigger

open Text (digitsValue? paddedDigits)

namespace Calendar

def isLeapYear (year : Nat) : Bool :=
  year % 4 == 0 && (year % 100 != 0 || year % 400 == 0)

/-- The number of days in a month, zero where there is no such month. -/
def monthLength (year month : Nat) : Nat :=
  match month with
  | 1 | 3 | 5 | 7 | 8 | 10 | 12 => 31
  | 4 | 6 | 9 | 11 => 30
  | 2 => if isLeapYear year then 29 else 28
  | _ => 0

def daysBeforeYear (year : Nat) : Nat :=
  365 * year + (year + 3) / 4 - (year + 99) / 100 + (year + 399) / 400

def daysBeforeMonth (year month : Nat) : Nat :=
  (List.range month).foldl (fun days m => days + monthLength year m) 0

/-- The days from the start of year 0 to the start of the month. -/
def monthStart (year month : Nat) : Nat :=
  daysBeforeYear year + daysBeforeMonth year month

end Calendar

/-- A date, a time of day and an offset in minutes east of UTC. -/
structure LocalTime where
  year : Nat
  month : Nat
  day : Nat
  hour : Nat
  minute : Nat
  second : Nat
  nanosecond : Nat
  offset : Int
  deriving DecidableEq

namespace LocalTime

def isValid (t : LocalTime) : Bool :=
  t.year < 10000 && 1 ≤ t.day && t.day ≤ Calendar.monthLength t.year t.month &&
    t.hour < 24 && t.minute < 60 && t.second < 60 && t.nanosecond < 1000000000 &&
    t.offset.natAbs < 1440

def utcMinutes (t : LocalTime) : Int :=
  ((Calendar.monthStart t.year t.month + (t.day - 1)) * 24 + t.hour) * 60 + t.minute - t.offset

/-- The minute is the last one, in UTC, of a month. An offset is shorter than a day, so that can
only be the month of the local date or the one before. -/
def endsMonth (t : LocalTime) : Bool :=
  let start := Calendar.monthStart t.year t.month
  let next := start + Calendar.monthLength t.year t.month
  t.utcMinutes + 1 == start * 1440 || t.utcMinutes + 1 == next * 1440

def endOfMinute (t : LocalTime) : LocalTime :=
  { t with second := 59, nanosecond := 999999999 }

/-- The nanoseconds in UTC since the start of year 0. -/
def instant (t : LocalTime) : Int :=
  (t.utcMinutes * 60 + t.second) * 1000000000 + t.nanosecond

end LocalTime

structure Timestamp where
  localTime : LocalTime
  valid : localTime.isValid = true
  deriving DecidableEq

namespace Timestamp

def instant (t : Timestamp) : Int :=
  t.localTime.instant

def sameInstant (a b : Timestamp) : Bool :=
  a.instant == b.instant

def pairValue? (a b : Char) : Option Nat :=
  digitsValue? [a, b]

def readOffset? : List Char → Option Int
  | ['Z'] | ['z'] => some 0
  | [sign, a, b, ':', c, d] => do
    let hours ← pairValue? a b
    let minutes ← pairValue? c d
    if 23 < hours || 59 < minutes then none
    else if sign = '+' then some (hours * 60 + minutes)
    else if sign = '-' then some (-(hours * 60 + minutes))
    else none
  | _ => none

/-- The nanoseconds that the digits after a point stand for; the ones beyond the ninth are
dropped. -/
def readFraction (digits : List Char) : Nat :=
  let kept := digits.take 9
  Nat.ofDigitChars 10 kept 0 * Nat.pow 10 (9 - kept.length)

def scanFraction? : List Char → Option (Nat × List Char)
  | '.' :: rest =>
    let digits := rest.takeWhile Char.isDigit
    if digits.isEmpty then none else some (readFraction digits, rest.dropWhile Char.isDigit)
  | rest => some (0, rest)

def ofValid? (t : LocalTime) : Option Timestamp :=
  if h : t.isValid = true then some ⟨t, h⟩ else none

/-- The timestamp of a local time, where there is one. Second 60 is admitted where a leap second
can be, in the last minute of a month, and becomes the last nanosecond of that minute. -/
def ofLocalTime? (t : LocalTime) : Option Timestamp :=
  if t.second = 60 then
    if t.endsMonth then ofValid? t.endOfMinute else none
  else ofValid? t

/-- The timestamp that the characters write. Any one ASCII character separates date and time. -/
def ofChars? : List Char → Option Timestamp
  | y₁ :: y₂ :: y₃ :: y₄ :: '-' :: m₁ :: m₂ :: '-' :: d₁ :: d₂ :: separator ::
      h₁ :: h₂ :: ':' :: n₁ :: n₂ :: ':' :: s₁ :: s₂ :: rest => do
    let year ← digitsValue? [y₁, y₂, y₃, y₄]
    let month ← pairValue? m₁ m₂
    let day ← pairValue? d₁ d₂
    let hour ← pairValue? h₁ h₂
    let minute ← pairValue? n₁ n₂
    let second ← pairValue? s₁ s₂
    guard (separator.toNat < 128)
    let (nanosecond, rest) ← scanFraction? rest
    let offset ← readOffset? rest
    ofLocalTime? { year, month, day, hour, minute, second, nanosecond, offset }
  | _ => none

def parse? (s : String) : Option Timestamp :=
  ofChars? s.toList

def dropTrailingZeros (digits : List Char) : List Char :=
  (digits.reverse.dropWhile (· = '0')).reverse

def fractionChars (nanosecond : Nat) : List Char :=
  if nanosecond = 0 then [] else '.' :: dropTrailingZeros (paddedDigits 9 nanosecond)

def offsetChars (offset : Int) : List Char :=
  if offset = 0 then ['Z']
  else
    let sign := if offset < 0 then '-' else '+'
    sign :: paddedDigits 2 (offset.natAbs / 60) ++ ':' :: paddedDigits 2 (offset.natAbs % 60)

def chars (t : Timestamp) : List Char :=
  let l := t.localTime
  paddedDigits 4 l.year ++ '-' :: paddedDigits 2 l.month ++ '-' :: paddedDigits 2 l.day ++
    'T' :: paddedDigits 2 l.hour ++ ':' :: paddedDigits 2 l.minute ++
    ':' :: paddedDigits 2 l.second ++ fractionChars l.nanosecond ++ offsetChars l.offset

def text (t : Timestamp) : String :=
  String.ofList t.chars

end Timestamp

end ReconcileTrigger

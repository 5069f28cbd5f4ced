import Parley.Time.Calendar
import Parley.Text.Blank
import Parley.Text.Natural
/-!
# Instants

A point in time is a number of whole seconds since the start of 1970 and a part of a second. Its
text is a date and a time of day with an offset. A leap second is the second before it with a part
of more than a second.
-/
namespace Parley

/-- A point in time, in UTC. -/
structure Instant where
  /-- Whole seconds since the start of 1970, rounded down. -/
  seconds : Int
  /-- Nanoseconds within the second; from 10⁹ on within the leap second that follows it. -/
  nanos : Nat
deriving DecidableEq

namespace Instant
open Parley.Time Parley.Text

instance : Inhabited Instant := ⟨⟨0, 0⟩⟩

/-- The instant a number of seconds after the start of 1970. -/
def ofSeconds (s : Int) : Instant := ⟨s, 0⟩

/-- The instant a number of milliseconds after the start of 1970. -/
def ofMillis (ms : Int) : Instant := ⟨ms.fdiv 1000, (ms.fmod 1000).toNat * 1000000⟩

/-- The milliseconds since the start of 1970, rounded down. -/
def millis (t : Instant) : Int := t.seconds * 1000 + (t.nanos / 1000000 : Nat)

/-- The first instant comes before the second. -/
def before (a b : Instant) : Bool :=
  decide (a.seconds < b.seconds) || (a.seconds == b.seconds && decide (a.nanos < b.nanos))

/-- The first second that the calendar of instants holds. -/
def firstSecond : Int := -8334601228800

/-- The last second that the calendar of instants holds. -/
def lastSecond : Int := 8210266876799

/-- The second lies in the calendar of instants. -/
def inRange (s : Int) : Bool := firstSecond ≤ s && s ≤ lastSecond

/-- The instant, or the start of 1970 in place of one outside the calendar. -/
def inCalendar (t : Instant) : Instant := if inRange t.seconds then t else default

/-! ## Writing -/

/-- A year has four digits, with a sign and more when four do not hold it. -/
def writeYear (y : Int) : List Char :=
  if 0 ≤ y ∧ y ≤ 9999 then writePadded 4 y.toNat
  else (if y < 0 then '-' else '+') :: writePadded 4 y.natAbs

/-- The part of a second in three, six or nine digits, whichever shows it all. -/
def writeFraction (nanos : Nat) : List Char :=
  if nanos = 0 then []
  else if nanos % 1000000 = 0 then '.' :: writePadded 3 (nanos / 1000000)
  else if nanos % 1000 = 0 then '.' :: writePadded 6 (nanos / 1000)
  else '.' :: writePadded 9 nanos

/-- Date and time of day, without an offset. -/
def writeLocal (t : Instant) : List Char :=
  let days := t.seconds.fdiv secondsPerDay
  let second := (t.seconds.fmod secondsPerDay).toNat
  let date := dateOfDays days
  writeYear date.year ++ '-' :: writePadded 2 date.month ++ '-' :: writePadded 2 date.day
    ++ 'T' :: writePadded 2 (second / 3600) ++ ':' :: writePadded 2 (second / 60 % 60)
    ++ ':' :: writePadded 2 (second % 60 + t.nanos / 1000000000)
    ++ writeFraction (t.nanos % 1000000000)

/-- The text with `Z` for the offset. -/
def zuluText (t : Instant) : String :=
  String.ofList (t.writeLocal ++ ['Z'])

/-- The text with `+00:00` for the offset. -/
def offsetText (t : Instant) : String :=
  String.ofList (t.writeLocal ++ "+00:00".toList)

/-! ## Reading -/

/-- Why a text is no date and time. -/
inductive TextFault
  | outOfRange
  | impossible
  | invalid
  | tooShort
  | tooLong
deriving DecidableEq

def TextFault.message : TextFault → String
  | .outOfRange => "input is out of range"
  | .impossible => "no possible date and time matching input"
  | .invalid => "input contains invalid characters"
  | .tooShort => "premature end of input"
  | .tooLong => "trailing input"

/-- At least one and at most `width` digits, or any number of them. -/
def readDigitRun (width : Option Nat) (cs : List Char) : Except TextFault (Nat × List Char) :=
  match cs with
  | [] => .error .tooShort
  | _ =>
    let within := match width with
      | some n => cs.take n
      | none => cs
    let digits := within.takeWhile fun c => (digit? c).isSome
    match readUnsigned digits with
    | none => .error .invalid
    | some n => if n ≤ greatestSigned64 then .ok (n, cs.drop digits.length) else .error .outOfRange

/-- A number of at most `width` digits that lies between `first` and `last`. -/
def readField (width first last : Nat) (cs : List Char) : Except TextFault (Nat × List Char) := do
  let (n, rest) ← readDigitRun (some width) (trimLeft cs)
  if first ≤ n ∧ n ≤ last then return (n, rest) else .error .outOfRange

/-- The year is a signed number of 32 bits. -/
def isYear (year : Int) : Bool :=
  -(Nat.pow 2 31 : Nat) ≤ year && year < (Nat.pow 2 31 : Nat)

/-- A year: four digits, or a sign and any number of digits. -/
def readYear (cs : List Char) : Except TextFault (Int × List Char) := do
  let (year, rest) ← match trimLeft cs with
    | '-' :: rest => (readDigitRun none rest).map fun (n, rest) => (-(n : Int), rest)
    | '+' :: rest => (readDigitRun none rest).map fun (n, rest) => ((n : Int), rest)
    | rest => (readDigitRun (some 4) rest).map fun (n, rest) => ((n : Int), rest)
  if isYear year then return (year, rest) else .error .outOfRange

/-- The given character, behind white space. -/
def expect (c : Char) (cs : List Char) : Except TextFault (List Char) :=
  match trimLeft cs with
  | [] => .error .tooShort
  | d :: rest => if d = c then .ok rest else .error .invalid

/-- A part of a second in nanoseconds; digits after the ninth are passed over. -/
def readFraction (cs : List Char) : Except TextFault (Nat × List Char) :=
  match cs with
  | '.' :: rest => do
    let (_, after) ← readDigitRun (some 9) rest
    let digits := rest.take (rest.length - after.length)
    let value := ((readUnsigned digits).getD 0) * Nat.pow 10 (9 - digits.length)
    return (value, after.dropWhile fun c => (digit? c).isSome)
  | _ => .ok (0, cs)

/-- Two digits of an offset. A text of a single byte is too short for them. -/
def readPair (greatestTens : Char) (cs : List Char) : Except TextFault (Nat × List Char) :=
  match cs with
  | [] => .error .tooShort
  | [c] => if c.utf8Size = 1 then .error .tooShort else .error .invalid
  | a :: b :: rest =>
    match digit? a, digit? b with
    | some x, some y => if a ≤ greatestTens then .ok (x * 10 + y, rest) else .error .outOfRange
    | _, _ => .error .invalid

/-- The seconds by which local time is ahead of UTC. -/
def readOffset (cs : List Char) : Except TextFault (Int × List Char) :=
  match cs with
  | [] => .error .tooShort
  | c :: rest =>
    if c = 'Z' ∨ c = 'z' then .ok (0, rest)
    else if (cs.take 3).map Char.toUpper = ['U', 'T', 'C'] then .ok (0, cs.drop 3)
    else if c = '+' ∨ c = '-' ∨ c = '\u2212' then do
      let (hours, rest) ← readPair '9' rest
      let (minutes, rest) ← readPair '5' (rest.dropWhile fun c => c = ':' || isBlank c)
      let seconds : Int := hours * 3600 + minutes * 60
      return (if c = '+' then seconds else -seconds, rest)
    else .error .invalid

/-- Reads a date and a time of day with an offset. -/
def read (s : String) : Except TextFault Instant := do
  let (year, rest) ← readYear s.toList
  let (month, rest) ← readField 2 1 12 (← expect '-' rest)
  let (day, rest) ← readField 2 1 31 (← expect '-' rest)
  let rest ← match rest with
    | [] => Except.error TextFault.tooShort
    | c :: rest => if c = 't' ∨ c = 'T' ∨ c = ' ' then .ok rest else .error .invalid
  let (hour, rest) ← readField 2 0 23 rest
  let (minute, rest) ← readField 2 0 59 (← expect ':' rest)
  let (second, rest) ← readField 2 0 60 (← expect ':' rest)
  let (nanos, rest) ← readFraction rest
  let (offset, rest) ← readOffset (trimLeft rest)
  if ¬ (trimLeft rest).isEmpty then .error .tooLong
  else
    let date : Date := ⟨year, month, day⟩
    if ¬ date.isValid ∨ offset.natAbs ≥ 86400 then .error .outOfRange
    else
      let whole := if second = 60 then 59 else second
      let part := if second = 60 then nanos + 1000000000 else nanos
      let localSecond := daysOfDate date * secondsPerDay + (hour * 3600 + minute * 60 + whole : Nat)
      if ¬ inRange localSecond then .error .outOfRange
      else if inRange (localSecond - offset) then return ⟨localSecond - offset, part⟩
      else .error .impossible

end Instant

end Parley

import Parley.Cron.Schedule
import Parley.Text.Natural
/-!
# The text of schedules

A schedule is written as six or seven fields: second, minute, hour, day of the month, month, day of
the week and, if wanted, year. A field is a list of items: `*`, a number, a range, a name, or one of
these with a step. Five schedules have a name of their own.
-/
namespace Parley.Cron
open Parley.Text

/-! ## Items -/

/-- A run of values. -/
inductive Span
  | all
  | point (n : Nat)
  | range (first last : Nat)
  | named (first last : List Char)
deriving DecidableEq

/-- An item of a field. -/
inductive Item
  | span (s : Span)
  /-- Every so many values of a run. -/
  | step (s : Span) (n : Nat)
  | name (word : List Char)
deriving DecidableEq

/-- The text without the spaces and line ends it starts with. -/
def skipSpace (cs : List Char) : List Char :=
  cs.dropWhile fun c => c == ' ' || c == '\t' || c == '\n' || c == '\r'

def isLetter (c : Char) : Bool :=
  ('a' ≤ c && c ≤ 'z') || ('A' ≤ c && c ≤ 'Z')

/-- Reads a number with the spaces around it. -/
def readNumber (cs : List Char) : Option (Nat × List Char) :=
  let digits := (skipSpace cs).takeWhile fun c => (digit? c).isSome
  match readUnsigned digits with
  | some n =>
    if n ≤ greatest32 then some (n, skipSpace ((skipSpace cs).drop digits.length)) else none
  | none => none

/-- Reads a word with the spaces around it. -/
def readWord (cs : List Char) : Option (List Char × List Char) :=
  let word := (skipSpace cs).takeWhile isLetter
  if word.isEmpty then none else some (word, skipSpace ((skipSpace cs).drop word.length))

/-- Reads two things with a hyphen between them. -/
def readPair {α : Type} (read : List Char → Option (α × List Char)) (cs : List Char) :
    Option ((α × α) × List Char) :=
  match read cs with
  | some (a, '-' :: rest) =>
    match read rest with
    | some (b, rest) => some ((a, b), rest)
    | none => none
  | _ => none

/-- Reads a run of numbers: two numbers, one number or two names. -/
def readRun (cs : List Char) : Option (Span × List Char) :=
  match readPair readNumber cs with
  | some ((a, b), rest) => some (.range a b, rest)
  | none =>
    match readNumber cs with
    | some (n, rest) => some (.point n, rest)
    | none =>
      match readPair readWord cs with
      | some ((a, b), rest) => some (.named a b, rest)
      | none => none

/-- Reads a run of values; `?` stands for all values where `anyMark` says so. -/
def readSpan (anyMark : Bool) (cs : List Char) : Option (Span × List Char) :=
  match cs with
  | '*' :: rest => some (.all, rest)
  | '?' :: rest => if anyMark then some (.all, rest) else none
  | _ => readRun cs

def readItem (anyMark : Bool) (cs : List Char) : Option (Item × List Char) :=
  match readSpan anyMark cs with
  | some (s, rest) =>
    match rest with
    | '/' :: behind =>
      match readNumber behind with
      | some (n, rest) => some (.step s n, rest)
      | none => some (.span s, rest)
    | _ => some (.span s, rest)
  | none => (readWord cs).map fun (word, rest) => (.name word, rest)

/-- Reads further items behind commas. Each takes a character, so `fuel` is enough when it is the
length of the text. -/
def readItems (anyMark : Bool) : (fuel : Nat) → List Char → List Item × List Char
  | 0, cs => ([], cs)
  | fuel + 1, cs =>
    match cs with
    | ',' :: behind =>
      match readItem anyMark behind with
      | some (i, rest) =>
        match readItems anyMark fuel rest with
        | (is, rest) => (i :: is, rest)
      | none => ([], cs)
    | _ => ([], cs)

/-! ## Fields -/

/-- A field: its least and greatest value and the names of values. -/
structure Field where
  first : Nat
  last : Nat
  names : List (String × Nat) := []
  /-- The mark `?` may stand for all values. -/
  anyMark : Bool := false

namespace Field

def allows (f : Field) (n : Nat) : Bool :=
  decide (f.first ≤ n) && decide (n ≤ f.last)

/-- The values from one to another, both included. -/
def between (a b : Nat) : List Nat :=
  (List.range (b + 1 - a)).map fun i => a + i

def all (f : Field) : List Nat := between f.first f.last

/-- The values from one to another that the field must have. -/
def interval (f : Field) (a b : Nat) : Option (List Nat) :=
  if f.allows a && f.allows b && decide (a ≤ b) then some (between a b) else none

def named (f : Field) (word : List Char) : Option Nat :=
  f.names.lookup (String.ofList (word.map Char.toLower))

def ofSpan (f : Field) : Span → Option (List Nat)
  | .all => some f.all
  | .point n => some [n]
  | .range a b => f.interval a b
  | .named a b =>
    match f.named a, f.named b with
    | some a, some b => f.interval a b
    | _, _ => none

/-- The first of some values and every so many after it. -/
def everyNth (n : Nat) : (skip : Nat) → List Nat → List Nat
  | _, [] => []
  | 0, v :: vs => v :: everyNth n (n - 1) vs
  | skip + 1, _ :: vs => everyNth n skip vs

/-- The values of a run with a step. A number goes on to the end of the field. -/
def ofSteps (f : Field) (n : Nat) : Span → Option (List Nat)
  | .point a => (f.interval a f.last).map (everyNth n 0)
  | s => (f.ofSpan s).map (everyNth n 0)

/-- The values of an item. A step is neither zero nor above the greatest value. -/
def ofItem (f : Field) : Item → Option (List Nat)
  | .span s => f.ofSpan s
  | .step s n => if 0 < n ∧ n ≤ f.last then f.ofSteps n s else none
  | .name word => (f.named word).map fun n => [n]

/-- The values of items, all of them values of the field. -/
def ofItems (f : Field) (items : List Item) : Option (List Nat) := do
  let values := (← items.mapM f.ofItem).flatten
  if values.all f.allows then some (f.all.filter values.contains) else none

/-- Reads the values of the field. -/
def read (f : Field) (cs : List Char) : Option (List Nat × List Char) := do
  let (item, rest) ← readItem f.anyMark (skipSpace cs)
  let (items, rest) := readItems f.anyMark rest.length rest
  let values ← f.ofItems (item :: items)
  return (values, skipSpace rest)

def monthNames : List (String × Nat) :=
  [("jan", 1), ("january", 1), ("feb", 2), ("february", 2), ("mar", 3), ("march", 3), ("apr", 4),
    ("april", 4), ("may", 5), ("jun", 6), ("june", 6), ("jul", 7), ("july", 7), ("aug", 8),
    ("august", 8), ("sep", 9), ("september", 9), ("oct", 10), ("october", 10), ("nov", 11),
    ("november", 11), ("dec", 12), ("december", 12)]

/-- The names of the days of the week. -/
def weekdayNames : List (String × Nat) :=
  [("sun", 1), ("sunday", 1), ("mon", 2), ("monday", 2), ("tue", 3), ("tues", 3), ("tuesday", 3),
    ("wed", 4), ("wednesday", 4), ("thu", 5), ("thurs", 5), ("thursday", 5), ("fri", 6),
    ("friday", 6), ("sat", 7), ("saturday", 7)]

/-- The field of seconds, and that of minutes. -/
def sixty : Field := { first := 0, last := 59 }

def hours : Field := { first := 0, last := 23 }

def days : Field := { first := 1, last := 31, anyMark := true }

def months : Field := { first := 1, last := 12, names := monthNames }

def weekdays : Field := { first := 1, last := 7, names := weekdayNames, anyMark := true }

def years : Field := { first := 1970, last := 2100 }

end Field

/-! ## Schedules -/

/-- The schedules that have a name. -/
def shorthands : List (String × Schedule) :=
  let daily : Schedule := ⟨[0], [0], [0], Field.days.all, Field.months.all, Field.weekdays.all,
    Field.years.all⟩
  [("@yearly", { daily with days := [1], months := [1] }),
    ("@monthly", { daily with days := [1] }),
    ("@weekly", { daily with weekdays := [1] }),
    ("@daily", daily),
    ("@hourly", { daily with hours := Field.hours.all })]

/-- The schedule whose name is the whole text, spaces around it aside. -/
def readShorthand (cs : List Char) : Option Schedule :=
  shorthands.findSome? fun (name, s) =>
    let text := skipSpace cs
    if name.toList.isPrefixOf text && (skipSpace (text.drop name.length)).isEmpty then some s
    else none

/-- The years at the end of a text: all of them when nothing is left. -/
def readYears (cs : List Char) : Option (List Nat) :=
  if cs.isEmpty then some Field.years.all
  else match Field.years.read cs with
    | some (years, []) => some years
    | _ => none

/-- Reads the fields of a schedule. -/
def readFields (cs : List Char) : Option Schedule := do
  let (seconds, rest) ← Field.sixty.read cs
  let (minutes, rest) ← Field.sixty.read rest
  let (hours, rest) ← Field.hours.read rest
  let (days, rest) ← Field.days.read rest
  let (months, rest) ← Field.months.read rest
  let (weekdays, rest) ← Field.weekdays.read rest
  let years ← readYears rest
  return { seconds, minutes, hours, days, months, weekdays, years }

def Schedule.read (s : String) : Option Schedule :=
  (readShorthand s.toList).or (readFields s.toList)

end Parley.Cron

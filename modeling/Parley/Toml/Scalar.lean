import Parley.Toml.Lexeme
import Parley.Time.Calendar
import Parley.Binary64.Decimal
import Parley.Json.Document
/-!
# Words that stand for values

Truth values, numbers, dates and times of settings files. A word is the longest run of characters
that such a value can have, and is read as a whole.
-/
namespace Parley.Toml
open Parley.Text Parley.Time

/-! ## Numbers -/

/-- The digits of a run in which single underscores may stand between digits. -/
def joinedDigits (isDigit : Char → Bool) : List Char → Option (List Char)
  | [] => none
  | [c] => if isDigit c then some [c] else none
  | c :: '_' :: cs => if isDigit c then (joinedDigits isDigit cs).map (c :: ·) else none
  | c :: cs => if isDigit c then (joinedDigits isDigit cs).map (c :: ·) else none

/-- The digits of a run of decimal digits. -/
def decimalDigits : List Char → Option (List Char) :=
  joinedDigits fun c => (digit? c).isSome

/-- The digits of a whole number; a leading zero stands alone. -/
def wholeDigits (cs : List Char) : Option (List Char) :=
  match decimalDigits cs with
  | some ('0' :: _ :: _) => none
  | digits => digits

def splitSign : List Char → Bool × List Char
  | '-' :: cs => (true, cs)
  | '+' :: cs => (false, cs)
  | cs => (false, cs)

/-- The number with a sign, when 64 bits hold it. -/
def signed64 (negative : Bool) (n : Nat) : Option Int :=
  if negative then (if n ≤ greatestSigned64 + 1 then some (-(n : Int)) else none)
  else if n ≤ greatestSigned64 then some n else none

/-- The number that digits in a base of at most sixteen stand for, without a sign. -/
def inBase (base : Nat) (cs : List Char) : Option Int := do
  let digits ← joinedDigits (fun c => ((hexDigit? c).map (decide <| · < base)).getD false) cs
  signed64 false (digits.foldl (fun n c => n * base + (hexDigit? c).getD 0) 0)

/-- The whole number that a word stands for. -/
def integer? : List Char → Option Int
  | '0' :: 'x' :: cs => inBase 16 cs
  | '0' :: 'o' :: cs => inBase 8 cs
  | '0' :: 'b' :: cs => inBase 2 cs
  | word => do
    let (negative, body) := splitSign word
    let digits ← wholeDigits body
    signed64 negative (Binary64.digitsValue digits)

/-- The exponent behind the mark `e` or `E`; none of a text that does not start with it. -/
def exponent? : List Char → Option Int
  | mark :: cs =>
    if mark = 'e' ∨ mark = 'E' then do
      let (negative, body) := splitSign cs
      let digits ← decimalDigits body
      let n : Int := Binary64.digitsValue digits
      return if negative then -n else n
    else none
  | [] => none

/-- A digit, or a mark between digits. -/
def isDigitOrMark (c : Char) : Bool :=
  (digit? c).isSome || c == '_'

/-- The number with a fraction, an exponent or both that a word stands for. -/
def decimal? (word : List Char) : Option Binary64 := do
  let (negative, body) := splitSign word
  let (whole, rest) := body.span isDigitOrMark
  let whole ← wholeDigits whole
  match rest with
  | '.' :: rest =>
    let (fraction, rest) := rest.span isDigitOrMark
    let fraction ← decimalDigits fraction
    let exponent ← if rest.isEmpty then some 0 else exponent? rest
    return Binary64.ofDecimal negative (Binary64.digitsValue (whole ++ fraction))
      (exponent - fraction.length)
  | rest => return Binary64.ofDecimal negative (Binary64.digitsValue whole) (← exponent? rest)

/-- A number as a value. What is not finite is null, but a number too great is refused. -/
def ofBinary64 : Binary64 → Option Document
  | .finite x => some (.float x)
  | .infinite true => some .null
  | .infinite false => none
  | .nan => some .null

/-! ## Dates and times -/

/-- Reads two digits for a number between two others. -/
def readTwo (first last : Nat) : List Char → Option (Nat × List Char)
  | a :: b :: cs => do
    let n ← readUnsigned [a, b]
    if first ≤ n ∧ n ≤ last then return (n, cs) else none
  | _ => none

def readChar (c : Char) : List Char → Option (List Char)
  | d :: cs => if d = c then some cs else none
  | [] => none

def readDate (cs : List Char) : Option (Date × List Char) := do
  let year ← readUnsigned (cs.take 4)
  let (month, rest) ← readTwo 1 12 (← readChar '-' (cs.drop 4))
  let (day, rest) ← readTwo 1 31 (← readChar '-' rest)
  let date : Date := ⟨year, month, day⟩
  if date.isValid then return (date, rest) else none

/-- The text of a part of a second: no more than nine digits, and no zeros at the end. -/
def fractionText (digits : List Char) : List Char :=
  match ((digits.take 9).reverse.dropWhile (· == '0')).reverse with
  | [] => []
  | digits => '.' :: digits

/-- Reads a part of a second as its text. -/
def readFraction : List Char → Option (List Char × List Char)
  | '.' :: cs =>
    match Binary64.spanDigits cs with
    | ([], _) => none
    | (digits, rest) => some (fractionText digits, rest)
  | cs => some ([], cs)

/-- Reads a time of day as its text. -/
def readTime (cs : List Char) : Option (List Char × List Char) := do
  let (hour, rest) ← readTwo 0 23 cs
  let (minute, rest) ← readTwo 0 59 (← readChar ':' rest)
  let (second, rest) ← readTwo 0 60 (← readChar ':' rest)
  let (fraction, rest) ← readFraction rest
  return (writePadded 2 hour ++ ':' :: writePadded 2 minute ++ ':' :: writePadded 2 second
    ++ fraction, rest)

/-- The text of an offset. An offset of nothing has a plus sign. -/
def offsetText? : List Char → Option (List Char)
  | [] => some []
  | ['Z'] => some ['Z']
  | ['z'] => some ['Z']
  | sign :: cs =>
    if sign = '+' ∨ sign = '-' then do
      let (hour, rest) ← readTwo 0 23 cs
      let (minute, rest) ← readTwo 0 59 (← readChar ':' rest)
      if rest.isEmpty then
        return (if hour = 0 ∧ minute = 0 then '+' else sign)
          :: (writePadded 2 hour ++ ':' :: writePadded 2 minute)
      else none
    else none

def writeDate (d : Date) : List Char :=
  writePadded 4 d.year.toNat ++ '-' :: writePadded 2 d.month ++ '-' :: writePadded 2 d.day

/-- The normal form of a word that is a date, a time of day or both; only both have an offset. -/
def dateText? (word : List Char) : Option (List Char) :=
  match readDate word with
  | some (date, []) => some (writeDate date)
  | some (date, mark :: rest) =>
    if mark = 'T' ∨ mark = 't' ∨ mark = ' ' then do
      let (time, rest) ← readTime rest
      let offset ← offsetText? rest
      return writeDate date ++ 'T' :: time ++ offset
    else none
  | none =>
    match readTime word with
    | some (time, []) => some time
    | _ => none

/-- The key under which the text of a date stands where a value of any kind is wanted. -/
def dateKey : String := "$__toml_private_datetime"

/-! ## Words -/

def wordValue (word : List Char) : Option Document :=
  if word = "true".toList then some (.bool true)
  else if word = "false".toList then some (.bool false)
  else if (splitSign word).2 = "inf".toList ∨ (splitSign word).2 = "nan".toList then some .null
  else match dateText? word, integer? word with
    | some date, _ => some (.obj [(dateKey, .str (String.ofList date))] none)
    | none, some n => some (.int n)
    | none, none => (decimal? word).bind ofBinary64

def isWordChar (c : Char) : Bool :=
  isKeyChar c || c == '+' || c == '.' || c == ':'

/-- What follows is a time of day as far as its first colon shows. -/
def startsTime : List Char → Bool
  | a :: b :: ':' :: _ => (digit? a).isSome && (digit? b).isSome
  | _ => false

/-- Splits a text after the word it starts with. A blank between a date and a time belongs to the
word. -/
def spanWord (cs : List Char) : List Char × List Char :=
  match cs.span isWordChar with
  | (word, ' ' :: rest) =>
    if startsTime rest && ((readDate word).map (·.2.isEmpty)).getD false then
      match rest.span isWordChar with
      | (time, rest) => (word ++ ' ' :: time, rest)
    else (word, ' ' :: rest)
  | split => split

/-- Reads the value of a word. -/
def readWord (cs : List Char) : Option (Document × List Char) :=
  match spanWord cs with
  | (word, rest) => (wordValue word).map fun d => (d, rest)

end Parley.Toml

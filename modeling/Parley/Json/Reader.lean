import Parley.Json.Document
import Parley.Binary64.Decimal
/-!
# Reading JSON text

`Document.read` turns a text into a document and what follows it. Of three nested calls one reads a
character, so the length of the text bounds the depth of the recursion. Numbers with a fraction, an
exponent or too many digits are binary64 numbers, and so is `-0`.
-/
namespace Parley.Document
open Parley.Text

def isGap (c : Char) : Bool :=
  c == ' ' || c == '\n' || c == '\t' || c == '\r'

/-- The text behind the white space it starts with. -/
def skipGap (cs : List Char) : List Char :=
  cs.dropWhile isGap

/-! ## Words -/

/-- Reads the rest of a word, letter by letter. -/
def readWord (value : Document) : List Char → List Char → Document × List Char
  | [], cs => (value, cs)
  | _ :: _, [] => (.faulty .endInValue (some .endInValue) true, [])
  | w :: ws, c :: cs =>
    if w = c then readWord value ws cs
    else (.faulty .identExpected (some .identExpected) true, cs)

/-! ## Numbers -/

/-- A number that cannot be read, neither way. -/
def badNumber (rest : List Char) : Document × List Char :=
  (.faulty .invalidNumber (some .invalidNumber) true, rest)

/-- The place in a number where a digit is missing; at the end of the text the two ways of going on
differ in the fault. -/
def missingDigit : List Char → Document × List Char
  | [] => (.faulty .endInValue (some .invalidNumber) true, [])
  | rest => badNumber rest

/-- Adds digits to a number while the result fits a machine word, and counts the digits left. -/
def takeDigits : Nat → List Char → Nat × Nat
  | n, [] => (n, 0)
  | n, c :: cs =>
    let next := n * 10 + (digit? c).getD 0
    if next ≤ greatest64 then takeDigits next cs else (n, (c :: cs).length)

/-- The number of whole digits without a point or exponent. -/
def wholeNumber (negative : Bool) (digits : List Char) : Document :=
  let (n, left) := takeDigits 0 digits
  if left = 0 ∧ ¬ negative then .int n
  else if left = 0 ∧ 0 < n ∧ n ≤ greatestSigned64 + 1 then .int (-n)
  else match Binary64.scaled? negative n left with
    | some x => .float x
    | none => .faulty .numberOutOfRange none true

/-- The greatest exponent that is told apart from larger ones. -/
def greatestExponent : Nat := Nat.pow 2 31 - 1

/-- The number of digits with a point or an exponent. -/
def scaledNumber (negative : Bool) (whole fraction : List Char)
    (exponent : Option (Bool × List Char)) : Document :=
  let (n, dropped) := takeDigits 0 whole
  let (n, ignored) := takeDigits n fraction
  let shift : Int := dropped - ((fraction.length - ignored : Nat) : Int)
  let result := match exponent with
    | none => Binary64.scaled? negative n shift
    | some (down, digits) =>
      let e := Binary64.digitsValue digits
      if greatestExponent < e then
        if n ≠ 0 ∧ ¬ down then none else some ⟨negative, 0⟩
      else Binary64.scaled? negative n (if down then shift - e else shift + e)
  match result with
  | some x => .float x
  | none => .faulty .numberOutOfRange none true

/-- Reads what follows the whole digits and the fraction of a number. -/
def readScale (negative : Bool) (whole fraction rest : List Char) : Document × List Char :=
  match rest with
  | mark :: after =>
    if mark = 'e' ∨ mark = 'E' then
      let (down, digits) := match after with
        | '+' :: ds => (false, ds)
        | '-' :: ds => (true, ds)
        | _ => (false, after)
      match Binary64.spanDigits digits with
      | ([], rest) => missingDigit rest
      | (exponent, rest) => (scaledNumber negative whole fraction (some (down, exponent)), rest)
    else if fraction.isEmpty then (wholeNumber negative whole, rest)
    else (scaledNumber negative whole fraction none, rest)
  | [] =>
    if fraction.isEmpty then (wholeNumber negative whole, rest)
    else (scaledNumber negative whole fraction none, rest)

/-- Reads a number behind its sign. A leading zero stands alone. -/
def readNumber (negative : Bool) (cs : List Char) : Document × List Char :=
  match Binary64.spanDigits cs with
  | ([], rest) => missingDigit rest
  | ('0' :: _ :: _, rest) => badNumber rest
  | (whole, '.' :: rest) =>
    match Binary64.spanDigits rest with
    | ([], rest) => missingDigit rest
    | (fraction, rest) => readScale negative whole fraction rest
  | (whole, rest) => readScale negative whole [] rest

/-! ## Strings -/

/-- How many bytes a text takes. -/
def bytes (cs : List Char) : Nat :=
  (String.ofList cs).utf8ByteSize

/-- What is wrong with a text that does not start with four digits in base sixteen: four bytes of
something else, or a text that ends before. -/
def hexFault (cs : List Char) : Fault :=
  if bytes (cs.take 4) < 4 then .endInString else .invalidEscape

/-- Reads four digits in base sixteen. -/
def readHex (cs : List Char) : Except Fault (Nat × List Char) :=
  match cs with
  | a :: b :: c :: d :: rest =>
    match hexDigit? a, hexDigit? b, hexDigit? c, hexDigit? d with
    | some a, some b, some c, some d => .ok (((a * 16 + b) * 16 + c) * 16 + d, rest)
    | _, _, _, _ => .error (hexFault cs)
  | _ => .error (hexFault cs)

/-- The number is the first half of a pair of surrogates. -/
def isLeading (n : Nat) : Bool := 0xd800 ≤ n && n ≤ 0xdbff

/-- The number is the second half of a pair of surrogates. -/
def isTrailing (n : Nat) : Bool := 0xdc00 ≤ n && n ≤ 0xdfff

/-- Reads the character of an escape by number, behind the `u`. A character outside the first plane
is a pair of surrogates. -/
def readEscapedNumber (cs : List Char) : Except Fault (Char × List Char) :=
  match readHex cs with
  | .error f => .error f
  | .ok (n, rest) =>
    if isTrailing n then .error .loneSurrogate
    else if isLeading n then
      match rest with
      | [] => .error .endInString
      | '\\' :: [] => .error .endInString
      | '\\' :: 'u' :: rest =>
        match readHex rest with
        | .error f => .error f
        | .ok (m, rest) =>
          if isTrailing m then
            .ok (Char.ofNat ((n - 0xd800) * 0x400 + (m - 0xdc00) + 0x10000), rest)
          else .error .loneSurrogate
      | _ => .error .hexEscapeEnded
    else .ok (Char.ofNat n, rest)

/-- The character of a one-letter escape. -/
def escaped? (c : Char) : Option Char :=
  if c = '"' then some '"'
  else if c = '\\' then some '\\'
  else if c = '/' then some '/'
  else if c = 'b' then some '\x08'
  else if c = 'f' then some '\x0c'
  else if c = 'n' then some '\n'
  else if c = 'r' then some '\r'
  else if c = 't' then some '\t'
  else none

/-- Reads the characters of a string up to its closing quote. -/
def readChars : (fuel : Nat) → List Char → Except Fault (List Char × List Char)
  | 0, _ => .error .endInString
  | _ + 1, [] => .error .endInString
  | fuel + 1, c :: cs =>
    if c = '"' then .ok ([], cs)
    else if c = '\\' then
      match cs with
      | [] => .error .endInString
      | 'u' :: rest =>
        match readEscapedNumber rest with
        | .error f => .error f
        | .ok (d, rest) =>
          match readChars fuel rest with
          | .error f => .error f
          | .ok (ds, rest) => .ok (d :: ds, rest)
      | e :: rest =>
        match escaped? e with
        | none => .error .invalidEscape
        | some d =>
          match readChars fuel rest with
          | .error f => .error f
          | .ok (ds, rest) => .ok (d :: ds, rest)
    else if c.toNat < 0x20 then .error .controlCharacter
    else
      match readChars fuel cs with
      | .error f => .error f
      | .ok (ds, rest) => .ok (c :: ds, rest)

/-- Passes over the characters of a string without joining surrogates. -/
def passChars : (fuel : Nat) → List Char → Except Fault (List Char)
  | 0, _ => .error .endInString
  | _ + 1, [] => .error .endInString
  | fuel + 1, c :: cs =>
    if c = '"' then .ok cs
    else if c = '\\' then
      match cs with
      | [] => .error .endInString
      | 'u' :: rest =>
        match readHex rest with
        | .error f => .error f
        | .ok (_, rest) => passChars fuel rest
      | e :: rest => if (escaped? e).isSome then passChars fuel rest else .error .invalidEscape
    else if c.toNat < 0x20 then .error .controlCharacter
    else passChars fuel cs

/-- Reads a string behind its opening quote. -/
def readString (cs : List Char) : Document × List Char :=
  match readChars (cs.length + 1) cs with
  | .ok (s, rest) => (.str (String.ofList s), rest)
  | .error f =>
    match passChars (cs.length + 1) cs with
    | .ok rest => (.faulty f none false, rest)
    | .error g => (.faulty f (some g) false, [])

/-! ## Values -/

mutual
/-- Reads one value at the start of the text. -/
def readValue : (fuel : Nat) → List Char → Document × List Char
  | 0, cs => (.faulty .endInValue (some .endInValue) false, cs)
  | fuel + 1, cs =>
    match skipGap cs with
    | [] => (.faulty .endInValue (some .endInValue) false, [])
    | c :: rest =>
      if c = 'n' then readWord .null "ull".toList rest
      else if c = 't' then readWord (.bool true) "rue".toList rest
      else if c = 'f' then readWord (.bool false) "alse".toList rest
      else if c = '"' then readString rest
      else if c = '-' then readNumber true rest
      else if (digit? c).isSome then readNumber false (c :: rest)
      else if c = '[' then
        match skipGap rest with
        | ']' :: rest => (.arr [] none, rest)
        | rest =>
          match readItems fuel .endInList rest with
          | (items, stop, rest) => (.arr items stop, rest)
      else if c = '\x7b' then
        match skipGap rest with
        | '\x7d' :: rest => (.obj [] none, rest)
        | rest =>
          match readFields fuel .endInObject rest with
          | (fields, stop, rest) => (.obj fields stop, rest)
      else (.faulty .valueExpected (some .valueExpected) false, c :: rest)

/-- Reads an item of an array and what follows it; `ended` is the fault of a text that ends
before the item. -/
def readItems : (fuel : Nat) → Fault → List Char → List Document × Option Stop × List Char
  | 0, ended, cs => ([], some (.both ended), cs)
  | fuel + 1, ended, cs =>
    match skipGap cs with
    | [] => ([], some (.both ended), [])
    | cs =>
      match readValue fuel cs with
      | (d, rest) =>
        if d.ends then ([d], some (.both .endInList), rest)
        else match skipGap rest with
          | [] => ([d], some (.both .endInList), [])
          | ']' :: rest => ([d], none, rest)
          | ',' :: rest =>
            match skipGap rest with
            | ']' :: rest => ([d], some ⟨.trailingComma, some .valueExpected⟩, rest)
            | rest =>
              match readItems fuel .endInValue rest with
              | (ds, stop, rest) => (d :: ds, stop, rest)
          | rest => ([d], some (.both .listCommaOrEndExpected), rest)

/-- Reads a field of an object and what follows it; `ended` is the fault of a text that ends before
the field when it is read. -/
def readFields : (fuel : Nat) → (ended : Fault) → List Char →
    List (String × Document) × Option Stop × List Char
  | 0, ended, cs => ([], some ⟨ended, some .endInObject⟩, cs)
  | fuel + 1, ended, cs =>
    match skipGap cs with
    | [] => ([], some ⟨ended, some .endInObject⟩, [])
    | '"' :: rest =>
      match readString rest with
      | (.str key, rest) => readField fuel key rest
      | (.faulty f (some g) _, rest) => ([], some ⟨f, some g⟩, rest)
      | (.faulty f none _, rest) =>
        match readField fuel "" rest with
        | (fields, stop, rest) => ([], some ⟨f, passedFields fields stop⟩, rest)
      | (_, rest) => ([], some (.both .keyMustBeString), rest)
    | rest => ([], some (.both .keyMustBeString), rest)

/-- Reads a field behind its key, and what follows it. -/
def readField : (fuel : Nat) → (key : String) → List Char →
    List (String × Document) × Option Stop × List Char
  | 0, _, cs => ([], some (.both .endInObject), cs)
  | fuel + 1, key, cs =>
    match skipGap cs with
    | ':' :: rest =>
      match readValue fuel rest with
      | (d, rest) =>
        if d.ends then ([(key, d)], some (.both .endInObject), rest)
        else match skipGap rest with
          | [] => ([(key, d)], some (.both .endInObject), [])
          | '\x7d' :: rest => ([(key, d)], none, rest)
          | ',' :: rest =>
            match skipGap rest with
            | '\x7d' :: rest => ([(key, d)], some ⟨.trailingComma, some .keyMustBeString⟩, rest)
            | rest =>
              match readFields fuel .endInValue rest with
              | (fs, stop, rest) => ((key, d) :: fs, stop, rest)
          | rest => ([(key, d)], some (.both .objectCommaOrEndExpected), rest)
    | [] =>
      ([(key, .faulty .endInObject (some .endInObject) false)],
        some (.both .endInObject), [])
    | rest =>
      ([(key, .faulty .colonExpected (some .colonExpected) false)],
        some (.both .colonExpected), rest)
end

/-- Reads a document at the start of a text; behind it stands the rest. A level of nesting takes one
character and three calls. -/
def readPart (cs : List Char) : Document × List Char :=
  readValue (3 * cs.length + 3) cs

/-- The document that a whole text holds, and the fault of a text that goes on behind it. -/
def read (s : String) : Document × Option Fault :=
  match readPart s.toList with
  | (d, rest) => (d, if (skipGap rest).isEmpty then none else some .trailingCharacters)

end Parley.Document

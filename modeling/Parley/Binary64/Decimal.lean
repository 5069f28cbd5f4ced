import Parley.Binary64.Basic
import Parley.Text.Natural
/-!
# Binary64 numbers as decimal text

`ofDecimal` is the number nearest to digits times a power of ten. `readNumber` reads the notation
with optional sign, fraction and exponent and the words for infinity and NaN. `scaled?` is the
faster rule by which number tokens are read elsewhere: the significand is rounded first and then
scaled by one power of ten at a time, each step rounded.
-/
namespace Parley.Binary64
open Parley.Text

/-! ## The nearest number -/

/-- The number nearest to `significand * 10 ^ exponent`. Exponents far outside the range are decided
by the count of digits alone. -/
def ofDecimal (negative : Bool) (significand : Nat) (exponent : Int) : Binary64 :=
  if significand = 0 then .finite ⟨negative, 0⟩
  else
    let magnitude := exponent + (Nat.toDigits 10 significand).length
    if magnitude > 310 then .infinite negative
    else if magnitude < -330 then .finite ⟨negative, 0⟩
    else
      let num := if exponent < 0 then significand else significand * Nat.pow 10 exponent.toNat
      let den := if exponent < 0 then Nat.pow 10 (-exponent).toNat else 1
      match Finite64.ofQuotient? negative (num * Finite64.one) den with
      | some x => .finite x
      | none => .infinite negative

/-- Splits a text after its leading digits. -/
def spanDigits (cs : List Char) : List Char × List Char :=
  cs.span fun c => (digit? c).isSome

/-- The number that a run of digits stands for. -/
def digitsValue (cs : List Char) : Nat :=
  (readDigits 0 cs).getD 0

/-- An exponent: the mark `e` or `E`, an optional sign and at least one digit, up to the end. -/
def readExponent : List Char → Option Int
  | [] => some 0
  | mark :: rest =>
    if mark = 'e' ∨ mark = 'E' then
      let (negative, digits) := match rest with
        | '-' :: ds => (true, ds)
        | '+' :: ds => (false, ds)
        | _ => (false, rest)
      match readUnsigned digits with
      | some n => some (if negative then -(n : Int) else n)
      | none => none
    else none

/-- A number without its sign: digits on at least one side of an optional point, and an optional
exponent. -/
def readMagnitude (negative : Bool) (cs : List Char) : Option Binary64 :=
  let (whole, rest) := spanDigits cs
  let (fraction, rest) := match rest with
    | '.' :: ds => spanDigits ds
    | _ => ([], rest)
  if whole.isEmpty && fraction.isEmpty then none
  else match readExponent rest with
    | some e => some (ofDecimal negative (digitsValue (whole ++ fraction)) (e - fraction.length))
    | none => none

/-- A word in any mixture of cases of ASCII letters. -/
def isWord (word : String) (cs : List Char) : Bool :=
  cs.map Char.toLower == word.toList

/-- A decimal number, `inf`, `infinity` or `nan`, with an optional sign, as the whole text. -/
def readNumber (cs : List Char) : Option Binary64 :=
  let (negative, body) := match cs with
    | '-' :: rest => (true, rest)
    | '+' :: rest => (false, rest)
    | _ => (false, cs)
  if isWord "inf" body || isWord "infinity" body then some (.infinite negative)
  else if isWord "nan" body then some .nan
  else readMagnitude negative body

/-! ## Scaling step by step -/

/-- The greatest power of ten that a single step scales by. -/
def greatestPower : Nat := 308

/-- The binary64 number nearest to a power of ten up to `greatestPower`. -/
def powerOfTen (k : Nat) : Finite64 :=
  ⟨false, Finite64.roundUnits (Nat.pow 10 k * Finite64.one) 1⟩

/-- Divides by `10 ^ k`, by steps of at most `10 ^ 308`. Three steps take every finite number to
zero, so `steps` needs to be no more than four. -/
def scaleDown : (steps : Nat) → Finite64 → Nat → Option Finite64
  | 0, x, _ => some ⟨x.negative, 0⟩
  | steps + 1, x, k =>
    if k ≤ greatestPower then x.div? (powerOfTen k)
    else if x.units = 0 then some x
    else match x.div? (powerOfTen greatestPower) with
      | some y => scaleDown steps y (k - greatestPower)
      | none => none

/-- The significand, rounded, times or divided by a power of ten, rounded; `none` when a result is
not finite. -/
def scaled? (negative : Bool) (significand : Nat) (exponent : Int) : Option Finite64 :=
  let start := Finite64.ofQuotient? negative (significand * Finite64.one) 1
  match start with
  | none => none
  | some x =>
    if exponent < 0 then scaleDown 4 x (-exponent).toNat
    else if exponent ≤ greatestPower then x.mul? (powerOfTen exponent.toNat)
    else if x.units = 0 then some x
    else none

end Parley.Binary64

import Parley.Text.Natural
import Parley.Text.Quoted
/-!
# Identifiers

Runs and records are told apart by identifiers of 128 bits: 122 of them are free, the others say
that the free ones carry no meaning. The text has 36 characters, digits in base sixteen in five
groups.
-/
namespace Parley.Identifier
open Parley.Text

/-- The number in base sixteen, filled up with zeros on the left to at least `width`. -/
def hexPadded (width n : Nat) : List Char :=
  let digits := writeHex n
  List.replicate (width - digits.length) '0' ++ digits

/-- How many numbers an identifier can hold. -/
def count : Nat := Nat.pow 2 122

/-- The `width` bits of a number from bit `low` on. -/
def bits (n low width : Nat) : Nat :=
  n / Nat.pow 2 low % Nat.pow 2 width

def ofNumber (n : Nat) : String :=
  String.ofList <|
    hexPadded 8 (bits n 90 32) ++ '-' :: hexPadded 4 (bits n 74 16)
      ++ '-' :: '4' :: hexPadded 3 (bits n 62 12)
      ++ '-' :: writeHex (8 + bits n 60 2) ++ hexPadded 3 (bits n 48 12)
      ++ '-' :: hexPadded 12 (bits n 0 48)

/-- The character at a place of an identifier is one that can stand there. -/
def fits (place : Nat) (c : Char) : Bool :=
  if place = 8 ∨ place = 13 ∨ place = 18 ∨ place = 23 then c == '-'
  else (digit? c).isSome || (decide ('a' ≤ c) && decide (c ≤ 'f'))

/-- The text has the form of an identifier. -/
def hasForm (s : String) : Bool :=
  s.length == 36 && (s.toList.zipIdx.all fun (c, place) => fits place c)

end Parley.Identifier

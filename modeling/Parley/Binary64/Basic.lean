/-!
# Binary64 numbers, exactly

A finite binary64 number is a whole number of units of 2⁻¹⁰⁷⁴, so its order and its arithmetic are
those of the integers. `roundUnits` is the only place where a result is rounded: to the nearest
representable number of units, a tie going to the even significand.
-/
namespace Parley

/-- A finite binary64 number in units of 2⁻¹⁰⁷⁴. Zero has two signs. -/
structure Finite64 where
  /-- The sign bit. -/
  negative : Bool
  /-- The magnitude in units of 2⁻¹⁰⁷⁴. -/
  units : Nat
deriving DecidableEq

inductive Binary64
  | nan
  | infinite (negative : Bool)
  | finite (x : Finite64)
deriving DecidableEq

namespace Finite64

/-- How many bits the unit lies below one. -/
def unitBits : Nat := 1074

def one : Nat := Nat.pow 2 unitBits

/-- The first magnitude too large for a finite number. -/
def limit : Nat := Nat.pow 2 (unitBits + 1024)

/-- The signed number of units, in which the two zeros are one. -/
def value (x : Finite64) : Int :=
  if x.negative then -(x.units : Int) else x.units

def neg (x : Finite64) : Finite64 :=
  { x with negative := !x.negative }

/-- The quotient rounded to an integer, a tie going to the even one. -/
def roundQuotient (num den : Nat) : Nat :=
  let q := num / den
  let r := num % den
  if den < 2 * r ∨ (2 * r = den ∧ q % 2 = 1) then q + 1 else q

/-- How many low bits of a magnitude are lost to a significand of 53 bits. -/
def lostBits (whole : Nat) : Nat :=
  Nat.log2 whole + 1 - 53

/-- The magnitude `num / den` units, rounded to 53 significant bits. -/
def roundUnits (num den : Nat) : Nat :=
  let shift := lostBits (num / den)
  roundQuotient num (den * Nat.pow 2 shift) * Nat.pow 2 shift

/-- The magnitude `num / den` units with its sign, if it is finite after rounding. -/
def ofQuotient? (negative : Bool) (num den : Nat) : Option Finite64 :=
  let units := roundUnits num den
  if units < limit then some ⟨negative, units⟩ else none

/-- The number nearest to an integer. -/
def ofInt? (n : Int) : Option Finite64 :=
  ofQuotient? (decide (n < 0)) (n.natAbs * one) 1

/-- The product, if it is finite. -/
def mul? (x y : Finite64) : Option Finite64 :=
  ofQuotient? (x.negative != y.negative) (x.units * y.units) one

/-- The quotient by a number other than zero, if it is finite. -/
def div? (x y : Finite64) : Option Finite64 :=
  ofQuotient? (x.negative != y.negative) (x.units * one) y.units

def zero : Finite64 := ⟨false, 0⟩

end Finite64

namespace Binary64

/-- The number nearest to an integer. -/
def ofInt (n : Int) : Binary64 :=
  (Finite64.ofInt? n).elim (.infinite (decide (n < 0))) .finite

/-- The place of a number on the line: below, among or above the finite numbers, and then its
value. NaN has no place. -/
def place : Binary64 → Option (Int × Int)
  | .nan => none
  | .infinite negative => some (if negative then -1 else 1, 0)
  | .finite x => some (0, x.value)

/-- How two places lie to each other. -/
def comparePlaces (a b : Int × Int) : Ordering :=
  (compare a.1 b.1).then (compare a.2 b.2)

/-- How two numbers lie to each other; `none` when one of them is NaN. -/
def compare? (x y : Binary64) : Option Ordering :=
  match x.place, y.place with
  | some a, some b => some (comparePlaces a b)
  | _, _ => none

end Binary64

end Parley

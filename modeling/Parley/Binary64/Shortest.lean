import Parley.Binary64.Basic
import Parley.Text.Natural
/-!
# The shortest decimal text of a number

A number is written with the fewest digits that read back as the same number, and of those with the
digits nearest to it. `shortest` finds digits and exponent on exact integers: for one digit, two
digits and so on it tries the two points of the decimal grid next to the number. `write` lays the
digits out.
-/
namespace Parley.Finite64
open Parley.Text

/-! ## The interval that reads back -/

/-- A closed or open interval in quarters of a unit. -/
structure Interval where
  low : Nat
  high : Nat
  closed : Bool

/-- The reals that round to the magnitude `units`: half a gap to each side, a quarter below a power
of two; the ends belong to it when the significand is even. -/
def interval (units : Nat) : Interval :=
  let shift := lostBits units
  let gap := Nat.pow 2 shift
  let significand := units / gap
  let below := if significand = Nat.pow 2 52 ∧ 0 < shift then gap else 2 * gap
  ⟨4 * units - below, 4 * units + 2 * gap, significand % 2 = 0⟩

/-- The fraction `num / den` quarters of a unit lies in the interval. -/
def Interval.holds (i : Interval) (num den : Nat) : Bool :=
  if i.closed then decide (i.low * den ≤ num) && decide (num ≤ i.high * den)
  else decide (i.low * den < num) && decide (num < i.high * den)

/-! ## The digits -/

/-- Numerator and denominator of `10 ^ k`. -/
def tenPower (k : Int) : Nat × Nat :=
  if k < 0 then (1, Nat.pow 10 (-k).toNat) else (Nat.pow 10 k.toNat, 1)

/-- The magnitude is at least `10 ^ e`. -/
def reaches (units : Nat) (e : Int) : Bool :=
  let (num, den) := tenPower e
  decide (num * one ≤ units * den)

/-- Raises an exponent while the magnitude reaches the next power of ten. -/
def raiseExponent (units : Nat) : Nat → Int → Int
  | 0, e => e
  | fuel + 1, e => if reaches units (e + 1) then raiseExponent units fuel (e + 1) else e

/-- The exponent of the first decimal digit of a magnitude above zero. The binary exponent gives it
but for a few steps. -/
def leadingExponent (units : Nat) : Int :=
  let estimate := ((Nat.log2 units : Int) - unitBits) * 30103 / 100000 - 1
  raiseExponent units 4 estimate

/-- The point of the grid of multiples of `10 ^ k` that lies in the interval next to the magnitude,
as its multiple: the nearer of the two neighbours, the even one on a tie. -/
def gridPoint (units : Nat) (k : Int) : Option Nat :=
  let (num, den) := tenPower k
  let i := interval units
  let step := num * one
  let lower := units * den / step
  let rest := units * den % step
  let inside (d : Nat) : Bool := i.holds (d * num * one * 4) den
  let upFirst := step < 2 * rest ∨ (2 * rest = step ∧ lower % 2 = 1)
  let first := if upFirst then lower + 1 else lower
  let second := if upFirst then lower else lower + 1
  if inside first then some first else if inside second then some second else none

/-- Tries grids of one more digit at a time. -/
def searchGrids (units : Nat) : Nat → Int → Nat × Int
  | 0, k => ((gridPoint units k).getD 0, k)
  | fuel + 1, k =>
    match gridPoint units k with
    | some d => (d, k)
    | none => searchGrids units fuel (k - 1)

/-- Takes trailing zeros off the digits. -/
def stripZeros : Nat → Nat × Int → Nat × Int
  | 0, p => p
  | fuel + 1, (d, k) => if d % 10 = 0 ∧ 0 < d then stripZeros fuel (d / 10, k + 1) else (d, k)

/-- The shortest digits `d` and exponent `k` with `d * 10 ^ k` read back as the magnitude, which is
above zero. Seventeen digits always do. -/
def shortest (units : Nat) : Nat × Int :=
  stripZeros 20 (searchGrids units 16 (leadingExponent units))

/-! ## Layout -/

/-- Digits with the decimal point, positional when the leading digit stands for `10 ^ -5` up to
`10 ^ 15`, and otherwise with an exponent that always has its sign. -/
def layout (digits : List Char) (k : Int) : List Char :=
  let point := k + digits.length
  if 0 ≤ k ∧ point ≤ 16 then digits ++ List.replicate k.toNat '0' ++ ['.', '0']
  else if 0 < point ∧ point ≤ 16 then digits.take point.toNat ++ '.' :: digits.drop point.toNat
  else if -5 < point ∧ point ≤ 0 then '0' :: '.' :: List.replicate (-point).toNat '0' ++ digits
  else
    let e := point - 1
    let mark := if e < 0 then ['e', '-'] else ['e', '+']
    let fraction := if digits.length ≤ 1 then [] else '.' :: digits.drop 1
    digits.take 1 ++ fraction ++ mark ++ writeNatural e.natAbs

/-- The shortest text of a number, always with a point or an exponent. -/
def write (x : Finite64) : List Char :=
  let magnitude :=
    if x.units = 0 then ['0', '.', '0']
    else
      let (d, k) := shortest x.units
      layout (writeNatural d) k
  if x.negative then '-' :: magnitude else magnitude

end Parley.Finite64

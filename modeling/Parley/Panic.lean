import Parley.Text.Natural
/-!
# Panics

Steps that come to nothing when what they come to is too large for the machine. This is no error that
somebody is told: who needs the result of such a step stops where he is.
-/
namespace Parley
open Parley.Text

/-- Why a step comes to nothing. -/
inductive Panic
  /-- A sum is no number of its type. -/
  | overflow
  /-- A list is longer than a list can be. -/
  | capacity
deriving DecidableEq

namespace Panic

def message : Panic → String
  | .overflow => "attempt to add with overflow"
  | .capacity => "capacity overflow"

end Panic

/-- The sum of signed numbers of 64 bits. -/
def addSigned64 (a b : Int) : Except Panic Int :=
  if leastSigned64 ≤ a + b ∧ a + b ≤ greatestSigned64 then .ok (a + b) else .error .overflow

/-- How many bytes a value takes in a list. -/
def valueSize : Nat := 32

/-- How many values a list can have, whose bytes are counted by a signed number of 64 bits. -/
def mostValues : Nat := greatestSigned64 / valueSize

end Parley

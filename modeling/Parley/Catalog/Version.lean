import Parley.Text.Natural
/-!
# Versions of flows

Versions that are numbers, with any number of leading `v`, are ordered as numbers, and all others
as texts.
-/
namespace Parley.Version
open Parley.Text

/-- The number that a version is. -/
def number? (version : String) : Option Nat :=
  readNatural greatest64 (version.toList.dropWhile fun c => c == 'v')

/-- The first version comes before the second. -/
def before (a b : String) : Bool :=
  match number? a, number? b with
  | some x, some y => decide (x < y)
  | _, _ => decide (a < b)

end Parley.Version

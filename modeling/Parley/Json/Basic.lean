import Parley.Binary64.Basic
import Parley.Keyed
/-!
# JSON values

The one dynamic value of the library: payloads, parameters, node outputs and variables. Objects are
tables in the order of their keys. Whole numbers and binary64 numbers are different values, and an
integer is one that a machine word holds, signed or unsigned.
-/
namespace Parley

inductive Json
  | null
  | bool (b : Bool)
  | int (n : Int)
  | float (x : Finite64)
  | str (s : String)
  | arr (items : List Json)
  | obj (fields : List (String × Json))

namespace Json

instance : Inhabited Json := ⟨.null⟩

/-! ## Equality -/

mutual
/-- The two values are the same. The two floating zeros are, an integer and a float never are. -/
def same : Json → Json → Bool
  | .null, .null => true
  | .bool a, .bool b => a == b
  | .int a, .int b => a == b
  | .float a, .float b => a.value == b.value
  | .str a, .str b => a == b
  | .arr a, .arr b => sameItems a b
  | .obj a, .obj b => sameFields a b
  | _, _ => false

/-- The two lists hold the same values in the same order. -/
def sameItems : List Json → List Json → Bool
  | [], [] => true
  | a :: as, b :: bs => same a b && sameItems as bs
  | _, _ => false

/-- The two tables hold the same values under the same keys. -/
def sameFields : List (String × Json) → List (String × Json) → Bool
  | [], [] => true
  | (k, a) :: as, (l, b) :: bs => k == l && same a b && sameFields as bs
  | _, _ => false
end

instance : BEq Json := ⟨same⟩

/-! ## Making and reading objects -/

/-- The object with the given fields. -/
def ofFields (fields : List (String × Json)) : Json :=
  .obj (Keyed.ofList fields)

def empty : Json := .obj []

/-- The value, or null for none. -/
def ofOption (value : Option Json) : Json :=
  value.getD .null

/-- The string, or null for none. -/
def ofString? (s : Option String) : Json :=
  match s with
  | some s => .str s
  | none => .null

def ofStrings (ss : List String) : Json :=
  .arr (ss.map .str)

/-- The natural number as an integer. -/
def ofNat (n : Nat) : Json := .int n

/-- The value under a key of an object. -/
def field? (key : String) : Json → Option Json
  | .obj fields => Keyed.get? key fields
  | _ => none

/-- The item at a position of an array. -/
def item? (i : Nat) : Json → Option Json
  | .arr items => items[i]?
  | _ => none

def string? : Json → Option String
  | .str s => some s
  | _ => none

end Json

end Parley

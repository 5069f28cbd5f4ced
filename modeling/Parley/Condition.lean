import Parley.Json.Decoder
import Parley.Binary64.Decimal
import Parley.Text.Blank
/-!
# Conditions

The comparison operators on JSON values. Equality is loose: numbers and texts that read as numbers
are equal when the numbers are, and a text equals any other value with that compact text. Orders
compare numbers only.
-/
namespace Parley

/-- A comparison operator. -/
inductive Comparison
  | eq
  | ne
  | contains
  | notContains
  | gt
  | ge
  | lt
  | le
  | isEmpty
  | notEmpty
deriving DecidableEq

namespace Comparison

def named : List (String × Comparison) :=
  [("==", .eq), ("!=", .ne), ("contains", .contains), ("not_contains", .notContains), (">", .gt),
   (">=", .ge), ("<", .lt), ("<=", .le), ("empty", .isEmpty), ("not_empty", .notEmpty)]

def decoder : Decoder Comparison := Decoder.variant named

/-- The number that a value reads as. -/
def asNumber : Json → Option Binary64
  | .int n => some (.ofInt n)
  | .float x => some (.finite x)
  | .str s => Binary64.readNumber (Text.trim s.toList)
  | _ => none

/-- How the numbers of two values lie to each other, when both have one. -/
def order (l r : Json) : Option Ordering :=
  match asNumber l, asNumber r with
  | some x, some y => x.compare? y
  | _, _ => none

/-- The two values are equal as values, as numbers, or one as the text of the other. -/
def looselyEqual (l r : Json) : Bool :=
  if l == r then true
  else match asNumber l, asNumber r with
    | some x, some y => x.compare? y == some .eq
    | _, _ =>
      match l, r with
      | .str _, .str _ => false
      | .str s, other => s == other.text
      | other, .str s => s == other.text
      | _, _ => false

/-- A list of characters stands somewhere in another. -/
def occursIn (needle : List Char) : List Char → Bool
  | [] => needle.isEmpty
  | c :: cs => needle.isPrefixOf (c :: cs) || occursIn needle cs

/-- A text contains the text of a value, an array contains what equals one of its items, and an
object contains its keys. -/
def holds (haystack needle : Json) : Bool :=
  match haystack with
  | .str s =>
    match needle with
    | .str t => occursIn t.toList s.toList
    | other => occursIn other.write s.toList
  | .arr items => items.any fun v => looselyEqual v needle
  | .obj fields =>
    match needle with
    | .str key => (Keyed.get? key fields).isSome
    | _ => false
  | _ => false

/-- Null and texts, arrays and objects of length zero are empty. -/
def emptyValue : Json → Bool
  | .null => true
  | .str s => s.isEmpty
  | .arr items => items.isEmpty
  | .obj fields => fields.isEmpty
  | _ => false

/-- Compares two values; `empty` and `not_empty` look at the first one alone. -/
def compare (l : Json) (op : Comparison) (r : Json) : Bool :=
  match op with
  | .eq => looselyEqual l r
  | .ne => !looselyEqual l r
  | .contains => holds l r
  | .notContains => !holds l r
  | .gt => order l r == some .gt
  | .ge => order l r == some .gt || order l r == some .eq
  | .lt => order l r == some .lt
  | .le => order l r == some .lt || order l r == some .eq
  | .isEmpty => emptyValue l
  | .notEmpty => !emptyValue l

end Comparison

/-- How the conditions of a branch are joined. -/
inductive Logic
  | all
  | any
deriving DecidableEq

namespace Logic

def named : List (String × Logic) := [("and", .all), ("or", .any)]

/-- Reads the name of a way to join. -/
def decoder : Decoder Logic := Decoder.variant named

/-- Joins results. No results at all never hold. -/
def combine (logic : Logic) (results : List Bool) : Bool :=
  if results.isEmpty then false
  else match logic with
    | .all => results.all id
    | .any => results.any id

end Logic

end Parley

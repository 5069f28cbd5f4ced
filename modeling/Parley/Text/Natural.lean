/-!
# Natural numbers of a bounded size

Reading and writing numbers in decimal. `readNatural` takes ASCII digits with an optional leading
`+` and refuses a number above a given greatest one.
-/
namespace Parley.Text

/-- The value of an ASCII digit. -/
def digit? (c : Char) : Option Nat :=
  if '0' ≤ c ∧ c ≤ '9' then some (c.toNat - '0'.toNat) else none

/-- The value of a digit in base sixteen. -/
def hexDigit? (c : Char) : Option Nat :=
  if '0' ≤ c ∧ c ≤ '9' then some (c.toNat - '0'.toNat)
  else if 'a' ≤ c ∧ c ≤ 'f' then some (c.toNat - 'a'.toNat + 10)
  else if 'A' ≤ c ∧ c ≤ 'F' then some (c.toNat - 'A'.toNat + 10)
  else none

/-- The digits read one after the other onto `acc`; `none` at a character that is no digit. -/
def readDigits : Nat → List Char → Option Nat
  | acc, [] => some acc
  | acc, c :: cs =>
    match digit? c with
    | some d => readDigits (acc * 10 + d) cs
    | none => none

/-- A non-empty run of digits, whatever its size. -/
def readUnsigned : List Char → Option Nat
  | [] => none
  | cs => readDigits 0 cs

/-- A natural number up to `greatest`, with an optional leading `+`. -/
def readNatural (greatest : Nat) (cs : List Char) : Option Nat :=
  let digits := match cs with
    | '+' :: rest => rest
    | _ => cs
  match readUnsigned digits with
  | some n => if n ≤ greatest then some n else none
  | none => none

/-- The greatest natural number of 32 bits. -/
def greatest32 : Nat := Nat.pow 2 32 - 1

/-- The greatest natural number of 64 bits, the size of a machine word. -/
def greatest64 : Nat := Nat.pow 2 64 - 1

/-- The greatest signed number of 64 bits. -/
def greatestSigned64 : Nat := Nat.pow 2 63 - 1

/-- The least signed number of 64 bits. -/
def leastSigned64 : Int := -Int.pow 2 63

/-- The decimal digits of a number. -/
def writeNatural (n : Nat) : List Char :=
  Nat.toDigits 10 n

/-- The decimal digits of a number, filled up with zeros on the left to at least `width`. -/
def writePadded (width : Nat) (n : Nat) : List Char :=
  let digits := writeNatural n
  List.replicate (width - digits.length) '0' ++ digits

/-- The decimal text of a signed number. -/
def writeInteger : Int → List Char
  | .ofNat n => writeNatural n
  | .negSucc n => '-' :: writeNatural (n + 1)

end Parley.Text

/-!
# Blank characters

The characters that count as white space when a text is trimmed: those with the Unicode property
`White_Space`. Texts are handled as lists of characters.
-/
namespace Parley.Text

/-- The ranges of characters with the property `White_Space`, ends included. -/
def blankRanges : List (Nat × Nat) :=
  [(0x09, 0x0d), (0x20, 0x20), (0x85, 0x85), (0xa0, 0xa0), (0x1680, 0x1680), (0x2000, 0x200a),
   (0x2028, 0x2029), (0x202f, 0x202f), (0x205f, 0x205f), (0x3000, 0x3000)]

def isBlank (c : Char) : Bool :=
  blankRanges.any fun (first, last) => decide (first ≤ c.toNat) && decide (c.toNat ≤ last)

/-- The text without the white space it starts with. -/
def trimLeft (cs : List Char) : List Char :=
  cs.dropWhile isBlank

/-- The text without the white space it ends with. -/
def trimRight (cs : List Char) : List Char :=
  (cs.reverse.dropWhile isBlank).reverse

/-- The text without the white space at both its ends. -/
def trim (cs : List Char) : List Char :=
  trimRight (trimLeft cs)

/-- A text with nothing blank at its start keeps it all. -/
theorem trimLeft_of_not_blank {c : Char} {cs : List Char} (h : isBlank c = false) :
    trimLeft (c :: cs) = c :: cs := by
  simp [trimLeft, List.dropWhile, h]

end Parley.Text

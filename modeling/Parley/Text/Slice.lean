/-!
# Slices

A text is kept in UTF-8, and a slice of it is given by the number of a byte. No slice can be taken at a
byte that lies outside of the text or inside a character.
-/
namespace Parley.Text

/-- Why no slice can be taken at a byte. -/
inductive SliceFault
  | outside
  | insideCharacter
deriving DecidableEq

/-- How many bytes a text has. -/
def byteLength : List Char → Nat
  | [] => 0
  | c :: cs => c.utf8Size + byteLength cs

/-- The text in front of a byte, and the text from that byte on. -/
def cutAt : Nat → List Char → Except SliceFault (List Char × List Char)
  | 0, cs => .ok ([], cs)
  | _ + 1, [] => .error .outside
  | n + 1, c :: cs =>
    if c.utf8Size ≤ n + 1 then do
      let (front, back) ← cutAt (n + 1 - c.utf8Size) cs
      return (c :: front, back)
    else .error .insideCharacter

/-- The slice of a text in front of a byte. -/
def sliceTo (n : Nat) (cs : List Char) : Except SliceFault (List Char) :=
  (cutAt n cs).map Prod.fst

/-- The slice of a text from a byte on. -/
def sliceFrom (n : Nat) (cs : List Char) : Except SliceFault (List Char) :=
  (cutAt n cs).map Prod.snd

/-- The byte with which the first character of a kind begins. -/
def findByte (kind : Char → Bool) : List Char → Option Nat
  | [] => none
  | c :: cs => if kind c then some 0 else (findByte kind cs).map (c.utf8Size + ·)

theorem byteLength_append (front back : List Char) :
    byteLength (front ++ back) = byteLength front + byteLength back := by
  induction front with
  | nil => simp [byteLength]
  | cons c front ih => rw [List.cons_append, byteLength, byteLength, ih, Nat.add_assoc]

theorem cutAt_byteLength (front back : List Char) :
    cutAt (byteLength front) (front ++ back) = .ok (front, back) := by
  induction front with
  | nil => simp [byteLength, cutAt]
  | cons c front ih =>
    have size := c.utf8Size_pos
    have whole : byteLength (c :: front) = c.utf8Size + byteLength front := rfl
    obtain ⟨n, next⟩ := Nat.exists_eq_succ_of_ne_zero (show byteLength (c :: front) ≠ 0 by omega)
    have left : n + 1 - c.utf8Size = byteLength front := by omega
    rw [next, List.cons_append, cutAt, if_pos (by omega), left, ih]
    rfl

theorem sliceTo_byteLength (front back : List Char) :
    sliceTo (byteLength front) (front ++ back) = .ok front := by
  rw [sliceTo, cutAt_byteLength]
  rfl

theorem sliceFrom_byteLength (front back : List Char) :
    sliceFrom (byteLength front) (front ++ back) = .ok back := by
  rw [sliceFrom, cutAt_byteLength]
  rfl

/-- The first character of a kind begins behind all that stands in front of it. -/
theorem findByte_append {kind : Char → Bool} {c : Char} {front : List Char} (back : List Char)
    (others : ∀ d ∈ front, kind d = false) (here : kind c = true) :
    findByte kind (front ++ c :: back) = some (byteLength front) := by
  induction front with
  | nil => simp [findByte, here, byteLength]
  | cons d front ih =>
    obtain ⟨first, later⟩ := List.forall_mem_cons.mp others
    simp [findByte, first, ih later, byteLength]

theorem findByte_eq_none {kind : Char → Bool} {cs : List Char}
    (others : ∀ d ∈ cs, kind d = false) :
    findByte kind cs = none := by
  induction cs with
  | nil => rfl
  | cons d cs ih =>
    obtain ⟨first, later⟩ := List.forall_mem_cons.mp others
    simp [findByte, first, ih later]

example : sliceTo 1 ['ä'] = .error .insideCharacter := rfl

end Parley.Text

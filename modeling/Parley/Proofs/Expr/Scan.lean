import Parley.Text.Slice
import Parley.Proofs.Expr.Path
/-!
# Paths are read by slices

A path can be read by slices of its text that begin and end at bytes which were found in it. No slice is
ever taken outside of the text or inside a character, every turn leaves less of the text, and what is
read is the path that the text spells (`Path.scan_eq`). With what a path leads to this is all that there
is to an expression (`Path.readsExactly`).
-/
namespace Parley.Path
open Parley.Text

/-! ## Scanning -/

/-- The byte with which the first mark begins, or the end of the text. -/
def markByte (cs : List Char) : Nat :=
  (findByte isMark cs).getD (byteLength cs)

/-- Reads the first step of a text, and what follows it. -/
def scanSegment : List Char → Except SliceFault (Option (Segment × List Char))
  | '.' :: after => do
    let name ← sliceTo (markByte after) after
    if name.isEmpty then return none
    let rest ← sliceFrom (markByte after) after
    return some (.field name, rest)
  | '[' :: after =>
    match findByte (fun c => c == ']') after with
    | none => .ok none
    | some close => do
      let inside ← sliceTo close after
      match readIndex inside with
      | none => return none
      | some i =>
        let rest ← sliceFrom (close + 1) after
        return some (.index i, rest)
  | _ => .ok none

theorem markByte_append {name rest : List Char} (unmarked : ∀ c ∈ name, isMark c = false)
    (marked : Marked rest) : markByte (name ++ rest) = byteLength name := by
  cases rest with
  | nil => rw [List.append_nil, markByte, findByte_eq_none unmarked, Option.getD_none]
  | cons c rest => rw [markByte, findByte_append rest unmarked (marked c rest rfl), Option.getD_some]

theorem splitBracket_eq_none {cs : List Char} : splitBracket cs = none ↔ ']' ∉ cs := by
  constructor
  · intro none member
    obtain ⟨inside, rest, whole, first⟩ := List.eq_append_cons_of_mem member
    rw [splitBracket_iff.mpr ⟨whole, first⟩] at none
    contradiction
  · intro not
    cases cut : splitBracket cs with
    | none => rfl
    | some parts =>
      obtain ⟨whole, -⟩ := splitBracket_iff.mp cut
      exact absurd (by simp [whole]) not

private theorem scanSegment_field (after : List Char) :
    scanSegment ('.' :: after) = .ok (readSegment ('.' :: after)) := by
  obtain ⟨name, rest, cut⟩ : ∃ name rest, spanName after = (name, rest) := ⟨_, _, rfl⟩
  obtain ⟨rfl, unmarked, marked⟩ := spanName_iff.mp cut
  rw [scanSegment, readSegment, cut, markByte_append unmarked marked, sliceTo_byteLength,
    sliceFrom_byteLength]
  cases name <;> rfl

private theorem scanSegment_index (after : List Char) :
    scanSegment ('[' :: after) = .ok (readSegment ('[' :: after)) := by
  rw [scanSegment, readSegment]
  cases cut : splitBracket after with
  | none =>
    have none : ∀ c ∈ after, (c == ']') = false := by
      intro c member
      have not := splitBracket_eq_none.mp cut
      exact beq_false_of_ne fun same => not (same ▸ member)
    rw [findByte_eq_none none]
  | some parts =>
    obtain ⟨inside, rest⟩ := parts
    obtain ⟨rfl, first⟩ := splitBracket_iff.mp cut
    have others : ∀ c ∈ inside, (c == ']') = false := fun c member =>
      beq_false_of_ne fun same => first (same ▸ member)
    -- the closing bracket is a single byte, and the slice behind it begins there
    have close : byteLength inside + 1 = byteLength (inside ++ [']']) :=
      (byteLength_append inside [']']).symm
    have behind : sliceFrom (byteLength inside + 1) (inside ++ ']' :: rest) = .ok rest := by
      have sliced := sliceFrom_byteLength (inside ++ [']']) rest
      rwa [← close, List.append_assoc] at sliced
    rw [findByte_append rest others (beq_self_eq_true ']')]
    simp only [sliceTo_byteLength, behind, bind, Except.bind]
    cases readIndex inside <;> rfl

/-- A step is read by slices as it is read character by character. -/
theorem scanSegment_eq (cs : List Char) : scanSegment cs = .ok (readSegment cs) := by
  cases cs with
  | nil => rfl
  | cons c after =>
    by_cases dot : c = '.'
    · exact dot ▸ scanSegment_field after
    · by_cases bracket : c = '['
      · exact bracket ▸ scanSegment_index after
      · simp [scanSegment, readSegment, dot, bracket]

theorem scanSegment_shorter {cs rest : List Char} {s : Segment}
    (scanned : scanSegment cs = .ok (some (s, rest))) : rest.length < cs.length := by
  rw [scanSegment_eq] at scanned
  obtain ⟨text, spelled, rfl⟩ := readSegment_sound (Except.ok.inj scanned)
  have some := List.length_pos_iff.mpr (Segment.Spelled.nonempty spelled)
  rw [List.length_append]
  omega

/-- Reads steps as long as there is any text. -/
def scanSegments (cs : List Char) : Except SliceFault (Option (List Segment)) :=
  if cs.isEmpty then .ok (some [])
  else
    match _scanned : scanSegment cs with
    | .error f => .error f
    | .ok none => .ok none
    | .ok (some (s, rest)) => (scanSegments rest).map fun ss => ss.map (s :: ·)
termination_by cs.length
decreasing_by exact scanSegment_shorter ‹_›

/-- Reads a path from a whole text. -/
def scan (cs : List Char) : Except SliceFault (Option Path) := do
  let root ← sliceTo (markByte cs) cs
  if root.isEmpty then return none
  let rest ← sliceFrom (markByte cs) cs
  return (← scanSegments rest).map (Path.mk root)

theorem scanSegments_eq {fuel : Nat} {cs : List Char} (enough : cs.length ≤ fuel) :
    scanSegments cs = .ok (readSegments fuel cs) := by
  induction fuel generalizing cs with
  | zero =>
    obtain rfl := List.length_eq_zero_iff.mp (Nat.le_zero.mp enough)
    rw [scanSegments]
    rfl
  | succ fuel ih =>
    rw [scanSegments]
    cases cs with
    | nil => rfl
    | cons c cs =>
      rw [readSegments.eq_3 _ _ (List.cons_ne_nil c cs)]
      simp only [List.isEmpty_cons, Bool.false_eq_true, if_false]
      split
      · next f failed =>
        rw [scanSegment_eq] at failed
        contradiction
      · next refused =>
        rw [scanSegment_eq] at refused
        rw [Except.ok.inj refused]
      · next s rest step =>
        have shorter := scanSegment_shorter step
        rw [scanSegment_eq] at step
        rw [Except.ok.inj step, ih (by simp only [List.length_cons] at shorter enough; omega)]
        dsimp only
        cases readSegments fuel rest <;> rfl

/-- No slice is taken where there is none, and what is read is the path that the text spells. -/
theorem scan_eq (cs : List Char) : scan cs = .ok (parse cs) := by
  obtain ⟨root, rest, cut⟩ : ∃ root rest, spanName cs = (root, rest) := ⟨_, _, rfl⟩
  obtain ⟨rfl, unmarked, marked⟩ := spanName_iff.mp cut
  rw [scan, parse, cut, markByte_append unmarked marked, sliceTo_byteLength, sliceFrom_byteLength]
  simp only [scanSegments_eq (Nat.le_refl rest.length), bind, Except.bind]
  cases root with
  | nil => rfl
  | cons c root =>
    dsimp only
    cases readSegments rest.length rest <;> rfl

/-! ## Expressions -/

/-- How texts are read as paths, and what they resolve to. -/
structure ReadsExactly : Prop where
  /-- A text is read as the path that it spells, and refused if it spells none. -/
  accepts : ∀ cs p, parse cs = some p ↔ Spelled p cs
  unique : ∀ cs p q, Spelled p cs → Spelled q cs → p = q
  /-- Reading undoes writing. -/
  writes : ∀ p, Valid p → parse p.write = some p
  /-- Every turn leaves less of the text. -/
  shortens : ∀ cs s rest, scanSegment cs = .ok (some (s, rest)) → rest.length < cs.length
  /-- Reading by slices never takes one outside of the text or inside a character. -/
  slices : ∀ cs, scan cs = .ok (parse cs)
  /-- An expression resolves to the value that its path leads to. -/
  resolves : ∀ ctx expr w, resolve ctx expr = .ok w ↔ Denotes ctx expr w
  /-- Without such a value it is unresolved. -/
  fails : ∀ ctx expr, (∀ w, ¬ Denotes ctx expr w) →
    resolve ctx expr = .error (.unresolved (String.ofList (trim expr)))

/-- Texts are read as the paths that they spell, and resolved by these paths. -/
theorem readsExactly : ReadsExactly where
  accepts _ _ := parse_iff
  unique cs p q first second :=
    Option.some.inj ((parse_iff.mpr first).symm.trans (parse_iff.mpr second))
  writes _ := parse_write
  shortens _ _ _ := scanSegment_shorter
  slices := scan_eq
  resolves _ _ _ := resolve_iff
  fails ctx expr none := by
    cases resolved : resolve ctx expr with
    | ok w => exact absurd (resolve_iff.mp resolved) (none w)
    | error e => rw [resolve_error resolved]

example : scan "räume[ +1 ].größe".toList =
    .ok (some ⟨"räume".toList, [.index 1, .field "größe".toList]⟩) := by
  rw [scan_eq]
  decide +kernel

end Parley.Path

import Parley.Proofs.Binary64.Rounding
import Parley.Proofs.Condition.Comparison
/-!
# How integers compare

Integers are compared as the binary64 numbers nearest to them. Rounding keeps their order, so no operator
ever turns it around, but two integers that share their nearest number are taken for equal
(`Comparison.comparesIntegers`). Up to 2 ^ 53 no integers share it, and none of 64 bits that are further
apart than 2 ^ 11.
-/
namespace Parley.Comparison

open Finite64 (nearest)

variable {n l r : Int}

/-- The operators agree with the order of two integers. -/
structure Exact (l r : Int) : Prop where
  equal : eq.Holds (.int l) (.int r) ↔ l = r
  unequal : ne.Holds (.int l) (.int r) ↔ l ≠ r
  less : lt.Holds (.int l) (.int r) ↔ l < r
  atMost : le.Holds (.int l) (.int r) ↔ l ≤ r
  greater : gt.Holds (.int l) (.int r) ↔ r < l
  atLeast : ge.Holds (.int l) (.int r) ↔ r ≤ l

/-- Two integers are taken for equal. -/
structure Confused (l r : Int) : Prop where
  equal : ∀ op ∈ [eq, le, ge], op.Holds (.int l) (.int r)
  unequal : ∀ op ∈ [ne, lt, gt], ¬ op.Holds (.int l) (.int r)

theorem natAbs_lt_of_fits (fits : FitsWord n) : n.natAbs < 2 ^ 64 := by
  simp only [FitsWord, Text.greatest64, Text.greatestSigned64, Nat.pow_eq] at fits
  omega

theorem ofInt_eq_iff (left : FitsWord l) (right : FitsWord r) :
    Binary64.ofInt l = Binary64.ofInt r ↔ (nearest l).value = (nearest r).value := by
  rw [Finite64.ofInt_eq (natAbs_lt_of_fits left), Finite64.ofInt_eq (natAbs_lt_of_fits right),
    Binary64.finite.injEq, Finite64.nearest_eq_iff]

theorem rank?_int (fits : FitsWord n) : rank? (.int n) = some (toLex (0, (nearest n).value)) := by
  simp [rank?, asNumber, Finite64.ofInt_eq (natAbs_lt_of_fits fits), Binary64.rank, Binary64.place]

theorem holds_ne {l r : Json} : ne.Holds l r ↔ ¬ eq.Holds l r := by
  simp [Holds, compare]

/-- The operators are the order of the numbers nearest to two integers. -/
theorem holds_int (left : FitsWord l) (right : FitsWord r) :
    (lt.Holds (.int l) (.int r) ↔ (nearest l).value < (nearest r).value) ∧
      (le.Holds (.int l) (.int r) ↔ (nearest l).value ≤ (nearest r).value) ∧
      (eq.Holds (.int l) (.int r) ↔ (nearest l).value = (nearest r).value) ∧
      (ge.Holds (.int l) (.int r) ↔ (nearest r).value ≤ (nearest l).value) ∧
      (gt.Holds (.int l) (.int r) ↔ (nearest r).value < (nearest l).value) := by
  simpa [Prod.Lex.toLex_lt_toLex, Prod.Lex.toLex_le_toLex] using
    holds_ranked (rank?_int left) (rank?_int right)

/-- What holds of how two integers compare. -/
structure ComparesIntegers (l r : Int) : Prop where
  /-- The operators are exact unless two different integers are read as one number, -/
  exact : Exact l r ↔ l = r ∨ Binary64.ofInt l ≠ Binary64.ofInt r
  /-- and those are taken for equal. -/
  confused : Confused l r ↔ Binary64.ofInt l = Binary64.ofInt r
  /-- What is found unequal, less or greater is so, -/
  sound : (ne.Holds (.int l) (.int r) → l ≠ r) ∧ (lt.Holds (.int l) (.int r) → l < r) ∧
    (gt.Holds (.int l) (.int r) → r < l)
  /-- and what is equal, at most or at least so much is found so. -/
  complete : (l = r → eq.Holds (.int l) (.int r)) ∧ (l ≤ r → le.Holds (.int l) (.int r)) ∧
    (r ≤ l → ge.Holds (.int l) (.int r))
  small : l.natAbs ≤ 2 ^ 53 → r.natAbs ≤ 2 ^ 53 → Exact l r
  apart : 2 ^ 11 < (l - r).natAbs → Exact l r

/-- The operators are exact where numbers of one value come from one integer. -/
theorem exact_of_told (left : FitsWord l) (right : FitsWord r)
    (told : (nearest l).value = (nearest r).value → l = r) : Exact l r := by
  obtain ⟨less, atMost, equal, atLeast, greater⟩ := holds_int left right
  have up := @Finite64.nearest_mono l r
  have down := @Finite64.nearest_mono r l
  constructor <;> simp only [holds_ne, less, atMost, equal, atLeast, greater] <;> grind

theorem confused_of_untold (left : FitsWord l) (right : FitsWord r)
    (untold : (nearest l).value = (nearest r).value) : Confused l r := by
  obtain ⟨less, atMost, equal, atLeast, greater⟩ := holds_int left right
  constructor <;> simp [holds_ne, less, atMost, equal, atLeast, greater, untold]

/-- Up to 2 ^ 53 every integer is its nearest number. -/
theorem told_of_small (left : l.natAbs ≤ 2 ^ 53) (right : r.natAbs ≤ 2 ^ 53)
    (same : (nearest l).value = (nearest r).value) : l = r := by
  rw [Finite64.nearest_small left, Finite64.nearest_small right] at same
  exact Int.eq_of_mul_eq_mul_right Finite64.one_pos.ne' same

/-- Numbers are as far apart as integers that rounding cannot bring together. -/
theorem nearest_lt_of_apart (left : FitsWord l) (right : FitsWord r) (apart : l + 2 ^ 11 < r) :
    (nearest l).value < (nearest r).value :=
  calc (nearest l).value ≤ (l + 2 ^ 10) * Finite64.one := (Finite64.nearest_near (natAbs_lt_of_fits left)).2
    _ < (r - 2 ^ 10) * Finite64.one := Int.mul_lt_mul_of_pos_right (by omega) Finite64.one_pos
    _ ≤ (nearest r).value := (Finite64.nearest_near (natAbs_lt_of_fits right)).1

/-- Integers of 64 bits are compared as the numbers nearest to them, and that is all that goes wrong. -/
theorem comparesIntegers (left : FitsWord l) (right : FitsWord r) : ComparesIntegers l r := by
  obtain ⟨less, atMost, equal, atLeast, greater⟩ := holds_int left right
  have up := @Finite64.nearest_mono l r
  have down := @Finite64.nearest_mono r l
  refine { exact := ⟨fun exact => ?_, fun told => ?_⟩, confused := ⟨fun confused => ?_, fun same => ?_⟩,
           sound := ?_, complete := ?_, small := fun few few' => ?_, apart := fun apart => ?_ }
  · rw [ne_eq, ofInt_eq_iff left right, ← equal, exact.equal]
    exact em _
  · rw [ne_eq, ofInt_eq_iff left right] at told
    exact exact_of_told left right fun same => told.resolve_right (not_not_intro same)
  · rw [ofInt_eq_iff left right, ← equal]
    exact confused.equal eq (by simp)
  · exact confused_of_untold left right ((ofInt_eq_iff left right).mp same)
  · rw [holds_ne, less, greater, equal]
    grind
  · rw [atMost, atLeast, equal]
    grind
  · exact exact_of_told left right (told_of_small few few')
  · refine exact_of_told left right fun same => ?_
    rcases Int.lt_or_gt_of_ne (show l ≠ r by omega) with before | behind
    · exact absurd same (nearest_lt_of_apart left right (by omega)).ne
    · exact absurd same (nearest_lt_of_apart right left (by omega)).ne'

/-- The first two integers that are taken for equal. The one after them is told from both. -/
theorem neighbours_confused :
    FitsWord 9007199254740992 ∧ FitsWord 9007199254740993 ∧ FitsWord 9007199254740994 ∧
      Confused 9007199254740993 9007199254740992 ∧ ¬ Exact 9007199254740993 9007199254740992 ∧
      ¬ gt.Holds (.int 9007199254740993) (.int 9007199254740992) ∧
      Exact 9007199254740994 9007199254740993 := by
  have first : FitsWord 9007199254740992 := ⟨by decide, by decide⟩
  have second : FitsWord 9007199254740993 := ⟨by decide, by decide⟩
  have third : FitsWord 9007199254740994 := ⟨by decide, by decide⟩
  have same : Binary64.ofInt 9007199254740993 = Binary64.ofInt 9007199254740992 := by decide +kernel
  have other : Binary64.ofInt 9007199254740994 ≠ Binary64.ofInt 9007199254740993 := by decide +kernel
  have confused := (comparesIntegers second first).confused.mpr same
  refine ⟨first, second, third, confused, fun exact => ?_, confused.unequal gt (by simp), ?_⟩
  · rcases (comparesIntegers second first).exact.mp exact with equal | told
    · exact absurd equal (by decide)
    · exact told same
  · exact (comparesIntegers third second).exact.mpr (.inr other)

end Parley.Comparison

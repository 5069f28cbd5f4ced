import Parley.Binary64.Basic
import Mathlib.Algebra.Group.Int.Defs
import Mathlib.Algebra.Group.Nat.Defs
/-!
# Rounding to binary64 numbers

Rounding keeps the order of magnitudes (`Finite64.roundWhole_mono`), leaves alone what 53 bits can tell
(`Finite64.roundWhole_exact`) and moves nothing by more than half of the lost bits
(`Finite64.roundWhole_near`). So the number nearest to an integer is never on the wrong side of the one
nearest to another integer.
-/
namespace Parley.Finite64

/-! ## Quotients -/

section
variable {num num' den : Nat}

theorem roundQuotient_bounds (num den : Nat) :
    num / den ≤ roundQuotient num den ∧ roundQuotient num den ≤ num / den + 1 := by
  unfold roundQuotient
  dsimp only
  split <;> omega

theorem roundQuotient_mono (ordered : num ≤ num') (den : Nat) :
    roundQuotient num den ≤ roundQuotient num' den := by
  have quotients := Nat.div_le_div_right (c := den) ordered
  rcases Nat.lt_or_eq_of_le quotients with less | same
  · have low := (roundQuotient_bounds num den).2
    have high := (roundQuotient_bounds num' den).1
    omega
  · -- the quotients are the same, so the remainders are in the order of the numerators
    have remainders : num % den ≤ num' % den := by
      have whole := Nat.div_add_mod num den
      have whole' := Nat.div_add_mod num' den
      rw [← same] at whole'
      omega
    unfold roundQuotient
    dsimp only
    rw [← same]
    split <;> split <;> omega

theorem roundQuotient_exact (positive : 0 < den) (divides : den ∣ num) :
    roundQuotient num den * den = num := by
  obtain ⟨n, rfl⟩ := divides
  have single : roundQuotient (den * n) den = n := by
    unfold roundQuotient
    simp only [Nat.mul_div_cancel_left n positive, Nat.mul_mod_right]
    split <;> omega
  rw [single, Nat.mul_comm]

/-- A rounded quotient is off by at most a half. -/
theorem roundQuotient_near (positive : 0 < den) (num : Nat) :
    2 * num ≤ 2 * (roundQuotient num den * den) + den ∧
      2 * (roundQuotient num den * den) ≤ 2 * num + den := by
  have whole := Nat.div_add_mod num den
  have small := Nat.mod_lt num positive
  rw [Nat.mul_comm] at whole
  unfold roundQuotient
  dsimp only
  split
  · rw [Nat.add_mul]
    omega
  · omega

end

/-! ## Magnitudes -/

/-- A whole number of units, rounded to 53 significant bits. -/
def roundWhole (m : Nat) : Nat := roundUnits m 1

theorem roundWhole_eq (m : Nat) :
    roundWhole m = roundQuotient m (2 ^ lostBits m) * 2 ^ lostBits m := by
  simp [roundWhole, roundUnits]

variable {m m' k : Nat}

theorem roundWhole_exact (told : 2 ^ lostBits m ∣ m) : roundWhole m = m := by
  rw [roundWhole_eq]
  exact roundQuotient_exact (Nat.two_pow_pos _) told

/-- What 53 bits can tell has no lost bits. -/
theorem roundWhole_short (short : Nat.log2 m < 53) : roundWhole m = m := by
  have none : lostBits m = 0 := by
    unfold lostBits
    omega
  exact roundWhole_exact (by simp [none])

theorem roundWhole_lower (positive : m ≠ 0) : 2 ^ Nat.log2 m ≤ roundWhole m := by
  have most := Nat.log2_self_le positive
  rcases Nat.lt_or_ge (Nat.log2 m) 53 with short | long
  · rwa [roundWhole_short short]
  · have split : Nat.log2 m = 52 + lostBits m := by
      unfold lostBits
      omega
    rw [roundWhole_eq, split, Nat.pow_add]
    refine Nat.mul_le_mul_right _ (Nat.le_trans ?_ (roundQuotient_bounds ..).1)
    rw [Nat.le_div_iff_mul_le (Nat.two_pow_pos _), ← Nat.pow_add, ← split]
    exact most

theorem roundWhole_upper (m : Nat) : roundWhole m ≤ 2 ^ (Nat.log2 m + 1) := by
  have less := Nat.lt_log2_self (n := m)
  rcases Nat.lt_or_ge (Nat.log2 m) 53 with short | long
  · rw [roundWhole_short short]
    exact Nat.le_of_lt less
  · have split : Nat.log2 m + 1 = 53 + lostBits m := by
      unfold lostBits
      omega
    rw [roundWhole_eq, split, Nat.pow_add]
    refine Nat.mul_le_mul_right _ (Nat.le_trans (roundQuotient_bounds ..).2 ?_)
    rw [Nat.succ_le_iff, Nat.div_lt_iff_lt_mul (Nat.two_pow_pos _), ← Nat.pow_add, ← split]
    exact less

theorem roundWhole_mono (ordered : m ≤ m') : roundWhole m ≤ roundWhole m' := by
  rcases Nat.eq_zero_or_pos m with rfl | positive
  · rw [roundWhole_short (m := 0) (by decide)]
    exact Nat.zero_le _
  have bits : Nat.log2 m ≤ Nat.log2 m' :=
    (Nat.le_log2 (by omega)).mpr (Nat.le_trans (Nat.log2_self_le (by omega)) ordered)
  rcases Nat.lt_or_eq_of_le bits with fewer | same
  · -- a power of two lies between them
    calc roundWhole m ≤ 2 ^ (Nat.log2 m + 1) := roundWhole_upper m
      _ ≤ 2 ^ Nat.log2 m' := Nat.pow_le_pow_right (by decide) fewer
      _ ≤ roundWhole m' := roundWhole_lower (by omega)
  · have lost : lostBits m = lostBits m' := by simp only [lostBits, same]
    rw [roundWhole_eq, roundWhole_eq, lost]
    exact Nat.mul_le_mul_right _ (roundQuotient_mono ordered _)

/-- No magnitude is moved by more than half of the bits that are lost. -/
theorem roundWhole_near (few : lostBits m ≤ k) :
    2 * m ≤ 2 * roundWhole m + 2 ^ k ∧ 2 * roundWhole m ≤ 2 * m + 2 ^ k := by
  have bits : 2 ^ lostBits m ≤ 2 ^ k := Nat.pow_le_pow_right (by decide) few
  obtain ⟨low, high⟩ := roundQuotient_near (Nat.two_pow_pos (lostBits m)) m
  rw [roundWhole_eq]
  omega

/-! ## Integers -/

theorem one_eq : one = 2 ^ unitBits := by
  unfold one
  generalize unitBits = k
  rfl

theorem limit_eq : limit = 2 ^ (unitBits + 1024) := by
  unfold limit
  generalize unitBits + 1024 = k
  rfl

/-- An integer loses as many bits as it has beyond 53. -/
theorem lostBits_mul_one {a j : Nat} (few : a < 2 ^ (53 + j)) : lostBits (a * one) ≤ unitBits + j := by
  rcases Nat.eq_zero_or_pos a with rfl | positive
  · rw [Nat.zero_mul]
    exact Nat.zero_le _
  have nonzero : a * one ≠ 0 := by
    rw [one_eq]
    exact Nat.ne_of_gt (Nat.mul_pos positive (Nat.two_pow_pos _))
  have bits : Nat.log2 (a * one) < 53 + j + unitBits := by
    rw [Nat.log2_lt nonzero, Nat.pow_add, one_eq]
    exact Nat.mul_lt_mul_of_pos_right few (Nat.two_pow_pos _)
  unfold lostBits
  omega

/-- The number nearest to an integer. -/
def nearest (n : Int) : Finite64 :=
  ⟨decide (n < 0), roundWhole (n.natAbs * one)⟩

variable {n n' : Int}

theorem value_nearest (n : Int) :
    (nearest n).value =
      if n < 0 then -(roundWhole (n.natAbs * one) : Int) else roundWhole (n.natAbs * one) := by
  simp only [value, nearest, decide_eq_true_eq]

theorem nearest_mono (ordered : n ≤ n') : (nearest n).value ≤ (nearest n').value := by
  rw [value_nearest, value_nearest]
  split <;> split
  · have magnitudes := roundWhole_mono (Nat.mul_le_mul_right one (show n'.natAbs ≤ n.natAbs by omega))
    omega
  · omega
  · omega
  · have magnitudes := roundWhole_mono (Nat.mul_le_mul_right one (show n.natAbs ≤ n'.natAbs by omega))
    omega

/-- An integer that 53 bits can tell, up to zeros at its end, is the number nearest to it. -/
theorem nearest_exact {j : Nat} (few : n.natAbs < 2 ^ (53 + j)) (told : 2 ^ j ∣ n.natAbs) :
    (nearest n).value = n * one := by
  have whole : roundWhole (n.natAbs * one) = n.natAbs * one := by
    refine roundWhole_exact (Nat.dvd_trans (Nat.pow_dvd_pow 2 (lostBits_mul_one few)) ?_)
    rw [Nat.pow_add, Nat.mul_comm, one_eq]
    exact Nat.mul_dvd_mul_right told _
  rw [value_nearest, whole, Int.natCast_mul]
  split
  · rw [← Int.neg_mul]
    congr 1
    omega
  · congr 1
    omega

theorem nearest_small (small : n.natAbs ≤ 2 ^ 53) : (nearest n).value = n * one := by
  rcases Nat.lt_or_eq_of_le small with less | same
  · exact nearest_exact (j := 0) less (by simp)
  · exact nearest_exact (j := 1) (by omega) (by rw [same]; decide)

theorem one_pos : (0 : Int) < one := by
  rw [one_eq]
  exact Int.natCast_pos.mpr (Nat.two_pow_pos _)

/-- An integer below zero has its number below zero. -/
theorem nearest_neg : (nearest n).value < 0 ↔ n < 0 := by
  have unit := one_pos
  constructor
  · intro below
    refine Int.not_le.mp fun atLeast => ?_
    have ordered := nearest_mono atLeast
    rw [nearest_small (n := 0) (by decide)] at ordered
    omega
  · intro negative
    have ordered := nearest_mono (show n ≤ -1 by omega)
    rw [nearest_small (n := -1) (by decide)] at ordered
    omega

/-- Integers with numbers of one value have one number. -/
theorem nearest_eq_iff : nearest n = nearest n' ↔ (nearest n).value = (nearest n').value := by
  constructor
  · exact congrArg value
  · intro same
    have signs : n < 0 ↔ n' < 0 := by rw [← nearest_neg, same, nearest_neg]
    rw [value_nearest, value_nearest] at same
    simp only [nearest, Finite64.mk.injEq, decide_eq_decide]
    refine ⟨signs, ?_⟩
    simp only [signs] at same
    split at same <;> omega

/-- The number nearest to an integer of 64 bits is at most 2 ^ 10 away from it. -/
theorem nearest_near (word : n.natAbs < 2 ^ 64) :
    (n - 2 ^ 10) * one ≤ (nearest n).value ∧ (nearest n).value ≤ (n + 2 ^ 10) * one := by
  have few : lostBits (n.natAbs * one) ≤ unitBits + 11 := lostBits_mul_one word
  have bits : 2 ^ (unitBits + 11) = one * 2 ^ 11 := by rw [Nat.pow_add, one_eq]
  obtain ⟨low, high⟩ := roundWhole_near few
  rw [bits] at low high
  have size : ((n.natAbs * one : Nat) : Int) = if n < 0 then -(n * one) else n * one := by
    rw [Int.natCast_mul]
    split
    · rw [← Int.neg_mul, Int.ofNat_natAbs_of_nonpos (by omega)]
    · rw [Int.natAbs_of_nonneg (by omega)]
  rw [Int.sub_mul, Int.add_mul, value_nearest]
  generalize n.natAbs * one = magnitude at low high size
  generalize roundWhole magnitude = rounded at low high
  generalize n * one = whole at size
  generalize one = unit at low high
  by_cases sign : n < 0 <;> simp only [sign, if_true, if_false] at size ⊢ <;> omega

theorem nearest_bounded (word : n.natAbs < 2 ^ 64) : roundWhole (n.natAbs * one) < limit := by
  have bits : roundWhole (n.natAbs * one) ≤ 2 ^ (Nat.log2 (n.natAbs * one) + 1) := roundWhole_upper _
  have few : lostBits (n.natAbs * one) ≤ unitBits + 11 := lostBits_mul_one word
  rw [limit_eq]
  refine Nat.lt_of_le_of_lt bits (Nat.pow_lt_pow_right (by decide) ?_)
  unfold lostBits at few
  omega

/-- An integer of 64 bits is read as the number nearest to it, which is finite. -/
theorem ofInt_eq (word : n.natAbs < 2 ^ 64) : Binary64.ofInt n = .finite (nearest n) := by
  have bounded : roundUnits (n.natAbs * one) 1 < limit := nearest_bounded word
  have finite : ofInt? n = some (nearest n) := by
    unfold ofInt? ofQuotient? nearest roundWhole
    simp only [bounded, if_true]
  unfold Binary64.ofInt
  rw [finite]
  rfl

end Parley.Finite64

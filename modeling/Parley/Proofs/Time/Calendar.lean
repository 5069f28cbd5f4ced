import Parley.Time.Calendar
import Mathlib.Order.Basic
import Mathlib.Tactic.IntervalCases
/-!
# Days in order

A month starts where the month before it ends (`monthStart_succ`, `yearStart_succ`). So the days of
the calendar are counted in the order of their dates (`daysOfDate_lt`), and no day of a year lies
behind its last one (`daysOfDate_le_yearEnd`).
-/
namespace Parley.Time
variable {y z : Int} {m n d e : Nat}

/-- The first day of a month. -/
def monthStart (y : Int) (m : Nat) : Int := daysOfDate ⟨y, m, 1⟩

theorem daysOfDate_eq (y : Int) (m d : Nat) : daysOfDate ⟨y, m, d⟩ = monthStart y m + d - 1 := by
  simp only [monthStart, daysOfDate]
  omega

theorem monthStart_succ (y : Int) (first : 1 ≤ m) (last : m < 12) :
    monthStart y (m + 1) = monthStart y m + monthLength y m := by
  simp only [monthStart, daysOfDate, Int.fdiv_eq_ediv_of_nonneg _ (show (0 : Int) ≤ 400 by decide)]
  by_cases february : m = 2
  · subst february
    simp only [monthLength, isLeapYear]
    split
    · simp_all
    · simp_all
      omega
  · interval_cases m <;> simp [monthLength] at february ⊢ <;> omega

theorem yearStart_succ (y : Int) : monthStart (y + 1) 1 = monthStart y 12 + 31 := by
  simp only [monthStart, daysOfDate]
  norm_num
  omega

theorem monthLength_december (y : Int) : monthLength y 12 = 31 := rfl

/-- A month has ended when a later one of its year starts. -/
theorem monthStart_le (first : 1 ≤ m) (later : m < n) (last : n ≤ 12) :
    monthStart y m + monthLength y m ≤ monthStart y n := by
  induction n, later using Nat.le_induction with
  | base => exact (monthStart_succ y first last).ge
  | succ n later ih =>
    have before := ih (Nat.le_of_succ_le last)
    have next := monthStart_succ y (Nat.le_trans first (Nat.le_of_succ_le later)) last
    omega

/-- A month has ended when the next year starts. -/
theorem monthStart_le_yearStart (first : 1 ≤ m) (last : m ≤ 12) :
    monthStart y m + monthLength y m ≤ monthStart (y + 1) 1 := by
  have december := yearStart_succ y
  have length := monthLength_december y
  rcases Nat.lt_or_eq_of_le last with before | rfl
  · have := monthStart_le (y := y) first before (Nat.le_refl 12)
    omega
  · omega

theorem yearStart_le (later : y < z) : monthStart (y + 1) 1 ≤ monthStart z 1 := by
  induction z, later using Int.leInduction with
  | base => exact Int.le_refl _
  | succ z later ih =>
    have whole := monthStart_le_yearStart (y := z) (m := 1) (by decide) (by decide)
    omega

/-- Later dates are later days. -/
theorem daysOfDate_lt (months : 1 ≤ m ∧ m ≤ 12 ∧ 1 ≤ n ∧ n ≤ 12) (inside : d ≤ monthLength y m)
    (day : 1 ≤ e) (later : y < z ∨ y = z ∧ (m < n ∨ m = n ∧ d < e)) :
    daysOfDate ⟨y, m, d⟩ < daysOfDate ⟨z, n, e⟩ := by
  obtain ⟨first, last, first', last'⟩ := months
  rw [daysOfDate_eq, daysOfDate_eq]
  rcases later with year | ⟨rfl, month | ⟨rfl, days⟩⟩
  · have ended := monthStart_le_yearStart (y := y) first last
    have between := yearStart_le year
    have begun : monthStart z 1 ≤ monthStart z n := by
      rcases Nat.lt_or_eq_of_le first' with after | rfl
      · have := monthStart_le (y := z) (Nat.le_refl 1) after last'
        omega
      · exact Int.le_refl _
    omega
  · have ended := monthStart_le (y := y) first month last'
    omega
  · omega

theorem daysOfDate_le_monthEnd (inside : d ≤ monthLength y m) :
    daysOfDate ⟨y, m, d⟩ ≤ daysOfDate ⟨y, m, monthLength y m⟩ := by
  rw [daysOfDate_eq, daysOfDate_eq]
  omega

theorem daysOfDate_le_yearEnd (first : 1 ≤ m) (last : m ≤ 12) (inside : d ≤ monthLength y m) :
    daysOfDate ⟨y, m, d⟩ ≤ daysOfDate ⟨y, 12, 31⟩ := by
  have ended := monthStart_le_yearStart (y := y) first last
  have december := yearStart_succ y
  rw [daysOfDate_eq, daysOfDate_eq]
  omega

end Parley.Time

/-!
# Sorting

Insertion sort. It is stable: elements between which the order does not decide stay as they stood.
-/
namespace Parley.Sort
variable {α : Type}

/-- Puts an element before the others, behind those that must come before it. -/
def insert (before : α → α → Bool) (x : α) : List α → List α
  | [] => [x]
  | y :: ys => if before y x then y :: insert before x ys else x :: y :: ys

/-- The elements in order, where `before x y` says that `x` must come before `y`. -/
def sort (before : α → α → Bool) : List α → List α
  | [] => []
  | x :: xs => insert before x (sort before xs)

theorem mem_insert (before : α → α → Bool) (x z : α) (ys : List α) :
    z ∈ insert before x ys ↔ z = x ∨ z ∈ ys := by
  induction ys with
  | nil => simp [insert]
  | cons y ys ih =>
    by_cases first : before y x = true
    · simp only [insert, first, if_true, List.mem_cons, ih]
      constructor
      · rintro (h | h | h) <;> simp [h]
      · rintro (h | h | h) <;> simp [h]
    · simp [insert, first]

theorem mem_sort (before : α → α → Bool) (z : α) (xs : List α) : z ∈ sort before xs ↔ z ∈ xs := by
  induction xs with
  | nil => simp [sort]
  | cons x xs ih => simp [sort, mem_insert, ih]

end Parley.Sort

import Parley.Sort
import Mathlib.Data.List.Pairwise
/-!
# Sorted lists

Sorting can be looked at through a map under which the order is the same (`map_sort`). When it is by
a number, some elements may as well be dropped before or afterwards (`filter_sort`), and to sort from
the greatest number down, the later of equals first, is to sort from the least number up and to read
from the end (`reverse_sort`). Dropping elements goes with sorting by any total order
(`filter_sort_total`).
-/
namespace Parley.Sort
variable {α β : Type}

theorem insert_perm (before : α → α → Bool) (x : α) (ys : List α) :
    (insert before x ys).Perm (x :: ys) := by
  induction ys with
  | nil => exact .refl _
  | cons y ys ih =>
    unfold insert
    split
    · exact (ih.cons y).trans (.swap x y ys)
    · exact .refl _

theorem sort_perm (before : α → α → Bool) (xs : List α) : (sort before xs).Perm xs := by
  induction xs with
  | nil => exact .refl _
  | cons x xs ih => exact (insert_perm before x _).trans (ih.cons x)

/-! ## Sorting through a map -/

theorem map_insert {f : α → β} {before : α → α → Bool} {before' : β → β → Bool} {x : α} {ys : List α}
    (same : ∀ y ∈ ys, before y x = before' (f y) (f x)) :
    (insert before x ys).map f = insert before' (f x) (ys.map f) := by
  induction ys with
  | nil => rfl
  | cons y ys ih =>
    have rest := ih fun z member => same z (List.mem_cons_of_mem _ member)
    by_cases first : before y x = true
    · have first' := (same y (List.mem_cons_self ..)).symm.trans first
      simp [insert, first, first', rest]
    · have first' : ¬ before' (f y) (f x) = true := same y (List.mem_cons_self ..) ▸ first
      simp [insert, first, first']

/-- An element is only ever compared with those behind it. -/
theorem map_sort {f : α → β} {before : α → α → Bool} {before' : β → β → Bool} {xs : List α}
    (same : xs.Pairwise fun x y => before y x = before' (f y) (f x)) :
    (sort before xs).map f = sort before' (xs.map f) := by
  induction xs with
  | nil => rfl
  | cons x xs ih =>
    obtain ⟨first, rest⟩ := List.pairwise_cons.mp same
    rw [sort, map_insert fun y member => first y ((mem_sort ..).mp member), ih rest]
    rfl

/-! ## Sorting by a number -/

section
variable (key : α → Int) {x y : α} {ys : List α}

/-- The first element has the smaller number. -/
def below (x y : α) : Bool := decide (key x < key y)

@[simp] theorem below_iff : below key x y = true ↔ key x < key y := decide_eq_true_iff

/-- The number of the first element is at least that of the second. -/
def atLeast (x y : α) : Bool := decide (key y ≤ key x)

@[simp] theorem atLeast_iff : atLeast key x y = true ↔ key y ≤ key x := decide_eq_true_iff

theorem insert_behind (later : key y < key x) :
    insert (below key) x (y :: ys) = y :: insert (below key) x ys := by
  simp [insert, later]

theorem insert_front (least : ∀ y ∈ ys, key x ≤ key y) : insert (below key) x ys = x :: ys := by
  cases ys with
  | nil => rfl
  | cons y ys =>
    have stop : ¬ below key y x = true := by simpa using least y (List.mem_cons_self ..)
    rw [insert, if_neg stop]

private theorem least_of_not_lt (least : ∀ z ∈ ys, key y ≤ key z) (first : ¬ key y < key x) :
    ∀ z ∈ y :: ys, key x ≤ key z := by
  intro z member
  rcases List.mem_cons.mp member with rfl | later
  · omega
  · have := least z later
    omega

theorem pairwise_insert (sorted : ys.Pairwise fun y z => key y ≤ key z) :
    (insert (below key) x ys).Pairwise fun y z => key y ≤ key z := by
  induction ys with
  | nil => simp [insert]
  | cons y ys ih =>
    obtain ⟨least, rest⟩ := List.pairwise_cons.mp sorted
    by_cases first : key y < key x
    · rw [insert_behind key first, List.pairwise_cons]
      refine ⟨fun z member => ?_, ih rest⟩
      rcases (mem_insert ..).mp member with rfl | old
      · omega
      · exact least z old
    · have front := least_of_not_lt key least first
      rw [insert_front key front]
      exact List.pairwise_cons.mpr ⟨front, sorted⟩

theorem pairwise_sort (xs : List α) : (sort (below key) xs).Pairwise fun y z => key y ≤ key z := by
  induction xs with
  | nil => exact .nil
  | cons x xs ih => exact pairwise_insert key ih

/-! ### Dropping elements -/

private theorem filter_insert_of_neg {before : α → α → Bool} {p : α → Bool} (drop : ¬ p x = true) :
    (insert before x ys).filter p = ys.filter p := by
  induction ys with
  | nil => simp [insert, drop]
  | cons y ys ih =>
    by_cases first : before y x = true
    · simp [insert, first, List.filter_cons, ih]
    · simp [insert, first, List.filter_cons, drop]

private theorem filter_insert {p : α → Bool} (keep : p x = true)
    (sorted : ys.Pairwise fun y z => key y ≤ key z) :
    (insert (below key) x ys).filter p = insert (below key) x (ys.filter p) := by
  induction ys with
  | nil => simp [insert, keep]
  | cons y ys ih =>
    obtain ⟨least, rest⟩ := List.pairwise_cons.mp sorted
    by_cases first : key y < key x
    · by_cases kept : p y = true
      · rw [insert_behind key first, List.filter_cons_of_pos kept, ih rest,
          List.filter_cons_of_pos kept, insert_behind key first]
      · rw [insert_behind key first, List.filter_cons_of_neg kept, ih rest,
          List.filter_cons_of_neg kept]
    · have front := least_of_not_lt key least first
      rw [insert_front key front, List.filter_cons_of_pos keep,
        insert_front key fun z member => front z (List.mem_filter.mp member).1]

/-- It is the same to drop elements before the others are sorted or afterwards. -/
theorem filter_sort (p : α → Bool) (xs : List α) :
    (sort (below key) xs).filter p = sort (below key) (xs.filter p) := by
  induction xs with
  | nil => rfl
  | cons x xs ih =>
    by_cases keep : p x = true
    · rw [sort, filter_insert key keep (pairwise_sort key xs), ih, List.filter_cons_of_pos keep, sort]
    · rw [sort, filter_insert_of_neg keep, ih, List.filter_cons_of_neg keep]

/-! ### Reading from the end -/

private theorem insert_end {before : α → α → Bool} (after : ∀ y ∈ ys, before y x = true) :
    insert before x ys = ys ++ [x] := by
  induction ys with
  | nil => rfl
  | cons y ys ih =>
    have rest := ih fun z member => after z (List.mem_cons_of_mem _ member)
    rw [insert, if_pos (after y (List.mem_cons_self ..)), rest, List.cons_append]

private theorem insert_append {before : α → α → Bool} (stop : ¬ before y x = true) :
    insert before x (ys ++ [y]) = insert before x ys ++ [y] := by
  induction ys with
  | nil => simp [insert, stop]
  | cons z ys ih =>
    by_cases first : before z x = true
    · simp [insert, first, ih]
    · simp [insert, first]

private theorem reverse_insert (sorted : ys.Pairwise fun y z => key y ≤ key z) :
    (insert (below key) x ys).reverse = insert (atLeast key) x ys.reverse := by
  induction ys with
  | nil => rfl
  | cons y ys ih =>
    obtain ⟨least, rest⟩ := List.pairwise_cons.mp sorted
    by_cases first : key y < key x
    · have stop : ¬ atLeast key y x = true := by simp [first]
      rw [insert_behind key first, List.reverse_cons, ih rest, List.reverse_cons, insert_append stop]
    · have front := least_of_not_lt key least first
      have after : ∀ z ∈ (y :: ys).reverse, atLeast key z x = true := fun z member =>
        (atLeast_iff key).mpr (front z (List.mem_reverse.mp member))
      rw [insert_front key front, insert_end after, List.reverse_cons]

/-- Sorting from the greatest number down, the later of equals first, is sorting the other way. -/
theorem reverse_sort (xs : List α) : (sort (below key) xs).reverse = sort (atLeast key) xs := by
  induction xs with
  | nil => rfl
  | cons x xs ih => rw [sort, reverse_insert key (pairwise_sort key xs), ih, sort]

end

/-! ## Sorting by a total order -/

section
variable {before : α → α → Bool} {x : α} {xs ys : List α}

private theorem ordered_insert (total : ∀ y ∈ ys, before x y = true ∨ before y x = true)
    (trans : ∀ y ∈ ys, ∀ z ∈ ys, before x y = true → before y z = true → before x z = true)
    (sorted : ys.Pairwise fun y z => before y z = true) :
    (insert before x ys).Pairwise fun y z => before y z = true := by
  induction ys with
  | nil => simp [insert]
  | cons y ys ih =>
    obtain ⟨least, rest⟩ := List.pairwise_cons.mp sorted
    by_cases first : before y x = true
    · rw [insert, if_pos first, List.pairwise_cons]
      refine ⟨fun z member => ?_, ih (fun z member => total z (List.mem_cons_of_mem _ member))
        (fun z deep w deeper => trans z (List.mem_cons_of_mem _ deep) w (List.mem_cons_of_mem _ deeper))
        rest⟩
      rcases (mem_insert ..).mp member with rfl | old
      · exact first
      · exact least z old
    · have front := (total y (List.mem_cons_self ..)).resolve_right first
      rw [insert, if_neg first, List.pairwise_cons]
      refine ⟨fun z member => ?_, sorted⟩
      rcases List.mem_cons.mp member with rfl | later
      · exact front
      · exact trans y (List.mem_cons_self ..) z member front (least z later)

/-- What is sorted is in order if the order is total and transitive among its elements. -/
theorem ordered_sort (total : xs.Pairwise fun x y => before x y = true ∨ before y x = true)
    (trans : ∀ x ∈ xs, ∀ y ∈ xs, ∀ z ∈ xs,
      before x y = true → before y z = true → before x z = true) :
    (sort before xs).Pairwise fun y z => before y z = true := by
  induction xs with
  | nil => exact .nil
  | cons x xs ih =>
    obtain ⟨first, rest⟩ := List.pairwise_cons.mp total
    have sorted := ih rest fun x deep y deeper z deepest => trans x (List.mem_cons_of_mem _ deep)
      y (List.mem_cons_of_mem _ deeper) z (List.mem_cons_of_mem _ deepest)
    refine ordered_insert (fun y member => first y ((mem_sort ..).mp member)) ?_ sorted
    exact fun y deep z deeper => trans x (List.mem_cons_self ..)
      y (List.mem_cons_of_mem _ ((mem_sort ..).mp deep))
      z (List.mem_cons_of_mem _ ((mem_sort ..).mp deeper))

end

/-! ### Dropping elements from any order -/

section
variable {before : α → α → Bool} {x : α} {ys : List α}
  (total : ∀ x y, before x y = true ∨ before y x = true)
  (trans : ∀ x y z, before x y = true → before y z = true → before x z = true)
include total trans

omit total in
private theorem filter_insert_of_pos {p : α → Bool} (keep : p x = true)
    (sorted : ys.Pairwise fun y z => before y z = true) :
    (insert before x ys).filter p = insert before x (ys.filter p) := by
  induction ys with
  | nil => simp [insert, keep]
  | cons y ys ih =>
    obtain ⟨least, rest⟩ := List.pairwise_cons.mp sorted
    by_cases first : before y x = true
    · by_cases kept : p y = true
      · rw [insert, if_pos first, List.filter_cons_of_pos kept, ih rest,
          List.filter_cons_of_pos kept, insert, if_pos first]
      · rw [insert, if_pos first, List.filter_cons_of_neg kept, ih rest,
          List.filter_cons_of_neg kept]
    · -- nothing behind the first element comes before `x` either
      have stop : ∀ z ∈ y :: ys, ¬ before z x = true := by
        intro z member front
        rcases List.mem_cons.mp member with rfl | later
        · exact first front
        · exact first (trans _ _ _ (least z later) front)
      rw [insert, if_neg first, List.filter_cons_of_pos keep]
      cases others : (y :: ys).filter p with
      | nil => rfl
      | cons z zs =>
        have member : z ∈ (y :: ys).filter p := others ▸ List.mem_cons_self ..
        rw [insert, if_neg (stop z (List.mem_filter.mp member).1)]

/-- Dropping elements goes with sorting by a total order, too. -/
theorem filter_sort_total (p : α → Bool) (xs : List α) :
    (sort before xs).filter p = sort before (xs.filter p) := by
  induction xs with
  | nil => rfl
  | cons x xs ih =>
    by_cases keep : p x = true
    · have sorted : (sort before xs).Pairwise fun y z => before y z = true :=
        ordered_sort (List.pairwise_of_forall total) fun x _ y _ z _ => trans x y z
      rw [sort, filter_insert_of_pos trans keep sorted, ih, List.filter_cons_of_pos keep, sort]
    · rw [sort, filter_insert_of_neg keep, ih, List.filter_cons_of_neg keep]

/-- What comes first when all is sorted: nothing in front of it must come before it, and it must come
before all that stands behind it. -/
theorem head_sort {xs : List α} (first : (sort before xs).head? = some x) :
    ∃ front back, xs = front ++ x :: back ∧ (∀ y ∈ front, before x y = true) ∧
      ∀ y ∈ back, ¬ before y x = true := by
  induction xs with
  | nil => simp [sort] at first
  | cons y ys ih =>
    cases sorted : sort before ys with
    | nil =>
      obtain rfl : ys = [] := List.perm_nil.mp (sorted ▸ sort_perm before ys).symm
      obtain rfl : y = x := by simpa [sort, insert] using first
      exact ⟨[], [], rfl, by simp, by simp⟩
    | cons z zs =>
      rw [sort, sorted, insert] at first
      by_cases behind : before z y = true
      · obtain rfl : z = x := by simpa [behind] using first
        obtain ⟨front, back, rfl, later, stop⟩ := ih (by rw [sorted]; rfl)
        exact ⟨y :: front, back, rfl, List.forall_mem_cons.mpr ⟨behind, later⟩, stop⟩
      · obtain rfl : y = x := by simpa [behind] using first
        refine ⟨[], ys, rfl, by simp, fun w member earlier => behind ?_⟩
        have order : (sort before ys).Pairwise fun y z => before y z = true :=
          ordered_sort (List.pairwise_of_forall total) fun x _ y _ z _ => trans x y z
        rw [sorted] at order
        have held : w ∈ z :: zs := sorted ▸ (mem_sort ..).mpr member
        rcases List.mem_cons.mp held with rfl | deep
        · exact earlier
        · exact trans _ _ _ ((List.pairwise_cons.mp order).1 w deep) earlier

end

end Parley.Sort

import Parley.Condition
import Parley.Proofs.Json.Value
import Mathlib.Data.Prod.Lex
import Mathlib.Order.Compare
/-!
# How values compare

A value that reads as a number other than NaN has a place on a line, and where two values have places the
operators are the order of the line (`Comparison.order_eq`, `Comparison.looselyEqual_ranked`). Elsewhere
nothing is ordered, and equality goes by the values and their texts. It is symmetric all the same, so the
operators agree with one another on all values (`Comparison.coherent`).
-/
namespace Parley

/-! ## Values that are the same -/

namespace Json

theorem sameItems_refl {items : List Json} (each : ∀ v ∈ items, same v v = true) :
    sameItems items items = true := by
  induction items with
  | nil => simp [sameItems]
  | cons v vs ih =>
    obtain ⟨first, later⟩ := List.forall_mem_cons.mp each
    simp [sameItems, first, ih later]

theorem sameFields_refl {fields : List (String × Json)} (each : ∀ f ∈ fields, same f.2 f.2 = true) :
    sameFields fields fields = true := by
  induction fields with
  | nil => simp [sameFields]
  | cons f fs ih =>
    obtain ⟨first, later⟩ := List.forall_mem_cons.mp each
    simp [sameFields, first, ih later]

theorem same_refl (v : Json) : same v v = true := by
  induction v using Json.induct with
  | arr items each => simpa [same] using sameItems_refl each
  | obj fields each => simpa [same] using sameFields_refl each
  | _ => simp [same]

theorem sameItems_comm {items : List Json} (each : ∀ v ∈ items, ∀ w, same v w = same w v)
    (others : List Json) : sameItems items others = sameItems others items := by
  induction items generalizing others with
  | nil => cases others <;> simp [sameItems]
  | cons v vs ih =>
    obtain ⟨first, later⟩ := List.forall_mem_cons.mp each
    cases others with
    | nil => simp [sameItems]
    | cons w ws => simp [sameItems, first w, ih later ws]

theorem sameFields_comm {fields : List (String × Json)} (each : ∀ f ∈ fields, ∀ w, same f.2 w = same w f.2)
    (others : List (String × Json)) : sameFields fields others = sameFields others fields := by
  induction fields generalizing others with
  | nil => cases others <;> simp [sameFields]
  | cons f fs ih =>
    obtain ⟨first, later⟩ := List.forall_mem_cons.mp each
    cases others with
    | nil => simp [sameFields]
    | cons g gs => simp [sameFields, first g.2, ih later gs, Bool.beq_comm]

theorem same_comm (v w : Json) : same v w = same w v := by
  induction v using Json.induct generalizing w with
  | arr items each => cases w <;> simp [same, sameItems_comm each]
  | obj fields each => cases w <;> simp [same, sameFields_comm each]
  | _ => cases w <;> simp [same, Bool.beq_comm]

end Json

/-! ## Numbers on a line -/

namespace Binary64

/-- The place of a number on a line where those below the finite ones come first, and those above them
last. -/
def rank (x : Binary64) : Option (Int ×ₗ Int) := x.place.map toLex

theorem rank_eq_none {x : Binary64} : x.rank = none ↔ x = .nan := by
  cases x <;> simp [rank, place]

theorem comparePlaces_eq (a b : Int × Int) : comparePlaces a b = compare (toLex a) (toLex b) := by
  rw [Prod.Lex.compare_def]
  rfl

theorem compare?_eq (x y : Binary64) :
    x.compare? y = x.rank.bind fun a => y.rank.map fun b => compare a b := by
  unfold compare? rank
  cases x.place <;> cases y.place <;> simp [comparePlaces_eq]

/-- Two numbers are equal when they have the same place. -/
theorem compare?_eq_some_eq {x y : Binary64} :
    x.compare? y = some .eq ↔ ∃ a, x.rank = some a ∧ y.rank = some a := by
  rw [compare?_eq]
  simp only [Option.bind_eq_some_iff, Option.map_eq_some_iff, compare_eq_iff_eq]
  constructor
  · rintro ⟨a, left, b, right, rfl⟩
    exact ⟨a, left, right⟩
  · rintro ⟨a, left, right⟩
    exact ⟨a, left, a, right, rfl⟩

theorem compare?_eq_comm (x y : Binary64) :
    (x.compare? y == some .eq) = (y.compare? x == some .eq) := by
  rw [Bool.eq_iff_iff, beq_iff_eq, beq_iff_eq, compare?_eq_some_eq, compare?_eq_some_eq]
  simp only [and_comm]

end Binary64

namespace Comparison

/-- The place of the number that a value reads as. -/
def rank? (v : Json) : Option (Int ×ₗ Int) := (asNumber v).bind Binary64.rank

/-- The value reads as a number other than NaN. -/
def Numeric (v : Json) : Prop := ∃ x, asNumber v = some x ∧ x ≠ .nan

theorem numeric_iff {v : Json} : Numeric v ↔ ∃ a, rank? v = some a := by
  unfold Numeric rank?
  constructor
  · rintro ⟨x, reads, number⟩
    obtain ⟨a, placed⟩ := Option.ne_none_iff_exists'.mp (mt Binary64.rank_eq_none.mp number)
    exact ⟨a, by simp [reads, placed]⟩
  · rintro ⟨a, placed⟩
    obtain ⟨x, reads, placed⟩ := Option.bind_eq_some_iff.mp placed
    exact ⟨x, reads, fun nan => by simp [Binary64.rank_eq_none.mpr nan] at placed⟩

theorem order_eq (l r : Json) :
    order l r = (rank? l).bind fun a => (rank? r).map fun b => Ord.compare a b := by
  unfold order rank?
  cases asNumber l <;> cases asNumber r <;> simp [Binary64.compare?_eq]

/-- Values that are the same read as numbers of one place. -/
theorem rank?_same {l r : Json} (same : Json.same l r = true) : rank? l = rank? r := by
  cases l <;> cases r <;> simp only [Json.same, beq_iff_eq, Bool.false_eq_true] at same
  case float.float x y => simp [rank?, asNumber, Binary64.rank, Binary64.place, same]
  case int.int | str.str => rw [same]
  all_goals rfl

/-! ## Equality -/

theorem looselyEqual_refl (v : Json) : looselyEqual v v = true :=
  if_pos (Json.same_refl v)

/-- Between values that read as numbers equality is that of their places. -/
theorem looselyEqual_ranked {l r : Json} {a b : Int ×ₗ Int} (left : rank? l = some a)
    (right : rank? r = some b) : looselyEqual l r = true ↔ a = b := by
  unfold looselyEqual
  split
  · next same =>
    have places := rank?_same same
    rw [left, right] at places
    simpa using places
  · obtain ⟨x, reads, placed⟩ := Option.bind_eq_some_iff.mp left
    obtain ⟨y, reads', placed'⟩ := Option.bind_eq_some_iff.mp right
    simp [reads, reads', Binary64.compare?_eq, placed, placed', compare_eq_iff_eq]

theorem looselyEqual_comm (l r : Json) : looselyEqual l r = looselyEqual r l := by
  have sameness : (l == r) = (r == l) := Json.same_comm l r
  unfold looselyEqual
  rw [sameness]
  split
  · rfl
  cases left : asNumber l with
  | none => cases l <;> cases r <;> simp_all [asNumber]
  | some x =>
    cases right : asNumber r with
    | none => cases l <;> cases r <;> simp_all [asNumber]
    | some y => exact Binary64.compare?_eq_comm x y

/-! ## Order -/

variable {l r : Json} {a b : Int ×ₗ Int}

/-- The operator holds of two values. -/
def Holds (op : Comparison) (l r : Json) : Prop := compare l op r = true

theorem order_eq_some {o : Ordering} :
    order l r = some o ↔ ∃ a b, rank? l = some a ∧ rank? r = some b ∧ Ord.compare a b = o := by
  rw [order_eq]
  simp only [Option.bind_eq_some_iff, Option.map_eq_some_iff]
  constructor
  · rintro ⟨a, left, b, right, ordered⟩
    exact ⟨a, b, left, right, ordered⟩
  · rintro ⟨a, b, left, right, ordered⟩
    exact ⟨a, left, b, right, ordered⟩

theorem holds_eq : eq.Holds l r ↔ looselyEqual l r = true := Iff.rfl

theorem holds_lt : lt.Holds l r ↔ ∃ a b, rank? l = some a ∧ rank? r = some b ∧ a < b := by
  simp only [Holds, compare, beq_iff_eq, order_eq_some, compare_lt_iff_lt]

theorem holds_gt : gt.Holds l r ↔ ∃ a b, rank? l = some a ∧ rank? r = some b ∧ b < a := by
  simp only [Holds, compare, beq_iff_eq, order_eq_some, compare_gt_iff_gt]

theorem holds_le : le.Holds l r ↔ ∃ a b, rank? l = some a ∧ rank? r = some b ∧ a ≤ b := by
  simp only [Holds, compare, Bool.or_eq_true, beq_iff_eq, order_eq_some, compare_lt_iff_lt,
    compare_eq_iff_eq, le_iff_lt_or_eq, and_or_left, exists_or]

theorem holds_ge : ge.Holds l r ↔ ∃ a b, rank? l = some a ∧ rank? r = some b ∧ b ≤ a := by
  have same {a b : Int ×ₗ Int} : Ord.compare a b = .eq ↔ b = a := compare_eq_iff_eq.trans eq_comm
  simp only [Holds, compare, Bool.or_eq_true, beq_iff_eq, order_eq_some, compare_gt_iff_gt, same,
    le_iff_lt_or_eq, and_or_left, exists_or]

/-- Between values that read as numbers the operators are the order of their places. -/
theorem holds_ranked (left : rank? l = some a) (right : rank? r = some b) :
    (lt.Holds l r ↔ a < b) ∧ (le.Holds l r ↔ a ≤ b) ∧ (eq.Holds l r ↔ a = b) ∧
      (ge.Holds l r ↔ b ≤ a) ∧ (gt.Holds l r ↔ b < a) := by
  simp only [holds_lt, holds_le, holds_ge, holds_gt, holds_eq, looselyEqual_ranked left right, left, right,
    Option.some.injEq, exists_and_left, exists_eq_left', and_self]

theorem holds_contains {items : List Json} {v : Json} :
    contains.Holds (.arr items) v ↔ ∃ i ∈ items, eq.Holds i v := by
  simp [Holds, compare, holds]

/-! ## Coherence -/

/-- How the operators agree with one another on two values. -/
structure Coherent (l r : Json) : Prop where
  reflexive : eq.Holds l l
  symmetric : eq.Holds l r ↔ eq.Holds r l
  less : lt.Holds l r ↔ gt.Holds r l
  atMost : le.Holds l r ↔ ge.Holds r l
  /-- The line of the numbers decides between values that read as numbers. -/
  ranked : ∀ a b, rank? l = some a → rank? r = some b →
    (lt.Holds l r ↔ a < b) ∧ (le.Holds l r ↔ a ≤ b) ∧ (eq.Holds l r ↔ a = b) ∧
      (ge.Holds l r ↔ b ≤ a) ∧ (gt.Holds l r ↔ b < a)
  /-- So one of them is the less, or they are equal. -/
  trichotomy : Numeric l → Numeric r → ∃! op, op ∈ [lt, eq, gt] ∧ op.Holds l r
  lessOrEqual : Numeric l → Numeric r → (le.Holds l r ↔ lt.Holds l r ∨ eq.Holds l r)
  greaterOrEqual : Numeric l → Numeric r → (ge.Holds l r ↔ gt.Holds l r ∨ eq.Holds l r)
  /-- No other values are ordered. -/
  unordered : ¬ Numeric l ∨ ¬ Numeric r → ∀ op ∈ [lt, le, gt, ge], ¬ op.Holds l r
  /-- An array contains what equals one of its items, whichever of the two comes first. -/
  contains : ∀ items, Comparison.contains.Holds (.arr items) r ↔ ∃ v ∈ items, eq.Holds v r
  contains' : ∀ items, Comparison.contains.Holds (.arr items) r ↔ ∃ v ∈ items, eq.Holds r v

theorem holds_eq_comm : eq.Holds l r ↔ eq.Holds r l := by
  rw [holds_eq, holds_eq, looselyEqual_comm]

theorem trichotomy_of_ranked (left : rank? l = some a) (right : rank? r = some b) :
    ∃! op, op ∈ [lt, eq, gt] ∧ op.Holds l r := by
  obtain ⟨less, -, equal, -, greater⟩ := holds_ranked left right
  have only (o : Comparison) (member : o ∈ [lt, eq, gt]) (holds : o.Holds l r)
      (others : ∀ op ∈ [lt, eq, gt], op ≠ o → ¬ op.Holds l r) : ∃! op, op ∈ [lt, eq, gt] ∧ op.Holds l r :=
    ⟨o, ⟨member, holds⟩, fun op other => by_contra fun different => others op other.1 different other.2⟩
  rcases lt_trichotomy a b with before | same | behind
  · exact only lt (by simp) (less.mpr before) (by simp [equal, greater, before.ne, before.le])
  · exact only eq (by simp) (equal.mpr same) (by simp [less, greater, same])
  · exact only gt (by simp) (greater.mpr behind) (by simp [less, equal, behind.ne', behind.le])

theorem numeric_of_ordered {op : Comparison} (member : op ∈ [lt, le, gt, ge]) (holds : op.Holds l r) :
    Numeric l ∧ Numeric r := by
  have both : ∃ a b, rank? l = some a ∧ rank? r = some b := by
    simp only [List.mem_cons, List.not_mem_nil, or_false] at member
    rcases member with rfl | rfl | rfl | rfl
    · obtain ⟨a, b, left, right, -⟩ := holds_lt.mp holds
      exact ⟨a, b, left, right⟩
    · obtain ⟨a, b, left, right, -⟩ := holds_le.mp holds
      exact ⟨a, b, left, right⟩
    · obtain ⟨a, b, left, right, -⟩ := holds_gt.mp holds
      exact ⟨a, b, left, right⟩
    · obtain ⟨a, b, left, right, -⟩ := holds_ge.mp holds
      exact ⟨a, b, left, right⟩
  obtain ⟨a, b, left, right⟩ := both
  exact ⟨numeric_iff.mpr ⟨a, left⟩, numeric_iff.mpr ⟨b, right⟩⟩

/-- The operators agree with one another on every two values. -/
theorem coherent (l r : Json) : Coherent l r where
  reflexive := looselyEqual_refl l
  symmetric := holds_eq_comm
  less := by
    rw [holds_lt, holds_gt, exists_comm]
    simp only [and_left_comm]
  atMost := by
    rw [holds_le, holds_ge, exists_comm]
    simp only [and_left_comm]
  ranked a b left right := holds_ranked left right
  trichotomy left right := by
    obtain ⟨a, left⟩ := numeric_iff.mp left
    obtain ⟨b, right⟩ := numeric_iff.mp right
    exact trichotomy_of_ranked left right
  lessOrEqual left right := by
    obtain ⟨a, left⟩ := numeric_iff.mp left
    obtain ⟨b, right⟩ := numeric_iff.mp right
    obtain ⟨less, atMost, equal, -, -⟩ := holds_ranked left right
    rw [less, atMost, equal, le_iff_lt_or_eq]
  greaterOrEqual left right := by
    obtain ⟨a, left⟩ := numeric_iff.mp left
    obtain ⟨b, right⟩ := numeric_iff.mp right
    obtain ⟨-, -, equal, atLeast, greater⟩ := holds_ranked left right
    rw [equal, atLeast, greater, le_iff_lt_or_eq, eq_comm]
  unordered other op member holds := by
    obtain ⟨left, right⟩ := numeric_of_ordered member holds
    exact other.elim (· left) (· right)
  contains items := holds_contains
  contains' items := by simp only [holds_contains, holds_eq_comm (r := r)]

end Comparison

/-- Texts are compared as the numbers that they read as, and one that reads as NaN equals itself although
nothing orders it. -/
theorem spellings_coherent :
    Comparison.Numeric (.str " 1e1 ") ∧ Comparison.Numeric (.int 9) ∧
      (∃! op, op ∈ [Comparison.lt, .eq, .gt] ∧ op.Holds (.str " 1e1 ") (.int 9)) ∧
      Comparison.gt.Holds (.str " 1e1 ") (.int 9) ∧ ¬ Comparison.Numeric (.str "nan") ∧
      Comparison.eq.Holds (.str "nan") (.str "nan") ∧
      ∀ op ∈ [Comparison.lt, .le, .gt, .ge], ¬ op.Holds (.str "nan") (.str "nan") := by
  have numeric {v : Json} (placed : (Comparison.rank? v).isSome) : Comparison.Numeric v :=
    Comparison.numeric_iff.mpr (Option.isSome_iff_exists.mp placed)
  have ten : Comparison.Numeric (.str " 1e1 ") := numeric (by decide +kernel)
  have nine : Comparison.Numeric (.int 9) := numeric (by decide +kernel)
  have nan : ¬ Comparison.Numeric (.str "nan") := by
    have unplaced : Comparison.rank? (.str "nan") = none := by decide +kernel
    simp [Comparison.numeric_iff, unplaced]
  exact ⟨ten, nine, (Comparison.coherent _ _).trichotomy ten nine,
    (by decide +kernel : Comparison.compare (.str " 1e1 ") .gt (.int 9) = true), nan,
    (Comparison.coherent _ (.int 0)).reflexive, (Comparison.coherent _ _).unordered (.inl nan)⟩

end Parley

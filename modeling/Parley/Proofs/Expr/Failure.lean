import Parley.Error
/-!
# The first failure

When things are worked out one after the other, the whole fails with the error of the first that fails.
-/
namespace Parley
variable {α β : Type} {f : α → Except Error β} {x : α} {xs ys : List α} {e : Error}

/-- The first of the things that cannot be worked out has this error. -/
def FailsFirst (f : α → Except Error β) (xs : List α) (e : Error) : Prop :=
  ∃ front x back, xs = front ++ x :: back ∧ (∀ y ∈ front, ∃ v, f y = .ok v) ∧ f x = .error e

theorem not_failsFirst_nil : ¬ FailsFirst f [] e := by
  rintro ⟨front, x, back, whole, -, -⟩
  simp at whole

theorem failsFirst_cons : FailsFirst f (x :: xs) e ↔
    f x = .error e ∨ (∃ v, f x = .ok v) ∧ FailsFirst f xs e := by
  constructor
  · rintro ⟨front, y, back, whole, worked, failed⟩
    cases front with
    | nil =>
      obtain ⟨rfl, -⟩ := List.cons.inj whole
      exact .inl failed
    | cons z front =>
      obtain ⟨rfl, rfl⟩ := List.cons.inj whole
      obtain ⟨first, later⟩ := List.forall_mem_cons.mp worked
      exact .inr ⟨first, front, y, back, rfl, later, failed⟩
  · rintro (failed | ⟨first, front, y, back, rfl, later, failed⟩)
    · exact ⟨[], x, xs, rfl, by simp, failed⟩
    · exact ⟨x :: front, y, back, rfl, List.forall_mem_cons.mpr ⟨first, later⟩, failed⟩

theorem failsFirst_append : FailsFirst f (xs ++ ys) e ↔
    FailsFirst f xs e ∨ (∀ x ∈ xs, ∃ v, f x = .ok v) ∧ FailsFirst f ys e := by
  induction xs with
  | nil => simp [not_failsFirst_nil]
  | cons x xs ih =>
    rw [List.cons_append, failsFirst_cons, failsFirst_cons, ih, List.forall_mem_cons]
    constructor
    · rintro (failed | ⟨first, failed | ⟨later, failed⟩⟩)
      · exact .inl (.inl failed)
      · exact .inl (.inr ⟨first, failed⟩)
      · exact .inr ⟨⟨first, later⟩, failed⟩
    · rintro ((failed | ⟨first, failed⟩) | ⟨⟨first, later⟩, failed⟩)
      · exact .inl failed
      · exact .inr ⟨first, .inl failed⟩
      · exact .inr ⟨first, .inr ⟨later, failed⟩⟩

/-- There is a first failure as soon as there is any. -/
theorem exists_failsFirst : (∃ e, FailsFirst f xs e) ↔ ∃ x ∈ xs, ∃ e, f x = .error e := by
  induction xs with
  | nil => simp [not_failsFirst_nil]
  | cons x xs ih =>
    cases worked : f x with
    | error d =>
      exact ⟨fun _ => ⟨x, List.mem_cons_self .., d, worked⟩,
        fun _ => ⟨d, failsFirst_cons.mpr (.inl worked)⟩⟩
    | ok v =>
      have later (e : Error) : FailsFirst f (x :: xs) e ↔ FailsFirst f xs e := by
        simp [failsFirst_cons, worked]
      simp only [later, ih, List.mem_cons, or_and_right, exists_or, exists_eq_left, worked]
      simp

/-- What is worked out from the things fails just when one of them does, with the error of the first. -/
def FailsLike {γ : Type} (outcome : Except Error γ) (f : α → Except Error β) (xs : List α) : Prop :=
  ∀ e, outcome = .error e ↔ FailsFirst f xs e

section
variable {γ δ ε : Type} {first : Except Error γ} {later : Except Error δ}

theorem failsLike_ok (v : γ) : FailsLike (.ok v) f [] := by
  intro e
  simp [not_failsFirst_nil]

theorem failsLike_single {outcome : Except Error β} (same : outcome = f x) :
    FailsLike outcome f [x] := by
  intro e
  simp [failsFirst_cons, not_failsFirst_nil, same]

theorem FailsLike.map (like : FailsLike first f xs) (g : γ → ε) : FailsLike (first.map g) f xs := by
  intro e
  rw [← like e]
  cases first <;> simp [Except.map]

theorem FailsLike.works (like : FailsLike first f xs) :
    (∃ v, first = .ok v) ↔ ∀ x ∈ xs, ∃ v, f x = .ok v := by
  have fails := (exists_congr like).trans exists_failsFirst
  constructor
  · rintro ⟨v, rfl⟩ x member
    cases worked : f x with
    | ok w => exact ⟨w, rfl⟩
    | error e => exact nomatch fails.mpr ⟨x, member, e, worked⟩
  · intro all
    cases first with
    | ok v => exact ⟨v, rfl⟩
    | error e =>
      obtain ⟨x, member, d, failed⟩ := fails.mp ⟨e, rfl⟩
      obtain ⟨v, worked⟩ := all x member
      rw [worked] at failed
      contradiction

theorem map_eq_ok {g : γ → δ} {w : δ} : first.map g = .ok w ↔ ∃ v, first = .ok v ∧ w = g v := by
  cases first <;> simp [Except.map, eq_comm]

theorem seq_eq_ok {g : γ → δ → ε} {v : ε} :
    (do let a ← first; let b ← later; return g a b) = Except.ok v ↔
      ∃ a b, first = .ok a ∧ later = .ok b ∧ v = g a b := by
  cases first <;> cases later <;> simp [bind, Except.bind, pure, Except.pure, eq_comm]

/-- One outcome after the other fails like the things of both in a row. -/
theorem FailsLike.seq (one : FailsLike first f xs) (two : FailsLike later f ys) (g : γ → δ → ε) :
    FailsLike (do let a ← first; let b ← later; return g a b) f (xs ++ ys) := by
  intro e
  rw [failsFirst_append, ← one e, ← one.works, ← two e]
  cases first <;> cases later <;> simp [bind, Except.bind, pure, Except.pure]

end

end Parley

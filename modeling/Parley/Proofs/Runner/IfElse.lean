import Parley.Runner.IfElse
import Parley.Proofs.Condition.Comparison
import Parley.Proofs.Expr.Failure
import Parley.Proofs.Log
import Parley.Proofs.Runner.Parameters
/-!
# Which branch a conditional node takes

A branch is evaluated once all branches before it have been passed, and then all of its operands are,
from the left (`Runner.IfElse.outcomes_failsLike`). So the first branch that holds is taken, or an operand
before that has no value (`Runner.IfElse.taken_eq`), and what comes behind is of no account
(`Runner.IfElse.taken_congr`).
-/
namespace Parley.Runner
namespace IfElse

/-! ## Conditions -/

/-- The operands of conditions, in the order in which they are evaluated. -/
def operands (conditions : List Condition) : List Json :=
  conditions.flatMap fun c => [c.left, c.right]

variable (around : Surroundings) (ctx : Context)

/-- Both operands have values, and the values compare as told. -/
def Condition.Holds (c : Condition) : Prop :=
  ∃ left right, value around ctx c.left = .ok left ∧ value around ctx c.right = .ok right ∧
    c.op.Holds left right

namespace Branch

/-- All operands of the branch have values. -/
def Resolves (b : Branch) : Prop :=
  ∀ p ∈ operands b.conditions, ∃ v, value around ctx p = .ok v

/-- The branch has conditions, and all of them hold, or one of them. -/
def Holds (b : Branch) : Prop :=
  b.conditions ≠ [] ∧
    match b.logic with
    | .all => ∀ c ∈ b.conditions, c.Holds around ctx
    | .any => ∃ c ∈ b.conditions, c.Holds around ctx

/-- The branch has been evaluated, and it is not taken. -/
def Passed (b : Branch) : Prop := b.Resolves around ctx ∧ ¬ b.Holds around ctx

end Branch

/-- The branch is evaluated: all branches before it are passed. -/
def Evaluated (branches : List Branch) (b : Branch) : Prop :=
  ∃ before after, branches = before ++ b :: after ∧ ∀ x ∈ before, x.Passed around ctx

variable {around ctx} {conditions : List Condition} {branches before after : List Branch} {b : Branch}

/-- Conditions are evaluated as long as their operands have values. -/
theorem outcomes_failsLike (conditions : List Condition) :
    FailsLike (outcomes around ctx conditions) (value around ctx) (operands conditions) := by
  induction conditions with
  | nil => exact failsLike_ok _
  | cons c rest ih =>
    have whole : outcomes around ctx (c :: rest) = do
        let left ← value around ctx c.left
        let others ← (do
          let right ← value around ctx c.right
          let others ← outcomes around ctx rest
          return (right, others))
        return c.op.compare left others.1 :: others.2 := by
      rw [outcomes]
      cases value around ctx c.left <;> cases value around ctx c.right <;>
        cases outcomes around ctx rest <;> rfl
    rw [whole]
    exact (failsLike_single rfl).seq ((failsLike_single rfl).seq ih Prod.mk) _

/-- The first outcome tells whether the first condition holds. -/
theorem outcomes_cons {c : Condition} {results : List Bool}
    (worked : outcomes around ctx (c :: conditions) = .ok results) :
    ∃ result others, results = result :: others ∧ (result = true ↔ c.Holds around ctx) ∧
      outcomes around ctx conditions = .ok others := by
  rw [outcomes] at worked
  cases left : value around ctx c.left with
  | error => simp [left, bind, Except.bind] at worked
  | ok l =>
  cases right : value around ctx c.right with
  | error => simp [left, right, bind, Except.bind] at worked
  | ok r =>
  cases later : outcomes around ctx conditions with
  | error => simp [left, right, later, bind, Except.bind] at worked
  | ok others =>
    simp only [left, right, later, bind, Except.bind, pure, Except.pure, Except.ok.injEq] at worked
    exact ⟨_, others, worked.symm, by simp [Condition.Holds, left, right, Comparison.Holds], rfl⟩

/-- The outcomes tell which conditions hold. -/
theorem outcomes_hold {results : List Bool} (worked : outcomes around ctx conditions = .ok results) :
    (results.isEmpty = true ↔ conditions = []) ∧
      (results.all id = true ↔ ∀ c ∈ conditions, c.Holds around ctx) ∧
      (results.any id = true ↔ ∃ c ∈ conditions, c.Holds around ctx) := by
  induction conditions generalizing results with
  | nil =>
    obtain rfl := Except.ok.inj worked
    simp
  | cons c rest ih =>
    obtain ⟨result, others, rfl, holds, later⟩ := outcomes_cons worked
    obtain ⟨-, all, any⟩ := ih later
    simp [holds, all, any]

/-- Joined as the branch says, the outcomes tell whether it holds. -/
theorem combine_iff {results : List Bool} (worked : outcomes around ctx b.conditions = .ok results) :
    b.logic.combine results = true ↔ b.Holds around ctx := by
  obtain ⟨empty, all, any⟩ := outcomes_hold worked
  unfold Branch.Holds Logic.combine
  rw [ne_eq, ← empty]
  cases b.logic <;> simp [all, any]

/-! ## Branches -/

theorem resolves_iff :
    b.Resolves around ctx ↔ ∃ results, outcomes around ctx b.conditions = .ok results :=
  (outcomes_failsLike b.conditions).works.symm

theorem passed_iff : b.Passed around ctx ↔
    ∃ results, outcomes around ctx b.conditions = .ok results ∧ b.logic.combine results = false := by
  rw [Branch.Passed, resolves_iff]
  constructor
  · rintro ⟨⟨results, worked⟩, fails⟩
    exact ⟨results, worked, by rwa [← Bool.not_eq_true, combine_iff worked]⟩
  · rintro ⟨results, worked, fails⟩
    exact ⟨⟨results, worked⟩, by rw [← combine_iff worked, fails]; exact Bool.false_ne_true⟩

theorem taken_passed (passed : b.Passed around ctx) (branches : List Branch) :
    taken around ctx (b :: branches) = taken around ctx branches := by
  obtain ⟨results, worked, combined⟩ := passed_iff.mp passed
  simp [taken, worked, combined, bind, Except.bind]

theorem taken_behind (passed : ∀ x ∈ before, x.Passed around ctx) (branches : List Branch) :
    taken around ctx (before ++ branches) = taken around ctx branches := by
  induction before with
  | nil => rfl
  | cons x before ih =>
    obtain ⟨first, later⟩ := List.forall_mem_cons.mp passed
    rw [List.cons_append, taken_passed first, ih later]

theorem taken_holding (resolves : b.Resolves around ctx) (holds : b.Holds around ctx)
    (branches : List Branch) : taken around ctx (b :: branches) = .ok (some b.label) := by
  obtain ⟨results, worked⟩ := resolves_iff.mp resolves
  have combined := (combine_iff worked).mpr holds
  simp [taken, worked, combined, bind, Except.bind, pure, Except.pure]

theorem taken_failing {e : Error} (fails : FailsFirst (value around ctx) (operands b.conditions) e)
    (branches : List Branch) : taken around ctx (b :: branches) = .error e := by
  have failed := (outcomes_failsLike b.conditions e).mpr fails
  simp [taken, failed, bind, Except.bind]

/-- What a list of branches comes to. -/
inductive Decides (around : Surroundings) (ctx : Context) (branches : List Branch) :
    Except Error (Option String) → Prop
  /-- The first branch that holds is taken. -/
  | takes {before after : List Branch} {b : Branch} : branches = before ++ b :: after →
    (∀ x ∈ before, x.Passed around ctx) → b.Resolves around ctx → b.Holds around ctx →
    Decides around ctx branches (.ok (some b.label))
  | passes : (∀ b ∈ branches, b.Passed around ctx) → Decides around ctx branches (.ok none)
  /-- A branch is evaluated that has an operand without a value. -/
  | fails {b : Branch} {e : Error} : Evaluated around ctx branches b →
    FailsFirst (value around ctx) (operands b.conditions) e → Decides around ctx branches (.error e)

theorem Decides.taken {outcome : Except Error (Option String)}
    (decides : Decides around ctx branches outcome) : taken around ctx branches = outcome := by
  cases decides with
  | takes split passed resolves holds => rw [split, taken_behind passed, taken_holding resolves holds]
  | passes all => simpa [IfElse.taken] using taken_behind all []
  | fails evaluated fails =>
    obtain ⟨before, after, split, passed⟩ := evaluated
    rw [split, taken_behind passed, taken_failing fails]

theorem Evaluated.behind {x : Branch} (passed : b.Passed around ctx)
    (evaluated : Evaluated around ctx branches x) : Evaluated around ctx (b :: branches) x := by
  obtain ⟨before, after, split, all⟩ := evaluated
  exact ⟨b :: before, after, congrArg (b :: ·) split, List.forall_mem_cons.mpr ⟨passed, all⟩⟩

theorem Decides.behind {outcome : Except Error (Option String)} (passed : b.Passed around ctx)
    (decides : Decides around ctx branches outcome) : Decides around ctx (b :: branches) outcome := by
  cases decides with
  | takes split before resolves holds =>
    exact .takes (congrArg (b :: ·) split) (List.forall_mem_cons.mpr ⟨passed, before⟩) resolves holds
  | passes all => exact .passes (List.forall_mem_cons.mpr ⟨passed, all⟩)
  | fails evaluated fails => exact .fails (evaluated.behind passed) fails

/-- Every list of branches comes to something, and to that alone. -/
theorem decides_iff {outcome : Except Error (Option String)} :
    Decides around ctx branches outcome ↔ taken around ctx branches = outcome := by
  refine ⟨Decides.taken, ?_⟩
  rintro rfl
  induction branches with
  | nil => exact .passes (by simp)
  | cons b rest ih =>
    cases worked : outcomes around ctx b.conditions with
    | error e =>
      have fails := (outcomes_failsLike b.conditions e).mp worked
      rw [taken_failing fails]
      exact .fails ⟨[], rest, rfl, by simp⟩ fails
    | ok results =>
      have resolves : b.Resolves around ctx := resolves_iff.mpr ⟨results, worked⟩
      by_cases holds : b.Holds around ctx
      · rw [taken_holding resolves holds]
        exact .takes (show b :: rest = [] ++ b :: rest from rfl) (by simp) resolves holds
      · rw [taken_passed ⟨resolves, holds⟩]
        exact ih.behind ⟨resolves, holds⟩

/-! ## What is not evaluated -/

variable {around' : Surroundings} {ctx' : Context}

theorem outcomes_congr
    (same : ∀ p ∈ operands conditions, value around' ctx' p = value around ctx p) :
    outcomes around' ctx' conditions = outcomes around ctx conditions := by
  induction conditions with
  | nil => rfl
  | cons c rest ih =>
    have here : operands (c :: rest) = c.left :: c.right :: operands rest := by simp [operands]
    simp only [here, List.forall_mem_cons] at same
    obtain ⟨left, right, later⟩ := same
    simp only [outcomes, left, right, ih later]

/-- Only the operands of the evaluated branches count. -/
theorem taken_congr (same : ∀ b, Evaluated around ctx branches b →
    ∀ p ∈ operands b.conditions, value around' ctx' p = value around ctx p) :
    taken around' ctx' branches = taken around ctx branches := by
  induction branches with
  | nil => rfl
  | cons b rest ih =>
    have first : outcomes around' ctx' b.conditions = outcomes around ctx b.conditions :=
      outcomes_congr (same b ⟨[], rest, rfl, by simp⟩)
    rw [taken, taken, first]
    cases worked : outcomes around ctx b.conditions with
    | error e => rfl
    | ok results =>
      by_cases holds : b.logic.combine results = true
      · simp [holds, bind, Except.bind]
      · have passed : b.Passed around ctx := passed_iff.mpr ⟨results, worked, by simpa using holds⟩
        simpa [holds, bind, Except.bind] using ih fun x evaluated => same x (evaluated.behind passed)

/-! ## Errors -/

/-- An operand of a branch has no value just when there is a first one. -/
theorem not_resolves_iff :
    ¬ b.Resolves around ctx ↔ ∃ e, FailsFirst (value around ctx) (operands b.conditions) e := by
  rw [exists_failsFirst, Branch.Resolves, not_forall]
  refine exists_congr fun p => ?_
  cases value around ctx p <;> simp

theorem taken_error_iff {e : Error} : taken around ctx branches = .error e ↔
    ∃ b, Evaluated around ctx branches b ∧
      FailsFirst (value around ctx) (operands b.conditions) e := by
  rw [← decides_iff]
  constructor
  · intro decides
    cases decides with
    | fails evaluated fails => exact ⟨_, evaluated, fails⟩
  · rintro ⟨b, evaluated, fails⟩
    exact .fails evaluated fails

end IfElse

/-- A conditional node asks for nothing. It leaves what follows from the branch taken, or it fails at
once. -/
theorem ifElse_runs {around : Surroundings} {call : Call} {params : IfElse.Params} {s s' : NodeState}
    {log : List Exchange} {result : Except Error Unit}
    (read : call.node.params.decode IfElse.Params.decoder = .ok params)
    (run : Task.Runs (ifElse around call) s log result s') :
    log = [] ∧ ((∃ e, IfElse.taken around s.context params.branches = .error e ∧ result = .error e ∧
        s' = s) ∨
      ∃ label, IfElse.taken around s.context params.branches = .ok label ∧ result = .ok () ∧
        s' = { s with report := IfElse.follow call s.report (label.or params.otherwise) }) := by
  simp only [ifElse, parameters_of_decode read, Task.runs_ofExcept_bind, Task.runs_get_bind, report,
    Task.runs_modify, Except.ok.injEq, exists_eq_left', reduceCtorEq, false_and, exists_false,
    false_or] at run
  rcases run with ⟨e, failed, rfl, rfl, rfl⟩ | ⟨label, taken, rfl, rfl, rfl⟩
  · exact ⟨rfl, .inl ⟨e, failed, rfl, rfl⟩⟩
  · exact ⟨rfl, .inr ⟨label, taken, rfl, rfl⟩⟩

end Parley.Runner

import Parley.Proofs.Runner.Steps
import Parley.Proofs.Expr.Failure
/-!
# What nodes leave of contexts

Most runners only read the context, and put something out unless they fail (`Runner.Reads`). Of the
others one that waits makes the text of the context, one that sets variables sets all of them or none,
and one that loops does what its rounds do (`Runner.builtins_frame`).
-/
namespace Parley

namespace Runner

/-- A node that waits changes at most the text that is kept with the context. Unless it fails or
suspends the run it only reads. -/
theorem waitMessage_leaves {around : Surroundings} {call : Call} {s s' : NodeState}
    {log : List Exchange} {result : Except Error Unit}
    (run : Task.Runs (waitMessage around call) s log result s') :
    s.context.Same s'.context ∧ (result = .ok () → s'.report.suspended = true ∨
      s'.context = s.context ∧ ∃ v, s'.report = s.report.withResult v) := by
  cases waitMessage_does run with
  | waited => exact ⟨.refl _, fun _ => .inr ⟨rfl, _, rfl⟩⟩
  | nested => exact ⟨.refl _, by simp⟩
  | unread => exact ⟨.refl _, by simp⟩
  | unsaved => exact ⟨s.context.same_snapshot, by simp⟩
  | suspended => exact ⟨s.context.same_snapshot, fun _ => .inl rfl⟩

/-- Of the built-in runners these three do more than to read. -/
theorem builtins_frame : ∀ r ∈ builtins,
    (r.type = "wait_message" ∧ r.runner = waitMessage) ∨
      (r.type = "variable_save" ∧ r.runner = setVariables) ∨
      (r.type = "loop" ∧ r.runner = loop) ∨
      (r.type ∉ ["wait_message", "variable_save", "loop"] ∧ Reads r.runner) := by
  simp only [builtins, firstVersion, List.forall_mem_cons, List.not_mem_nil, false_implies,
    implies_true, and_true]
  have subFlow_reads : Reads subFlow := fun run => (subFlow_runs run).1
  exact ⟨.inr (.inr (.inr ⟨by decide, start_quiet.reads⟩)), .inl trivial,
    .inr (.inr (.inr ⟨by decide, ifElse_quiet.reads⟩)), .inr (.inr (.inl trivial)),
    .inr (.inr (.inr ⟨by decide, subFlow_reads⟩)), .inr (.inr (.inr ⟨by decide, finish_quiet.reads⟩)),
    .inr (.inr (.inr ⟨by decide, code_quiet.reads⟩)), .inr (.inr (.inr ⟨by decide, reply_quiet.reads⟩)),
    .inr (.inl trivial)⟩

/-! ## Variables -/

namespace SetVariables

theorem values_assign (ctx : Context) (assigned : Keyed Json) :
    (assign ctx assigned).values = Keyed.insertAll ctx.values assigned := by
  induction assigned generalizing ctx with
  | nil => rfl
  | cons f fs ih => exact ih _

/-- Nothing but variables is assigned. -/
theorem assign_eq (ctx : Context) (assigned : Keyed Json) : assign ctx assigned =
    { ctx with values := (assign ctx assigned).values, cached := (assign ctx assigned).cached } := by
  induction assigned generalizing ctx with
  | nil => rfl
  | cons f fs ih =>
    show assign (ctx.setVariable f.1 f.2) fs = _
    rw [ih]
    rfl

end SetVariables

/-- Values are those of parameters of the same names. -/
theorem keys_values {around : Surroundings} {ctx : Context} {params assigned : Keyed Json}
    (resolved : values around ctx params = .ok assigned) : assigned.keys = params.keys := by
  unfold values at resolved
  unfold Keyed.keys
  induction params generalizing assigned with
  | nil =>
    obtain rfl : [] = assigned := by simpa [Param.resolveFields] using resolved
    rfl
  | cons f fs ih =>
    rw [Param.resolveFields, seq_eq_ok] at resolved
    obtain ⟨w, ws, -, later, rfl⟩ := resolved
    rw [List.map_cons, List.map_cons, ih later]

end Runner

end Parley

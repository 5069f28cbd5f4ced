import Parley.Runner.Builtin
import Parley.Proofs.Ending
import Parley.Proofs.Runner.Parameters
/-!
# How often nodes ask

A node asks a few times itself, or it walks: a loop as often as its parameters allow, and a node that
calls a flow once. So what it asks is bounded by what a walk within it asks (`Runner.builtins_end`).
-/
namespace Parley

/-- The node is no loop, or one that is allowed no more iterations. -/
def Node.LoopsWithin (most : Nat) (node : Node) : Prop :=
  node.type = "loop" → ∀ p, node.params.decode Runner.Loop.Params.decoder = .ok p →
    p.maxIterations ≤ most

/-- No loop of the flow is allowed more iterations. -/
def Flow.LoopsWithin (most : Nat) (flow : Flow) : Prop :=
  ∀ node ∈ flow.nodes, node.LoopsWithin most

/-- No loop of a flow that is loaded is allowed more iterations. -/
def Exchange.LoopsWithin (most : Nat) : Exchange → Prop
  | ⟨.load _ _, .ok flow⟩ => flow.LoopsWithin most
  | _ => True

/-- The task asks at most a number of times when no loop is allowed more than `most` iterations. -/
abbrev Task.EndsWithin {σ α : Type} (most n : Nat) (t : Task σ α) : Prop :=
  EndsIn (Exchange.LoopsWithin most) (fun _ => True) n t

/-- A number of iterations is one that fits a machine word. -/
theorem Flow.loopsWithin (flow : Flow) : flow.LoopsWithin Text.greatest64 :=
  fun _ _ _ _ read => Runner.loop_limit read

theorem Exchange.loopsWithin (x : Exchange) : x.LoopsWithin Text.greatest64 := by
  unfold LoopsWithin
  split
  · exact Flow.loopsWithin _
  · trivial

namespace Runner
open Parley.Task

/-- How often a node asks when no loop is allowed more than `most` iterations and a walk within the node
asks at most `walk` times. -/
def mostAsked (most walk : Nat) : Nat := 3 + max most 1 * walk

/-- The nodes of a type ask no more often. -/
def Ends (r : Registration Runner) : Prop :=
  ∀ {most n : Nat} {around : Surroundings} {call : Call}, call.node.type = r.type →
    call.node.LoopsWithin most → call.flow.LoopsWithin most →
    (∀ flow entry appointed, flow.LoopsWithin most →
      EndsWithin most n (around.nested flow entry appointed)) →
    EndsWithin most (mostAsked most n) (r.runner around call)

section
variable {most n : Nat} (around : Surroundings) (call : Call)

private theorem start_ends : EndsWithin most n (start around call) :=
  endsIn_ofExcept_bind fun _ _ => endsIn_get_bind fun _ => endsIn_ofExcept_bind fun _ _ => endsIn_modify

private theorem ifElse_ends : EndsWithin most n (ifElse around call) :=
  endsIn_ofExcept_bind fun _ _ => endsIn_get_bind fun _ => endsIn_ofExcept_bind fun _ _ => endsIn_modify

private theorem finish_ends : EndsWithin most n (finish around call) :=
  endsIn_ofExcept_bind fun _ _ => endsIn_get_bind fun _ => endsIn_ofExcept_bind fun _ _ => endsIn_modify

private theorem setVariables_ends : EndsWithin most n (setVariables around call) :=
  endsIn_ofExcept_bind fun _ _ => endsIn_get_bind fun _ => endsIn_ofExcept_bind fun _ _ =>
    endsIn_modify_bind endsIn_modify

private theorem code_ends : EndsWithin most 1 (code around call) := by
  refine endsIn_ofExcept_bind fun params _ => endsIn_ask_bind (n := 0) fun result _ => ?_
  cases result with
  | none => exact endsIn_throw _
  | some result => exact endsIn_ofExcept_bind fun _ _ => endsIn_modify

private theorem reply_ends : EndsWithin most 1 (reply around call) :=
  endsIn_ofExcept_bind fun _ _ => endsIn_get_bind fun _ => endsIn_ofExcept_bind fun _ _ =>
    endsIn_call_bind (r := .send _ _) (n := 0) fun _ _ _ _ => endsIn_modify

private theorem waitMessage_ends : EndsWithin most 3 (waitMessage around call) := by
  unfold waitMessage
  split
  · exact endsIn_get_bind fun _ => endsIn_modify
  · exact endsIn_guard fun _ => endsIn_ofExcept_bind fun _ _ =>
      endsIn_ask_bind (r := .clock) (n := 2) fun _ _ =>
      endsIn_ask_bind (r := .identifier) (n := 1) fun _ _ => endsIn_ofChecked_bind fun _ _ =>
      endsIn_get_bind fun _ => endsIn_modify_bind <|
      endsIn_call_bind (r := .save _) (n := 0) fun _ _ _ _ => endsIn_modify

private theorem iterate_ends {body : String}
    (nested : EndsWithin most n (around.nested call.flow body (some .loopStart))) (index : Nat)
    (items : List Json) :
    EndsWithin most (items.length * n) (Loop.iterate around call body index items) := by
  induction items generalizing index with
  | nil => exact endsIn_pure trivial
  | cons item rest ih =>
    rw [List.length_cons, Nat.succ_mul, Nat.add_comm]
    refine endsIn_modify_bind <| endsIn_bind (endsIn_within nested) fun walk _ =>
      endsIn_modify_bind ?_
    split
    · exact endsIn_throw _
    · exact ih _

theorem Loop.length_values (turns : Loop.Turns) : turns.values.length = turns.length := by
  cases turns <;> simp [Turns.values, Turns.length]

private theorem loop_ends (type : call.node.type = "loop") (allowed : call.node.LoopsWithin most)
    (nested : ∀ entry appointed, EndsWithin most n (around.nested call.flow entry appointed)) :
    EndsWithin most (mostAsked most n) (loop around call) := by
  refine endsIn_ofExcept_bind fun params read => endsIn_get_bind fun _ =>
    endsIn_ofExcept_bind fun _ _ => endsIn_ofChecked_bind fun turns _ => endsIn_guard fun few => ?_
  split
  · exact endsIn_throw _
  · next body _ =>
    have iterations : turns.length ≤ max most 1 :=
      calc turns.length
        _ ≤ params.maxIterations := Nat.le_of_not_lt few
        _ ≤ most := allowed type params (decode_of_parameters read)
        _ ≤ max most 1 := Nat.le_max_left ..
    have asked := Nat.mul_le_mul_right n iterations
    refine (endsIn_bind (m := 0) (iterate_ends around call (nested body.id _) 0 turns.values) fun _ _ =>
      endsIn_modify).mono ?_
    rw [Loop.length_values, mostAsked]
    omega

private theorem subFlow_ends
    (nested : ∀ flow entry appointed, flow.LoopsWithin most →
      EndsWithin most n (around.nested flow entry appointed)) :
    EndsWithin most (n + 1) (subFlow around call) := by
  refine endsIn_ofExcept_bind fun params _ => endsIn_call_bind (r := .load _ _) ?_
  rintro _ within flow rfl
  refine endsIn_ofExcept_bind fun _ _ => endsIn_ofExcept_bind fun entry _ => endsIn_get_bind fun _ =>
    endsIn_ofExcept_bind fun argument _ => ?_
  refine endsIn_bind (m := 0) (endsIn_apart (nested flow _ _ within)) fun ended _ =>
    endsIn_modify_bind ?_
  split
  · exact endsIn_throw _
  · exact endsIn_modify

end

/-- The nodes of all built-in types do. -/
theorem builtins_end : ∀ r ∈ builtins, Ends r := by
  have few {most n walk : Nat} (small : n ≤ 3) : n ≤ mostAsked most walk := by
    unfold mostAsked
    omega
  simp only [builtins, firstVersion, List.forall_mem_cons, List.not_mem_nil, false_implies,
    implies_true, and_true]
  refine ⟨?_, ?_, ?_, ?_, ?_, ?_, ?_, ?_, ?_⟩ <;> intro most n around call type allowed loops nested
  · exact start_ends around call
  · exact (waitMessage_ends around call).mono (few (Nat.le_refl 3))
  · exact ifElse_ends around call
  · exact loop_ends around call type allowed fun entry appointed => nested call.flow entry appointed loops
  · refine (subFlow_ends around call nested).mono ?_
    have once := Nat.mul_le_mul_right n (Nat.le_max_right most 1)
    unfold mostAsked
    omega
  · exact finish_ends around call
  · exact (code_ends around call).mono (few (by decide))
  · exact (reply_ends around call).mono (few (by decide))
  · exact setVariables_ends around call

end Runner

end Parley

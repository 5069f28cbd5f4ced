import Parley.Engine.Basic
import Parley.Proofs.Walk.Levels
/-!
# Walks run the closure of the kept children

A walk of a checked flow comes to its end, whatever its nodes do and whatever they are answered, unless
one of them panics, and what it has run is its entry and, level by level, every child that was kept.
-/
namespace Parley

namespace Engine
variable {engine : Engine} {flow : Flow}

/-- What a node has around it in a walk that others can be nested in, `room` levels down. -/
def around (engine : Engine) (room : Nat) : Surroundings where
  resolver := engine.resolver
  check := engine.check
  nested := engine.walk room

theorem check_validate (checked : engine.check flow = .ok ()) : flow.validate = .ok () := by
  cases valid : flow.validate with
  | ok v => rfl
  | error e => simp [check, valid] at checked; contradiction

variable {room : Nat} {entry : String} {appointed : Option Trigger} {ctx ctx' : Context}
  {log : List Exchange} {result : Except Error Walk}

/-- The node runs of a walk. -/
abbrev nodeVisitor (engine : Engine) (room : Nat) (flow : Flow) : Visitor :=
  engine.visitor (engine.around room) flow (deepest - room)

theorem walk_turns (checked : engine.check flow = .ok ()) (inside : entry ∈ flow.ids)
    (run : Task.Runs (engine.walk (room + 1) flow entry appointed) ctx log result ctx') :
    ∃ turns, Walk.Turns flow (engine.nodeVisitor room flow) engine.config.maxExecutions
        engine.config.maxExecutions true { pending := [{ id := entry, appointed }] } ctx turns ctx' ∧
      result = .ok ⟨turns.map Turn.visit⟩ ∧ log = turns.flatMap Turn.exchanges := by
  have closed := Flow.validate_closed (check_validate checked)
  obtain ⟨turns, taken, ended, heard⟩ :=
    Walk.proceed_turns closed (by simpa [Frontier.ids] using inside) run
  exact ⟨turns, taken, by simpa using ended, heard⟩

/-- A walk of a checked flow panics at a node that does. -/
theorem walk_torn (checked : engine.check flow = .ok ()) (inside : entry ∈ flow.ids) {cause : Panic}
    (panics : Task.Panics (engine.walk (room + 1) flow entry appointed) ctx log cause) :
    ∃ turns last back, Walk.Torn flow (engine.nodeVisitor room flow) engine.config.maxExecutions cause
        ctx turns last back ∧
      log = turns.flatMap Turn.exchanges ++ back ∧ ∀ t ∈ turns.head?, t.visit.id = entry := by
  have closed := Flow.validate_closed (check_validate checked)
  obtain ⟨turns, back, taken, heard⟩ :=
    Walk.proceed_torn closed (by simpa [Frontier.ids] using inside) panics
  obtain ⟨last, torn⟩ := taken.torn_row
  exact ⟨turns, last, back, torn, heard, taken.entered⟩

/-- Whatever its nodes do but panic, a walk of a checked flow comes to its end. Its nodes ran one after
the other as its visits tell, and what ran is the closure of the entry under the children that nodes
keep. -/
theorem walk_closure (checked : engine.check flow = .ok ()) (inside : entry ∈ flow.ids)
    (run : Task.Runs (engine.walk (room + 1) flow entry appointed) ctx log result ctx') :
    ∃ turns, result = .ok ⟨turns.map Turn.visit⟩ ∧ log = turns.flatMap Turn.exchanges ∧
      Walk.Performed flow (engine.nodeVisitor room flow) engine.config.maxExecutions ctx turns ctx' ∧
      Walk.Closure flow engine.config.maxExecutions entry (turns.map Turn.visit) := by
  obtain ⟨turns, taken, ended, heard⟩ := walk_turns checked inside run
  have levelled := taken.levelled (Walk.reached_start flow _) (by simp)
  exact ⟨turns, ended, heard, taken.performed, levelled.closure taken.entered⟩

end Engine

/-! ### A flow that leads back -/

namespace Ring

/-- A node that sets no variable. -/
def node (id : String) : Node where
  id := id
  type := "variable_save"
  params := .ofFields [("variables", .empty)]

/-- A flow of two ways that meet and lead back to one of them. -/
def flow : Flow where
  code := "ring"
  nodes := { id := "start", type := "start", params := .ofFields [("branches", .arr [])] } ::
    ["a", "b", "c", "d"].map node
  edges := [{ source := "a", target := "b" }, { source := "a", target := "c" },
    { source := "b", target := "d" }, { source := "c", target := "d" },
    { source := "d", target := "b" }]

/-- An engine that lets five nodes run. -/
def engine : Engine := .standard { maxExecutions := 5 }

/-- The walk of the flow from where the ways part. -/
def walk : Program (Except Error Walk × Context) :=
  engine.walk 1 flow "a" none <| .start "r" flow <|
    .chatMessage { organization := "org", conversation := "conv" } "hello"

/-- Which nodes run on which levels. -/
def ran : List (Nat × String) :=
  match (walk.run {}).1 with
  | .ok (.ok walk, _) => walk.visits.map fun v => (v.level, v.id)
  | _ => []

end Ring

/-- Where the ways meet the node runs once, and the limit ends the walk when it comes round again. -/
theorem ring_closure :
    Ring.engine.check Ring.flow = .ok () ∧ "a" ∈ Ring.flow.ids ∧
      Ring.ran = [(0, "a"), (1, "b"), (1, "c"), (2, "d"), (3, "b"), (4, "d")] ∧
      ∃ turns ctx, (Ring.walk.run {}).1 = .ok (.ok ⟨turns.map Turn.visit⟩, ctx) ∧
        Ring.walk.heard {} = turns.flatMap Turn.exchanges ∧
        Walk.Performed Ring.flow (Ring.engine.nodeVisitor 0 Ring.flow) 5
          (.start "r" Ring.flow
            (.chatMessage { organization := "org", conversation := "conv" } "hello"))
          turns ctx ∧
        Walk.Closure Ring.flow 5 "a" (turns.map Turn.visit) := by
  have checked : Ring.engine.check Ring.flow = .ok () := rfl
  have inside : "a" ∈ Ring.flow.ids := by decide +kernel
  obtain ⟨⟨result, ctx⟩, ran, runs⟩ :=
    Program.exists_runs_heard (p := Ring.walk) (w := {}) (by decide +kernel)
  obtain ⟨turns, rfl, heard, performed, closure⟩ := Engine.walk_closure checked inside runs
  exact ⟨checked, inside, by decide +kernel, turns, ctx, ran, heard, performed, closure⟩

end Parley

import Parley.Engine.Config
import Parley.Runner.Builtin
import Parley.Run.Outcome
/-!
# The engine

The engine runs flows with the runners of a registry. A flow is checked before any of its nodes
runs. A node's inputs are resolved before its runner works, and its result goes into the context of
the run unless the node has failed or suspended the run. Walks nest: a loop walks its body and a
node can walk another flow, at most `deepest` levels down.
-/
namespace Parley

/-- Runners and settings. -/
structure Engine where
  registry : Registry Runner
  resolver : Resolver := Path.resolve
  config : EngineConfig := {}

/-- What became of a wait record that an event wanted to take up. -/
inductive Resumed
  | resumed (outcome : Outcome)
  /-- The record has expired, or another caller has taken it. -/
  | dropped

namespace Engine

/-- The engine with the node types of every engine. -/
def standard (config : EngineConfig) : Engine where
  registry := Runner.builtin config.fallback
  config := config

/-! ## Checking flows -/

/-- Refuses a node of an unknown type or without a parameter that its type requires. -/
def checkNode (engine : Engine) (node : Node) : Except Error Unit := do
  let r ← engine.registry.resolve node.type node.version
  match r.info.required.find? fun key => (node.params.field? key).isNone with
  | some key => .error (.invalid (.missingParameter node.id node.type key))
  | none => return ()

/-- Refuses the first node that `checkNode` refuses. -/
def checkNodes (engine : Engine) : List Node → Except Error Unit
  | [] => .ok ()
  | node :: rest => do
    engine.checkNode node
    engine.checkNodes rest

/-- Refuses a flow that cannot be run. -/
def check (engine : Engine) (flow : Flow) : Except Error Unit := do
  flow.validate
  engine.checkNodes flow.nodes

/-! ## Running nodes -/

/-- The value of a declared input of a node. One that is not required is null when its expression
leads nowhere. -/
def inputValue (resolver : Resolver) (ctx : Context) (id : String) (i : Input) :
    Except Error Json :=
  match resolver ctx i.expr.toList with
  | .ok v => .ok v
  | .error (.unresolved _) => if i.required then .error (.missingInput id i.name) else .ok .null
  | .error e => .error e

/-- The values of declared inputs put into a table one after the other. -/
def inputValues (resolver : Resolver) (ctx : Context) (id : String) :
    Keyed Json → List Input → Except Error (Keyed Json)
  | table, [] => .ok table
  | table, i :: rest => do
    let v ← inputValue resolver ctx id i
    inputValues resolver ctx id (Keyed.insert i.name v table) rest

/-- The context with the result of a node that has not suspended the run. -/
def recorded (s : NodeState) : NodeState :=
  if s.report.suspended then s
  else match s.report.result with
    | some v => { s with context := s.context.record s.report.id v }
    | none => s

/-- Runs a node: its inputs, its runner, its result. -/
def runNode (engine : Engine) (around : Surroundings) (flow : Flow) (depth : Nat) (first : Bool)
    (node : Node) (arrival : Arrival) : Task NodeState Unit := do
  let r ← Task.ofExcept (engine.registry.resolve node.type node.version)
  let inputs ← Task.ofExcept (inputValues engine.resolver (← get).context node.id [] node.inputs)
  r.runner around
    { flow, node, isFirst := first, inputs, parents := arrival.parents,
      appointed := arrival.appointed, maySuspend := depth == 0, depth }
  modify recorded

/-- Runs a node for a walk: the report and why the node failed. -/
def visitor (engine : Engine) (around : Surroundings) (flow : Flow) (depth : Nat) : Visitor :=
  fun first node arrival ctx => do
    let state : NodeState := { context := ctx, report := { id := node.id } }
    match ← engine.runNode around flow depth first node arrival state with
    | (.ok (), s) => return ((s.report, none), s.context)
    | (.error e, s) => return ((s.report, some e), s.context)

/-! ## Walking -/

/-- How many walks a walk can be nested in. -/
def deepest : Nat := 8

/-- Walks a flow from a node when `room` levels are left, this one included. -/
def walk (engine : Engine) : (room : Nat) → Flow → (entry : String) → (appointed : Option Trigger) →
    Task Context Walk
  | 0, _, entry, _ => throw (.invalid (.nesting deepest entry))
  | room + 1, flow, entry, appointed =>
    let around : Surroundings :=
      { resolver := engine.resolver, check := engine.check, nested := engine.walk room }
    Walk.run flow (engine.visitor around flow (deepest - room)) engine.config.maxExecutions entry
      appointed

/-- Walks a flow outside all other walks. -/
def topWalk (engine : Engine) (flow : Flow) (entry : String) : Task Context Walk :=
  engine.walk (deepest + 1) flow entry none

/-! ## Runs -/

/-- Walks a flow and tells how it ended. -/
def finish (engine : Engine) (flow : Flow) (entry : String) (ctx : Context) :
    Task Unit Outcome := do
  let (walk, ctx) ← Task.apart ctx (engine.topWalk flow entry)
  let status := Status.ofWalk walk
  Task.publish (status.event ctx.runId flow.code)
  return { run := ctx.runId, flow := flow.code, status, executed := walk.visits, context := ctx }

/-- Runs a flow from where it is entered. -/
def run (engine : Engine) (flow : Flow) (ctx : Context) : Task Unit Outcome := do
  Task.ofExcept (engine.check flow)
  let entry ← Task.ofExcept flow.requireEntry
  Task.publish (.started ctx.runId flow.code ctx.trigger)
  engine.finish flow entry.id ctx

/-- Runs a flow from any of its nodes. -/
def runFrom (engine : Engine) (flow : Flow) (entry : String) (ctx : Context) :
    Task Unit Outcome := do
  Task.ofExcept (engine.check flow)
  let _ ← Task.ofExcept (flow.require entry)
  engine.finish flow entry ctx

/-- Tells that a record could not be taken up. -/
def drop (record : Wait.Record) : Task Unit Resumed := do
  Task.publish (.resumeDropped record.conversation record.node)
  return .dropped

/-- Takes up a suspended run at the node where it waits. The record is taken out of the store before
any node runs, so of several events for one record at most one goes on. -/
def resume (engine : Engine) (record : Wait.Record) (event : Event) : Task Unit Resumed := do
  if record.isExpired (← Task.clock) then
    let _ ← Task.claim record
    drop record
  else
    let flow ← Task.load record.flowCode (some record.flowVersion)
    Task.ofExcept (engine.check flow)
    let _ ← Task.ofExcept (flow.require record.node)
    let ctx ← Task.ofExcept (Context.ofSnapshot record.snapshot)
    if ← Task.claim record then
      Task.publish (.resumed ctx.runId flow.code record.node)
      return .resumed (← engine.finish flow record.node (ctx.resumedBy event))
    else drop record

end Engine

end Parley

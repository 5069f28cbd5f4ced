import Parley.Runner.Basic
import Parley.Runner.Trigger
import Parley.Wait.Timeout
/-!
# Nodes that wait for a message

A node that is reached on the way saves a record of the run and suspends it. The node with which a
walk starts is one that has waited: it puts out the message and the run goes on.
-/
namespace Parley.Runner.WaitMessage
open Parley.Text

structure Params where
  timeout : Wait.Timeout

def Params.decoder : Decoder Params :=
  Record.decode "WaitParams" <|
    Params.mk <$> .withDefault "timeout" Wait.Timeout.decoder {}

/-- The second at which a wait ends that begins now. -/
def expiry (now : Instant) (timeout : Wait.Timeout) : Except Panic (Option Int) :=
  match timeout.seconds? with
  | some s => (addSigned64 now.seconds s).map some
  | none => .ok none

/-- The record of a run that waits at a node. -/
def record (id : String) (now : Instant) (timeout : Option Int) (node : String) (ctx : Context)
    (snapshot : String) : Wait.Record where
  id := id
  organization := ctx.scope.organization
  conversation := ctx.scope.conversation
  origin := ctx.scope.origin
  node := node
  flowCode := ctx.flowCode
  flowVersion := ctx.flowVersion
  creator := ctx.operator.uid
  timeout := timeout
  snapshot := snapshot
  createdAt := now

/-- The line about a wait in the log. -/
def waitLine : Option Int → String
  | some t => "waiting until " ++ toString t
  | none => "waiting without timeout"

/-- Saves a record of the run and suspends it. -/
def suspend (call : Call) : Task NodeState Unit := do
  if !call.maySuspend then throw (.cannotSuspend (.nested call.node.id))
  let params ← Task.ofExcept (parameters Params.decoder call)
  let now ← Task.clock
  let id ← Task.identifier
  let timeout ← Task.ofChecked (expiry now params.timeout)
  let (snapshot, ctx) := (← get).context.snapshot
  context fun _ => ctx
  let record := record id now timeout call.node.id ctx snapshot
  Task.save record
  report fun r => (r.addLine (waitLine record.timeout)).suspend

end WaitMessage

/-- Runs nodes that wait for a message. -/
def waitMessage : Runner := fun _ call => do
  if call.isFirst then
    let ctx := (← get).context
    report fun r => r.withResult (triggerOutput ctx ctx.trigger)
  else WaitMessage.suspend call

end Parley.Runner

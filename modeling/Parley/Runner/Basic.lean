import Parley.Run.Walk
import Parley.Expr.Param
/-!
# Runners

A runner does the work of the nodes of one type: from a call it makes the node's report, and may
write to the context of the run. What a runner needs besides its call are its surroundings.
-/
namespace Parley

/-- The run of one node. -/
structure Call where
  flow : Flow
  node : Node
  /-- The walk starts with this node. -/
  isFirst : Bool
  /-- The declared inputs under their names. -/
  inputs : Keyed Json
  parents : List Parent
  /-- The trigger that the node is told instead of the one of the run. -/
  appointed : Option Trigger
  /-- The run can be suspended here. -/
  maySuspend : Bool
  /-- How many walks this one is nested in. -/
  depth : Nat

/-- The targets of the edges that leave the node with a label. -/
def Call.branch (call : Call) (label : String) : List String :=
  call.flow.branchTargets call.node.id label

/-- What a runner can use. -/
structure Surroundings where
  /-- How expressions are resolved. -/
  resolver : Resolver
  /-- Refuses a flow that cannot be run. -/
  check : Flow → Except Error Unit
  /-- Walks a flow from a node within this one, where no run can be suspended. -/
  nested : Flow → (entry : String) → (appointed : Option Trigger) → Task Context Walk

/-- What a runner changes: the context of the run and the report of the node. -/
structure NodeState where
  context : Context
  report : Report

/-- The work of the nodes of one type. -/
abbrev Runner := Surroundings → Call → Task NodeState Unit

namespace Runner

def report (change : Report → Report) : Task NodeState Unit :=
  modify fun s => { s with report := change s.report }

def context (change : Context → Context) : Task NodeState Unit :=
  modify fun s => { s with context := change s.context }

/-- Reads the parameters of the node. -/
def parameters {α : Type} (decoder : Decoder α) (call : Call) : Except Error α :=
  match call.node.params.decode decoder with
  | .ok v => .ok v
  | .error e => .error (.invalid (.parameters call.node.id e))

def value (around : Surroundings) (ctx : Context) (param : Json) : Except Error Json :=
  Param.resolve around.resolver ctx param

/-- The values of parameters, in the order of their names. -/
def values (around : Surroundings) (ctx : Context) (params : Keyed Json) :
    Except Error (Keyed Json) :=
  Param.resolveFields around.resolver ctx params

/-- The line about a visit in the log of the node that walked. -/
def visitLine (place : String) (v : Visit) : String :=
  place ++ v.id ++ (if v.report.success then " ok" else " failed")

/-- Adds a line for each visit of a walk. -/
def logWalk (place : String) (walk : Walk) : Task NodeState Unit :=
  report fun r => walk.visits.foldl (fun r v => r.addLine (visitLine place v)) r

end Runner

end Parley

import Parley.Runner.Basic
/-!
# Nodes that call a flow

Another flow runs in a context of its own with the value of a parameter as its payload. The output
is that of the last end node that ran there.
-/
namespace Parley.Runner.SubFlow

structure Params where
  code : String
  version : Option String
  params : Json

def Params.decoder : Decoder Params :=
  Record.decode "SubFlowParams" <|
    Params.mk <$> .required "flow_code" .string
      <*> .optional "version" .string
      <*> .withDefault "params" .json .null

/-- The payload of the called flow. -/
def payload : Json → Json
  | .null => .empty
  | v => v

/-- The type of the nodes that put out a value for the caller. -/
def endType : String := "end"

/-- The output of the last end node that ran and has one. -/
def output (child : Context) (walk : Walk) : Json :=
  ((walk.visits.reverse.filter fun v => v.type == endType).findSome? fun v =>
    child.output? v.id).getD .empty

/-- The error of a called flow that did not run through. -/
def callError (id code : String) (walk : Walk) : Option Error :=
  match walk.failed, walk.suspendedAt with
  | some (place, reason), _ => some (.nodeFailed id (.subFlow code place reason))
  | none, some place => some (.cannotSuspend (.subFlow code place))
  | none, none => none

end SubFlow

/-- Runs nodes that call a flow. -/
def subFlow : Runner := fun around call => do
  let params ← Task.ofExcept (parameters SubFlow.Params.decoder call)
  let flow ← Task.load params.code params.version
  Task.ofExcept (around.check flow)
  let entry ← Task.ofExcept flow.requireEntry
  let ctx := (← get).context
  let argument ← Task.ofExcept (value around ctx params.params)
  let (walk, child) ← Task.apart (ctx.forSubFlow flow (SubFlow.payload argument))
    (around.nested flow entry.id none)
  logWalk (flow.code ++ "/") walk
  match SubFlow.callError call.node.id flow.code walk with
  | some e => throw e
  | none => report fun r => r.withResult (SubFlow.output child walk)

end Parley.Runner

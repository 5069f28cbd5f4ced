import Parley.Runner.Basic
import Parley.Runner.Trigger
/-!
# Start nodes

A start node follows its first branch that subscribes to the trigger, and ends the walk quietly when
there is none. In the body of a loop it puts out the item and the index of the iteration.
-/
namespace Parley.Runner.Start

/-- A branch: the trigger it subscribes to and the label of its edges. -/
structure Branch where
  label : String
  trigger : Trigger
  /-- The fields that the payload must have. -/
  required : List String := []

def Branch.decoder : Decoder Branch :=
  Record.decode "TriggerBranch" <|
    Branch.mk <$> .required "branch_id" .string
      <*> .required "trigger_type" Trigger.decoder
      <*> .withDefault "required_params" (.list .string) []

structure Params where
  branches : List Branch

def Params.decoder : Decoder Params :=
  Record.decode "StartParams" <|
    Params.mk <$> .withDefault "branches" (.list Branch.decoder) []

/-- The output in the body of a loop: that of the loop, which is its current iteration. -/
def iterationOutput (ctx : Context) (node : Node) : Json :=
  let iteration := match node.parent.bind ctx.output? with
    | some (.obj fields) => fields
    | _ => []
  .obj (Keyed.insert "trigger_type" Trigger.loopStart.toJson iteration)

def output (ctx : Context) (node : Node) (trigger : Trigger) : Json :=
  if trigger = .loopStart then iterationOutput ctx node else triggerOutput ctx trigger

/-- The first field of some that a payload does not have. -/
def missing (payload : Json) (required : List String) : Option String :=
  required.find? fun key => (payload.field? key).isNone

/-- What a start node leaves behind. -/
def execute (params : Params) (ctx : Context) (call : Call) (r : Report) : Except Error Report :=
  let trigger := call.appointed.getD ctx.trigger
  match params.branches.find? fun b => b.trigger = trigger with
  | none =>
    .ok (((r.addLine ("no branch for " ++ trigger.name)).withResult
      (.ofFields [("trigger_type", trigger.toJson)])).prune)
  | some branch =>
    match missing ctx.payload branch.required with
    | some key => .error (.missingInput call.node.id key)
    | none => .ok ((r.withResult (output ctx call.node trigger)).keep (call.branch branch.label))

end Start

def start : Runner := fun _ call => do
  let params ← Task.ofExcept (parameters Start.Params.decoder call)
  let s ← get
  let r ← Task.ofExcept (Start.execute params s.context call s.report)
  report fun _ => r

end Parley.Runner

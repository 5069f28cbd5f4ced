import Parley.Trigger
import Parley.Flow.Basic
/-!
# The context of a run

What a run remembers from node to node: what started it, the outputs of its nodes and its variables.
A suspended run keeps its context as a text, its snapshot. The text is kept with the context until
the next write, so a context that was read from a text and not written to gives back that text.
-/
namespace Parley

/-- The state of a run. -/
structure Context where
  runId : String
  flowCode : String
  flowVersion : String
  trigger : Trigger
  payload : Json
  operator : Operator
  scope : Scope
  /-- The output of each node that has one. -/
  outputs : Keyed Json
  /-- The values of the variables. -/
  values : Keyed Json
  /-- The text of the fields above, as long as nothing has been written since it was made. -/
  cached : Option String

namespace Context

/-! ## Making contexts -/

/-- The context of a new run of a flow. -/
def start (runId : String) (flow : Flow) (event : Event) : Context where
  runId := runId
  flowCode := flow.code
  flowVersion := flow.version
  trigger := event.trigger
  payload := event.payload
  operator := event.operator
  scope := event.scope
  outputs := []
  values := flow.firstValues
  cached := none

/-- The context of a flow that runs inside this one: run, operator and scope are the same, all else
is new. -/
def forSubFlow (ctx : Context) (flow : Flow) (payload : Json) : Context where
  runId := ctx.runId
  flowCode := flow.code
  flowVersion := flow.version
  trigger := .paramCall
  payload := payload
  operator := ctx.operator
  scope := ctx.scope
  outputs := []
  values := flow.firstValues
  cached := none

/-! ## Reading and writing -/

def output? (ctx : Context) (id : String) : Option Json :=
  Keyed.get? id ctx.outputs

def variableValue? (ctx : Context) (name : String) : Option Json :=
  Keyed.get? name ctx.values

/-- The context with the output of a node, in place of any it had. -/
def record (ctx : Context) (id : String) (value : Json) : Context :=
  { ctx with outputs := Keyed.insert id value ctx.outputs, cached := none }

/-- The context with the value of a variable, in place of any it had. -/
def setVariable (ctx : Context) (name : String) (value : Json) : Context :=
  { ctx with values := Keyed.insert name value ctx.values, cached := none }

/-- The context of a run that an event resumes. -/
def resumedBy (ctx : Context) (event : Event) : Context :=
  { ctx with trigger := event.trigger, payload := event.payload, cached := none }

/-! ## Snapshots -/

/-- The fields under their names, in the order in which they are written. -/
def fields (ctx : Context) : List (String × Json) :=
  [("run_id", .str ctx.runId), ("flow_code", .str ctx.flowCode),
    ("flow_version", .str ctx.flowVersion), ("trigger_type", ctx.trigger.toJson),
    ("trigger_payload", ctx.payload), ("operator", ctx.operator.toJson),
    ("scope", ctx.scope.toJson), ("node_context", .obj ctx.outputs),
    ("variables", .obj ctx.values)]

def toJson (ctx : Context) : Json :=
  .ofFields ctx.fields

def serialize (ctx : Context) : String :=
  (Json.obj ctx.fields).text

/-- The text of a context, and the context that keeps it. -/
def snapshot (ctx : Context) : String × Context :=
  match ctx.cached with
  | some text => (text, ctx)
  | none => (ctx.serialize, { ctx with cached := some ctx.serialize })

def decoder : Decoder Context :=
  Record.decode "ExecutionContext" <|
    (fun runId flowCode flowVersion trigger payload operator scope outputs values =>
      { runId, flowCode, flowVersion, trigger, payload, operator, scope, outputs, values,
        cached := none : Context })
      <$> .required "run_id" .string
      <*> .required "flow_code" .string
      <*> .required "flow_version" .string
      <*> .required "trigger_type" Trigger.decoder
      <*> .withDefault "trigger_payload" .json .null
      <*> .withDefault "operator" Operator.decoder {}
      <*> .required "scope" Scope.decoder
      <*> .withDefault "node_context" (.table .json) []
      <*> .withDefault "variables" (.table .json) []

/-- The context that a snapshot holds; it keeps the text. -/
def ofSnapshot (text : String) : Except Error Context :=
  match decoder.ofText text with
  | .ok ctx => .ok { ctx with cached := some text }
  | .error e => .error (.json e)

end Context

end Parley

import Parley.Runner.Builtin
/-!
# Probes

Node types for trying out an engine: they show what a node is told, and fail, suspend or choose
children at will.
-/
namespace Parley.Simulation

/-- Puts out the id of the node. -/
def echo : Runner := fun _ call =>
  Runner.report fun r => r.withResult (.ofFields [("n", .str call.node.id)])

def boom : Runner := fun _ call =>
  throw (.nodeFailed call.node.id (.other "boom"))

/-- Keeps the children that its parameter names. -/
def pick : Runner := fun _ call => do
  let keep ← match ((call.node.params.field? "keep").getD .null).decode (.list .string) with
    | .ok ids => pure ids
    | .error e => throw (.json e)
  Runner.report fun r => (r.keep keep).withResult (.ofFields [("kept", .ofStrings keep)])

def silent : Runner := fun _ _ => return ()

/-- Suspends the run and leaves nothing to take it up with. -/
def suspender : Runner := fun _ call =>
  Runner.report fun r => (r.withResult (.ofFields [("lost", .str call.node.id)])).suspend

def told (ctx : Context) (call : Call) : Json :=
  .ofFields
    [("mode", .str (if call.isFirst then "entry" else "forward")),
      ("inputs", .obj call.inputs),
      ("parents", .arr (call.parents.map fun p => .arr [.str p.id, .ofOption p.result])),
      ("appoint", .ofOption (call.appointed.map Trigger.toJson)),
      ("allow_suspend", .bool call.maySuspend),
      ("depth", .ofNat call.depth),
      ("trigger", ctx.trigger.toJson),
      ("flow", .str call.flow.code)]

/-- Puts out what it is told. -/
def probe : Runner := fun _ call => do
  let ctx := (← get).context
  Runner.report fun r => (r.addLine "probed").withResult (told ctx call)

def probes : List (Registration Runner) :=
  [Runner.firstVersion "echo" echo { description := "" },
    Runner.firstVersion "boom" boom { description := "" },
    Runner.firstVersion "pick" pick { description := "" },
    Runner.firstVersion "silent" silent { description := "" },
    Runner.firstVersion "suspender" suspender { description := "" },
    Runner.firstVersion "probe" probe { description := "" },
    { Runner.firstVersion "probe" silent { description := "" } with version := "v3" }]

/-- A registry with the probes beside the node types of every engine. -/
def registry (fallback : Bool) : Registry Runner :=
  probes.foldl Registry.register (Runner.builtin fallback)

end Parley.Simulation

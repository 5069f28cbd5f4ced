import Parley.Run.Walk
/-!
# Outcomes

What a run, or the continuation of a suspended one, has come to.
-/
namespace Parley

/-- How a run ended. A failed node counts before a suspended one. -/
inductive Status
  | completed
  | suspended (node : String)
  | failed (node reason : String)
deriving DecidableEq

namespace Status

def ofWalk (walk : Walk) : Status :=
  match walk.failed, walk.suspendedAt with
  | some (node, reason), _ => .failed node reason
  | none, some node => .suspended node
  | none, none => .completed

/-- The event that tells of the end of a run. -/
def event (run flow : String) : Status → RunEvent
  | .completed => .completed run flow
  | .suspended node => .suspended run flow node
  | .failed node reason => .failed run flow node reason

/-- The fields that tell of the end of a run. -/
def fields : Status → List (String × Json)
  | .completed => [("status", .str "completed")]
  | .suspended node => [("status", .str "suspended"), ("node_id", .str node)]
  | .failed node reason =>
    [("status", .str "failed"), ("node_id", .str node), ("reason", .str reason)]

end Status

/-- A visit as a value. The clock of a run stands still while a node runs. -/
def Visit.toJson (v : Visit) : Json :=
  .ofFields <|
    [("node_id", .str v.id), ("node_type", .str v.type), ("success", .bool v.report.success),
        ("elapsed_ms", .ofNat 0)]
      ++ if v.report.log.isEmpty then [] else [("debug_log", .ofStrings v.report.log)]

/-- What a run has come to. -/
structure Outcome where
  run : String
  flow : String
  status : Status
  /-- The nodes that have run, in order. -/
  executed : List Visit
  context : Context

def Outcome.toJson (o : Outcome) : Json :=
  .ofFields <|
    [("run_id", .str o.run), ("flow_code", .str o.flow)] ++ o.status.fields
      ++ [("executed", .arr (o.executed.map Visit.toJson)), ("context", o.context.toJson)]

end Parley

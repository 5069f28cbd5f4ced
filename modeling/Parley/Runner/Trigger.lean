import Parley.Context
/-!
# The output of a node that takes a trigger

The fields of the payload, and over them what identifies the run: no payload can put its own values
in their place. Where a run has no topic, or goes on for nobody, there is nothing to put over them.
-/
namespace Parley.Runner

/-- The fields of a payload. A payload that is no object is one field of its own. -/
def payloadFields : Json → Keyed Json
  | .obj fields => fields
  | .null => []
  | other => [("payload", other)]

/-- On whose behalf the run goes on, if anyone's. -/
def operatorFields (o : Operator) : List (String × Json) :=
  if o.uid.isEmpty then []
  else [("operator", .ofFields [("uid", .str o.uid), ("nickname", .str o.nickname)])]

/-- The fields that identify a run. -/
def identityFields (ctx : Context) (trigger : Trigger) : List (String × Json) :=
  [("trigger_type", trigger.toJson), ("organization_code", .str ctx.scope.organization),
      ("conversation_id", .str ctx.scope.conversation)]
    ++ (match ctx.scope.topic with
      | some topic => [("topic_id", .str topic)]
      | none => [])
    ++ operatorFields ctx.operator

/-- The output of a node that takes a trigger. -/
def triggerOutput (ctx : Context) (trigger : Trigger) : Json :=
  .obj (Keyed.insertAll (payloadFields ctx.payload) (identityFields ctx trigger))

end Parley.Runner

import Parley.Registry
import Parley.Runner.Start
import Parley.Runner.WaitMessage
import Parley.Runner.IfElse
import Parley.Runner.Loop
import Parley.Runner.SubFlow
import Parley.Runner.Finish
import Parley.Runner.Code
import Parley.Runner.Reply
import Parley.Runner.SetVariables
/-!
# The node types of every engine
-/
namespace Parley.Runner

/-- The first version of a node type. -/
def firstVersion (type : String) (runner : Runner) (info : NodeMeta) : Registration Runner :=
  { type, version := "v0", info, runner }

/-- The node types of every engine. -/
def builtins : List (Registration Runner) :=
  [firstVersion Node.startType start
      { description := "Selects the branch matching the trigger type", required := ["branches"],
        outputs := ["trigger_type", "conversation_id", "organization_code"] },
    firstVersion "wait_message" waitMessage
      { description := "Suspends the run until the next chat message",
        outputs := ["trigger_type", "message"] },
    firstVersion "if_else" ifElse
      { description := "Follows the first branch whose conditions hold", required := ["branches"],
        outputs := ["branch_id"], debuggable := true },
    firstVersion "loop" loop
      { description := "Walks the loop body once per item", outputs := ["iterations"] },
    firstVersion "sub_flow" subFlow
      { description := "Runs another flow and returns its end output", required := ["flow_code"] },
    firstVersion SubFlow.endType finish
      { description := "Terminates the branch with the resolved outputs", debuggable := true },
    firstVersion "code" code
      { description := "Runs a snippet in the external sandbox", required := ["code"],
        debuggable := true },
    firstVersion "reply_message" reply
      { description := "Sends a message to the run's conversation", required := ["content"],
        outputs := ["content"] },
    firstVersion "variable_save" setVariables
      { description := "Assigns run-scoped global variables", required := ["variables"],
        debuggable := true }]

/-- The registry of these node types. -/
def builtin (fallback : Bool) : Registry Runner :=
  builtins.foldl Registry.register { fallback }

end Parley.Runner

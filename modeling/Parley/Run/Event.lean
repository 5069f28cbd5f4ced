import Parley.Trigger
/-!
# Events of runs

What is published while runs go on: how a run starts, suspends, goes on and ends, each node that has
run, and what became of wait records that no run took up again.
-/
namespace Parley

/-- An event of a run or of a wait record. -/
inductive RunEvent
  | started (run flow : String) (trigger : Trigger)
  | resumed (run flow node : String)
  | nodeFinished (run node type : String) (success : Bool)
  | suspended (run flow node : String)
  | completed (run flow : String)
  | failed (run flow node reason : String)
  /-- A record has expired and was removed. -/
  | waitExpired (conversation node flow : String)
  /-- An event came for a record that could no longer be taken. -/
  | resumeDropped (conversation node : String)
deriving DecidableEq

/-- The run that an event belongs to. -/
def RunEvent.run? : RunEvent → Option String
  | .started run .. | .resumed run .. | .nodeFinished run .. | .suspended run .. | .completed run ..
  | .failed run .. => some run
  | .waitExpired .. | .resumeDropped .. => none

/-- The run comes to its end, well or badly. -/
def RunEvent.isEnd : RunEvent → Bool
  | .completed .. | .failed .. => true
  | _ => false

/-- An event as a list: its name, and then what it tells. -/
def RunEvent.toJson : RunEvent → Json
  | .started run flow trigger => .arr [.str "RunStarted", .str run, .str flow, trigger.toJson]
  | .resumed run flow node => .ofStrings ["RunResumed", run, flow, node]
  | .nodeFinished run node type success =>
    .arr [.str "NodeFinished", .str run, .str node, .str type, .bool success]
  | .suspended run flow node => .ofStrings ["RunSuspended", run, flow, node]
  | .completed run flow => .ofStrings ["RunCompleted", run, flow]
  | .failed run flow node reason => .ofStrings ["RunFailed", run, flow, node, reason]
  | .waitExpired conversation node flow => .ofStrings ["WaitExpired", conversation, node, flow]
  | .resumeDropped conversation node => .ofStrings ["ResumeDropped", conversation, node]

end Parley

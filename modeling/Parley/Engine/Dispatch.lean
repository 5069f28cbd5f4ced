import Parley.Engine.Basic
/-!
# Dispatching events

A chat message in a conversation where a run waits takes up that run; every other event starts a run
of the flow that it names.
-/
namespace Parley

/-- What became of an event. -/
inductive Dispatched
  | ran (outcome : Outcome)
  | resumed (outcome : Outcome)
  /-- Another caller has taken the run that waited. -/
  | dropped

/-- The outcome of the run that an event led to. -/
def Dispatched.outcome? : Dispatched → Option Outcome
  | .ran o | .resumed o => some o
  | .dropped => none

namespace Engine

/-- Starts a run of a flow. -/
def startRun (engine : Engine) (code : String) (version : Option String) (event : Event) :
    Task Unit Dispatched := do
  let flow ← Task.load code version
  let ctx := Context.start (← Task.identifier) flow event
  return .ran (← engine.run flow ctx)

/-- The run that an event can take up. -/
def waiting (event : Event) : Task Unit (Option Wait.Record) :=
  if event.trigger = .chatMessage then Task.find event.scope else return none

/-- Dispatches an event that names a flow. -/
def dispatch (engine : Engine) (code : String) (version : Option String) (event : Event) :
    Task Unit Dispatched := do
  match ← waiting event with
  | some record =>
    match ← engine.resume record event with
    | .resumed outcome => return .resumed outcome
    | .dropped => return .dropped
  | none => engine.startRun code version event

end Engine

end Parley

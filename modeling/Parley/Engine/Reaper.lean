import Parley.Run.Task
/-!
# Reaping

Wait records that have expired are removed from time to time. A run that was removed cannot be taken
up again; a late answer starts a run of its own.
-/
namespace Parley.Reaper

/-- The event that tells that a record was removed. -/
def event (record : Wait.Record) : RunEvent :=
  .waitExpired record.conversation record.node record.flowCode

def announce : List Wait.Record → Task Unit Unit
  | [] => return ()
  | record :: rest => do
    Task.publish (event record)
    announce rest

/-- Removes all records that have expired. -/
def once : Task Unit (List Wait.Record) := do
  let now ← Task.clock
  let reaped ← Task.reap now
  announce reaped
  return reaped

/-- Removes what has expired a number of times, whatever comes of it. -/
def times : (n : Nat) → Task Unit Unit
  | 0 => return ()
  | n + 1 => do
    tryCatch (do let _ ← once) fun _ => return ()
    times n

/-- How often a reaper that sleeps for `interval` seconds between its turns has worked when a time
has passed since its start. -/
def turns (interval milliseconds : Nat) : Nat :=
  milliseconds / (interval * 1000)

/-- A reaper that sleeps for `interval` seconds between its turns, and the milliseconds since it
started. -/
structure Watch where
  interval : Nat
  passed : Nat := 0
  running : Bool := true
deriving DecidableEq

/-- Lets time pass beside a reaper, with the turns that fall into it. -/
def Watch.sleep (watch : Watch) (milliseconds : Nat) : Task Unit Watch := do
  let passed := watch.passed + milliseconds
  if watch.running then
    times (turns watch.interval passed - turns watch.interval watch.passed)
  return { watch with passed }

end Parley.Reaper

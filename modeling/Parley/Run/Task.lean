import Parley.Run.Program
/-!
# Tasks

A task is a program that changes a state and may fail; what it has changed stays changed when it
fails. A task that panics leaves neither a value nor a state.
-/
namespace Parley

/-- A program over a state that ends with a value or an error. -/
abbrev Task (σ α : Type) := ExceptT Error (StateT σ Program) α

namespace Task
variable {σ τ α : Type}

/-- Asks for something that cannot fail. -/
def ask (r : Request) : Task σ r.Answer :=
  (liftM (Program.request r) : StateT σ Program r.Answer)

def ofExcept : Except Error α → Task σ α
  | .ok value => pure value
  | .error e => throw e

def panic (cause : Panic) : Task σ α := fun _ => .panic cause

/-- Goes on with the outcome of a step that may panic. -/
def ofChecked : Except Panic α → Task σ α
  | .ok value => pure value
  | .error cause => panic cause

def save (record : Wait.Record) : Task σ Unit := do ofExcept (← ask (.save record))

/-- Finds the newest record of a conversation that has not expired. -/
def find (scope : Scope) : Task σ (Option Wait.Record) := do ofExcept (← ask (.find scope))

/-- Takes a record out of the store and tells whether it was there. -/
def claim (record : Wait.Record) : Task σ Bool := do ofExcept (← ask (.claim record))

/-- Lists the records of a conversation, the newest first. -/
def list (scope : Scope) : Task σ (List Wait.Record) := do ofExcept (← ask (.list scope))

/-- Takes out all records that have expired at an instant. -/
def reap (now : Instant) : Task σ (List Wait.Record) := do ofExcept (← ask (.reap now))

def clock : Task σ Instant := ask .clock

def sleep (wake : Instant) : Task σ Unit := ask (.sleep wake)

def load (code : String) (version : Option String) : Task σ Flow := do
  ofExcept (← ask (.load code version))

def identifier : Task σ String := ask .identifier

def publish (event : RunEvent) : Task σ Unit := ask (.publish event)

def send (scope : Scope) (content : String) : Task σ Unit := do
  ofExcept (← ask (.send scope content))

/-- Runs a task on a part of the state. -/
def within (get : τ → σ) (set : σ → τ → τ) (task : Task σ α) : Task τ α :=
  fun state => do
    let (result, part) ← task (get state)
    return (result, set part state)

/-- Runs a task on a state of its own, and gives back what became of that state. -/
def apart (state : σ) (task : Task σ α) : Task τ (α × σ) :=
  fun outer => do
    match ← task state with
    | (.ok value, inner) => return (.ok (value, inner), outer)
    | (.error e, _) => return (.error e, outer)

end Task

end Parley

import Parley.Panic
import Parley.Run.Event
import Parley.Wait.Record
import Parley.Flow.Basic
/-!
# Programs

A program asks its surroundings for one thing at a time and goes on with the answer. What a run does
is a program: whoever answers the requests decides what the store, the clock and the other
collaborators are, and may let several programs take turns between requests. A program that panics
stops where it is: it has no value, and whoever waits for one is told nothing.
-/
namespace Parley

/-- What a program can ask for. -/
inductive Request
  /-- Save a wait record. -/
  | save (record : Wait.Record)
  /-- Find the newest record of a conversation that has not expired. -/
  | find (scope : Scope)
  /-- Take a record out of the store. -/
  | claim (record : Wait.Record)
  /-- List the records of a conversation. -/
  | list (scope : Scope)
  /-- Take out all records that have expired at an instant. -/
  | reap (now : Instant)
  /-- Tell the time. -/
  | clock
  /-- Wait until an instant. -/
  | sleep (wake : Instant)
  /-- Load a flow, the latest of its code when no version is given. -/
  | load (code : String) (version : Option String)
  /-- Make an identifier that was not made before. -/
  | identifier
  /-- Publish an event. -/
  | publish (event : RunEvent)
  /-- Send a message to a conversation. -/
  | send (scope : Scope) (content : String)
  /-- Run a piece of code, when there is something that runs code. -/
  | execute (language code : String) (inputs : Json)

/-- What is answered to a request. -/
@[reducible] def Request.Answer : Request → Type
  | .save _ => Except Error Unit
  | .find _ => Except Error (Option Wait.Record)
  | .claim _ => Except Error Bool
  | .list _ => Except Error (List Wait.Record)
  | .reap _ => Except Error (List Wait.Record)
  | .clock => Instant
  | .sleep _ => Unit
  | .load .. => Except Error Flow
  | .identifier => String
  | .publish _ => Unit
  | .send .. => Except Error Unit
  | .execute .. => Option (Except Error Json)

/-- A program that ends with a value or panics. -/
inductive Program (α : Type)
  | done (value : α)
  | panic (cause : Panic)
  | ask (request : Request) (next : request.Answer → Program α)

namespace Program
variable {α β γ : Type}

/-- Goes on with the value of a program. Nothing goes on behind a panic. -/
def bind : Program α → (α → Program β) → Program β
  | .done value, next => next value
  | .panic cause, _ => .panic cause
  | .ask request rest, next => .ask request fun answer => (rest answer).bind next

instance : Monad Program where
  pure := .done
  bind := bind

def request (r : Request) : Program r.Answer := .ask r .done

theorem bind_done (p : Program α) : p.bind .done = p := by
  induction p with
  | done value => rfl
  | panic cause => rfl
  | ask request next ih => simp only [bind, ih]

theorem bind_assoc (p : Program α) (f : α → Program β) (g : β → Program γ) :
    (p.bind f).bind g = p.bind fun value => (f value).bind g := by
  induction p with
  | done value => rfl
  | panic cause => rfl
  | ask request next ih => simp only [bind, ih]

instance : LawfulMonad Program :=
  LawfulMonad.mk' Program bind_done (fun _ _ => rfl) bind_assoc

end Program

end Parley

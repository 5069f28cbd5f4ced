import Parley.Run.Program
import Parley.Wait.Store
import Parley.Catalog.Basic
import Parley.Identifier
import Parley.Bus
/-!
# Worlds

A world answers the requests of programs: it holds the store of wait records, the time, the catalog
of flows, the bus and the messages that were sent. What can go wrong with a collaborator is part of
the world, too.
-/
namespace Parley

/-- What runs pieces of code: from a language, a code and inputs to a value. -/
abbrev CodeExecutor := String → String → Json → Except Error Json

/-- What becomes of messages. -/
inductive Outbound
  /-- They are kept in the world. -/
  | keep
  /-- They are refused. -/
  | refuse
  /-- They leave the world. -/
  | pass
deriving DecidableEq

/-- The calls of a store that can fail. -/
inductive StoreCall
  | save
  | find
  | claim
  | reap
deriving DecidableEq

def StoreCall.name : StoreCall → String
  | .save => "save"
  | .find => "find"
  | .claim => "claim"
  | .reap => "reap"

/-- The collaborators of runs and their state. -/
structure World where
  store : Wait.Store := .inMemory
  clock : Instant := default
  catalog : Catalog := {}
  /-- The number of the next identifier. -/
  serial : Nat := 1
  bus : Bus RunEvent := .withRoom 256
  /-- The messages kept, the last one first. -/
  sent : List (Scope × String) := []
  outbound : Outbound := .pass
  executor : Option CodeExecutor := none
  /-- The calls of the store that fail. -/
  failing : List StoreCall := []
  /-- The store answers, but it cannot be changed. -/
  frozen : Bool := false
  /-- Whoever finds a record finds that another caller takes it first. -/
  thief : Bool := false

namespace World

/-- Why a call of the store fails. A store that cannot be changed refuses all but looking. -/
def failure? (w : World) (call : StoreCall) : Option Error :=
  if w.failing.contains call then some (.database (call.name ++ " unavailable"))
  else if w.frozen ∧ call ≠ .find then some Error.readOnly
  else none

/-- Answers a call of the store unless it fails. -/
def guarded {α : Type} (w : World) (call : StoreCall) (answer : α × World) :
    Except Error α × World :=
  match w.failure? call with
  | some e => (.error e, w)
  | none => (.ok answer.1, answer.2)

def save (w : World) (r : Wait.Record) : Unit × World :=
  ((), { w with store := w.store.save r })

/-- Finds a record of a conversation. -/
def find (w : World) (scope : Scope) : Option Wait.Record × World :=
  match w.store.find w.clock scope with
  | none => (none, w)
  | some r => (some r, if w.thief then { w with store := (w.store.claim r).2 } else w)

/-- Takes a record out of the store. -/
def claim (w : World) (r : Wait.Record) : Bool × World :=
  match w.store.claim r with
  | (won, store) => (won, { w with store })

/-- Takes out the records that have expired. -/
def reap (w : World) (now : Instant) : List Wait.Record × World :=
  match w.store.reap now with
  | (reaped, store) => (reaped, { w with store })

def send (w : World) (scope : Scope) (content : String) : Except Error Unit × World :=
  match w.outbound with
  | .keep => (.ok (), { w with sent := (scope, content) :: w.sent })
  | .refuse => (.error (.undelivered "sink unavailable"), w)
  | .pass => (.ok (), w)

def answer (w : World) : (r : Request) → r.Answer × World
  | .save record => w.guarded .save (w.save record)
  | .find scope => w.guarded .find (w.find scope)
  | .claim record => w.guarded .claim (w.claim record)
  | .list scope => (.ok (w.store.list scope), w)
  | .reap now => w.guarded .reap (w.reap now)
  | .clock => (w.clock, w)
  | .sleep wake => ((), { w with clock := if Instant.before w.clock wake then wake else w.clock })
  | .load code version => (w.catalog.load code version, w)
  | .identifier => (Identifier.ofNumber w.serial, { w with serial := w.serial + 1 })
  | .publish event => ((), { w with bus := w.bus.publish event })
  | .send scope content => w.send scope content
  | .execute language code inputs => (w.executor.map fun run => run language code inputs, w)

end World

/-- Runs a program in a world that answers every request at once: how it ends, and what becomes of the
world. -/
def Program.run {α : Type} : Program α → World → Except Panic α × World
  | .done value, w => (.ok value, w)
  | .panic cause, w => (.error cause, w)
  | .ask request next, w =>
    match w.answer request with
    | (answer, w) => (next answer).run w

end Parley

import Parley.Wait.Ledger
import Parley.Wait.Table
/-!
# Stores of wait records

A store is a ledger in memory or a table that can be kept. Both answer the same calls, and in what
they answer they differ by the part of a second at which a record was made.
-/
namespace Parley.Wait

/-- A store of wait records. -/
inductive Store
  | ledger (l : Ledger)
  | table (t : Table)

namespace Store

/-- The store in memory without records. -/
def inMemory : Store := .ledger {}

/-- Saves a record in place of the one that waits at its place. -/
def save (r : Record) : Store → Store
  | .ledger l => .ledger (l.save r)
  | .table t => .table (t.save r)

/-- The newest record of a conversation that has not expired. -/
def find (now : Instant) (scope : Scope) : Store → Option Record
  | .ledger l => l.find now scope
  | .table t => t.find now scope

/-- Takes a record out and tells whether it was there. -/
def claim (r : Record) : Store → Bool × Store
  | .ledger l => match l.claim r with | (won, l) => (won, .ledger l)
  | .table t => match t.claim r with | (won, t) => (won, .table t)

/-- The records of a conversation, the newest first. -/
def list (scope : Scope) : Store → List Record
  | .ledger l => l.list scope
  | .table t => t.list scope

/-- Takes out all that has expired, in the order of expiry. -/
def reap (now : Instant) : Store → List Record × Store
  | .ledger l => match l.reap now with | (reaped, l) => (reaped, .ledger l)
  | .table t => match t.reap now with | (reaped, t) => (reaped, .table t)

def records : Store → List Record
  | .ledger l => l.held.map Held.record
  | .table t => t.rows.map Row.record

end Store

end Parley.Wait

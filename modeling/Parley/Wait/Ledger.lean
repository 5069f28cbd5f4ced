import Parley.Wait.Record
import Parley.Sort
/-!
# Wait records in memory

A ledger numbers what is saved. At most one record waits at a place; among the records of a
conversation the newest is the one made last, and of several made at one instant the one with the
greatest number.
-/
namespace Parley.Wait

/-- A record and the number under which it was saved. -/
structure Held where
  number : Nat
  record : Record

/-- Wait records in memory. -/
structure Ledger where
  /-- How many records have been saved so far. -/
  saves : Nat := 0
  held : List Held := []

namespace Ledger

/-- The first record was made after the second, or saved after it when made at the same instant. -/
def newer (a b : Held) : Bool :=
  Instant.before b.record.createdAt a.record.createdAt ||
    (a.record.createdAt == b.record.createdAt && decide (b.number < a.number))

/-- Saves a record in place of the one that waits at its place. -/
def save (ledger : Ledger) (r : Record) : Ledger where
  saves := ledger.saves + 1
  held := ledger.held.filter (fun h => h.record.key ≠ r.key) ++ [⟨ledger.saves + 1, r⟩]

/-- The records of a conversation, the newest first. -/
def list (ledger : Ledger) (scope : Scope) : List Record :=
  (Sort.sort newer (ledger.held.filter fun h => h.record.inScope scope)).map Held.record

/-- The newest record of a conversation that has not expired. -/
def find (ledger : Ledger) (now : Instant) (scope : Scope) : Option Record :=
  (ledger.list scope).find? fun r => !r.isExpired now

/-- Takes a record out. Of several callers with the same record one gets it. -/
def claim (ledger : Ledger) (r : Record) : Bool × Ledger :=
  match ledger.held.find? fun h => h.record.key = r.key with
  | some h =>
    if h.record.id = r.id then
      (true, { ledger with held := ledger.held.filter fun h => h.record.key ≠ r.key })
    else (false, ledger)
  | none => (false, ledger)

/-- Takes out all that has expired, in the order of expiry. -/
def reap (ledger : Ledger) (now : Instant) : List Record × Ledger :=
  (Sort.sort Record.expiresBefore
      ((ledger.held.filter fun h => h.record.isExpired now).map Held.record),
    { ledger with held := ledger.held.filter fun h => !h.record.isExpired now })

end Ledger

end Parley.Wait

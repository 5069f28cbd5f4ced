import Parley.Wait.Record
import Parley.Sort
/-!
# Wait records in a table

A table keeps records as rows. A row is numbered above all rows that are there when it is put in, so
a number can come again once its row is gone. Of the instant at which a record was made a row keeps
the whole second.
-/
namespace Parley.Wait

/-- A row: its number and the record with the second in which it was made. -/
structure Row where
  number : Nat
  record : Record

/-- Wait records in a table. -/
structure Table where
  rows : List Row := []

namespace Table

/-- The record as a row keeps it. -/
def rounded (r : Record) : Record :=
  { r with createdAt := .ofSeconds r.createdAt.seconds }

/-- The number of the next row. -/
def nextNumber (table : Table) : Nat :=
  (table.rows.map Row.number).foldl max 0 + 1

/-- The first row was made in a later second than the second row, or put in after it. -/
def newer (a b : Row) : Bool :=
  decide (b.record.createdAt.seconds < a.record.createdAt.seconds) ||
    (a.record.createdAt.seconds == b.record.createdAt.seconds && decide (b.number < a.number))

/-- Saves a record in place of the row that has its key. -/
def save (table : Table) (r : Record) : Table where
  rows := table.rows.filter (fun row => row.record.key ≠ r.key)
    ++ [⟨table.nextNumber, rounded r⟩]

/-- The records of a conversation, the newest first. -/
def list (table : Table) (scope : Scope) : List Record :=
  (Sort.sort newer (table.rows.filter fun row => row.record.inScope scope)).map Row.record

/-- The newest record of a conversation that has not expired. -/
def find (table : Table) (now : Instant) (scope : Scope) : Option Record :=
  ((Sort.sort newer (table.rows.filter fun row =>
    row.record.inScope scope && !row.record.isExpired now)).map Row.record).head?

/-- The row is that of the record: the same suspension at the same place. -/
def isRowOf (r : Record) (row : Row) : Bool :=
  decide (row.record.key = r.key ∧ row.record.id = r.id)

/-- Deletes the row of a record. The count of deleted rows tells whether it was there. -/
def claim (table : Table) (r : Record) : Bool × Table :=
  ((table.rows.filter (isRowOf r)).length == 1,
    { rows := table.rows.filter fun row => !isRowOf r row })

/-- Deletes all rows that have expired, in the order of expiry. -/
def reap (table : Table) (now : Instant) : List Record × Table :=
  (Sort.sort Record.expiresBefore
      ((table.rows.filter fun row => row.record.isExpired now).map Row.record),
    { rows := table.rows.filter fun row => !row.record.isExpired now })

end Table

end Parley.Wait

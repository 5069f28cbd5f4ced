import Parley.Trigger
/-!
# Wait records

What is stored of a suspended run: where it waits, since when and until when, and its context. The
place in a conversation where a run waits is its key; two runs that waited at one place after each
other are told apart by the identifier of the record.
-/
namespace Parley.Wait

/-- The record of a suspended run. -/
structure Record where
  /-- The identifier of this suspension. -/
  id : String
  organization : String
  conversation : String
  /-- Where the event that started the run arrived. -/
  origin : String
  /-- The node that waits, where the run goes on. -/
  node : String
  flowCode : String
  flowVersion : String
  /-- On whose behalf the run was started. -/
  creator : String
  /-- The second since the start of 1970 from which on the run can no longer be resumed. -/
  timeout : Option Int
  /-- The text of the context. -/
  snapshot : String
  createdAt : Instant
deriving DecidableEq

/-- The place where a run waits. -/
structure Key where
  organization : String
  conversation : String
  node : String
deriving DecidableEq

def Key.text (k : Key) : String :=
  k.organization ++ "/" ++ k.conversation ++ "/" ++ k.node

namespace Record

/-- The place where the run of a record waits. -/
def key (r : Record) : Key := ⟨r.organization, r.conversation, r.node⟩

/-- The record belongs to a conversation. -/
def inScope (r : Record) (s : Scope) : Bool :=
  r.organization == s.organization && r.conversation == s.conversation

/-- The run of the record can no longer be resumed. -/
def isExpired (r : Record) (now : Instant) : Bool :=
  match r.timeout with
  | some t => decide (t ≤ now.seconds)
  | none => false

/-- The first record expires before the second. -/
def expiresBefore (a b : Record) : Bool :=
  match a.timeout, b.timeout with
  | none, some _ => true
  | some s, some t => decide (s < t)
  | _, none => false

/-- What has expired stays so. -/
theorem isExpired_of_le {r : Record} {now later : Instant} (h : r.isExpired now = true)
    (le : now.seconds ≤ later.seconds) : r.isExpired later = true := by
  unfold isExpired at *
  split at h
  · simp only [decide_eq_true_eq] at *
    omega
  · contradiction

end Record

end Parley.Wait

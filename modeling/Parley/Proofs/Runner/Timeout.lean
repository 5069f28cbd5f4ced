import Parley.Proofs.Runner.Steps
import Mathlib.Algebra.Group.Int.Defs
import Mathlib.Algebra.Group.Nat.Defs
/-!
# When waits end

A node that waits saves the second at which the wait ends: the time of the clock and the seconds of the
timeout. What it saves is exact, so no record has expired when it is saved and no longer wait ends before
a shorter one. But the sum of the two is not guarded as their product is: the node panics just when the
product fits 64 bits and the sum does not (`Runner.waits_until_due`).
-/
namespace Parley
open Parley.Text

namespace Wait.Timeout
variable {t t' : Timeout} {now : Instant}

/-- The seconds of a timeout, however many they are. -/
def length (t : Timeout) : Nat := t.interval * t.unit.seconds

/-- The timeout has more seconds than a signed number of 64 bits holds. -/
def TooLong (t : Timeout) : Prop := greatestSigned64 < t.length

/-- The second at which a wait that begins now ends, whatever its size. -/
def due (t : Timeout) (now : Instant) : Int := now.seconds + t.length

/-- The seconds of the timeout fit 64 bits, but the second at which the wait ends does not. -/
def Overflows (t : Timeout) (now : Instant) : Prop := ¬ t.TooLong ∧ greatestSigned64 < t.due now

instance : Decidable t.TooLong := inferInstanceAs (Decidable (_ < _))

instance : Decidable (t.Overflows now) := inferInstanceAs (Decidable (_ ∧ _))

/-- The second until which a record of the wait is to be kept. One that is too long never ends. -/
def until? (t : Timeout) (now : Instant) : Option Int := if t.TooLong then none else some (t.due now)

/-- There is a timeout, of one unit at least. -/
structure Set (t : Timeout) : Prop where
  enabled : t.enabled = true
  positive : 1 ≤ t.interval

theorem Set.length_pos (set : t.Set) : 0 < t.length := by
  have unit : 0 < t.unit.seconds := by cases t.unit <;> decide
  exact Nat.mul_pos set.positive unit

theorem Set.seconds?_tooLong (set : t.Set) (tooLong : t.TooLong) : t.seconds? = none := by
  have some := set.positive
  have none : ¬ t.interval * t.unit.seconds ≤ greatestSigned64 := Nat.not_le_of_lt tooLong
  simp [seconds?, set.enabled, none, Nat.ne_of_gt some]

theorem Set.seconds?_length (set : t.Set) (fits : ¬ t.TooLong) : t.seconds? = some t.length := by
  have some := set.positive
  have fits : t.interval * t.unit.seconds ≤ greatestSigned64 := Nat.le_of_not_lt fits
  simp [seconds?, set.enabled, fits, Nat.ne_of_gt some, length]

/-- A wait ends later than it begins. -/
theorem Set.lt_until (set : t.Set) {last : Int} (ends : t.until? now = some last) :
    now.seconds < last := by
  have some := set.length_pos
  unfold until? at ends
  split at ends
  · contradiction
  · cases ends
    unfold due
    omega

/-- Of two waits that begin now the longer one does not end before the shorter one, and it has no end if
that one has none. -/
theorem until?_mono (longer : t.length ≤ t'.length) {last' : Int} (ends : t'.until? now = some last') :
    ∃ last, t.until? now = some last ∧ last ≤ last' := by
  unfold until? at ends ⊢
  split at ends
  · contradiction
  · next fits' =>
    cases ends
    have fits : ¬ t.TooLong := fun tooLong => fits' (Nat.lt_of_lt_of_le tooLong longer)
    rw [if_neg fits]
    refine ⟨_, rfl, ?_⟩
    unfold due
    omega

end Wait.Timeout

namespace Runner.WaitMessage
open Wait (Timeout)
variable {t : Timeout} {now : Instant}

/-- The second at which a wait ends is no less than the least number of 64 bits. -/
private theorem leastSigned64_le_due (inside : Instant.inRange now.seconds = true) :
    leastSigned64 ≤ t.due now := by
  have first : -8334601228800 ≤ now.seconds := by
    simp only [Instant.inRange, Bool.and_eq_true, decide_eq_true_eq] at inside
    exact inside.1
  have least : leastSigned64 ≤ -8334601228800 := by decide
  unfold Timeout.due
  omega

/-- The end of a wait comes to a number just when it fits, and then it is exact. -/
theorem expiry_eq (set : t.Set) (inside : Instant.inRange now.seconds = true) :
    expiry now t = if t.Overflows now then .error .overflow else .ok (t.until? now) := by
  by_cases tooLong : t.TooLong
  · simp [expiry, set.seconds?_tooLong tooLong, Timeout.Overflows, Timeout.until?, tooLong]
  · have sum : expiry now t = (addSigned64 now.seconds t.length).map some := by
      rw [expiry, set.seconds?_length tooLong]
    have least : leastSigned64 ≤ now.seconds + t.length := leastSigned64_le_due inside
    rw [sum, addSigned64]
    by_cases beyond : greatestSigned64 < now.seconds + (t.length : Int)
    · have overflows : t.Overflows now := ⟨tooLong, beyond⟩
      rw [if_pos overflows, if_neg fun fits => absurd fits.2 (Int.not_le.mpr beyond)]
      rfl
    · have within : ¬ t.Overflows now := fun overflows => beyond overflows.2
      rw [if_neg within, if_pos ⟨least, Int.not_lt.mp beyond⟩, Timeout.until?, if_neg tooLong]
      rfl

theorem expiry_ok_iff (set : t.Set) (inside : Instant.inRange now.seconds = true)
    {timeout : Option Int} :
    expiry now t = .ok timeout ↔ ¬ t.Overflows now ∧ timeout = t.until? now := by
  rw [expiry_eq set inside]
  by_cases overflows : t.Overflows now <;> simp [overflows, eq_comm]

theorem expiry_error_iff (set : t.Set) (inside : Instant.inRange now.seconds = true)
    {cause : Panic} : expiry now t = .error cause ↔ t.Overflows now ∧ cause = .overflow := by
  rw [expiry_eq set inside]
  by_cases overflows : t.Overflows now <;> simp [overflows, eq_comm]

variable {call call' : Call} {s s' : NodeState} {params params' : Params} {id id' : String}

theorem isExpired_saved {timeout : Option Int} {later : Instant} :
    (saved call s timeout now id).isExpired later = true ↔
      ∃ last, timeout = some last ∧ last ≤ later.seconds := by
  have told : (saved call s timeout now id).timeout = timeout := rfl
  unfold Wait.Record.isExpired
  rw [told]
  cases timeout <;> simp

/-- Of two records the first one expires while the second one does not. -/
def ExpiresFirst (one other : Wait.Record) : Prop :=
  ∃ later : Instant, one.isExpired later = true ∧ other.isExpired later = false

/-- The record of a wait. -/
def kept (call : Call) (s : NodeState) (t : Timeout) (now : Instant) (id : String) : Wait.Record :=
  saved call s (t.until? now) now id

theorem not_isExpired_kept (set : t.Set) : (kept call s t now id).isExpired now = false := by
  refine Bool.eq_false_iff.mpr fun expired => ?_
  obtain ⟨last, ends, reached⟩ := isExpired_saved.mp expired
  exact absurd (set.lt_until ends) (Int.not_lt.mpr reached)

theorem not_expiresFirst_kept {t' : Timeout} (longer : t.length ≤ t'.length) :
    ¬ ExpiresFirst (kept call' s' t' now id') (kept call s t now id) := by
  rintro ⟨later, expired, lasting⟩
  obtain ⟨last', ends', reached⟩ := isExpired_saved.mp expired
  obtain ⟨last, ends, earlier⟩ := Timeout.until?_mono longer ends'
  have expires : (kept call s t now id).isExpired later = true :=
    isExpired_saved.mpr ⟨last, ends, Int.le_trans earlier reached⟩
  rw [lasting] at expires
  contradiction

/-! ## Nodes -/

/-- What a node that has to wait leaves, when the answer to its record is known. -/
def left (s : NodeState) (timeout : Option Int) : Except Error Unit → NodeState
  | .ok () =>
    { context := s.context.snapshot.2, report := (s.report.addLine (waitLine timeout)).suspend }
  | .error _ => { s with context := s.context.snapshot.2 }

section
variable {around : Surroundings} {log : List Exchange}

/-- A node that has to wait and returns has read the clock and saved its record, and it has suspended the
run once the record is saved. -/
theorem suspends_iff {result : Except Error Unit} (reached : call.isFirst = false)
    (may : call.maySuspend = true) (read : call.node.params.decode Params.decoder = .ok params) :
    Task.Runs (waitMessage around call) s log result s' ↔
      ∃ now id timeout, expiry now params.timeout = .ok timeout ∧
        log = asked (saved call s timeout now id) now id result ∧ s' = left s timeout result := by
  have parsed := parameters_of_decode read
  simp only [waitMessage, reached, suspend, may, Bool.not_true, Bool.false_eq_true, if_false, parsed,
    Task.runs_ofExcept_bind, Task.runs_clock_bind, Task.runs_identifier_bind,
    Task.runs_ofChecked_bind, Task.runs_get_bind, context, Task.runs_modify_bind, Task.runs_save_bind,
    report, Task.runs_modify]
  constructor
  · rintro (⟨_, failed, -⟩ | ⟨_, ⟨⟩, now, _, rfl, id, _, rfl, timeout, ends, ⟨e, rfl, rfl, rfl⟩ |
      ⟨⟨⟩, _, rfl, rfl, rfl, rfl⟩⟩)
    · contradiction
    · exact ⟨now, id, timeout, ends, rfl, rfl⟩
    · exact ⟨now, id, timeout, ends, rfl, rfl⟩
  · rintro ⟨now, id, timeout, ends, rfl, rfl⟩
    refine .inr ⟨params, rfl, now, _, rfl, id, _, rfl, timeout, ends, ?_⟩
    cases result with
    | error e => exact .inl ⟨e, rfl, rfl, rfl⟩
    | ok done => exact .inr ⟨(), [], rfl, rfl, rfl, rfl⟩

/-- It panics when it has read the clock, and before it has saved anything. -/
theorem panics_iff {cause : Panic} (reached : call.isFirst = false) (may : call.maySuspend = true)
    (read : call.node.params.decode Params.decoder = .ok params) :
    Task.Panics (waitMessage around call) s log cause ↔
      ∃ now id, expiry now params.timeout = .error cause ∧
        log = [⟨.clock, now⟩, ⟨.identifier, id⟩] := by
  simp [waitMessage_panics, reached, may, parameters_of_decode read]

end

/-- What a node does that has to wait, with a timeout, and what becomes of its record. -/
structure WaitsUntilDue (around : Surroundings) (call : Call) (s : NodeState) (params : Params) :
    Prop where
  /-- It asks for the time first, and for an identifier. -/
  asks : ∀ log ending, Program.Ends (waitMessage around call s) log ending →
    ∃ now id rest, log = ⟨.clock, now⟩ :: ⟨.identifier, id⟩ :: rest
  /-- If the second at which the wait ends fits, it asks to save one record, with that second as its
  timeout, or with none when the timeout has too many seconds. -/
  saves : ∀ now id, Instant.inRange now.seconds = true → ∀ rest result s',
    Task.Runs (waitMessage around call) s (⟨.clock, now⟩ :: ⟨.identifier, id⟩ :: rest) result s' ↔
      ¬ params.timeout.Overflows now ∧
        rest = [⟨.save (kept call s params.timeout now id), result⟩] ∧
        s' = left s (params.timeout.until? now) result
  /-- If not, it panics, and it saves nothing. -/
  panics : ∀ now id, Instant.inRange now.seconds = true → ∀ rest cause,
    Task.Panics (waitMessage around call) s (⟨.clock, now⟩ :: ⟨.identifier, id⟩ :: rest) cause ↔
      params.timeout.Overflows now ∧ rest = [] ∧ cause = .overflow
  /-- The record has not expired when it is saved. -/
  lasts : ∀ now id, (kept call s params.timeout now id).isExpired now = false
  /-- Of two waits that begin at one time the longer one never ends first. -/
  order : ∀ now id call' s' (t' : Timeout) id', params.timeout.length ≤ t'.length →
    ¬ ExpiresFirst (kept call' s' t' now id') (kept call s params.timeout now id)

end WaitMessage

open WaitMessage in
/-- A node with a timeout waits until it is due, unless it panics because the second at which it is due
does not fit 64 bits. -/
theorem waits_until_due {around : Surroundings} {call : Call} {s : NodeState} {params : Params}
    (reached : call.isFirst = false) (may : call.maySuspend = true)
    (read : call.node.params.decode Params.decoder = .ok params) (set : params.timeout.Set) :
    WaitsUntilDue around call s params where
  asks log ending ends := by
    cases ending with
    | ok ended =>
      obtain ⟨now, id, timeout, -, rfl, -⟩ := (suspends_iff reached may read).mp ends
      exact ⟨now, id, _, rfl⟩
    | error cause =>
      obtain ⟨now, id, -, rfl⟩ := (panics_iff reached may read).mp ends
      exact ⟨now, id, [], rfl⟩
  saves now id inside rest result s' := by
    rw [suspends_iff reached may read]
    constructor
    · rintro ⟨_, _, timeout, ends, heard, rfl⟩
      obtain ⟨rfl, rfl, rfl⟩ : now = _ ∧ id = _ ∧ rest = _ := by simpa [asked] using heard
      obtain ⟨within, rfl⟩ := (expiry_ok_iff set inside).mp ends
      exact ⟨within, rfl, rfl⟩
    · rintro ⟨within, rfl, rfl⟩
      exact ⟨now, id, _, (expiry_ok_iff set inside).mpr ⟨within, rfl⟩, rfl, rfl⟩
  panics now id inside rest cause := by
    rw [panics_iff reached may read]
    constructor
    · rintro ⟨_, _, ends, heard⟩
      obtain ⟨rfl, rfl, rfl⟩ : now = _ ∧ id = _ ∧ rest = _ := by simpa using heard
      obtain ⟨overflows, rfl⟩ := (expiry_error_iff set inside).mp ends
      exact ⟨overflows, rfl, rfl⟩
    · rintro ⟨overflows, rfl, rfl⟩
      exact ⟨now, id, (expiry_error_iff set inside).mpr ⟨overflows, rfl⟩, rfl⟩
  lasts now id := not_isExpired_kept set
  order now id _ _ _ _ longer := not_expiresFirst_kept longer

/-! ### The longest wait there is -/

namespace Patience

/-- A node that waits a number of seconds. -/
def node (interval : Nat) : Node where
  id := "wait"
  type := "wait_message"
  params := .ofFields [("timeout", .ofFields [("enabled", .bool true), ("interval", .ofNat interval)])]

def call (interval : Nat) : Call where
  flow := { code := "ask", nodes := [node interval] }
  node := node interval
  isFirst := false
  inputs := []
  parents := []
  appointed := none
  maySuspend := true
  depth := 0

def around : Surroundings where
  resolver := Path.resolve
  check _ := .ok ()
  nested _ _ _ := throw (.invalid (.noEntry "ask"))

def begun : NodeState where
  context := .start "r" { code := "ask", nodes := [] }
    (.chatMessage { organization := "org", conversation := "conv" } "hi")
  report := { id := "wait" }

def params (interval : Nat) : WaitMessage.Params where
  timeout := { enabled := true, interval }

/-- A day in November 2023. -/
def now : Instant := .ofSeconds 1700000000

end Patience

open WaitMessage Patience in
/-- The node with the longest wait there is panics, although its timeout fits; one that waits a minute
saves its record. -/
theorem longest_wait_panics :
    ¬ (params greatestSigned64).timeout.TooLong ∧
      Task.Panics (waitMessage around (call greatestSigned64)) begun
        [⟨.clock, now⟩, ⟨.identifier, "w"⟩] .overflow ∧
      ∃ record, record.timeout = some 1700000060 ∧
        Task.Runs (waitMessage around (call 60)) begun
          [⟨.clock, now⟩, ⟨.identifier, "m"⟩, ⟨.save record, .ok ()⟩] (.ok ())
          (left begun (some 1700000060) (.ok ())) := by
  have read : (call greatestSigned64).node.params.decode Params.decoder =
      .ok (params greatestSigned64) := by rfl
  have read' : (call 60).node.params.decode Params.decoder = .ok (params 60) := by rfl
  have inside : Instant.inRange now.seconds = true := by decide
  have longest : WaitsUntilDue around (call greatestSigned64) begun (params greatestSigned64) :=
    waits_until_due rfl rfl read ⟨rfl, by decide⟩
  have minute : WaitsUntilDue around (call 60) begun (params 60) :=
    waits_until_due rfl rfl read' ⟨rfl, by decide⟩
  refine ⟨by decide, ?_, kept (call 60) begun (params 60).timeout now "m", by decide, ?_⟩
  · exact (longest.panics now "w" inside [] .overflow).mpr ⟨by decide, rfl, rfl⟩
  · exact (minute.saves now "m" inside _ _ _).mpr ⟨by decide, rfl, rfl⟩

end Runner

end Parley

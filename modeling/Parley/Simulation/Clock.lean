import Parley.Engine.Routine
import Parley.Run.World
/-!
# Clocks

A clock that moves only when it is told to, and routines that are run against the clock of a world
for a stretch of time which passes at once.
-/
namespace Parley.Simulation

/-- A clock that moves only when it is told to. -/
structure Clock where
  /-- The second since the start of 1970 at which the clock stands, a number of 64 bits. -/
  second : Int

/-- The time that the clock shows. One that stands outside the calendar shows the start of 1970. -/
def Clock.time (clock : Clock) : Instant := (Instant.ofSeconds clock.second).inCalendar

/-- Moves the clock by a number of seconds. -/
def Clock.advance (clock : Clock) (seconds : Int) : Clock :=
  ⟨(clock.second + seconds).bmod (Nat.pow 2 64)⟩

/-- How many runs have come to their end in a world. -/
def ended (w : World) : Nat :=
  (w.bus.published.filter RunEvent.isEnd).length

/-- Fires jobs one after the other until so many runs have come to their end, or the next job is due
after the second `last`, or one that fires panics. Every job that fires moves the clock, so `fuel` is
enough when it is above the number of seconds up to `last`. -/
def fireUntil (engine : Engine) (jobs : List Job) (last : Int) (runs : Nat) :
    (fuel : Nat) → World → Except Panic World
  | 0, w => .ok w
  | fuel + 1, w =>
    match Routine.next jobs w.clock with
    | none => .ok w
    | some (t, _) =>
      if last < t.seconds then .ok w
      else
        match Program.run (Routine.turn engine jobs ()) w with
        | (.ok _, w) => if runs ≤ ended w then .ok w else fireUntil engine jobs last runs fuel w
        | (.error cause, _) => .error cause

/-- Fires jobs for a number of seconds, or until so many runs have come to their end. -/
def fireFor (engine : Engine) (jobs : List Job) (seconds runs : Nat) (w : World) :
    Except Panic World :=
  fireUntil engine jobs (w.clock.seconds + seconds) runs (seconds + 1) w

end Parley.Simulation

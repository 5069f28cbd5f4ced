import Parley.Time.Calendar
import Parley.Time.Instant
/-!
# Schedules

A schedule says of each part of a date and a time of day which values it may have. It holds at the
seconds where every part has one of them; `next` is the first of these after an instant. Schedules
reach from 1970 to 2100, in UTC.
-/
namespace Parley.Cron
open Parley.Time

/-- The values that the parts of a date and a time may have, each list in ascending order. -/
structure Schedule where
  seconds : List Nat
  minutes : List Nat
  hours : List Nat
  /-- Days of the month. -/
  days : List Nat
  months : List Nat
  /-- Days of the week, from Sunday as 1. -/
  weekdays : List Nat
  years : List Nat
deriving DecidableEq

namespace Schedule

/-- The first time of day not before a second of the day. -/
def timeFrom (s : Schedule) (start : Nat) : Option Nat :=
  s.hours.findSome? fun h =>
    if h * 3600 + 3599 < start then none
    else s.minutes.findSome? fun m =>
      if h * 3600 + m * 60 + 59 < start then none
      else s.seconds.findSome? fun sec =>
        let time := h * 3600 + m * 60 + sec
        if time < start then none else some time

/-- The first instant on a day not before a second counted from 1970. -/
def onDay (s : Schedule) (start : Int) (day : Int) : Option Int :=
  if s.weekdays.contains (weekdayOfDays day) then
    (s.timeFrom (start - day * secondsPerDay).toNat).map fun time => day * secondsPerDay + time
  else none

/-- The first second not before another one at which the schedule holds. -/
def secondFrom (s : Schedule) (start : Int) : Option Int :=
  let startDay := start.fdiv secondsPerDay
  s.years.findSome? fun (y : Nat) =>
    if daysOfDate ⟨y, 12, 31⟩ < startDay then none
    else s.months.findSome? fun m =>
      if daysOfDate ⟨y, m, monthLength y m⟩ < startDay then none
      else s.days.findSome? fun d =>
        let day := daysOfDate ⟨y, m, d⟩
        if monthLength y m < d ∨ day < startDay then none else s.onDay start day

/-- The first instant after another one at which the schedule holds. -/
def next (s : Schedule) (after : Instant) : Option Instant :=
  (s.secondFrom (after.seconds + 1)).map Instant.ofSeconds

end Schedule

end Parley.Cron

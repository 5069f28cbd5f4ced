import Parley.Cron.Parser
import Parley.Proofs.Time.Calendar
import Mathlib.Data.List.Pairwise
/-!
# The next instant of a schedule

The values of a schedule that was read stand in ascending order and within their fields
(`read_valid`). The search for the next instant goes through years, months, days, hours, minutes and
seconds, and each of them is searched in that order, so what is found first is the least
(`least_findSome?`): `next` is the first instant after another one at which the schedule holds
(`next_iff`).
-/
namespace Parley.Cron
open Parley.Time

/-! ## Searching in order -/

/-- What a search for the least thing with a property should come to. -/
def Least {α : Type} [LE α] (P : α → Prop) : Option α → Prop
  | none => ∀ t, ¬ P t
  | some t => P t ∧ ∀ u, P u → t ≤ u

section
variable {α β : Type} [Preorder α] {P Q : α → Prop}

theorem Least.congr {found : Option α} (least : Least P found) (same : ∀ t, P t ↔ Q t) :
    Least Q found := by
  obtain rfl : P = Q := funext fun t => propext (same t)
  exact least

theorem Least.none (absent : ∀ t, ¬ P t) : Least P Option.none := absent

/-- A search that goes through parts, each of which lies behind those before it. -/
theorem least_findSome? {parts : List β} {find : β → Option α} {P : β → α → Prop}
    (each : ∀ x ∈ parts, Least (P x) (find x))
    (apart : parts.Pairwise fun x y => ∀ t u, P x t → P y u → t ≤ u) :
    Least (fun t => ∃ x ∈ parts, P x t) (parts.findSome? find) := by
  induction parts with
  | nil => exact fun t ⟨x, member, _⟩ => absurd member List.not_mem_nil
  | cons x rest ih =>
    obtain ⟨first, later⟩ := List.pairwise_cons.mp apart
    have here := each x (List.mem_cons_self ..)
    have behind := ih (fun y member => each y (.tail _ member)) later
    rw [List.findSome?_cons]
    cases found : find x with
    | some t =>
      rw [found] at here
      refine ⟨⟨x, by simp, here.1⟩, ?_⟩
      rintro u ⟨y, member, holds⟩
      rcases List.mem_cons.mp member with rfl | deep
      · exact here.2 u holds
      · exact first y deep t u here.1 holds
    | none =>
      rw [found] at here
      refine behind.congr fun t => ?_
      simp [here t]

end

/-! ## When a schedule holds -/

namespace Schedule
variable {s : Schedule}

/-- The second of the day is one of the times of the schedule. -/
def Times (s : Schedule) (time : Nat) : Prop :=
  ∃ h ∈ s.hours, ∃ m ∈ s.minutes, ∃ sec ∈ s.seconds, time = h * 3600 + m * 60 + sec

/-- The schedule holds at a second counted from 1970: on a day whose date and day of the week it
has, at one of its times. -/
def Holds (s : Schedule) (t : Int) : Prop :=
  ∃ y ∈ s.years, ∃ m ∈ s.months, ∃ d ∈ s.days, d ≤ monthLength y m ∧
    weekdayOfDays (daysOfDate ⟨y, m, d⟩) ∈ s.weekdays ∧
    ∃ time, s.Times time ∧ t = daysOfDate ⟨y, m, d⟩ * secondsPerDay + time

end Schedule

/-- The values of a field, in ascending order. -/
structure Field.Values (f : Field) (values : List Nat) : Prop where
  ascending : values.Pairwise (· < ·)
  allowed : ∀ v ∈ values, f.first ≤ v ∧ v ≤ f.last

/-- Each part has values of its field. -/
structure Schedule.Valid (s : Schedule) : Prop where
  seconds : Field.sixty.Values s.seconds
  minutes : Field.sixty.Values s.minutes
  hours : Field.hours.Values s.hours
  days : Field.days.Values s.days
  months : Field.months.Values s.months
  weekdays : Field.weekdays.Values s.weekdays
  years : Field.years.Values s.years

/-! ## What is read -/

namespace Field
variable {f : Field} {values : List Nat}

theorem Values.sublist {part : List Nat} (whole : f.Values values) (taken : part.Sublist values) :
    f.Values part where
  ascending := whole.ascending.sublist taken
  allowed v member := whole.allowed v (taken.subset member)

theorem Values.single {v : Nat} (inside : f.first ≤ v ∧ v ≤ f.last) : f.Values [v] where
  ascending := List.pairwise_singleton ..
  allowed _ member := List.mem_singleton.mp member ▸ inside

theorem all_values (f : Field) : f.Values f.all where
  ascending := List.pairwise_map.mpr <| List.pairwise_lt_range.imp fun before => by omega
  allowed v member := by
    obtain ⟨i, range, rfl⟩ := List.mem_map.mp member
    have := List.mem_range.mp range
    omega

theorem ofItems_values {items : List Item} (read : f.ofItems items = some values) :
    f.Values values := by
  simp only [ofItems, Option.bind_eq_bind, Option.bind_eq_some_iff] at read
  obtain ⟨found, -, read⟩ := read
  split at read
  · exact Option.some.inj read ▸ f.all_values.sublist List.filter_sublist
  · contradiction

theorem read_values {cs rest : List Char} (read : f.read cs = some (values, rest)) :
    f.Values values := by
  simp only [Field.read, Option.bind_eq_bind, Option.bind_eq_some_iff, Option.pure_def,
    Option.some.injEq] at read
  obtain ⟨item, -, found, items, same⟩ := read
  exact (Prod.mk.inj same).1 ▸ ofItems_values items

end Field

theorem readYears_values {cs : List Char} {values : List Nat} (read : readYears cs = some values) :
    Field.years.Values values := by
  unfold readYears at read
  split at read
  · exact Option.some.inj read ▸ Field.all_values _
  · split at read
    · next found => exact Option.some.inj read ▸ Field.read_values found
    · contradiction

theorem readFields_valid {cs : List Char} {s : Schedule} (read : readFields cs = some s) :
    s.Valid := by
  simp only [readFields, Option.bind_eq_bind, Option.bind_eq_some_iff, Option.pure_def,
    Option.some.injEq] at read
  obtain ⟨seconds, second, minutes, minute, hours, hour, days, day, months, month, weekdays, weekday,
    years, year, rfl⟩ := read
  exact ⟨Field.read_values second, Field.read_values minute, Field.read_values hour,
    Field.read_values day, Field.read_values month, Field.read_values weekday, readYears_values year⟩

theorem shorthands_valid {name : String} {s : Schedule} (member : (name, s) ∈ shorthands) :
    s.Valid := by
  have zero : Field.sixty.Values [0] := .single (by decide)
  have midnight : Field.hours.Values [0] := .single (by decide)
  have firstDay : Field.days.Values [1] := .single (by decide)
  have days := Field.days.all_values
  have months := Field.months.all_values
  have weekdays := Field.weekdays.all_values
  have years := Field.years.all_values
  simp only [shorthands, List.mem_cons, List.not_mem_nil, or_false, Prod.mk.injEq] at member
  rcases member with ⟨-, rfl⟩ | ⟨-, rfl⟩ | ⟨-, rfl⟩ | ⟨-, rfl⟩ | ⟨-, rfl⟩
  · exact ⟨zero, zero, midnight, firstDay, .single (by decide), weekdays, years⟩
  · exact ⟨zero, zero, midnight, firstDay, months, weekdays, years⟩
  · exact ⟨zero, zero, midnight, days, months, .single (by decide), years⟩
  · exact ⟨zero, zero, midnight, days, months, weekdays, years⟩
  · exact ⟨zero, zero, Field.hours.all_values, days, months, weekdays, years⟩

theorem read_valid {text : String} {s : Schedule} (read : Schedule.read text = some s) : s.Valid := by
  rcases Option.or_eq_some_iff.mp read with short | ⟨-, fields⟩
  · obtain ⟨⟨name, schedule⟩, member, found⟩ := List.exists_of_findSome?_eq_some short
    dsimp only at found
    split at found
    · exact Option.some.inj found ▸ shorthands_valid member
    · contradiction
  · exact readFields_valid fields

/-! ## The search -/

namespace Schedule
variable {s : Schedule} (valid : s.Valid)
include valid

theorem Valid.minute {m : Nat} (member : m ∈ s.minutes) : m ≤ 59 :=
  (valid.minutes.allowed m member).2

theorem Valid.second {sec : Nat} (member : sec ∈ s.seconds) : sec ≤ 59 :=
  (valid.seconds.allowed sec member).2

theorem Valid.time {time : Nat} (times : s.Times time) : time < 86400 := by
  obtain ⟨h, hour, m, minute, sec, second, rfl⟩ := times
  have := (valid.hours.allowed h hour).2
  have := valid.minute minute
  have := valid.second second
  simp only [Field.hours] at *
  omega

private theorem inMinute_least (start h m : Nat) :
    Least (fun t => ∃ sec ∈ s.seconds, start ≤ t ∧ t = h * 3600 + m * 60 + sec)
      (s.seconds.findSome? fun sec =>
        let time := h * 3600 + m * 60 + sec
        if time < start then none else some time) := by
  refine least_findSome? (fun sec _ => ?_) (valid.seconds.ascending.imp ?_)
  · dsimp only
    split
    · exact .none fun t ⟨late, same⟩ => by omega
    · exact ⟨⟨by omega, rfl⟩, fun u ⟨_, same⟩ => same.ge⟩
  · rintro a b before t u ⟨-, rfl⟩ ⟨-, rfl⟩
    omega

private theorem inHour_least (start h : Nat) :
    Least (fun t => ∃ m ∈ s.minutes, ∃ sec ∈ s.seconds, start ≤ t ∧ t = h * 3600 + m * 60 + sec)
      (s.minutes.findSome? fun m =>
        if h * 3600 + m * 60 + 59 < start then none
        else s.seconds.findSome? fun sec =>
          let time := h * 3600 + m * 60 + sec
          if time < start then none else some time) := by
  refine least_findSome? (fun m _ => ?_) (valid.minutes.ascending.imp ?_)
  · split
    · refine .none ?_
      rintro t ⟨sec, second, late, rfl⟩
      have := valid.second second
      omega
    · exact inMinute_least valid start h m
  · rintro a b before t u ⟨sec, second, -, rfl⟩ ⟨sec', -, -, rfl⟩
    have := valid.second second
    omega

/-- The first time of day not before a second is found. -/
theorem timeFrom_least (start : Nat) :
    Least (fun t => start ≤ t ∧ s.Times t) (s.timeFrom start) := by
  refine Least.congr (P := fun t => ∃ h ∈ s.hours, ∃ m ∈ s.minutes, ∃ sec ∈ s.seconds,
    start ≤ t ∧ t = h * 3600 + m * 60 + sec) ?_ fun t => ?_
  · refine least_findSome? (fun h _ => ?_) (valid.hours.ascending.imp ?_)
    · split
      · refine .none ?_
        rintro t ⟨m, minute, sec, second, late, rfl⟩
        have := valid.minute minute
        have := valid.second second
        omega
      · exact inHour_least valid start h
    · rintro a b before t u ⟨m, minute, sec, second, -, rfl⟩ ⟨m', -, sec', -, -, rfl⟩
      have := valid.minute minute
      have := valid.second second
      omega
  · constructor
    · rintro ⟨h, hour, m, minute, sec, second, late, same⟩
      exact ⟨late, h, hour, m, minute, sec, second, same⟩
    · rintro ⟨late, h, hour, m, minute, sec, second, same⟩
      exact ⟨h, hour, m, minute, sec, second, late, same⟩

/-- A second from another one on at which the schedule holds on a day. -/
def OnDay (s : Schedule) (start day t : Int) : Prop :=
  start ≤ t ∧ weekdayOfDays day ∈ s.weekdays ∧ ∃ time, s.Times time ∧ t = day * secondsPerDay + time

theorem onDay_least (start day : Int) :
    Least (s.OnDay start day) (s.onDay start day) := by
  unfold onDay
  split
  · next weekday =>
    have weekday : weekdayOfDays day ∈ s.weekdays := by simpa using weekday
    have least := timeFrom_least valid (start - day * secondsPerDay).toNat
    cases found : s.timeFrom (start - day * secondsPerDay).toNat with
    | none =>
      rw [found] at least
      rintro t ⟨late, -, time, times, rfl⟩
      exact least time ⟨by omega, times⟩
    | some time =>
      rw [found] at least
      obtain ⟨⟨late, times⟩, first⟩ := least
      show Least (s.OnDay start day) (some (day * secondsPerDay + time))
      refine ⟨⟨by omega, weekday, time, times, rfl⟩, ?_⟩
      rintro u ⟨late', -, time', times', rfl⟩
      have := first time' ⟨by omega, times'⟩
      omega
  · next other =>
    rintro t ⟨-, weekday, -⟩
    exact other (by simpa using weekday)

theorem Valid.month {m : Nat} (member : m ∈ s.months) : 1 ≤ m ∧ m ≤ 12 :=
  valid.months.allowed m member

/-- What lies on an earlier day lies before. -/
private theorem onDay_lt {start day day' t u : Int} (first : s.OnDay start day t)
    (second : s.OnDay start day' u) (before : day < day') : t < u := by
  obtain ⟨-, -, time, times, rfl⟩ := first
  obtain ⟨-, -, time', times', rfl⟩ := second
  have := valid.time times
  simp only [secondsPerDay]
  omega

/-- A second from another one on at which the schedule holds in a month. -/
def InMonth (s : Schedule) (start : Int) (y m : Nat) (t : Int) : Prop :=
  ∃ d ∈ s.days, d ≤ monthLength y m ∧ s.OnDay start (daysOfDate ⟨y, m, d⟩) t

/-- A day that lies before the day of a second ends before it. -/
private theorem onDay_false {start day t : Int} (held : s.OnDay start day t)
    (before : day < start.fdiv secondsPerDay) : False := by
  obtain ⟨late, -, time, times, rfl⟩ := held
  have := valid.time times
  simp only [secondsPerDay, Int.fdiv_eq_ediv_of_nonneg _ (show (0 : Int) ≤ 86400 by decide)] at *
  omega

private theorem inMonth_least (start : Int) (y m : Nat) :
    Least (s.InMonth start y m) (s.days.findSome? fun d =>
      let day := daysOfDate ⟨y, m, d⟩
      if monthLength y m < d ∨ day < start.fdiv secondsPerDay then none else s.onDay start day) := by
  refine least_findSome? (P := fun d t => d ≤ monthLength y m ∧
    s.OnDay start (daysOfDate ⟨y, m, d⟩) t) (fun d _ => ?_) (valid.days.ascending.imp ?_)
  · dsimp only
    split
    · next out =>
      rintro t ⟨inside, held⟩
      rcases out with long | early
      · omega
      · exact onDay_false valid held early
    · next within =>
      refine (onDay_least valid start _).congr fun t => ?_
      have inside : d ≤ monthLength y m := by omega
      simp [inside]
  · rintro a b before t u ⟨inside, first⟩ ⟨-, second⟩
    refine Int.le_of_lt (onDay_lt valid first second ?_)
    have := daysOfDate_eq y m a
    have := daysOfDate_eq y m b
    omega

private theorem inMonth_lt {start t u : Int} {y z m n : Nat} (months : m ∈ s.months ∧ n ∈ s.months)
    (later : y < z ∨ y = z ∧ m < n) (first : s.InMonth start y m t) (second : s.InMonth start z n u) :
    t < u := by
  obtain ⟨d, -, inside, first⟩ := first
  obtain ⟨e, day, -, second⟩ := second
  obtain ⟨low, high⟩ := valid.month months.1
  obtain ⟨low', high'⟩ := valid.month months.2
  refine onDay_lt valid first second (daysOfDate_lt ⟨low, high, low', high'⟩ inside
    (valid.days.allowed e day).1 ?_)
  omega

private theorem inYear_least (start : Int) (y : Nat) :
    Least (fun t => ∃ m ∈ s.months, s.InMonth start y m t) (s.months.findSome? fun m =>
      if daysOfDate ⟨y, m, monthLength y m⟩ < start.fdiv secondsPerDay then none
      else s.days.findSome? fun d =>
        let day := daysOfDate ⟨y, m, d⟩
        if monthLength y m < d ∨ day < start.fdiv secondsPerDay then none
        else s.onDay start day) := by
  refine least_findSome? (fun m _ => ?_) ?_
  · split
    · next early =>
      rintro t ⟨d, -, inside, held⟩
      exact onDay_false valid held (Int.lt_of_le_of_lt (daysOfDate_le_monthEnd inside) early)
    · exact inMonth_least valid start y m
  · refine valid.months.ascending.imp_of_mem fun first second before t u held held' => ?_
    exact Int.le_of_lt (inMonth_lt valid ⟨first, second⟩ (.inr ⟨rfl, before⟩) held held')

/-- The first second not before another one at which the schedule holds is found. -/
theorem secondFrom_least (start : Int) :
    Least (fun t => start ≤ t ∧ s.Holds t) (s.secondFrom start) := by
  refine Least.congr (P := fun t => ∃ y ∈ s.years, ∃ m ∈ s.months, s.InMonth start y m t) ?_
    fun t => ?_
  · refine least_findSome? (fun y _ => ?_) ?_
    · split
      · next early =>
        rintro t ⟨m, month, d, -, inside, held⟩
        obtain ⟨low, high⟩ := valid.month month
        exact onDay_false valid held
          (Int.lt_of_le_of_lt (daysOfDate_le_yearEnd low high inside) early)
      · exact inYear_least valid start y
    · refine valid.years.ascending.imp ?_
      rintro y z before t u ⟨m, month, held⟩ ⟨n, month', held'⟩
      exact Int.le_of_lt (inMonth_lt valid ⟨month, month'⟩ (.inl before) held held')
  · constructor
    · rintro ⟨y, year, m, month, d, day, inside, late, weekday, time⟩
      exact ⟨late, y, year, m, month, d, day, inside, weekday, time⟩
    · rintro ⟨late, y, year, m, month, d, day, inside, weekday, time⟩
      exact ⟨y, year, m, month, d, day, inside, late, weekday, time⟩

/-- The next instant is the first whole second after the given one at which the schedule holds. -/
theorem next_iff {after t : Instant} :
    s.next after = some t ↔ t.nanos = 0 ∧ after.seconds < t.seconds ∧ s.Holds t.seconds ∧
      ∀ u, after.seconds < u → s.Holds u → t.seconds ≤ u := by
  have least := secondFrom_least valid (after.seconds + 1)
  unfold next
  cases found : s.secondFrom (after.seconds + 1) with
  | none =>
    rw [found] at least
    refine ⟨nofun, fun ⟨_, later, holds, _⟩ => (least t.seconds ⟨by omega, holds⟩).elim⟩
  | some second =>
    rw [found] at least
    obtain ⟨⟨later, holds⟩, first⟩ := least
    simp only [Option.map_some, Option.some.injEq]
    constructor
    · rintro rfl
      exact ⟨rfl, Int.lt_of_add_one_le later, holds, fun u after holds => first u ⟨after, holds⟩⟩
    · rintro ⟨whole, later', holds', first'⟩
      obtain ⟨seconds, nanos⟩ := t
      dsimp only at whole later' holds' first'
      have low := first seconds ⟨by omega, holds'⟩
      have high := first' second (by omega) holds
      obtain rfl : second = seconds := by omega
      rw [whole]
      rfl

theorem next_eq_none {after : Instant} :
    s.next after = none ↔ ∀ u, after.seconds < u → ¬ s.Holds u := by
  have least := secondFrom_least valid (after.seconds + 1)
  unfold next
  cases found : s.secondFrom (after.seconds + 1) with
  | none =>
    rw [found] at least
    simp only [Option.map_none, true_iff]
    exact fun u later holds => least u ⟨by omega, holds⟩
  | some second =>
    rw [found] at least
    simp only [Option.map_some, reduceCtorEq, false_iff, not_forall, not_not]
    exact ⟨second, Int.lt_of_add_one_le least.1.1, least.1.2⟩

end Schedule

end Parley.Cron

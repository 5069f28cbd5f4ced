import Parley.Engine.Routine
import Parley.Proofs.Cron.Schedule
import Parley.Proofs.Engine.Reaping
/-!
# What routines fire

A turn waits for the earliest instant at which any job is due and fires the first configured of the
jobs that are due then (`next_some`, `turn_fires`). So in a stretch of time each instant at which a
job is due is met once, in order, by that job (`fires_in_time`). A job that is due together with one
that is configured before it is passed over: the next turn looks for instants after this one.
-/
namespace Parley

theorem Instant.before_iff {a b : Instant} :
    Instant.before a b = true ↔ a.seconds < b.seconds ∨ a.seconds = b.seconds ∧ a.nanos < b.nanos := by
  simp [Instant.before]

/-- The job is to be fired at an instant: it is a whole second at which its schedule holds. -/
def Job.Due (job : Job) (t : Instant) : Prop :=
  t.nanos = 0 ∧ job.schedule.Holds t.seconds

namespace Routine

/-- The job is the first configured of those that are due at an instant. -/
def Chosen (jobs : List Job) (t : Instant) (job : Job) : Prop :=
  job.Due t ∧ ∃ front back, jobs = front ++ job :: back ∧ ∀ other ∈ front, ¬ other.Due t

theorem Chosen.mem {jobs : List Job} {t : Instant} {job : Job} (chosen : Chosen jobs t job) :
    job ∈ jobs := by
  obtain ⟨-, front, back, rfl, -⟩ := chosen
  simp

theorem Chosen.unique {jobs : List Job} {t : Instant} {a b : Job} (one : Chosen jobs t a)
    (two : Chosen jobs t b) : a = b := by
  obtain ⟨due, front, back, rfl, others⟩ := one
  obtain ⟨due', front', back', whole, others'⟩ := two
  rcases List.append_eq_append_iff.mp whole with ⟨between, rfl, rest⟩ | ⟨between, rfl, rest⟩
  · cases between with
    | nil => exact (List.cons.inj rest).1
    | cons c between =>
      obtain ⟨rfl, -⟩ := List.cons.inj rest
      exact absurd due (others' a (by simp))
  · cases between with
    | nil => exact (List.cons.inj rest).1.symm
    | cons c between =>
      obtain ⟨rfl, -⟩ := List.cons.inj rest
      exact absurd due' (others b (by simp))

theorem exists_chosen {jobs : List Job} {t : Instant} {job : Job} (member : job ∈ jobs)
    (due : job.Due t) : ∃ first, Chosen jobs t first := by
  induction jobs with
  | nil => exact absurd member List.not_mem_nil
  | cons head rest ih =>
    by_cases now : head.Due t
    · exact ⟨head, now, [], rest, rfl, by simp⟩
    · have deep : job ∈ rest := (List.mem_cons.mp member).resolve_left fun same => now (same ▸ due)
      obtain ⟨first, due', front, back, rfl, others⟩ := ih deep
      exact ⟨first, due', head :: front, back, rfl, List.forall_mem_cons.mpr ⟨now, others⟩⟩

/-! ## The earliest job -/

/-- Of candidates the first one is taken that none of the others comes before. -/
private theorem foldl_earliest {best c : Instant × Job} {rest : List (Instant × Job)}
    (found : rest.foldl (fun best c => if Instant.before c.1 best.1 then c else best) best = c) :
    ∃ front back, best :: rest = front ++ c :: back ∧
      (∀ d ∈ front, Instant.before c.1 d.1 = true) ∧ ∀ d ∈ back, ¬ Instant.before d.1 c.1 = true := by
  induction rest generalizing best with
  | nil => exact ⟨[], [], by rw [← found]; rfl, by simp, by simp⟩
  | cons d rest ih =>
    rw [List.foldl_cons] at found
    by_cases earlier : Instant.before d.1 best.1 = true
    · rw [if_pos earlier] at found
      obtain ⟨front, back, whole, later, least⟩ := ih found
      refine ⟨best :: front, back, by rw [whole]; rfl, List.forall_mem_cons.mpr ⟨?_, later⟩, least⟩
      cases front with
      | nil => exact (List.cons.inj whole).1 ▸ earlier
      | cons e front =>
        have first := later e (List.mem_cons_self ..)
        rw [← (List.cons.inj whole).1] at first
        simp only [Instant.before_iff] at *
        omega
    · rw [if_neg earlier] at found
      obtain ⟨front, back, whole, later, least⟩ := ih found
      cases front with
      | nil =>
        obtain ⟨rfl, rfl⟩ := List.cons.inj whole
        exact ⟨[], d :: rest, rfl, by simp, List.forall_mem_cons.mpr ⟨earlier, least⟩⟩
      | cons e front =>
        obtain ⟨rfl, rfl⟩ := List.cons.inj whole
        obtain ⟨first, others⟩ := List.forall_mem_cons.mp later
        refine ⟨best :: d :: front, back, rfl, ?_, least⟩
        refine List.forall_mem_cons.mpr ⟨first, List.forall_mem_cons.mpr ⟨?_, others⟩⟩
        simp only [Instant.before_iff] at *
        omega

theorem earliest_some {candidates : List (Instant × Job)} {c : Instant × Job}
    (found : earliest candidates = some c) :
    ∃ front back, candidates = front ++ c :: back ∧
      (∀ d ∈ front, Instant.before c.1 d.1 = true) ∧ ∀ d ∈ back, ¬ Instant.before d.1 c.1 = true := by
  cases candidates with
  | nil => contradiction
  | cons best rest => exact foldl_earliest (Option.some.inj found)

/-- The instant at which a job is due next, with the job. -/
def candidate (after : Instant) (job : Job) : Option (Instant × Job) :=
  (job.schedule.next after).map fun t => (t, job)

theorem candidate_eq_some {after t : Instant} {job job' : Job} :
    candidate after job = some (t, job') ↔ job.schedule.next after = some t ∧ job = job' := by
  simp [candidate]

/-- A job that is due at an instant is a candidate until then. -/
theorem candidate_le {after u : Instant} {job : Job} (valid : job.schedule.Valid)
    (later : after.seconds < u.seconds) (due : job.Due u) :
    ∃ t, candidate after job = some (t, job) ∧ t.nanos = 0 ∧ t.seconds ≤ u.seconds := by
  cases found : job.schedule.next after with
  | none => exact absurd due.2 ((Cron.Schedule.next_eq_none valid).mp found u.seconds later)
  | some t =>
    obtain ⟨whole, -, -, first⟩ := (Cron.Schedule.next_iff valid).mp found
    exact ⟨t, candidate_eq_some.mpr ⟨found, rfl⟩, whole, first u.seconds later due.2⟩

section
variable {jobs : List Job} (valid : ∀ job ∈ jobs, job.schedule.Valid)
include valid

/-- The job that fires next is chosen, and nothing is due before. -/
theorem next_some {after t : Instant} {job : Job} (found : next jobs after = some (t, job)) :
    after.seconds < t.seconds ∧ Chosen jobs t job ∧
      ∀ other ∈ jobs, ∀ u, after.seconds < u.seconds → other.Due u → t.seconds ≤ u.seconds := by
  obtain ⟨front, back, whole, later, least⟩ := earliest_some found
  have whole : jobs.filterMap (candidate after) = front ++ (t, job) :: back := whole
  obtain ⟨ahead, rest, rfl, front', whole⟩ := List.filterMap_eq_append_iff.mp whole
  obtain ⟨passed, job', behind, rfl, passing, found', back'⟩ := List.filterMap_eq_cons_iff.mp whole
  obtain ⟨scheduled, rfl⟩ := candidate_eq_some.mp found'
  have mine := valid job' (by simp)
  obtain ⟨whole, after', holds, -⟩ := (Cron.Schedule.next_iff mine).mp scheduled
  -- whatever stands before the job is due later, if at all
  have before {other : Job} (member : other ∈ ahead ++ passed) {u : Instant}
      (next : after.seconds < u.seconds) (due : other.Due u) : t.seconds < u.seconds := by
    obtain ⟨v, found, whole', early⟩ := candidate_le (valid other (by
      rcases List.mem_append.mp member with one | two
      · simp [one]
      · simp [two])) next due
    rcases List.mem_append.mp member with one | two
    · have inside : (v, other) ∈ front := front' ▸ List.mem_filterMap.mpr ⟨other, one, found⟩
      have := (Instant.before_iff (a := t) (b := v)).mp (later _ inside)
      omega
    · rw [passing other two] at found
      contradiction
  refine ⟨after', ⟨⟨whole, holds⟩, ahead ++ passed, behind, by simp, fun other member due => ?_⟩, ?_⟩
  · exact Int.lt_irrefl _ (before member after' due)
  · intro other member u next due
    rw [← List.append_assoc] at member
    rcases List.mem_append.mp member with one | two
    · exact Int.le_of_lt (before one next due)
    · rcases List.mem_cons.mp two with rfl | two
      · obtain ⟨v, found, -, early⟩ := candidate_le mine next due
        rw [found'] at found
        obtain ⟨rfl, -⟩ := Prod.mk.inj (Option.some.inj found)
        exact early
      · obtain ⟨v, found, whole', early⟩ := candidate_le (valid other (by simp [two])) next due
        have inside : (v, other) ∈ back := back' ▸ List.mem_filterMap.mpr ⟨other, two, found⟩
        have := (Instant.before_iff (a := v) (b := t)).not.mp (least _ inside)
        omega

theorem next_none {after : Instant} (found : next jobs after = none) {job : Job} (member : job ∈ jobs)
    {u : Instant} (later : after.seconds < u.seconds) : ¬ job.Due u := by
  intro due
  obtain ⟨t, candidate', -, -⟩ := candidate_le (valid job member) later due
  have inside : (t, job) ∈ jobs.filterMap (candidate after) :=
    List.mem_filterMap.mpr ⟨job, member, candidate'⟩
  unfold next at found
  change earliest (jobs.filterMap (candidate after)) = none at found
  cases candidates : jobs.filterMap (candidate after) with
  | nil => simp [candidates] at inside
  | cons c rest => simp [candidates, earliest] at found

end

/-! ## One turn -/

/-- A task whose outcome is passed over ends as it did, unless it has failed. -/
private theorem ends_passed {t : Task Unit Dispatched} {log : List Exchange}
    {ending : Except Panic (Except Error Dispatched)} (ends : Task.Ends t log ending) :
    Task.Ends (tryCatch (do let _ ← t) fun _ => return () : Task Unit Unit) log
      (ending.map fun _ => .ok ()) := by
  have forgets := (Task.ends_bind_pure (g := fun _ => ())).mpr ⟨ending, ends, rfl⟩
  cases ending with
  | error cause => exact Program.ends_bind.mpr (.inl ⟨cause, forgets, rfl⟩)
  | ok outcome =>
    refine Program.runs_bind.mpr ⟨(outcome.map fun _ => (), ()), log, [], forgets, ?_, by simp⟩
    cases outcome <;> exact .stay _

/-- What a job dispatches at an instant. -/
def dispatched (engine : Engine) (t : Instant) (job : Job) : Program (Except Error Dispatched × Unit) :=
  engine.dispatch job.code job.version (job.event t) ()

/-- In a turn the time passes until a job is due, and then its event is dispatched. A turn panics when
this does. -/
structure Fired (engine : Engine) (jobs : List Job) (w : World) (t : Instant) (job : Job)
    (ending : Except Panic Unit) (after : World) : Prop where
  picked : next jobs w.clock = some (t, job)
  heard : (turn engine jobs ()).heard w = ⟨.clock, w.clock⟩ :: ⟨.sleep t, ()⟩ :: ⟨.clock, t⟩ ::
    (dispatched engine t job).heard { w with clock := t }
  ran : (turn engine jobs ()).run w = (ending.map fun _ => (.ok true, ()), after)
  ends : ending = ((dispatched engine t job).run { w with clock := t }).1.map fun _ => ()
  fired : after = ((dispatched engine t job).run { w with clock := t }).2

theorem turn_fires (engine : Engine) {jobs : List Job} {w : World} {t : Instant} {job : Job}
    (picked : next jobs w.clock = some (t, job)) (later : w.clock.seconds < t.seconds) :
    Fired engine jobs w t job
      (((dispatched engine t job).run { w with clock := t }).1.map fun _ => ())
      ((dispatched engine t job).run { w with clock := t }).2 := by
  have wakes : w.answer (.sleep t) = ((), { w with clock := t }) := by
    simp [World.answer, Instant.before_iff, later]
  have dispatches := Task.ends_of_program ((dispatched engine t job).ends_heard { w with clock := t })
  have fires : Task.Ends (fireJob engine job)
      (⟨.clock, t⟩ :: (dispatched engine t job).heard { w with clock := t })
      (((dispatched engine t job).run { w with clock := t }).1.map Prod.fst) :=
    Task.ends_answer.mpr dispatches
  have turns : Task.Ends (turn engine jobs) (⟨.clock, w.clock⟩ :: ⟨.sleep t, ()⟩ :: ⟨.clock, t⟩ ::
      (dispatched engine t job).heard { w with clock := t })
      (((dispatched engine t job).run { w with clock := t }).1.map fun _ => .ok true) := by
    refine Task.ends_answer.mpr ?_
    rw [picked]
    refine Task.ends_answer.mpr ((Task.ends_bind_pure (g := fun _ => true)).mpr
      ⟨_, ends_passed fires, ?_⟩)
    cases ((dispatched engine t job).run { w with clock := t }).1 <;> rfl
  have answers : w.Answers (⟨.clock, w.clock⟩ :: ⟨.sleep t, ()⟩ :: ⟨.clock, t⟩ ::
      (dispatched engine t job).heard { w with clock := t })
      ((dispatched engine t job).run { w with clock := t }).2 :=
    ⟨rfl, rfl, wakes ▸ ⟨rfl, Program.answers_heard _ _⟩⟩
  obtain ⟨heard, ran⟩ := Program.heard_of_answers (Task.program_of_ends turns) answers
  refine ⟨picked, heard, ran.trans ?_, rfl, rfl⟩
  cases ((dispatched engine t job).run { w with clock := t }).1 <;> rfl

/-! ## A stretch of time -/

/-- Turns one after the other, as long as the job that fires next is due up to a second `last`, and
until one panics. -/
inductive Stretch (engine : Engine) (jobs : List Job) (last : Int) :
    World → List (Instant × Job) → Except Panic Unit → World → Prop
  | rest {w : World} (beyond : ∀ t job, next jobs w.clock = some (t, job) → last < t.seconds) :
      Stretch engine jobs last w [] (.ok ()) w
  | fire {w v w' : World} {t : Instant} {job : Job} {fired : List (Instant × Job)}
      {ending : Except Panic Unit} (first : Fired engine jobs w t job (.ok ()) v)
      (inside : t.seconds ≤ last) (later : Stretch engine jobs last v fired ending w') :
      Stretch engine jobs last w ((t, job) :: fired) ending w'
  | torn {w v : World} {t : Instant} {job : Job} {cause : Panic}
      (first : Fired engine jobs w t job (.error cause) v) (inside : t.seconds ≤ last) :
      Stretch engine jobs last w [(t, job)] (.error cause) v

/-- The instant lies behind another one, at a second up to `last`. -/
def Within (now : Instant) (last : Int) (t : Instant) : Prop :=
  now.seconds < t.seconds ∧ t.seconds ≤ last

/-- What is fired between an instant and a second `last`. -/
structure Covers (jobs : List Job) (now : Instant) (last : Int) (fired : List (Instant × Job)) :
    Prop where
  mem_iff : ∀ t job, (t, job) ∈ fired ↔ Within now last t ∧ Chosen jobs t job
  inOrder : fired.Pairwise fun a b => a.1.seconds < b.1.seconds

section
variable {engine : Engine} {jobs : List Job} {last : Int} {w v w' : World}
  {fired : List (Instant × Job)} {ending : Except Panic Unit}

theorem Fired.clock (builtIn : engine.BuiltIn) {t : Instant} {job : Job}
    (first : Fired engine jobs w t job ending v) : v.clock = t := by
  rw [first.fired]
  exact Engine.dispatch_clock builtIn _ _ _ _

theorem Fired.unique {t u : Instant} {job other : Job} {ending' : Except Panic Unit} {v' : World}
    (one : Fired engine jobs w t job ending v) (two : Fired engine jobs w u other ending' v') :
    t = u ∧ job = other ∧ ending = ending' ∧ v = v' := by
  obtain ⟨rfl, rfl⟩ := Prod.mk.inj (Option.some.inj (one.picked.symm.trans two.picked))
  exact ⟨rfl, rfl, one.ends.trans two.ends.symm, one.fired.trans two.fired.symm⟩

theorem Stretch.unique {fired' : List (Instant × Job)} {ending' : Except Panic Unit} {v' : World}
    (one : Stretch engine jobs last w fired ending w')
    (two : Stretch engine jobs last w fired' ending' v') :
    fired = fired' ∧ ending = ending' ∧ w' = v' := by
  induction one generalizing fired' with
  | rest beyond =>
    cases two with
    | rest => exact ⟨rfl, rfl, rfl⟩
    | fire first inside | torn first inside =>
      exact absurd (beyond _ _ first.picked) (Int.not_lt.mpr inside)
  | fire first inside _ ih =>
    cases two with
    | rest beyond => exact absurd (beyond _ _ first.picked) (Int.not_lt.mpr inside)
    | fire first' inside' later' =>
      obtain ⟨rfl, rfl, -, rfl⟩ := first.unique first'
      obtain ⟨rfl, rfl, rfl⟩ := ih later'
      exact ⟨rfl, rfl, rfl⟩
    | torn first' => exact nomatch (first.unique first').2.2.1
  | torn first inside =>
    cases two with
    | rest beyond => exact absurd (beyond _ _ first.picked) (Int.not_lt.mpr inside)
    | fire first' => exact nomatch (first.unique first').2.2.1
    | torn first' =>
      obtain ⟨rfl, rfl, same, rfl⟩ := first.unique first'
      exact ⟨rfl, same, rfl⟩

variable (valid : ∀ job ∈ jobs, job.schedule.Valid)
include valid

/-- Every turn takes the time forward, so a stretch comes to its end. -/
theorem exists_stretch (builtIn : engine.BuiltIn) (w : World) :
    ∃ fired ending w', Stretch engine jobs last w fired ending w' := by
  by_cases beyond : ∀ t job, next jobs w.clock = some (t, job) → last < t.seconds
  · exact ⟨[], .ok (), w, .rest beyond⟩
  · simp only [not_forall, Int.not_lt] at beyond
    obtain ⟨t, job, picked, inside⟩ := beyond
    have later := (next_some valid picked).1
    have first := turn_fires engine picked later
    have clock := first.clock builtIn
    cases ends : ((dispatched engine t job).run { w with clock := t }).1.map fun _ => () with
    | ok done =>
      rw [ends] at first
      obtain ⟨fired, ending, w', rest⟩ :=
        exists_stretch builtIn ((dispatched engine t job).run { w with clock := t }).2
      exact ⟨_, ending, w', .fire first inside rest⟩
    | error cause =>
      rw [ends] at first
      exact ⟨_, _, _, .torn first inside⟩
termination_by (last - w.clock.seconds).toNat
decreasing_by
  rw [clock]
  omega

omit valid in
/-- A turn covers the time until it fires, and what is covered after it goes on from there. -/
theorem Covers.fire {t : Instant} {job : Job} (later : w.clock.seconds < t.seconds)
    (inside : t.seconds ≤ last) (chosen : Chosen jobs t job)
    (least : ∀ other ∈ jobs, ∀ u, w.clock.seconds < u.seconds → other.Due u → t.seconds ≤ u.seconds)
    (covers : Covers jobs t last fired) : Covers jobs w.clock last ((t, job) :: fired) := by
  refine ⟨fun u other => ?_, List.pairwise_cons.mpr ⟨fun c member => ?_, covers.inOrder⟩⟩
  · rw [List.mem_cons, covers.mem_iff, Prod.mk.injEq]
    constructor
    · rintro (⟨rfl, rfl⟩ | ⟨⟨behind, within⟩, chosen'⟩)
      · exact ⟨⟨later, inside⟩, chosen⟩
      · exact ⟨⟨Int.lt_trans later behind, within⟩, chosen'⟩
    · rintro ⟨⟨behind, within⟩, chosen'⟩
      rcases Int.lt_or_eq_of_le (least other chosen'.mem u behind chosen'.1) with after | same
      · exact .inr ⟨⟨after, within⟩, chosen'⟩
      · obtain rfl : t = u := by
          obtain ⟨⟨whole, -⟩, -⟩ := chosen
          obtain ⟨⟨whole', -⟩, -⟩ := chosen'
          cases t
          cases u
          simp_all
        exact .inl ⟨rfl, chosen'.unique chosen⟩
  · exact ((covers.mem_iff c.1 c.2).mp member).1.1

theorem Stretch.covers (builtIn : engine.BuiltIn)
    (stretch : Stretch engine jobs last w fired (.ok ()) w') : Covers jobs w.clock last fired := by
  generalize ended : Except.ok () = ending at stretch
  induction stretch with
  | @rest w beyond =>
    refine ⟨fun t job => ⟨nofun, fun ⟨⟨later, inside⟩, chosen⟩ => ?_⟩, .nil⟩
    cases found : next jobs w.clock with
    | none => exact absurd chosen.1 (next_none valid found chosen.mem later)
    | some c =>
      have behind := beyond c.1 c.2 found
      have first := (next_some valid found).2.2 job chosen.mem t later chosen.1
      omega
  | @fire w v w' t job fired _ first inside _ ih =>
    obtain ⟨later, chosen, least⟩ := next_some valid first.picked
    have covers := ih ended
    rw [first.clock builtIn] at covers
    exact covers.fire later inside chosen least
  | torn => contradiction

/-- A stretch that panics covers the time until then. -/
theorem Stretch.covers_torn (builtIn : engine.BuiltIn) {cause : Panic}
    (stretch : Stretch engine jobs last w fired (.error cause) w') :
    ∃ front t job, fired = front ++ [(t, job)] ∧ t.seconds ≤ last ∧
      Covers jobs w.clock t.seconds fired := by
  generalize ended : Except.error cause = ending at stretch
  induction stretch with
  | rest => contradiction
  | @fire w v w' t job fired _ first inside _ ih =>
    obtain ⟨later, chosen, least⟩ := next_some valid first.picked
    obtain ⟨front, u, other, rfl, behind, covers⟩ := ih ended
    rw [first.clock builtIn] at covers
    have after := ((covers.mem_iff u other).mp (by simp)).1.1
    exact ⟨(t, job) :: front, u, other, rfl, behind,
      covers.fire later (Int.le_of_lt after) chosen least⟩
  | @torn w v t job _ first inside =>
    obtain ⟨later, chosen, least⟩ := next_some valid first.picked
    have none : Covers jobs t t.seconds [] :=
      ⟨fun u other => ⟨nofun, fun ⟨⟨behind, within⟩, _⟩ => absurd behind (Int.not_lt.mpr within)⟩, .nil⟩
    exact ⟨[], t, job, rfl, inside, none.fire later (Int.le_refl _) chosen least⟩

end

theorem jobs_valid (config : RoutineConfig) : ∀ job ∈ jobs config, job.schedule.Valid := by
  intro job member
  obtain ⟨c, -, made⟩ := List.mem_filterMap.mp member
  obtain ⟨schedule, read, rfl⟩ := Option.map_eq_some_iff.mp made
  exact Cron.read_valid read

/-- No two jobs are due at one instant. -/
def Apart (jobs : List Job) (now : Instant) (last : Int) : Prop :=
  ∀ a ∈ jobs, ∀ b ∈ jobs, ∀ t, Within now last t → a.Due t → b.Due t → a = b

/-- In a stretch of time all is fired exactly if no two jobs are due at one instant. -/
theorem Covers.complete_iff {jobs : List Job} {now : Instant} {last : Int}
    {fired : List (Instant × Job)} (covers : Covers jobs now last fired) :
    (∀ job ∈ jobs, ∀ t, Within now last t → job.Due t → (t, job) ∈ fired) ↔ Apart jobs now last := by
  constructor
  · intro complete a first b second t within due due'
    have chosen := ((covers.mem_iff t a).mp (complete a first t within due)).2
    exact chosen.unique ((covers.mem_iff t b).mp (complete b second t within due')).2
  · intro apart job member t within due
    obtain ⟨first, chosen⟩ := exists_chosen member due
    obtain rfl := apart job member first chosen.mem t within due chosen.1
    exact (covers.mem_iff t job).mpr ⟨within, chosen⟩

/-- What the routines of a configuration fire from now up to a second `last`. -/
structure FiresInTime (engine : Engine) (jobs : List Job) (w : World) (last : Int) : Prop where
  ends : ∃ fired ending w', Stretch engine jobs last w fired ending w'
  unique : ∀ fired ending w' fired' ending' v', Stretch engine jobs last w fired ending w' →
    Stretch engine jobs last w fired' ending' v' → fired = fired' ∧ ending = ending' ∧ w' = v'
  covers : ∀ fired w', Stretch engine jobs last w fired (.ok ()) w' → Covers jobs w.clock last fired
  complete_iff : ∀ fired w', Stretch engine jobs last w fired (.ok ()) w' →
    ((∀ job ∈ jobs, ∀ t, Within w.clock last t → job.Due t → (t, job) ∈ fired) ↔
      Apart jobs w.clock last)
  /-- A dispatch that panics ends the stretch, which is covered until then. -/
  torn : ∀ fired cause w', Stretch engine jobs last w fired (.error cause) w' →
    ∃ front t job, fired = front ++ [(t, job)] ∧ t.seconds ≤ last ∧
      Covers jobs w.clock t.seconds fired

/-- In a stretch of time each instant at which a job is due is met once, by the first configured of
the jobs that are due, and nothing is fired at other instants; the other jobs that are due at that
instant are passed over. -/
theorem fires_in_time {engine : Engine} (builtIn : engine.BuiltIn) (config : RoutineConfig) (w : World)
    (last : Int) : FiresInTime engine (jobs config) w last where
  ends := exists_stretch (jobs_valid config) builtIn w
  unique _ _ _ _ _ _ one two := one.unique two
  covers _ _ stretch := stretch.covers (jobs_valid config) builtIn
  complete_iff _ _ stretch := (stretch.covers (jobs_valid config) builtIn).complete_iff
  torn _ _ _ stretch := stretch.covers_torn (jobs_valid config) builtIn

end Routine

/-! ### Two jobs for every second -/

namespace Ticks

def everySecond : Cron.Schedule where
  seconds := Cron.Field.sixty.all
  minutes := Cron.Field.sixty.all
  hours := Cron.Field.hours.all
  days := Cron.Field.days.all
  months := Cron.Field.months.all
  weekdays := Cron.Field.weekdays.all
  years := Cron.Field.years.all

def config (name : String) : JobConfig where
  name := name
  schedule := "* * * * * *"
  code := name
  version := none
  organization := "org"
  conversation := "room"
  payload := none

def job (name : String) : Job where
  name := name
  schedule := everySecond
  code := name
  version := none
  scope := { organization := "org", conversation := "room" }
  payload := .empty

def routine : RoutineConfig where
  jobs := [config "first", config "second"]

theorem routine_jobs : Routine.jobs routine = [job "first", job "second"] := by
  have read : Cron.Schedule.read "* * * * * *" = some everySecond := by decide +kernel
  simp [Routine.jobs, routine, Job.ofConfig, config, read, job]

theorem everySecond_holds {second : Nat} (inside : second < 60) : everySecond.Holds second := by
  have start : Time.daysOfDate ⟨(1970 : Nat), 1, 1⟩ = 0 := by decide +kernel
  refine ⟨1970, by decide +kernel, 1, by decide +kernel, 1, by decide +kernel, by decide +kernel,
    by decide +kernel, second, ⟨0, by decide +kernel, 0, by decide +kernel, second, ?_, by simp⟩, ?_⟩
  · exact List.mem_map.mpr ⟨second, by simpa [Cron.Field.sixty] using inside, by simp [Cron.Field.sixty]⟩
  · rw [start]
    simp

/-- Whenever the second job is due, so is the first one. -/
theorem chosen_first {t : Instant} (due : (job "second").Due t) :
    Routine.Chosen (Routine.jobs routine) t (job "first") :=
  ⟨due, [], [job "second"], routine_jobs, by simp⟩

/-- Without a flow to run, nothing that is fired panics. -/
theorem unbroken {engine : Engine} {jobs : List Job} {last : Int} {now : Instant} {w' : World}
    {fired : List (Instant × Job)} {ending : Except Panic Unit}
    (stretch : Routine.Stretch engine jobs last { clock := now } fired ending w') : ending = .ok () := by
  generalize start : ({ clock := now } : World) = w at stretch
  induction stretch generalizing now with
  | rest => rfl
  | fire first _ _ ih =>
    subst start
    exact ih first.fired.symm
  | torn first =>
    subst start
    exact nomatch first.ends

end Ticks

open Ticks in
/-- Of two jobs for every second the first one is fired each time and the second one never. -/
theorem ticks_passed_over :
    (∃ fired w', Routine.Stretch (.standard {}) (Routine.jobs routine) 3 {} fired (.ok ()) w') ∧
    ∀ fired w', Routine.Stretch (.standard {}) (Routine.jobs routine) 3 {} fired (.ok ()) w' →
      (∀ second ∈ [1, 2, 3], (Instant.ofSeconds (second : Nat), job "first") ∈ fired) ∧
      ∀ t, (t, job "second") ∉ fired := by
  have inTime := Routine.fires_in_time (Engine.builtIn_standard {}) routine {} 3
  constructor
  · obtain ⟨fired, ending, w', stretch⟩ := inTime.ends
    obtain rfl := unbroken stretch
    exact ⟨fired, w', stretch⟩
  intro fired w' stretch
  have covers := inTime.covers fired w' stretch
  constructor
  · intro second member
    have within : 0 < second ∧ second ≤ 3 := by
      simp only [List.mem_cons, List.not_mem_nil, or_false] at member
      omega
    have due : (job "second").Due (.ofSeconds second) := ⟨rfl, everySecond_holds (by omega)⟩
    refine (covers.mem_iff _ _).mpr ⟨⟨?_, ?_⟩, chosen_first due⟩
    · exact Int.natCast_pos.mpr within.1
    · exact Int.ofNat_le.mpr within.2
  · intro t missing
    have chosen := ((covers.mem_iff _ _).mp missing).2
    have same := congrArg Job.name (chosen.unique (chosen_first chosen.1))
    exact absurd same (by decide)

end Parley

import Parley.Proofs.Context.Identity
import Parley.Proofs.Engine.AtMostOnce
import Parley.Proofs.Engine.Pass
/-!
# Stretches of runs

A caller does nothing of any run, or it does one stretch of one run: it starts the run or takes it up
where it waited, walks, and tells how the walk has ended (`Errand.does`). What it saves on the way tells
of the run, and a run is not told to be completed at the end of a stretch that has saved a record. Of a
stretch that panics no end is told.
-/
namespace Parley

/-- The run that starts, goes on, is suspended or ends by what the event tells. -/
def RunEvent.milestone? : RunEvent → Option String
  | .nodeFinished .. => none
  | e => e.run?

/-- What is told of a run in an exchange, but for its nodes. -/
def Exchange.told? (run : String) : Exchange → Option RunEvent
  | ⟨.publish e, _⟩ => if e.milestone? = some run then some e else none
  | _ => none

/-- What was told of a run, but for its nodes. -/
def milestones (run : String) (log : List Exchange) : List RunEvent :=
  log.filterMap (Exchange.told? run)

theorem milestones_append (run : String) (log more : List Exchange) :
    milestones run (log ++ more) = milestones run log ++ milestones run more :=
  List.filterMap_append

theorem mem_milestones {run : String} {log : List Exchange} {e : RunEvent} :
    e ∈ milestones run log ↔ ⟨.publish e, ()⟩ ∈ log ∧ e.milestone? = some run := by
  unfold milestones
  rw [List.mem_filterMap]
  constructor
  · rintro ⟨⟨request, answer⟩, member, told⟩
    cases request with
    | publish event =>
      simp only [Exchange.told?, Option.ite_none_right_eq_some, Option.some.injEq] at told
      obtain ⟨same, rfl⟩ := told
      exact ⟨member, same⟩
    | _ => simp [Exchange.told?] at told
  · rintro ⟨member, same⟩
    exact ⟨_, member, by simp [Exchange.told?, same]⟩

theorem milestones_eq_nil {log : List Exchange}
    (quiet : ∀ x ∈ log, ∀ e, x.1 = .publish e → e.milestone? = none) (run : String) :
    milestones run log = [] := by
  refine List.eq_nil_iff_forall_not_mem.mpr fun e member => ?_
  obtain ⟨told, same⟩ := mem_milestones.mp member
  simp [quiet _ told e rfl] at same

/-- Nothing is told of a run, and nothing is saved. -/
def Request.IsIdle : Request → Prop
  | .publish e => e.milestone? = none
  | .save _ => False
  | _ => True

theorem milestones_idle {log : List Exchange} (idle : ∀ x ∈ log, x.1.IsIdle) (run : String) :
    milestones run log = [] :=
  milestones_eq_nil (fun x member e told => by simpa [told, Request.IsIdle] using idle x member) run

theorem unsaved_idle {log : List Exchange} (idle : ∀ x ∈ log, x.1.IsIdle) : Engine.Unsaved log :=
  fun _ _ saved => idle _ saved

theorem Status.milestone_event (run flow : String) (status : Status) :
    (status.event run flow).milestone? = some run := by
  cases status <;> rfl

/-- A walk in which a node suspends the run does not complete it. -/
theorem Status.ofWalk_ne_completed {walk : Walk} {v : Visit} (member : v ∈ walk.visits)
    (suspends : v.suspends = true) : ofWalk walk ≠ .completed := by
  have place : walk.suspendedAt ≠ none := by
    simp only [Walk.suspendedAt, ne_eq, Option.map_eq_none_iff, List.find?_eq_none]
    exact fun none => none v member suspends
  unfold ofWalk
  split
  · simp
  · simp
  · next none => exact absurd none place

/-- How a stretch of a run ends: a walk that has come to its end is told, and one that panics is not. -/
inductive Stretch.Stops (run : String) (log : List Exchange) : Except Panic Unit → List RunEvent → Prop
  | told {flow : String} {status : Status}
      (incomplete : ∀ record, ⟨.save record, .ok ()⟩ ∈ log → status ≠ .completed) :
      Stops run log (.ok ()) [status.event run flow]
  | torn {cause : Panic} : Stops run log (.error cause) []

/-- One stretch of a run: what is told at its start and at its end, and what is saved. -/
structure Stretch (run : String) (first : RunEvent) (last : List RunEvent) (log : List Exchange)
    (ending : Except Panic Unit) : Prop where
  told : ∀ r, milestones r log = if r = run then first :: last else []
  stops : Stretch.Stops run log ending last
  saves : ∀ record done, ⟨.save record, done⟩ ∈ log → ∃ scope, Context.Tells record.snapshot run scope

/-- It is told of a run that it starts, goes on, is suspended or ends. -/
def Concerns (run : String) (log : List Exchange) : Prop := milestones run log ≠ []

section
variable {run flow node : String} {first : RunEvent} {last : List RunEvent} {log : List Exchange}
  {ending : Except Panic Unit} {scope : Scope}

theorem Stretch.Stops.milestone (stops : Stops run log ending last) {e : RunEvent}
    (member : e ∈ last) : e.milestone? = some run := by
  cases stops with
  | told => exact List.mem_singleton.mp member ▸ Status.milestone_event ..
  | torn => contradiction

theorem Stretch.first_of_resumed (stretch : Stretch run first last log ending)
    (told : ⟨.publish (.resumed run flow node), ()⟩ ∈ log) : first = .resumed run flow node := by
  have milestone := mem_milestones.mpr ⟨told, rfl⟩
  rw [stretch.told, if_pos rfl] at milestone
  rcases List.mem_cons.mp milestone with start | stop
  · exact start.symm
  · cases stretch.stops with
    | @told _ status => cases status <;> simp [Status.event] at stop
    | torn => contradiction

theorem Stretch.concerns (stretch : Stretch run first last log ending) : Concerns run log := by
  simp [Concerns, stretch.told]

/-- A walk of a run is a stretch of it, with what is told before it and behind it. -/
theorem Stretch.of_walk {front walked : List Exchange} (idle : ∀ x ∈ front, x.1.IsIdle)
    (begins : first.milestone? = some run) (belongs : ∀ x ∈ walked, x.1.Belongs run scope)
    (stops : Stops run walked ending last) :
    Stretch run first last
      (front ++ ⟨.publish first, ()⟩ :: (walked ++ last.map fun e => ⟨.publish e, ()⟩)) ending := by
  have inWalk (record : Wait.Record) (done : Except Error Unit)
      (saved : ⟨.save record, done⟩ ∈
        front ++ ⟨.publish first, ()⟩ :: (walked ++ last.map fun e => ⟨.publish e, ()⟩)) :
      ⟨.save record, done⟩ ∈ walked := by
    have later := (List.mem_append.mp saved).resolve_left (unsaved_idle idle record done)
    have inside := (List.mem_cons.mp later).resolve_left (by simp)
    exact (List.mem_append.mp inside).resolve_right (by simp)
  have quiet (r : String) : milestones r walked = [] := by
    refine milestones_eq_nil (fun x member e publishes => ?_) r
    obtain ⟨node, type, success, rfl⟩ : ∃ node type success, e = .nodeFinished run node type success := by
      simpa [publishes, Request.Belongs] using belongs x member
    rfl
  refine ⟨fun r => ?_, ?_, fun record done saved => ?_⟩
  · have each : ∀ e ∈ first :: last, e.milestone? = some run :=
      List.forall_mem_cons.mpr ⟨begins, fun e => stops.milestone⟩
    have told (events : List RunEvent) (of : ∀ e ∈ events, e.milestone? = some run) :
        milestones r (events.map fun e => ⟨.publish e, ()⟩) = if r = run then events else [] := by
      split
      · next same =>
        rw [milestones, List.filterMap_map]
        refine (List.filterMap_congr fun e member => ?_).trans List.filterMap_some
        simp [Exchange.told?, of e member, same]
      · next other =>
        rw [milestones, List.filterMap_map]
        exact List.filterMap_eq_nil_iff.mpr fun e member => by
          simp [Exchange.told?, of e member, Ne.symm other]
    have begun := told [first] (by simpa using begins)
    have ended := told last fun e => stops.milestone
    rw [milestones_append, milestones_idle idle, ← List.singleton_append, milestones_append,
      milestones_append, quiet, ended]
    rw [List.map_singleton] at begun
    rw [begun]
    split <;> rfl
  · cases stops with
    | told incomplete => exact .told fun record saved => incomplete record (inWalk record _ saved)
    | torn => exact .torn
  · exact ⟨scope, (belongs _ (inWalk record done saved)).2⟩

end

namespace Engine
variable {engine : Engine} {flow : Flow} {entry run : String} {scope : Scope} {ctx : Context}

/-- A walk of a flow that can be run, from one of its nodes, is a stretch of the run. -/
theorem finish_stretch (builtIn : engine.BuiltIn) (checked : engine.check flow = .ok ())
    (inside : entry ∈ flow.ids) (of : ctx.Of run scope) {front : List Exchange}
    (idle : ∀ x ∈ front, x.1.IsIdle) {first : RunEvent} (begins : first.milestone? = some run)
    {log : List Exchange} {ending : Except Panic (Except Error Outcome)}
    (ends : Task.Ends (engine.finish flow entry ctx) log ending) :
    ∃ last, Stretch run first last (front ++ ⟨.publish first, ()⟩ :: log)
      (ending.map fun _ => ()) := by
  have walks := topWalk_belongs builtIn run scope flow entry
  cases ending with
  | ok result =>
    obtain ⟨outcome, turns, -, finishes⟩ := finish_runs checked inside ends
    obtain ⟨belongs, after, -⟩ := walks.run of (fun _ _ => trivial) finishes.walked
    rw [finishes.log, after.runId]
    refine ⟨[_], .of_walk idle begins belongs (.told fun record saved => ?_)⟩
    obtain ⟨t, member, heard⟩ := List.mem_flatMap.mp saved
    have inTurn := (List.mem_append.mp heard).resolve_right (by simp)
    rw [finishes.status, finishes.executed]
    exact Status.ofWalk_ne_completed (List.mem_map_of_mem member)
      ((turn_saves builtIn finishes.performed member inTurn).2.2 rfl)
  | error cause =>
    rcases Task.panics_bind.mp ends with walked | ⟨_, _, _, _, -, told, -⟩
    · have belongs := walks.panics of (fun _ _ => trivial) (Task.panics_apart.mp walked)
      have torn : Stretch.Stops run log (.error cause) [] := .torn
      have stretch := Stretch.of_walk idle begins belongs torn
      rw [List.map_nil, List.append_nil] at stretch
      exact ⟨[], stretch⟩
    · obtain ⟨_, -, ended⟩ := Task.panics_publish_bind.mp told
      exact absurd ended Task.not_panics_pure

end Engine

namespace Errand
variable {engine : Engine} {errand : Errand} {log : List Exchange} {event : Event}

/-- What a caller does of runs. -/
inductive Does (errand : Errand) (log : List Exchange) (ending : Except Panic Unit) : Prop
  | nothing (idle : ∀ x ∈ log, x.1.IsIdle)
  | starts {run flow : String} {trigger : Trigger} {last : List RunEvent}
      (stretch : Stretch run (.started run flow trigger) last log ending)
      (new : ⟨.identifier, run⟩ ∈ log)
  | goesOn {ctx : Context} {flow : String} {record : Wait.Record} {last : List RunEvent}
      (stretch : Stretch ctx.runId (.resumed ctx.runId flow record.node) last log ending)
      (holds : errand.Holds log record) (claims : ⟨.claim record, .ok true⟩ ∈ log)
      (readable : Context.ofSnapshot record.snapshot = .ok ctx)

private theorem startRun_does (builtIn : engine.BuiltIn) {code : String} {version : Option String}
    (front : List Exchange) {ending : Except Panic (Except Error Dispatched)}
    (idle : ∀ x ∈ front, x.1.IsIdle)
    (starts : Task.Ends (engine.startRun code version event) log ending) :
    Does errand (front ++ log) (ending.map fun _ => ()) := by
  have nothing {rest : List Exchange} (more : ∀ x ∈ rest, x.1.IsIdle) :
      Does errand (front ++ rest) (ending.map fun _ => ()) :=
    .nothing (List.forall_mem_append.mpr ⟨idle, more⟩)
  rcases Engine.startRun_runs starts with ⟨e, rfl, -⟩ | ⟨flow, run, rest, former, rfl, ran, rfl⟩
  · exact nothing (by simp [Request.IsIdle])
  rcases Engine.run_finishes ran with rfl | ⟨entry, rest, checked, found, rfl, ends⟩
  · exact nothing (by simp [Request.IsIdle])
  have more : ∀ x ∈ front ++ [⟨.load code version, .ok flow⟩, ⟨.identifier, run⟩], x.1.IsIdle :=
    List.forall_mem_append.mpr ⟨idle, by simp [Request.IsIdle]⟩
  have begins : (RunEvent.started run flow.code event.trigger).milestone? = some run := rfl
  obtain ⟨last, stretch⟩ := Engine.finish_stretch builtIn checked (Flow.requireEntry_inside found)
    (Context.of_start run flow event) more begins ends
  rw [List.append_assoc] at stretch
  have same : (former.map (Except.map Dispatched.ran)).map (fun _ => ()) = former.map fun _ => () := by
    cases former <;> rfl
  exact .starts (same ▸ stretch) (by simp)

private theorem resumption_does (builtIn : engine.BuiltIn) {record : Wait.Record}
    (front : List Exchange) {ending : Except Panic (Except Error Resumed)}
    (idle : ∀ x ∈ front, x.1.IsIdle) (holds : errand.Holds (front ++ log) record)
    (goes : engine.Resumption record event log ending) :
    Does errand (front ++ log) (ending.map fun _ => ()) := by
  cases goes with
  | @taken now flow ctx _ _ inTime ready goes =>
    obtain ⟨rest, former, rfl, ends, rfl⟩ := Engine.goOn_finishes goes
    obtain ⟨node, waits⟩ := ready.waits
    have of := (Context.of_ofSnapshot (Context.tells_of_ofSnapshot ready.readable)
      ready.readable).resumedBy event
    have more : ∀ x ∈ front ++ [⟨.clock, now⟩,
        ⟨.load record.flowCode (some record.flowVersion), .ok flow⟩, ⟨.claim record, .ok true⟩],
        x.1.IsIdle :=
      List.forall_mem_append.mpr ⟨idle, by simp [Request.IsIdle]⟩
    have begins : (RunEvent.resumed ctx.runId flow.code record.node).milestone? = some ctx.runId := rfl
    obtain ⟨last, stretch⟩ := Engine.finish_stretch builtIn ready.checked (Flow.require_inside waits) of
      more begins ends
    rw [List.append_assoc] at stretch
    have same : (former.map (Except.map Resumed.resumed)).map (fun _ => ()) =
        former.map fun _ => () := by
      cases former <;> rfl
    exact .goesOn (same ▸ stretch) holds (by simp) ready.readable
  | _ =>
    exact .nothing (List.forall_mem_append.mpr ⟨idle, by
      simp [Request.IsIdle, Engine.dropEvent, RunEvent.milestone?, RunEvent.run?]⟩)

/-- A caller does nothing of any run, or one stretch of one run. -/
theorem does (builtIn : engine.BuiltIn) {ending : Except Panic Unit}
    (ends : (errand.program engine).Ends log ending) : Does errand log ending := by
  cases errand with
  | reap =>
    obtain ⟨former, ends, -⟩ := Task.ends_bind_done.mp ends
    refine .nothing ?_
    cases former with
    | ok result =>
      rcases Reaper.once_runs ends with ⟨now, e, rfl, -⟩ | ⟨now, reaped, rfl, -⟩
      · simp [Request.IsIdle]
      · simp [Request.IsIdle, Reaper.event, RunEvent.milestone?, RunEvent.run?]
    | error cause => exact absurd ends Reaper.once_calm
  | resume record event =>
    obtain ⟨former, ran, rfl⟩ := Task.ends_bind_done.mp ends
    exact resumption_does builtIn [] (by simp) rfl (Engine.resume_resumption ran)
  | dispatch code version event =>
    obtain ⟨former, ran, rfl⟩ := Task.ends_bind_done.mp ends
    cases Engine.dispatch_dispatching ran with
    | unfound => exact .nothing (by simp [Request.IsIdle])
    | @resumed _ _ former _ chat goes same =>
      have forgets : (former.map (Except.map Engine.answered)).map (fun _ => ()) =
          former.map fun _ => () := by
        cases former <;> rfl
      rw [same, forgets]
      exact resumption_does builtIn [_] (by simp [Request.IsIdle]) ⟨_, _, rfl⟩ goes
    | unanswered chat starts =>
      exact startRun_does builtIn [_] (by simp [Request.IsIdle]) starts
    | fresh other starts => exact startRun_does builtIn [] (by simp) starts

/-! ## What a caller does of one run -/

/-- What a caller does of one run. -/
inductive Part (errand : Errand) (log : List Exchange) (ending : Except Panic Unit) (run : String) : Prop
  | none (quiet : ¬ Concerns run log)
  | starts {flow : String} {trigger : Trigger} {last : List RunEvent}
      (stretch : Stretch run (.started run flow trigger) last log ending)
      (new : ⟨.identifier, run⟩ ∈ log)
  | goesOn {ctx : Context} {flow : String} {record : Wait.Record} {last : List RunEvent}
      (same : ctx.runId = run)
      (stretch : Stretch run (.resumed run flow record.node) last log ending)
      (holds : errand.Holds log record) (claims : ⟨.claim record, .ok true⟩ ∈ log)
      (readable : Context.ofSnapshot record.snapshot = .ok ctx)

variable {ending : Except Panic Unit}

theorem Does.part (does : errand.Does log ending) (run : String) : errand.Part log ending run := by
  cases does with
  | nothing idle => exact .none (by simpa [Concerns] using milestones_idle idle run)
  | @starts of flow trigger last stretch new =>
    by_cases same : run = of
    · subst same
      exact .starts stretch new
    · exact .none (by simp [Concerns, stretch.told, same])
  | @goesOn ctx flow record last stretch holds claims readable =>
    by_cases same : run = ctx.runId
    · subst same
      exact .goesOn rfl stretch holds claims readable
    · exact .none (by simp [Concerns, stretch.told, same])

/-- Who saves a record does a stretch of the run of which the record tells. -/
theorem Does.concerns (does : errand.Does log ending) {s : Wait.Record} {ctx : Context}
    (saved : ⟨.save s, .ok ()⟩ ∈ log) (read : Context.ofSnapshot s.snapshot = .ok ctx) :
    Concerns ctx.runId log := by
  cases does with
  | nothing idle => exact absurd saved (unsaved_idle idle s _)
  | starts stretch | goesOn stretch =>
    obtain ⟨scope, tells⟩ := stretch.saves s _ saved
    exact (tells ctx read).1 ▸ stretch.concerns

end Errand

end Parley

import Parley.Runner.Builtin
import Parley.Proofs.Context.Cache
import Parley.Proofs.Log
import Parley.Proofs.Runner.Parameters
/-!
# What runners do

For each built-in runner but the one for loops there is a lemma about how it can return. Most of them only
read the context (`Runner.Quiet`), and so does one that calls a flow (`Runner.subFlow_runs`). One that
waits returns in one of five ways (`Runner.WaitMessage.Does`), and one that sets variables has set all of
them or none (`Runner.setVariables_runs`). Only three of them can panic: one that waits
(`Runner.waitMessage_panics`), one that calls a flow (`Runner.subFlow_panics`) and the one for loops.
-/
namespace Parley

/-! ## Events -/

def Exchange.event? : Exchange → Option RunEvent
  | ⟨.publish event, _⟩ => some event
  | _ => none

def events (log : List Exchange) : List RunEvent := log.filterMap Exchange.event?

@[simp] theorem events_nil : events [] = [] := rfl

@[simp] theorem events_append (log more : List Exchange) :
    events (log ++ more) = events log ++ events more := List.filterMap_append

@[simp] theorem events_publish (event : RunEvent) (log : List Exchange) :
    events (⟨.publish event, ()⟩ :: log) = event :: events log := rfl

theorem events_flatMap {α : Type} (f : α → List Exchange) (l : List α) :
    events (l.flatMap f) = l.flatMap fun a => events (f a) := by
  induction l with
  | nil => rfl
  | cons a l ih => simp [ih]

/-! ## Walks within a node -/

/-- A walk, from where it started to what came of it. -/
structure Walked where
  flow : Flow
  entry : String
  appointed : Option Trigger
  before : Context
  log : List Exchange
  ended : Except Error Walk
  after : Context

namespace Walked

def Ran (around : Surroundings) (i : Walked) : Prop :=
  Task.Runs (around.nested i.flow i.entry i.appointed) i.before i.log i.ended i.after

/-- No node of the walk has failed or suspended the run. -/
def Through (i : Walked) : Prop :=
  ∃ walk, i.ended = .ok walk ∧ walk.failed = none ∧ walk.suspendedAt = none

end Walked

/-- A walk that is torn off by a panic, from where it started to what was asked in it. -/
structure TornWalk where
  flow : Flow
  entry : String
  appointed : Option Trigger
  before : Context
  log : List Exchange

def TornWalk.Panics (i : TornWalk) (around : Surroundings) (cause : Panic) : Prop :=
  Task.Panics (around.nested i.flow i.entry i.appointed) i.before i.log cause

namespace Runner

theorem bodyError_eq_none {id : String} {index : Nat} {walk : Walk}
    (ran : Loop.bodyError id index walk = none) : walk.failed = none ∧ walk.suspendedAt = none := by
  unfold Loop.bodyError at ran
  split at ran
  · contradiction
  · contradiction
  · next failed suspended => exact ⟨failed, suspended⟩

theorem callError_eq_none {id code : String} {walk : Walk}
    (ran : SubFlow.callError id code walk = none) : walk.failed = none ∧ walk.suspendedAt = none := by
  unfold SubFlow.callError at ran
  split at ran
  · contradiction
  · contradiction
  · next failed suspended => exact ⟨failed, suspended⟩

/-- A walk adds its lines to the log of a report, and nothing else. -/
theorem logWalk_report (place : String) (visits : List Visit) (r : Report) :
    visits.foldl (fun r v => r.addLine (visitLine place v)) r =
      { r with log := r.log ++ visits.map (visitLine place) } := by
  induction visits generalizing r with
  | nil => simp
  | cons v visits ih =>
    rw [List.foldl_cons, ih]
    simp [Report.addLine]

/-! ## Runners that read -/

/-- From one state to another the context has not changed, nor whose report it is and whether the run
is suspended, and something has been put out unless there was an error. -/
structure Read (s : NodeState) (result : Except Error Unit) (s' : NodeState) : Prop where
  context : s'.context = s.context
  id : s'.report.id = s.report.id
  suspended : s'.report.suspended = s.report.suspended
  answers : result = .ok () → ∃ v, s'.report.result = some v

theorem Read.failed (s : NodeState) (e : Error) : Read s (.error e) s :=
  ⟨rfl, rfl, rfl, by simp⟩

/-- The runner only reads the context. -/
def Reads (runner : Runner) : Prop :=
  ∀ {around call s log result s'}, Task.Runs (runner around call) s log result s' →
    Read s result s'

/-- The runner only reads the context, and it tells of nothing. -/
def Quiet (runner : Runner) : Prop :=
  ∀ {around call s log result s'}, Task.Runs (runner around call) s log result s' →
    events log = [] ∧ Read s result s'

theorem Quiet.reads {runner : Runner} (quiet : Quiet runner) : Reads runner := fun run =>
  (quiet run).2

theorem start_quiet : Quiet start := by
  intro around call s log result s' run
  simp only [start, Task.runs_ofExcept_bind, Task.runs_get_bind, report, Task.runs_modify] at run
  rcases run with ⟨_, -, rfl, rfl, rfl⟩ | ⟨params, -, ⟨_, -, rfl, rfl, rfl⟩ |
    ⟨r, executed, rfl, rfl, rfl⟩⟩
  · exact ⟨rfl, .failed ..⟩
  · exact ⟨rfl, .failed ..⟩
  · unfold Start.execute at executed
    dsimp only at executed
    split at executed
    · obtain rfl := Except.ok.inj executed
      exact ⟨rfl, rfl, rfl, rfl, fun _ => ⟨_, rfl⟩⟩
    · split at executed
      · contradiction
      · obtain rfl := Except.ok.inj executed
        exact ⟨rfl, rfl, rfl, rfl, fun _ => ⟨_, rfl⟩⟩

theorem ifElse_quiet : Quiet ifElse := by
  intro around call s log result s' run
  simp only [ifElse, Task.runs_ofExcept_bind, Task.runs_get_bind, report, Task.runs_modify] at run
  rcases run with ⟨_, -, rfl, rfl, rfl⟩ | ⟨params, -, ⟨_, -, rfl, rfl, rfl⟩ |
    ⟨label, -, rfl, rfl, rfl⟩⟩
  · exact ⟨rfl, .failed ..⟩
  · exact ⟨rfl, .failed ..⟩
  · refine ⟨rfl, rfl, ?id, ?suspended, fun _ => ⟨_, rfl⟩⟩
    all_goals
      unfold IfElse.follow
      cases label.or params.otherwise <;> rfl

theorem finish_quiet : Quiet finish := by
  intro around call s log result s' run
  simp only [finish, Task.runs_ofExcept_bind, Task.runs_get_bind, report, Task.runs_modify] at run
  rcases run with ⟨_, -, rfl, rfl, rfl⟩ | ⟨params, -, ⟨_, -, rfl, rfl, rfl⟩ |
    ⟨outputs, -, rfl, rfl, rfl⟩⟩
  · exact ⟨rfl, .failed ..⟩
  · exact ⟨rfl, .failed ..⟩
  · exact ⟨rfl, rfl, rfl, rfl, fun _ => ⟨_, rfl⟩⟩

theorem code_quiet : Quiet code := by
  intro around call s log result s' run
  simp only [code, Task.runs_ofExcept_bind] at run
  rcases run with ⟨_, -, rfl, rfl, rfl⟩ | ⟨params, -, run⟩
  · exact ⟨rfl, .failed ..⟩
  obtain ⟨answer, rest, rfl, goes⟩ := (Task.runs_answer (.execute _ _ _)).mp run
  cases answer with
  | none =>
    obtain ⟨rfl, rfl, rfl⟩ := Task.runs_throw.mp goes
    exact ⟨rfl, .failed ..⟩
  | some answered =>
    simp only [Task.runs_ofExcept_bind, report, Task.runs_modify] at goes
    rcases goes with ⟨_, -, rfl, rfl, rfl⟩ | ⟨output, -, rfl, rfl, rfl⟩
    · exact ⟨rfl, .failed ..⟩
    · exact ⟨rfl, rfl, rfl, rfl, fun _ => ⟨_, rfl⟩⟩

theorem reply_quiet : Quiet reply := by
  intro around call s log result s' run
  simp only [reply, Task.runs_ofExcept_bind, Task.runs_get_bind, Task.runs_send_bind, report,
    Task.runs_modify] at run
  rcases run with ⟨_, -, rfl, rfl, rfl⟩ | ⟨params, -, ⟨_, -, rfl, rfl, rfl⟩ |
    ⟨v, -, ⟨e, rfl, rfl, rfl⟩ | ⟨_, _, rfl, rfl, rfl, rfl⟩⟩⟩
  · exact ⟨rfl, .failed ..⟩
  · exact ⟨rfl, .failed ..⟩
  · exact ⟨rfl, .failed ..⟩
  · exact ⟨rfl, rfl, rfl, rfl, fun _ => ⟨_, rfl⟩⟩

/-! ## Runners that never panic -/

def Calm (runner : Runner) : Prop :=
  ∀ ⦃around call s log cause⦄, ¬ Task.Panics (runner around call) s log cause

theorem start_calm : Calm start := by simp [Calm, start, report]

theorem ifElse_calm : Calm ifElse := by simp [Calm, ifElse, report]

theorem finish_calm : Calm finish := by simp [Calm, finish, report]

theorem reply_calm : Calm reply := by simp [Calm, reply, report]

theorem setVariables_calm : Calm setVariables := by simp [Calm, setVariables, context, report]

theorem code_calm : Calm code := by
  intro around call s log cause panics
  simp only [code, Task.panics_ofExcept_bind] at panics
  obtain ⟨params, -, panics⟩ := panics
  obtain ⟨answer, rest, -, panics⟩ := (Task.panics_answer (.execute _ _ _)).mp panics
  cases answer <;> simp [report] at panics

/-! ## Calling flows -/

/-- The node has loaded a flow that can be run, and the walk is one of it. -/
structure SubFlow.Called (around : Surroundings) (log : List Exchange) (result : Except Error Unit)
    (i : Walked) : Prop where
  checked : around.check i.flow = .ok ()
  entered : ∃ entry, i.flow.requireEntry = .ok entry ∧ i.entry = entry.id
  ran : i.Ran around
  heard : ∃ code version, log = ⟨.load code version, .ok i.flow⟩ :: i.log
  through : result = .ok () → i.Through

/-- A node that calls a flow only reads the context, for the flow has one of its own. -/
theorem subFlow_runs {around : Surroundings} {call : Call} {s s' : NodeState} {log : List Exchange}
    {result : Except Error Unit} (run : Task.Runs (subFlow around call) s log result s') :
    Read s result s' ∧
      ((events log = [] ∧ ∃ e, result = .error e) ∨ ∃ i, SubFlow.Called around log result i) := by
  simp only [subFlow, Task.runs_ofExcept_bind, Task.runs_load_bind, Task.runs_get_bind] at run
  rcases run with ⟨e, -, rfl, rfl, rfl⟩ | ⟨params, -, ⟨e, rfl, rfl, rfl⟩ | ⟨flow, rest, rfl, run⟩⟩
  · exact ⟨.failed .., .inl ⟨rfl, e, rfl⟩⟩
  · exact ⟨.failed .., .inl ⟨rfl, e, rfl⟩⟩
  rcases run with ⟨e, -, rfl, rfl, rfl⟩ | ⟨_, checked, ⟨e, -, rfl, rfl, rfl⟩ | ⟨entry, found, run⟩⟩
  · exact ⟨.failed .., .inl ⟨rfl, e, rfl⟩⟩
  · exact ⟨.failed .., .inl ⟨rfl, e, rfl⟩⟩
  rcases run with ⟨e, -, rfl, rfl, rfl⟩ | ⟨argument, -, run⟩
  · exact ⟨.failed .., .inl ⟨rfl, e, rfl⟩⟩
  -- the node loads the flow itself, and everything else is asked in the walk
  have called {front : List Exchange} {result : Except Error Unit} {ctx child : Context}
      {walked : Except Error Walk} (ran : Task.Runs (around.nested flow entry.id none) ctx front walked
        child) (through : result = .ok () → ∃ walk, walked = .ok walk ∧ walk.failed = none ∧
          walk.suspendedAt = none) :
      ∃ i, SubFlow.Called around (⟨.load params.code params.version, .ok flow⟩ :: front) result i :=
    ⟨⟨flow, entry.id, none, ctx, front, walked, child⟩, checked, ⟨entry, found, rfl⟩, ran,
      ⟨_, _, rfl⟩, through⟩
  rcases Task.runs_apart_bind.mp run with ⟨e, child, ran, rfl, rfl⟩ |
    ⟨walk, child, front, back, ran, goes, rfl⟩
  · exact ⟨.failed .., .inr (called ran (by simp))⟩
  · simp only [logWalk, report, Task.runs_modify_bind, logWalk_report] at goes
    split at goes
    · obtain ⟨rfl, rfl, rfl⟩ := Task.runs_throw.mp goes
      rw [List.append_nil]
      exact ⟨⟨rfl, rfl, rfl, by simp⟩, .inr (called ran (by simp))⟩
    · next clean =>
      obtain ⟨rfl, rfl, rfl⟩ := Task.runs_modify.mp goes
      rw [List.append_nil]
      exact ⟨⟨rfl, rfl, rfl, fun _ => ⟨_, rfl⟩⟩,
        .inr (called ran fun _ => ⟨walk, rfl, callError_eq_none clean⟩)⟩

/-- A node that calls a flow panics just when the walk of the flow does. -/
theorem subFlow_panics {around : Surroundings} {call : Call} {s : NodeState} {log : List Exchange}
    {cause : Panic} :
    Task.Panics (subFlow around call) s log cause ↔
      ∃ params argument flow entry rest, parameters SubFlow.Params.decoder call = .ok params ∧
        value around s.context params.params = .ok argument ∧
        log = ⟨.load params.code params.version, .ok flow⟩ :: rest ∧
        around.check flow = .ok () ∧ flow.requireEntry = .ok entry ∧
        Task.Panics (around.nested flow entry.id none)
          (s.context.forSubFlow flow (SubFlow.payload argument)) rest cause := by
  simp only [subFlow, Task.panics_ofExcept_bind, Task.panics_load_bind, Task.panics_get_bind]
  constructor
  · rintro ⟨params, read, flow, rest, rfl, _, checked, entry, found, argument, given, panics⟩
    refine ⟨params, argument, flow, entry, rest, read, given, rfl, checked, found, ?_⟩
    rcases Task.panics_bind.mp panics with walked | ⟨⟨walk, child⟩, _, _, _, -, goes, -⟩
    · exact Task.panics_apart.mp walked
    · simp only [logWalk, report, Task.panics_modify_bind] at goes
      split at goes
      · exact absurd goes Task.not_panics_throw
      · exact absurd goes Task.not_panics_modify
  · rintro ⟨params, argument, flow, entry, rest, read, given, rfl, checked, found, panics⟩
    exact ⟨params, read, flow, rest, rfl, (), checked, entry, found, argument, given,
      Task.panics_bind.mpr (.inl (Task.panics_apart.mpr panics))⟩

/-! ## Waiting -/

namespace WaitMessage

/-- The record that a node saves when it has to wait. -/
def saved (call : Call) (s : NodeState) (timeout : Option Int) (now : Instant) (id : String) :
    Wait.Record :=
  record id now timeout call.node.id s.context.snapshot.2 s.context.snapshot.1

/-- What a node asks for when it has to wait. -/
def asked (record : Wait.Record) (now : Instant) (id : String) (done : Except Error Unit) :
    List Exchange :=
  [⟨.clock, now⟩, ⟨.identifier, id⟩, ⟨.save record, done⟩]

/-- How a node that waits ends when it does not panic. -/
inductive Does (call : Call) (s : NodeState) :
    List Exchange → Except Error Unit → NodeState → Prop
  /-- The walk starts with it: it has waited. -/
  | waited : call.isFirst = true → Does call s [] (.ok ())
    { s with report := s.report.withResult (triggerOutput s.context s.context.trigger) }
  | nested : call.isFirst = false → call.maySuspend = false →
    Does call s [] (.error (.cannotSuspend (.nested call.node.id))) s
  | unread {e : Error} : call.maySuspend = true → Does call s [] (.error e) s
  | unsaved {timeout : Option Int} {now : Instant} {id : String} {e : Error} :
    call.maySuspend = true →
    Does call s (asked (saved call s timeout now id) now id (.error e)) (.error e)
      { s with context := s.context.snapshot.2 }
  | suspended {timeout : Option Int} {now : Instant} {id : String} : call.maySuspend = true →
    Does call s (asked (saved call s timeout now id) now id (.ok ())) (.ok ())
      { context := s.context.snapshot.2,
        report := (s.report.addLine (waitLine timeout)).suspend }

end WaitMessage

/-- A node that waits ends in one of these ways. -/
theorem waitMessage_does {around : Surroundings} {call : Call} {s s' : NodeState}
    {log : List Exchange} {result : Except Error Unit}
    (run : Task.Runs (waitMessage around call) s log result s') :
    WaitMessage.Does call s log result s' := by
  unfold waitMessage at run
  split at run
  · next first =>
    obtain ⟨rfl, rfl, rfl⟩ := Task.runs_modify.mp (Task.runs_get_bind.mp run)
    exact .waited first
  next reached =>
  unfold WaitMessage.suspend at run
  split at run
  · next nested =>
    rcases Task.runs_bind.mp run with ⟨e, ended, rfl⟩ | ⟨_, _, _, _, ended, -⟩
    · obtain ⟨rfl, same, rfl⟩ := Task.runs_throw.mp ended
      rw [Except.error.inj same]
      exact .nested (by simpa using reached) (by simpa using nested)
    · exact absurd (Task.runs_throw.mp ended).2.1 (by simp)
  next may =>
  have may : call.maySuspend = true := by simpa using may
  simp only [Task.runs_ofExcept_bind, Task.runs_clock_bind, Task.runs_identifier_bind,
    Task.runs_ofChecked_bind, Task.runs_get_bind, context, Task.runs_modify_bind,
    Task.runs_save_bind, report, Task.runs_modify] at run
  rcases run with ⟨e, -, rfl, rfl, rfl⟩ | ⟨params, -, now, _, rfl, id, _, rfl, timeout, -,
    ⟨e, rfl, rfl, rfl⟩ | ⟨⟨⟩, _, rfl, rfl, rfl, rfl⟩⟩
  · exact .unread may
  · exact .unsaved may
  · exact .suspended may

/-- A node that waits panics when the second at which its wait ends does not fit, and that is before it
saves a record. -/
theorem waitMessage_panics {around : Surroundings} {call : Call} {s : NodeState}
    {log : List Exchange} {cause : Panic} :
    Task.Panics (waitMessage around call) s log cause ↔
      call.isFirst = false ∧ call.maySuspend = true ∧ ∃ params now id,
        parameters WaitMessage.Params.decoder call = .ok params ∧
        WaitMessage.expiry now params.timeout = .error cause ∧
        log = [⟨.clock, now⟩, ⟨.identifier, id⟩] := by
  cases first : call.isFirst with
  | true => simp [waitMessage, first, report]
  | false =>
    cases may : call.maySuspend with
    | false => simp [waitMessage, WaitMessage.suspend, first, may]
    | true =>
      simp only [waitMessage, WaitMessage.suspend, first, may, Bool.not_true, Bool.false_eq_true,
        if_false, Task.panics_ofExcept_bind, Task.panics_clock_bind, Task.panics_identifier_bind,
        Task.panics_ofChecked_bind, Task.panics_get_bind, context, Task.panics_modify_bind,
        Task.panics_save_bind, report, Task.not_panics_modify, and_false, exists_false, or_false,
        true_and]
      constructor
      · rintro ⟨params, read, now, _, rfl, id, _, rfl, ends, rfl⟩
        exact ⟨params, now, id, read, ends, rfl⟩
      · rintro ⟨params, now, id, read, ends, rfl⟩
        exact ⟨params, read, now, _, rfl, id, _, rfl, ends, rfl⟩

/-! ## Variables -/

/-- A node that sets variables sets all of them, and it fails before it has set the first. -/
theorem setVariables_runs {around : Surroundings} {call : Call} {s s' : NodeState}
    {log : List Exchange} {result : Except Error Unit}
    (run : Task.Runs (setVariables around call) s log result s') :
    log = [] ∧ ((∃ e, result = .error e ∧ s' = s) ∨
      ∃ params assigned, call.node.params.decode SetVariables.Params.decoder = .ok params ∧
        values around s.context params.assignments = .ok assigned ∧ result = .ok () ∧
        s'.context = SetVariables.assign s.context assigned ∧
        s'.report = s.report.withResult (.obj assigned)) := by
  simp only [setVariables, Task.runs_ofExcept_bind, Task.runs_get_bind, context,
    Task.runs_modify_bind, report, Task.runs_modify] at run
  rcases run with ⟨e, -, rfl, rfl, rfl⟩ | ⟨params, read, ⟨e, -, rfl, rfl, rfl⟩ |
    ⟨assigned, resolved, rfl, rfl, rfl⟩⟩
  · exact ⟨rfl, .inl ⟨e, rfl, rfl⟩⟩
  · exact ⟨rfl, .inl ⟨e, rfl, rfl⟩⟩
  · exact ⟨rfl, .inr ⟨params, assigned, decode_of_parameters read, resolved, rfl, rfl, rfl⟩⟩

end Runner

end Parley

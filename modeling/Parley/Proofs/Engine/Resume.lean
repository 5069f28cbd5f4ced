import Parley.Engine.Dispatch
import Parley.Engine.Reaper
import Parley.Proofs.Log
/-!
# What happens when a suspended run is taken up

All ways that taking up a record can go, with what is asked on each of them (`Engine.Resumption`): the
record has expired, the run cannot go on, the claim fails or is lost, or the run goes on. Nothing of
a run is asked before its record is claimed, and nothing panics but a run that goes on.
-/
namespace Parley

namespace Engine
variable {engine : Engine} {record : Wait.Record} {event : Event}

/-- The event that tells that a record could not be taken up. -/
def dropEvent (record : Wait.Record) : RunEvent :=
  .resumeDropped record.conversation record.node

/-- The run of a record can go on: its flow is one that can be run and has the node that waits, and
the context can be read. -/
structure Ready (engine : Engine) (record : Wait.Record) (flow : Flow) (ctx : Context) : Prop where
  checked : engine.check flow = .ok ()
  waits : ∃ node, flow.require record.node = .ok node
  readable : Context.ofSnapshot record.snapshot = .ok ctx

/-- What makes it impossible for the run of a record to go on. -/
inductive Refuses (engine : Engine) (record : Wait.Record) (flow : Flow) (e : Error) : Prop
  | flow (unchecked : engine.check flow = .error e)
  | node (missing : flow.require record.node = .error e)
  | snapshot (unreadable : Context.ofSnapshot record.snapshot = .error e)

/-- A run that goes on where it waited. -/
def goOn (engine : Engine) (record : Wait.Record) (event : Event) (flow : Flow) (ctx : Context) :
    Task Unit Resumed := do
  Task.publish (.resumed ctx.runId flow.code record.node)
  return .resumed (← engine.finish flow record.node (ctx.resumedBy event))

/-- The ways that taking up a record can go, each with its log and how it ends. -/
inductive Resumption (engine : Engine) (record : Wait.Record) (event : Event) :
    List Exchange → Except Panic (Except Error Resumed) → Prop
  | expired {now : Instant} {won : Bool} (late : record.isExpired now = true) :
      Resumption engine record event
        [⟨.clock, now⟩, ⟨.claim record, .ok won⟩, ⟨.publish (dropEvent record), ()⟩]
        (.ok (.ok .dropped))
  | expiredFailed {now : Instant} {e : Error} (late : record.isExpired now = true) :
      Resumption engine record event [⟨.clock, now⟩, ⟨.claim record, .error e⟩] (.ok (.error e))
  | unloaded {now : Instant} {e : Error} (inTime : record.isExpired now = false) :
      Resumption engine record event
        [⟨.clock, now⟩, ⟨.load record.flowCode (some record.flowVersion), .error e⟩] (.ok (.error e))
  | refused {now : Instant} {flow : Flow} {e : Error} (inTime : record.isExpired now = false)
      (refuses : Refuses engine record flow e) :
      Resumption engine record event
        [⟨.clock, now⟩, ⟨.load record.flowCode (some record.flowVersion), .ok flow⟩] (.ok (.error e))
  | unclaimed {now : Instant} {flow : Flow} {ctx : Context} {e : Error}
      (inTime : record.isExpired now = false) (ready : Ready engine record flow ctx) :
      Resumption engine record event
        [⟨.clock, now⟩, ⟨.load record.flowCode (some record.flowVersion), .ok flow⟩,
          ⟨.claim record, .error e⟩] (.ok (.error e))
  | lost {now : Instant} {flow : Flow} {ctx : Context} (inTime : record.isExpired now = false)
      (ready : Ready engine record flow ctx) :
      Resumption engine record event
        [⟨.clock, now⟩, ⟨.load record.flowCode (some record.flowVersion), .ok flow⟩,
          ⟨.claim record, .ok false⟩, ⟨.publish (dropEvent record), ()⟩] (.ok (.ok .dropped))
  | taken {now : Instant} {flow : Flow} {ctx : Context} {log : List Exchange}
      {ending : Except Panic (Except Error Resumed)} (inTime : record.isExpired now = false)
      (ready : Ready engine record flow ctx)
      (goes : Task.Ends (engine.goOn record event flow ctx) log ending) :
      Resumption engine record event
        ([⟨.clock, now⟩, ⟨.load record.flowCode (some record.flowVersion), .ok flow⟩,
          ⟨.claim record, .ok true⟩] ++ log) ending

private theorem drop_runs {log : List Exchange} {result : Except Error Resumed} :
    Task.Runs (drop record) () log result () ↔
      log = [⟨.publish (dropEvent record), ()⟩] ∧ result = .ok .dropped := by
  simp only [drop, dropEvent, Task.runs_publish_bind, Task.runs_pure]
  constructor
  · rintro ⟨_, rfl, rfl, rfl, -⟩
    exact ⟨rfl, rfl⟩
  · rintro ⟨rfl, rfl⟩
    exact ⟨[], rfl, rfl, rfl, trivial⟩

private theorem drop_calm {log : List Exchange} {cause : Panic} :
    ¬ Task.Panics (drop record) () log cause := by
  intro run
  obtain ⟨_, -, ended⟩ := Task.panics_publish_bind.mp run
  exact Task.not_panics_pure ended

private theorem resume_runs {log : List Exchange} {result : Except Error Resumed}
    (run : Task.Runs (engine.resume record event) () log result ()) :
    Resumption engine record event log (.ok result) := by
  simp only [resume, Task.runs_clock_bind] at run
  obtain ⟨now, log, rfl, run⟩ := run
  by_cases late : record.isExpired now = true
  · simp only [late, if_true, Task.runs_claim_bind, drop_runs] at run
    rcases run with ⟨e, rfl, rfl, -⟩ | ⟨won, _, rfl, rfl, rfl⟩
    · exact .expiredFailed late
    · exact .expired late
  · have inTime : record.isExpired now = false := by simpa using late
    simp only [inTime, Bool.false_eq_true, if_false, Task.runs_load_bind, Task.runs_ofExcept_bind,
      Task.runs_claim_bind] at run
    rcases run with ⟨e, rfl, rfl, -⟩ | ⟨flow, log, rfl, run⟩
    · exact .unloaded inTime
    rcases run with ⟨e, unchecked, rfl, rfl, -⟩ | ⟨_, checked, run⟩
    · exact .refused inTime (.flow unchecked)
    rcases run with ⟨e, missing, rfl, rfl, -⟩ | ⟨node, waits, run⟩
    · exact .refused inTime (.node missing)
    rcases run with ⟨e, unreadable, rfl, rfl, -⟩ | ⟨ctx, readable, run⟩
    · exact .refused inTime (.snapshot unreadable)
    have ready : Ready engine record flow ctx := ⟨checked, ⟨node, waits⟩, readable⟩
    rcases run with ⟨e, rfl, rfl, -⟩ | ⟨won, log, rfl, run⟩
    · exact .unclaimed inTime ready
    cases won with
    | true => exact .taken inTime ready run
    | false =>
      simp only [Bool.false_eq_true, if_false, drop_runs] at run
      obtain ⟨rfl, rfl⟩ := run
      exact .lost inTime ready

private theorem resume_panics {log : List Exchange} {cause : Panic}
    (run : Task.Panics (engine.resume record event) () log cause) :
    Resumption engine record event log (.error cause) := by
  simp only [resume, Task.panics_clock_bind] at run
  obtain ⟨now, log, rfl, run⟩ := run
  by_cases late : record.isExpired now = true
  · simp [late, drop_calm] at run
  · have inTime : record.isExpired now = false := by simpa using late
    simp only [inTime, Bool.false_eq_true, if_false, Task.panics_load_bind,
      Task.panics_ofExcept_bind, Task.panics_claim_bind] at run
    obtain ⟨flow, _, rfl, _, checked, node, waits, ctx, readable, won, log, rfl, run⟩ := run
    cases won with
    | true => exact .taken inTime ⟨checked, ⟨node, waits⟩, readable⟩ run
    | false => exact absurd run drop_calm

/-- Taking up a record goes one of these ways. -/
theorem resume_resumption {log : List Exchange} {ending : Except Panic (Except Error Resumed)}
    (ends : Task.Ends (engine.resume record event) log ending) :
    Resumption engine record event log ending := by
  cases ending with
  | ok result => exact resume_runs ends
  | error cause => exact resume_panics ends

/-- A resume in time that finds the flow and wins its claim is the run that goes on. -/
theorem resume_taken {now : Instant} {flow : Flow} {ctx : Context} {log : List Exchange}
    {ending : Except Panic (Except Error Resumed)} (inTime : record.isExpired now = false)
    (ready : Ready engine record flow ctx) :
    Task.Ends (engine.resume record event) ([⟨.clock, now⟩,
        ⟨.load record.flowCode (some record.flowVersion), .ok flow⟩, ⟨.claim record, .ok true⟩] ++ log)
        ending ↔
      Task.Ends (engine.goOn record event flow ctx) log ending := by
  obtain ⟨node, waits⟩ := ready.waits
  cases ending with
  | ok result =>
    simp [Task.Ends, resume, goOn, inTime, waits, ready.checked, ready.readable, and_assoc]
  | error cause =>
    simp [Task.Ends, resume, goOn, inTime, waits, ready.checked, ready.readable, and_assoc]

/-- What becomes of an event that has found a record. -/
def answered : Resumed → Dispatched
  | .resumed outcome => .resumed outcome
  | .dropped => .dropped

/-- A message that finds a record is dispatched as the record is taken up. -/
private theorem dispatch_found {code : String} {version : Option String} {log : List Exchange}
    {ending : Except Panic (Except Error Dispatched)} (chat : event.trigger = .chatMessage) :
    Task.Ends (engine.dispatch code version event) (⟨.find event.scope, .ok (some record)⟩ :: log)
        ending ↔
      ∃ former, Task.Ends (engine.resume record event) log former ∧
        ending = former.map (Except.map answered) := by
  rw [← Task.ends_bind_pure]
  simp only [dispatch, waiting, chat, if_true, Task.ends_find_bind]
  refine iff_of_eq
    (congrArg (fun next => Task.Ends (engine.resume record event >>= next) log ending) ?_)
  funext resumed
  cases resumed <;> rfl

/-- A message that finds the record of a run that can go on, in time, and wins its claim takes up the
run. -/
theorem dispatch_taken {now : Instant} {flow : Flow} {ctx : Context} {log : List Exchange}
    {ending : Except Panic (Except Error Resumed)} (chat : event.trigger = .chatMessage)
    (inTime : record.isExpired now = false) (ready : Ready engine record flow ctx)
    (goes : Task.Ends (engine.goOn record event flow ctx) log ending) (code : String)
    (version : Option String) :
    Task.Ends (engine.dispatch code version event) ([⟨.find event.scope, .ok (some record)⟩,
        ⟨.clock, now⟩, ⟨.load record.flowCode (some record.flowVersion), .ok flow⟩,
        ⟨.claim record, .ok true⟩] ++ log) (ending.map (Except.map answered)) :=
  (dispatch_found chat).mpr ⟨ending, (resume_taken inTime ready).mpr goes, rfl⟩

/-- A run that starts asks for its flow first. -/
theorem startRun_loads {code : String} {version : Option String} {log : List Exchange}
    {ending : Except Panic (Except Error Dispatched)}
    (starts : Task.Ends (engine.startRun code version event) log ending) :
    ∃ loaded rest, log = ⟨.load code version, loaded⟩ :: rest := by
  cases ending with
  | ok result =>
    simp only [Task.Ends, startRun, Task.runs_load_bind] at starts
    rcases starts with ⟨e, rfl, -⟩ | ⟨flow, rest, rfl, -⟩ <;> exact ⟨_, _, rfl⟩
  | error cause =>
    simp only [Task.Ends, startRun, Task.panics_load_bind] at starts
    obtain ⟨flow, rest, rfl, -⟩ := starts
    exact ⟨_, _, rfl⟩

/-- A run that starts has its flow and an identifier. -/
theorem startRun_runs {code : String} {version : Option String} {log : List Exchange}
    {ending : Except Panic (Except Error Dispatched)}
    (starts : Task.Ends (engine.startRun code version event) log ending) :
    (∃ e, log = [⟨.load code version, .error e⟩] ∧ ending = .ok (.error e)) ∨
      ∃ flow run rest former, log = ⟨.load code version, .ok flow⟩ :: ⟨.identifier, run⟩ :: rest ∧
        Task.Ends (engine.run flow (.start run flow event)) rest former ∧
        ending = former.map (Except.map Dispatched.ran) := by
  obtain ⟨e, rfl, rfl⟩ | ⟨flow, run, rest, rfl, later⟩ :
      (∃ e, log = [⟨.load code version, .error e⟩] ∧ ending = .ok (.error e)) ∨
        ∃ flow run rest, log = ⟨.load code version, .ok flow⟩ :: ⟨.identifier, run⟩ :: rest ∧
          Task.Ends (engine.run flow (.start run flow event) >>= fun outcome => pure (.ran outcome))
            rest ending := by
    cases ending with
    | ok result =>
      simp only [Task.Ends, startRun, Task.runs_load_bind, Task.runs_identifier_bind] at starts
      rcases starts with ⟨e, rfl, rfl, -⟩ | ⟨flow, _, rfl, run, rest, rfl, later⟩
      · exact .inl ⟨e, rfl, rfl⟩
      · exact .inr ⟨flow, run, rest, rfl, later⟩
    | error cause =>
      simp only [Task.Ends, startRun, Task.panics_load_bind, Task.panics_identifier_bind] at starts
      obtain ⟨flow, _, rfl, run, rest, rfl, later⟩ := starts
      exact .inr ⟨flow, run, rest, rfl, later⟩
  · exact .inl ⟨e, rfl, rfl⟩
  · obtain ⟨former, ran, same⟩ := Task.ends_bind_pure.mp later
    exact .inr ⟨flow, run, rest, former, rfl, ran, same⟩

/-- The ways that dispatching an event can go: the search for a waiting run fails, it finds one, or a
run of the flow starts. -/
inductive Dispatching (engine : Engine) (code : String) (version : Option String) (event : Event) :
    List Exchange → Except Panic (Except Error Dispatched) → Prop
  | unfound {e : Error} (chat : event.trigger = .chatMessage) :
      Dispatching engine code version event [⟨.find event.scope, .error e⟩] (.ok (.error e))
  | resumed {record : Wait.Record} {log : List Exchange}
      {former : Except Panic (Except Error Resumed)} {ending : Except Panic (Except Error Dispatched)}
      (chat : event.trigger = .chatMessage) (goes : Resumption engine record event log former)
      (ends : ending = former.map (Except.map answered)) :
      Dispatching engine code version event (⟨.find event.scope, .ok (some record)⟩ :: log) ending
  | unanswered {log : List Exchange} {ending : Except Panic (Except Error Dispatched)}
      (chat : event.trigger = .chatMessage)
      (starts : Task.Ends (engine.startRun code version event) log ending) :
      Dispatching engine code version event (⟨.find event.scope, .ok none⟩ :: log) ending
  | fresh {log : List Exchange} {ending : Except Panic (Except Error Dispatched)}
      (other : event.trigger ≠ .chatMessage)
      (starts : Task.Ends (engine.startRun code version event) log ending) :
      Dispatching engine code version event log ending

/-- Dispatching an event goes one of these ways. -/
theorem dispatch_dispatching {code : String} {version : Option String} {log : List Exchange}
    {ending : Except Panic (Except Error Dispatched)}
    (ends : Task.Ends (engine.dispatch code version event) log ending) :
    Dispatching engine code version event log ending := by
  by_cases chat : event.trigger = .chatMessage
  · obtain ⟨e, rfl, rfl⟩ | ⟨found, log, rfl⟩ :
        (∃ e, log = [⟨.find event.scope, .error e⟩] ∧ ending = .ok (.error e)) ∨
          ∃ found rest, log = ⟨.find event.scope, .ok found⟩ :: rest := by
      cases ending with
      | ok result =>
        simp only [Task.Ends, dispatch, waiting, chat, if_true, Task.runs_find_bind] at ends
        rcases ends with ⟨e, rfl, rfl, -⟩ | ⟨found, rest, rfl, -⟩
        · exact .inl ⟨e, rfl, rfl⟩
        · exact .inr ⟨found, rest, rfl⟩
      | error cause =>
        simp only [Task.Ends, dispatch, waiting, chat, if_true, Task.panics_find_bind] at ends
        obtain ⟨found, rest, rfl, -⟩ := ends
        exact .inr ⟨found, rest, rfl⟩
    · exact .unfound chat
    cases found with
    | some record =>
      obtain ⟨former, taken, same⟩ := (dispatch_found chat).mp ends
      exact .resumed chat (resume_resumption taken) same
    | none =>
      simp only [dispatch, waiting, chat, if_true, Task.ends_find_bind] at ends
      exact .unanswered chat ends
  · simp only [dispatch, waiting, chat, if_false, pure_bind] at ends
    exact .fresh chat ends

end Engine

namespace Reaper

theorem announce_runs {records : List Wait.Record} {log : List Exchange}
    {result : Except Error Unit} :
    Task.Runs (announce records) () log result () ↔
      log = records.map (fun r => (⟨.publish (event r), ()⟩ : Exchange)) ∧ result = .ok () := by
  induction records generalizing log with
  | nil => simp [announce]
  | cons r records ih =>
    simp only [announce, Task.runs_publish_bind, ih, List.map_cons]
    constructor
    · rintro ⟨_, rfl, rfl, rfl⟩
      exact ⟨rfl, rfl⟩
    · rintro ⟨rfl, rfl⟩
      exact ⟨_, rfl, rfl, rfl⟩

private theorem announce_calm {records : List Wait.Record} {log : List Exchange} {cause : Panic} :
    ¬ Task.Panics (announce records) () log cause := by
  induction records generalizing log with
  | nil => exact Task.not_panics_pure
  | cons r records ih =>
    intro run
    obtain ⟨rest, -, later⟩ := Task.panics_publish_bind.mp run
    exact ih later

/-- A reaper does not panic. -/
theorem once_calm {log : List Exchange} {cause : Panic} : ¬ Task.Panics once () log cause := by
  intro run
  simp only [once, Task.panics_clock_bind, Task.panics_reap_bind] at run
  obtain ⟨now, _, -, reaped, _, -, run⟩ := run
  rcases Task.panics_bind.mp run with announced | ⟨_, _, _, _, -, ended, -⟩
  · exact announce_calm announced
  · exact Task.not_panics_pure ended

/-- A reaper reaps once, at the time it is told, and tells of each record. -/
theorem once_runs {log : List Exchange} {result : Except Error (List Wait.Record)}
    (run : Task.Runs once () log result ()) :
    (∃ now e, log = [⟨.clock, now⟩, ⟨.reap now, .error e⟩] ∧ result = .error e) ∨
      ∃ now reaped, log = ⟨.clock, now⟩ :: ⟨.reap now, .ok reaped⟩ ::
        reaped.map (fun r => (⟨.publish (event r), ()⟩ : Exchange)) ∧ result = .ok reaped := by
  simp only [once, Task.runs_clock_bind, Task.runs_reap_bind] at run
  obtain ⟨now, _, rfl, ⟨e, rfl, rfl, -⟩ | ⟨reaped, _, rfl, run⟩⟩ := run
  · exact .inl ⟨now, e, rfl, rfl⟩
  · rcases Task.runs_bind.mp run with ⟨e, announced, rfl⟩ | ⟨_, _, _, _, announced, ended, rfl⟩
    · exact absurd (announce_runs.mp announced).2 (by simp)
    · obtain ⟨rfl, rfl, -⟩ := Task.runs_pure.mp ended
      obtain ⟨rfl, -⟩ := announce_runs.mp announced
      exact .inr ⟨now, reaped, by simp, rfl⟩

end Reaper

end Parley

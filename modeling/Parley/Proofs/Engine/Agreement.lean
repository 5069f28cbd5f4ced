import Parley.Proofs.Engine.Failures
import Parley.Proofs.Engine.Telling
/-!
# Outcomes, visits and events agree

What a run hands out when its walk has come to its end agrees with what it has told and saved
(`Engine.agreement`). It tells how it begins, of the nodes that ran, each after the walks within it, and
how it ends. It has failed with the first node that failed; else it is suspended at the first node that
saved a record; else it is completed. Only a run from a node of the caller's choice does not tell that it
begins (`midway_unannounced`). One that panics has no outcome and tells of no end.
-/
namespace Parley

/-! ## How a walk has ended -/

namespace Walk
variable {walk : Walk} {node reason : String}

/-- The report of each node says whether the node has failed. -/
def Reports (walk : Walk) : Prop := ∀ v ∈ walk.visits, v.report.success = v.failure.isNone

theorem Reports.failed_eq_none (reports : walk.Reports) :
    walk.failed = none ↔ ∀ v ∈ walk.visits, v.report.success = true := by
  simp only [failed, List.findSome?_eq_none_iff, Option.map_eq_none_iff]
  exact forall₂_congr fun v member => by simp [reports v member]

theorem Reports.failed_eq_some (reports : walk.Reports) : walk.failed = some (node, reason) ↔
    ∃ front v back, walk.visits = front ++ v :: back ∧ (∀ u ∈ front, u.report.success = true) ∧
      v.report.success = false ∧ v.failure = some reason ∧ v.id = node := by
  simp only [failed, List.findSome?_eq_some_iff, Option.map_eq_some_iff, Option.map_eq_none_iff,
    Prod.mk.injEq]
  constructor
  · rintro ⟨front, v, back, whole, ⟨_, fails, named, rfl⟩, clean⟩
    have told : ∀ u ∈ front ++ v :: back, u.report.success = u.failure.isNone := whole ▸ reports
    refine ⟨front, v, back, whole, fun u member => ?_, ?_, fails, named⟩
    · simp [told u (List.mem_append_left _ member), clean u member]
    · simp [told v (by simp), fails]
  · rintro ⟨front, v, back, whole, clean, -, fails, named⟩
    have told : ∀ u ∈ front ++ v :: back, u.report.success = u.failure.isNone := whole ▸ reports
    refine ⟨front, v, back, whole, ⟨reason, fails, named, rfl⟩, fun u member => ?_⟩
    simpa [clean u member] using told u (List.mem_append_left _ member)

theorem suspendedAt_eq_head :
    walk.suspendedAt = ((walk.visits.filter Visit.suspends).map Visit.id).head? := by
  simp [suspendedAt]

end Walk

namespace Status
variable {walk : Walk}

theorem ofWalk_failed {node reason : String} :
    ofWalk walk = .failed node reason ↔ walk.failed = some (node, reason) := by
  unfold ofWalk
  split <;> simp_all

theorem ofWalk_fails (reports : walk.Reports) :
    (∃ node reason, ofWalk walk = .failed node reason) ↔ ∃ v ∈ walk.visits, v.report.success = false := by
  have some : (∃ node reason, ofWalk walk = .failed node reason) ↔ walk.failed ≠ none := by
    simp [ofWalk_failed, Option.ne_none_iff_exists']
  rw [some, Ne, reports.failed_eq_none]
  simp

theorem ofWalk_suspended {node : String} :
    ofWalk walk = .suspended node ↔ walk.failed = none ∧ walk.suspendedAt = some node := by
  unfold ofWalk
  split <;> simp_all

theorem ofWalk_completed :
    ofWalk walk = .completed ↔ walk.failed = none ∧ walk.suspendedAt = none := by
  unfold ofWalk
  split <;> simp_all

end Status

namespace Engine
variable {engine : Engine} {flow : Flow} {entry : String} {ctx : Context} {log : List Exchange}

/-! ## What has been saved -/

section
variable {limit : Nat} {ctx' : Context} {turns : List Turn} {t : Turn}

/-- A node saves no more than one record, and one that suspends the run has saved it. -/
theorem turn_saves_once (builtIn : engine.BuiltIn)
    (performed : Walk.Performed flow (engine.nodeVisitor deepest flow) limit ctx turns ctx')
    (member : t ∈ turns) :
    (saves t.log).length ≤ 1 ∧ (t.visit.suspends = true → saves t.log ≠ []) := by
  rcases turn_worked builtIn performed member with ⟨silent, failed⟩ | ⟨first, r, call, result, s, worked⟩
  · refine ⟨by simp [silent], fun suspends => ?_⟩
    simp [Visit.suspends, Option.isNone_eq_false_iff.mpr failed] at suspends
  have ran := worked.ran
  rcases Runner.builtins_write r worked.builtin with ⟨-, waits⟩ | writes
  · rw [waits] at ran
    obtain ⟨-, once, when⟩ := Runner.waitMessage_reports ran
    exact ⟨once, fun suspends => when rfl (worked.suspended suspends)⟩
  · -- a node that works does not suspend, and so it has saved nothing
    have never : t.visit.suspends ≠ true := by
      intro suspends
      have still := (writes.flags ran).2
      rw [worked.suspended suspends] at still
      contradiction
    have nothing : saves t.log = [] := by
      refine List.eq_nil_iff_forall_not_mem.mpr fun record saved => never ?_
      exact (turn_saves builtIn performed member (mem_saves.mp saved)).2.2 rfl
    exact ⟨by simp [nothing], fun suspends => absurd suspends never⟩

/-- In a walk outside all others a node that suspends the run has saved one record, which is one of that
node, and every other node has saved none. -/
theorem turn_saved (builtIn : engine.BuiltIn)
    (performed : Walk.Performed flow (engine.nodeVisitor deepest flow) limit ctx turns ctx')
    (member : t ∈ turns) :
    (saves t.log).map Wait.Record.node = if t.visit.suspends then [t.visit.id] else [] := by
  obtain ⟨once, some⟩ := turn_saves_once builtIn performed member
  cases whole : saves t.log with
  | nil =>
    split
    · next suspends => exact absurd whole (some suspends)
    · rfl
  | cons record rest =>
    obtain rfl : rest = [] := by simpa [whole] using once
    have saved : ⟨.save record, .ok ()⟩ ∈ t.log := mem_saves.mp (by simp [whole])
    obtain ⟨⟨id, now, timeout, rfl⟩, -, suspends⟩ := turn_saves builtIn performed member saved
    rw [if_pos (suspends rfl)]
    rfl

end

/-- The records that a walk has saved are those of the nodes that suspend the run. -/
theorem saves_turns (turns : List Turn)
    (each : ∀ t ∈ turns,
      (saves t.log).map Wait.Record.node = if t.visit.suspends then [t.visit.id] else []) :
    (saves (turns.flatMap Turn.exchanges)).map Wait.Record.node =
      ((turns.map Turn.visit).filter Visit.suspends).map Visit.id := by
  induction turns with
  | nil => rfl
  | cons t turns ih =>
    obtain ⟨first, rest⟩ := List.forall_mem_cons.mp each
    have told : saves t.exchanges = saves t.log := by simp [Turn.exchanges, saves, Exchange.saved?]
    rw [List.flatMap_cons, saves_append, List.map_append, told, first, ih rest, List.map_cons,
      List.filter_cons]
    split <;> simp

/-! ## Agreement -/

/-- The outcome of an invocation that has walked a flow from a node agrees with what the invocation has
told and saved. -/
structure Agrees (engine : Engine) (flow : Flow) (entry : String) (ctx : Context)
    (opening : List RunEvent) (log : List Exchange) (outcome : Outcome) : Prop where
  named : outcome.run = ctx.runId ∧ outcome.flow = flow.code
  /-- What is told first, then what the walk tells of its nodes and of those of the walks within them,
  and then how it ended. -/
  told : ∃ walked, Task.Runs (engine.topWalk flow entry) ctx walked (.ok ⟨outcome.executed⟩)
      outcome.context ∧
    Walked.Tells engine ctx.runId (deepest + 1)
      ⟨flow, entry, none, ctx, walked, .ok ⟨outcome.executed⟩, outcome.context⟩ ∧
    events log = opening ++ events walked ++ [outcome.status.event ctx.runId flow.code]
  /-- A node is told to have run well when it has not failed. -/
  succeeded : ∀ v ∈ outcome.executed, v.report.success = true ↔ v.failure = none
  /-- What has been saved are records of the nodes that suspend the run, one of each. -/
  saved : (saves log).map Wait.Record.node = (outcome.executed.filter Visit.suspends).map Visit.id
  fails : (∃ node reason, outcome.status = .failed node reason) ↔
    ∃ v ∈ outcome.executed, v.report.success = false
  failed : ∀ node reason, outcome.status = .failed node reason ↔
    ∃ front v back, outcome.executed = front ++ v :: back ∧ (∀ u ∈ front, u.report.success = true) ∧
      v.report.success = false ∧ v.failure = some reason ∧ v.id = node
  suspended : ∀ node, outcome.status = .suspended node ↔
    (∀ v ∈ outcome.executed, v.report.success = true) ∧
      (saves log).head?.map Wait.Record.node = some node
  completed : outcome.status = .completed ↔
    (∀ v ∈ outcome.executed, v.report.success = true) ∧ saves log = []

/-- What a walk outside all others asks for to be told is told of nodes of its run, and it keeps the run. -/
theorem topWalk_tellsOf (builtIn : engine.BuiltIn) {result : Except Error Walk} {ctx' : Context}
    (run : Task.Runs (engine.topWalk flow entry) ctx log result ctx') :
    (∀ x ∈ log, x.1.TellsOf ctx.runId) ∧ ctx'.runId = ctx.runId := by
  obtain ⟨ofRun, same, -⟩ := (topWalk_asks builtIn (Context.tellsOf ctx.runId) flow entry).run rfl
    (fun _ _ => trivial) run
  exact ⟨ofRun, same⟩

/-- The outcome is named after the run and the flow. -/
theorem finish_names {outcome : Outcome}
    (run : Task.Runs (engine.finish flow entry ctx) () log (.ok outcome) ()) :
    outcome.run = outcome.context.runId ∧ outcome.flow = flow.code := by
  rcases Task.runs_bind.mp run with ⟨_, -, failed⟩ | ⟨⟨walk, final⟩, _, _, _, -, told, -⟩
  · contradiction
  · simp only [Task.runs_publish_bind, Task.runs_pure] at told
    obtain ⟨_, -, -, same, -⟩ := told
    rw [Except.ok.inj same]
    exact ⟨rfl, rfl⟩

/-- A walk of a flow that can be run, from one of its nodes, comes to an outcome, and the outcome
agrees. -/
theorem finish_agrees (builtIn : engine.BuiltIn) (checked : engine.check flow = .ok ())
    (inside : entry ∈ flow.ids) {result : Except Error Outcome} (front : List Exchange)
    (unsaved : saves front = []) (run : Task.Runs (engine.finish flow entry ctx) () log result ()) :
    ∃ outcome, result = .ok outcome ∧
      Agrees engine flow entry ctx (events front) (front ++ log) outcome := by
  obtain ⟨outcome, turns, rfl, finishes⟩ := finish_runs checked inside run
  obtain ⟨named, flowNamed⟩ := finish_names run
  obtain ⟨ofRun, same⟩ := topWalk_tellsOf builtIn finishes.walked
  have tells := walk_tells builtIn (w := ⟨flow, entry, none, ctx, _, _, _⟩) checked inside
    finishes.walked ofRun
  have reports : (⟨outcome.executed⟩ : Walk).Reports := by
    cases tells with
    | walked _ ended _ reports =>
      rw [Except.ok.inj ended]
      exact List.forall_mem_map.mpr reports
  have saved : (saves (front ++ log)).map Wait.Record.node =
      (outcome.executed.filter Visit.suspends).map Visit.id := by
    have walked := saves_turns turns fun t member => turn_saved builtIn finishes.performed member
    rw [saves_append, unsaved, finishes.log, saves_append, List.nil_append, List.map_append, walked,
      finishes.executed]
    simp [saves, Exchange.saved?]
  have place : (⟨outcome.executed⟩ : Walk).suspendedAt =
      (saves (front ++ log)).head?.map Wait.Record.node := by
    rw [Walk.suspendedAt_eq_head, ← saved, List.head?_map]
  refine ⟨outcome, rfl, ⟨named.trans same, flowNamed⟩, ⟨_, finishes.walked, tells, ?told⟩, ?succeeded,
    saved, ?fails, ?failed, ?suspended, ?completed⟩
  case told =>
    rw [finishes.log, same]
    simp
  case succeeded =>
    intro v member
    simp [reports v member]
  case fails =>
    rw [finishes.status]
    exact Status.ofWalk_fails reports
  case failed =>
    intro node reason
    rw [finishes.status, Status.ofWalk_failed, reports.failed_eq_some]
  case suspended =>
    intro node
    rw [finishes.status, Status.ofWalk_suspended, reports.failed_eq_none, place]
  case completed =>
    rw [finishes.status, Status.ofWalk_completed, reports.failed_eq_none, place]
    simp

/-- An invocation that panics in its walk of a flow from a node has told of nodes of its run, behind what is
told first, and of no end. -/
structure Unended (engine : Engine) (flow : Flow) (entry : String) (ctx : Context)
    (opening : List RunEvent) (log : List Exchange) (cause : Panic) : Prop where
  told : ∃ walked, Task.Panics (engine.topWalk flow entry) ctx walked cause ∧
    events log = opening ++ events walked ∧
    ∀ e ∈ events walked, ∃ node type success, e = .nodeFinished ctx.runId node type success

theorem finish_unended (builtIn : engine.BuiltIn) {cause : Panic} (front : List Exchange)
    (panics : Task.Panics (engine.finish flow entry ctx) () log cause) :
    Unended engine flow entry ctx (events front) (front ++ log) cause := by
  have walked : Task.Panics (engine.topWalk flow entry) ctx log cause := finish_panics panics
  have ofRun := (topWalk_asks builtIn (Context.tellsOf ctx.runId) flow entry).panics rfl
    (fun _ _ => trivial) walked
  refine ⟨log, walked, events_append .., fun e told => ?_⟩
  obtain ⟨⟨r, a⟩, member, publishes⟩ := List.mem_filterMap.mp told
  cases r with
  | publish event =>
    obtain rfl := Option.some.inj publishes
    exact ofRun _ member _ rfl
  | _ => contradiction

/-- Each way into a walk either ends before the walk or comes to an outcome that agrees. -/
structure Agreement (engine : Engine) : Prop where
  /-- A run from where its flow is entered tells that it starts. -/
  run {flow : Flow} {ctx : Context} {log : List Exchange} {result : Except Error Outcome} :
    Task.Runs (engine.run flow ctx) () log result () →
    (∃ e, result = .error e) ∧ log = [] ∨
      ∃ start outcome, flow.requireEntry = .ok start ∧ result = .ok outcome ∧
        Agrees engine flow start.id ctx [.started ctx.runId flow.code ctx.trigger] log outcome
  /-- A run that is taken up tells that it goes on. -/
  resume {record : Wait.Record} {event : Event} {log : List Exchange}
    {result : Except Error Resumed} : Task.Runs (engine.resume record event) () log result () →
    (∀ outcome, result ≠ .ok (.resumed outcome)) ∧ (∀ e ∈ events log, e = dropEvent record) ∨
      ∃ flow ctx outcome, ⟨.load record.flowCode (some record.flowVersion), .ok flow⟩ ∈ log ∧
        ⟨.claim record, .ok true⟩ ∈ log ∧ Context.ofSnapshot record.snapshot = .ok ctx ∧
        result = .ok (.resumed outcome) ∧
        Agrees engine flow record.node (ctx.resumedBy event)
          [.resumed ctx.runId flow.code record.node] log outcome
  /-- A run from a node of the caller's choice tells of its nodes at once. -/
  runFrom {flow : Flow} {entry : String} {ctx : Context} {log : List Exchange}
    {result : Except Error Outcome} : Task.Runs (engine.runFrom flow entry ctx) () log result () →
    (∃ e, result = .error e) ∧ log = [] ∨
      ∃ outcome, result = .ok outcome ∧ Agrees engine flow entry ctx [] log outcome
  /-- When a run panics that has begun in one of these ways, there is no outcome and no end is told. -/
  runPanics {flow : Flow} {ctx : Context} {log : List Exchange} {cause : Panic} :
    Task.Panics (engine.run flow ctx) () log cause →
    ∃ start, flow.requireEntry = .ok start ∧
      Unended engine flow start.id ctx [.started ctx.runId flow.code ctx.trigger] log cause
  resumePanics {record : Wait.Record} {event : Event} {log : List Exchange} {cause : Panic} :
    Task.Panics (engine.resume record event) () log cause →
    ∃ flow ctx, ⟨.load record.flowCode (some record.flowVersion), .ok flow⟩ ∈ log ∧
      ⟨.claim record, .ok true⟩ ∈ log ∧ Context.ofSnapshot record.snapshot = .ok ctx ∧
      Unended engine flow record.node (ctx.resumedBy event)
        [.resumed ctx.runId flow.code record.node] log cause
  runFromPanics {flow : Flow} {entry : String} {ctx : Context} {log : List Exchange} {cause : Panic} :
    Task.Panics (engine.runFrom flow entry ctx) () log cause →
    Unended engine flow entry ctx [] log cause

/-- With the node types of every engine outcomes, visits and events agree, whatever the flows and the
contexts are and whatever is answered. -/
theorem agreement (builtIn : engine.BuiltIn) : Agreement engine where
  run {flow ctx log result} ran := by
    simp only [Engine.run, Task.runs_ofExcept_bind, Task.runs_publish_bind] at ran
    rcases ran with ⟨e, -, rfl, rfl, -⟩ | ⟨_, checked, ⟨e, -, rfl, rfl, -⟩ | ⟨start, found, log, rfl, ran⟩⟩
    · exact .inl ⟨⟨e, rfl⟩, rfl⟩
    · exact .inl ⟨⟨e, rfl⟩, rfl⟩
    obtain ⟨outcome, rfl, agrees⟩ := finish_agrees builtIn checked (Flow.requireEntry_inside found)
      [⟨.publish (.started ctx.runId flow.code ctx.trigger), ()⟩] rfl ran
    exact .inr ⟨start, outcome, found, rfl, agrees⟩
  resume {record event log result} ran := by
    have goes : Resumption engine record event log (.ok result) := resume_resumption ran
    cases goes with
    | @taken now flow ctx log _ inTime ready goes =>
      right
      obtain ⟨node, waits⟩ := ready.waits
      obtain ⟨log, rfl, run⟩ := Task.runs_publish_bind.mp goes
      let front : List Exchange :=
        [⟨.clock, now⟩, ⟨.load record.flowCode (some record.flowVersion), .ok flow⟩,
          ⟨.claim record, .ok true⟩, ⟨.publish (.resumed ctx.runId flow.code record.node), ()⟩]
      have agrees {result : Except Error Outcome} {log : List Exchange}
          (ran : Task.Runs (engine.finish flow record.node (ctx.resumedBy event)) () log result ()) :=
        finish_agrees builtIn ready.checked (Flow.require_inside waits) front rfl ran
      rcases Task.runs_bind.mp run with ⟨e, went, -⟩ | ⟨outcome, _, _, _, went, ended, rfl⟩
      · obtain ⟨_, same, -⟩ := agrees went
        contradiction
      · obtain ⟨rfl, rfl, -⟩ := Task.runs_pure.mp ended
        obtain ⟨_, same, agrees⟩ := agrees went
        obtain rfl := Except.ok.inj same
        rw [List.append_nil]
        exact ⟨flow, ctx, outcome, by simp, by simp, ready.readable, rfl, agrees⟩
    | _ => exact .inl ⟨by simp, by simp [events, Exchange.event?]⟩
  runFrom {flow entry ctx log result} ran := by
    simp only [Engine.runFrom, Task.runs_ofExcept_bind] at ran
    rcases ran with ⟨e, -, rfl, rfl, -⟩ | ⟨_, checked, ⟨e, -, rfl, rfl, -⟩ | ⟨_, found, ran⟩⟩
    · exact .inl ⟨⟨e, rfl⟩, rfl⟩
    · exact .inl ⟨⟨e, rfl⟩, rfl⟩
    obtain ⟨outcome, rfl, agrees⟩ :=
      finish_agrees builtIn checked (Flow.require_inside found) [] rfl ran
    exact .inr ⟨outcome, rfl, agrees⟩
  runPanics {flow ctx log cause} panics := by
    simp only [Engine.run, Task.panics_ofExcept_bind, Task.panics_publish_bind] at panics
    obtain ⟨_, -, start, found, log, rfl, panics⟩ := panics
    exact ⟨start, found, finish_unended builtIn
      [⟨.publish (.started ctx.runId flow.code ctx.trigger), ()⟩] panics⟩
  resumePanics {record event log cause} panics := by
    have goes : Resumption engine record event log (.error cause) := resume_resumption panics
    cases goes with
    | @taken now flow ctx log _ inTime ready goes =>
      obtain ⟨log, rfl, begun⟩ := Task.panics_publish_bind.mp goes
      rcases Task.panics_bind.mp begun with walks | ⟨_, _, _, _, -, ended, -⟩
      · exact ⟨flow, ctx, by simp, by simp, ready.readable, finish_unended builtIn
          [⟨.clock, now⟩, ⟨.load record.flowCode (some record.flowVersion), .ok flow⟩,
            ⟨.claim record, .ok true⟩, ⟨.publish (.resumed ctx.runId flow.code record.node), ()⟩]
          walks⟩
      · exact absurd ended Task.not_panics_pure
  runFromPanics panics := by
    simp only [Engine.runFrom, Task.panics_ofExcept_bind] at panics
    obtain ⟨_, -, _, -, panics⟩ := panics
    exact finish_unended builtIn [] panics

end Engine

/-- What is told of a loop within a loop, in whose body a node fails. -/
def Enclosed.told : List RunEvent :=
  [.started "r" "enclosed" .chatMessage, .nodeFinished "r" "start" "start" true,
    .nodeFinished "r" "outer/start" "start" true, .nodeFinished "r" "inner/start" "start" true,
    .nodeFinished "r" "wait" "wait_message" false, .nodeFinished "r" "inner" "loop" false,
    .nodeFinished "r" "outer" "loop" false,
    .failed "r" "enclosed" "outer" ("Node runner failed: outer: iteration 0 failed at inner: "
      ++ "Node runner failed: inner: iteration 0 failed at wait: Run cannot suspend here: "
      ++ "node wait cannot wait inside a loop body or sub-flow")]

/-- In a loop within a loop a node fails. The loops tell of it in turn, and the run fails with the outer
one. -/
theorem enclosed_agrees :
    (Engine.standard {}).BuiltIn ∧
      events ((Enclosed.run false).heard {}) = Enclosed.told ∧
      ∃ outcome, ((Enclosed.run false).run {}).1 = .ok (.ok outcome, ()) ∧
        Engine.Agrees (.standard {}) Enclosed.flow "start"
          (.start "r" Enclosed.flow (Chat.message "first")) [.started "r" "enclosed" .chatMessage]
          ((Enclosed.run false).heard {}) outcome := by
  have builtIn := Engine.builtIn_standard {}
  have told : events ((Enclosed.run false).heard {}) = Enclosed.told := by decide +kernel
  refine ⟨builtIn, told, ?_⟩
  obtain ⟨⟨result, ⟨⟩⟩, returned, ran⟩ :=
    Program.exists_runs_heard (p := Enclosed.run false) (w := {}) (by decide +kernel)
  rcases (Engine.agreement builtIn).run ran with ⟨-, silent⟩ | ⟨start, outcome, found, rfl, agrees⟩
  · rw [silent] at told
    contradiction
  · obtain rfl : Chat.start = start := Except.ok.inj found
    exact ⟨outcome, returned, agrees⟩

/-! ### A run that is not told to start -/

/-- The event tells that a run starts or goes on. -/
def RunEvent.opens : RunEvent → Bool
  | .started .. | .resumed .. => true
  | _ => false

namespace Midway

/-- A flow that notes down what is talked about. -/
def flow : Flow where
  code := "talk"
  nodes := [Chat.start, Chat.assign "note" "topic" (.str "rain")]
  edges := [{ source := "start", target := "note", branch := some "m" }]

/-- A run of the flow from its second node. -/
def run : Program (Except Error Outcome × Unit) :=
  (Engine.standard {}).runFrom flow "note" (.start "r" flow (Chat.message "first")) ()

end Midway

/-- Not every run that walks tells first that it starts or goes on. -/
theorem midway_unannounced :
    ¬ ∀ (engine : Engine) (flow : Flow) (entry : String) (ctx : Context) (log : List Exchange)
      (outcome : Outcome), engine.BuiltIn →
      Task.Runs (engine.runFrom flow entry ctx) () log (.ok outcome) () →
      ∃ first rest, events log = first :: rest ∧ first.opens = true := by
  intro announced
  have told : events (Midway.run.heard {}) =
      [.nodeFinished "r" "note" "variable_save" true, .completed "r" "talk"] := by decide +kernel
  obtain ⟨⟨result, ⟨⟩⟩, -, ran⟩ :=
    Program.exists_runs_heard (p := Midway.run) (w := {}) (by decide +kernel)
  rcases Engine.runFrom_checked ran with ⟨_, -, -, silent⟩ | ⟨-, -, outcome, rfl, -⟩
  · rw [silent] at told
    contradiction
  obtain ⟨first, rest, same, opens⟩ :=
    announced _ Midway.flow "note" _ _ outcome (Engine.builtIn_standard {}) ran
  obtain ⟨rfl, -⟩ := List.cons.inj (told.symm.trans same)
  contradiction

end Parley

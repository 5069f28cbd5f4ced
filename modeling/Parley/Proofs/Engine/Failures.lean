import Parley.Proofs.Engine.AtMostOnce
import Parley.Proofs.Engine.Pass
/-!
# What callers are refused

Once a run has begun, whatever goes wrong in it is the failure of one of its nodes and shows in the
outcome, unless a node panics and there is none. A caller is refused for what is found before: a flow
that is missing or that cannot be run, a node that no longer waits, a snapshot that cannot be read. By
then nobody has been told anything and the record of the run is still in the store.
-/
namespace Parley

/-! ## Looking around -/

/-- Why a call of the store failed. -/
def Exchange.storeFailure? : Exchange → Option Error
  | ⟨.save _, .error e⟩ => some e
  | ⟨.find _, .error e⟩ => some e
  | ⟨.claim _, .error e⟩ => some e
  | ⟨.list _, .error e⟩ => some e
  | ⟨.reap _, .error e⟩ => some e
  | _ => none

/-- No call of the store has failed. -/
def StoreWorks (log : List Exchange) : Prop := ∀ x ∈ log, x.storeFailure? = none

/-- What can be asked without leaving a trace: who asks looks around or is given an identifier. -/
def Request.Traceless (r : Request) : Prop := r.Looks ∨ r = .identifier

theorem World.answer_traceless {w : World} (honest : w.thief = false) {r : Request}
    (traceless : r.Traceless) : ∃ serial, (w.answer r).2 = { w with serial } := by
  rcases traceless with looks | rfl
  · have same : (w.answer r).2 = w := by
      cases r with
      | find scope =>
        simp only [answer, guarded, find, honest]
        cases w.failure? .find with
        | some e => rfl
        | none => cases w.store.find w.clock scope <;> rfl
      | clock | load => rfl
      | _ => exact looks.elim
    exact ⟨w.serial, same⟩
  · exact ⟨w.serial + 1, rfl⟩

/-- Nothing has been done to the world but that identifiers were made. -/
def Untouched (log : List Exchange) : Prop :=
  (∀ x ∈ log, x.1.Traceless) ∧
    ∀ w w' : World, w.thief = false → w.Answers log w' → ∃ serial, w' = { w with serial }

theorem untouched {log : List Exchange} (traceless : ∀ x ∈ log, x.1.Traceless) :
    Untouched log := by
  refine ⟨traceless, fun w w' honest answers => ?_⟩
  induction log generalizing w with
  | nil => exact ⟨w.serial, answers⟩
  | cons x log ih =>
    obtain ⟨first, rest⟩ := List.forall_mem_cons.mp traceless
    obtain ⟨serial, same⟩ := World.answer_traceless honest first
    have later := answers.2
    rw [same] at later
    exact ih rest { w with serial } honest later

namespace Engine
variable {engine : Engine}

/-! ## What keeps a run from going on -/

/-- A run of a flow did not start. -/
inductive Unstarted (engine : Engine) (code : String) (version : Option String) :
    List Exchange → Error → Prop
  | unloaded {e : Error} : Unstarted engine code version [⟨.load code version, .error e⟩] e
  | refused {flow : Flow} {id : String} {e : Error} (unchecked : engine.check flow = .error e) :
      Unstarted engine code version [⟨.load code version, .ok flow⟩, ⟨.identifier, id⟩] e

/-- A run that waited did not go on, and its record has not been claimed. -/
inductive Stuck (engine : Engine) (record : Wait.Record) : List Exchange → Error → Prop
  | unloaded {now : Instant} {e : Error} (inTime : record.isExpired now = false) :
      Stuck engine record
        [⟨.clock, now⟩, ⟨.load record.flowCode (some record.flowVersion), .error e⟩] e
  | refused {now : Instant} {flow : Flow} {e : Error} (inTime : record.isExpired now = false)
      (refuses : Refuses engine record flow e) :
      Stuck engine record
        [⟨.clock, now⟩, ⟨.load record.flowCode (some record.flowVersion), .ok flow⟩] e

/-- An event led to no run: the run that waits for it is stuck, or the one that it starts did not
start. -/
inductive Undispatched (engine : Engine) (code : String) (version : Option String) (event : Event) :
    List Exchange → Error → Prop
  | stuck {record : Wait.Record} {log : List Exchange} {e : Error}
      (chat : event.trigger = .chatMessage) (stuck : Stuck engine record log e) :
      Undispatched engine code version event (⟨.find event.scope, .ok (some record)⟩ :: log) e
  | unanswered {log : List Exchange} {e : Error} (chat : event.trigger = .chatMessage)
      (unstarted : Unstarted engine code version log e) :
      Undispatched engine code version event (⟨.find event.scope, .ok none⟩ :: log) e
  | fresh {log : List Exchange} {e : Error} (other : event.trigger ≠ .chatMessage)
      (unstarted : Unstarted engine code version log e) :
      Undispatched engine code version event log e

variable {record : Wait.Record} {event : Event} {code : String} {version : Option String}
  {log : List Exchange} {e : Error}

theorem Unstarted.traceless (unstarted : Unstarted engine code version log e) :
    ∀ x ∈ log, x.1.Traceless := by
  cases unstarted <;> simp [Request.Traceless, Request.Looks]

theorem Stuck.traceless (stuck : Stuck engine record log e) : ∀ x ∈ log, x.1.Traceless := by
  cases stuck <;> simp [Request.Traceless, Request.Looks]

theorem Undispatched.traceless (undispatched : Undispatched engine code version event log e) :
    ∀ x ∈ log, x.1.Traceless := by
  cases undispatched with
  | stuck _ stuck => exact List.forall_mem_cons.mpr ⟨.inl trivial, stuck.traceless⟩
  | unanswered _ unstarted => exact List.forall_mem_cons.mpr ⟨.inl trivial, unstarted.traceless⟩
  | fresh _ unstarted => exact unstarted.traceless

/-! ## Each way in -/

variable {flow : Flow} {ctx : Context}

/-- A flow that is refused is not run at all, and one that is not comes to an outcome. -/
theorem run_checked {result : Except Error Outcome}
    (ran : Task.Runs (engine.run flow ctx) () log result ()) :
    (∃ e, engine.check flow = .error e ∧ result = .error e ∧ log = []) ∨
      engine.check flow = .ok () ∧ ∃ outcome, result = .ok outcome ∧
        outcome.status = .ofWalk ⟨outcome.executed⟩ := by
  simp only [run, Task.runs_ofExcept_bind, Task.runs_publish_bind] at ran
  rcases ran with ⟨e, refused, rfl, rfl, -⟩ | ⟨⟨⟩, checked, entered⟩
  · exact .inl ⟨e, refused, rfl, rfl⟩
  obtain ⟨start, found⟩ := Flow.validate_requireEntry (check_validate checked)
  rcases entered with ⟨_, unfound, -⟩ | ⟨entry, found, _, rfl, ran⟩
  · simp [found] at unfound
  obtain ⟨outcome, turns, rfl, finishes⟩ := finish_runs checked (Flow.requireEntry_inside found) ran
  exact .inr ⟨checked, outcome, rfl, finishes.status⟩

theorem runFrom_checked {entry : String} {result : Except Error Outcome}
    (ran : Task.Runs (engine.runFrom flow entry ctx) () log result ()) :
    (∃ e, (engine.check flow = .error e ∨ flow.require entry = .error e) ∧ result = .error e ∧
        log = []) ∨
      engine.check flow = .ok () ∧ (∃ node, flow.require entry = .ok node) ∧
        ∃ outcome, result = .ok outcome ∧ outcome.status = .ofWalk ⟨outcome.executed⟩ := by
  simp only [runFrom, Task.runs_ofExcept_bind] at ran
  rcases ran with ⟨e, refused, rfl, rfl, -⟩ | ⟨⟨⟩, checked, ⟨e, missing, rfl, rfl, -⟩ | ⟨_, found, ran⟩⟩
  · exact .inl ⟨e, .inl refused, rfl, rfl⟩
  · exact .inl ⟨e, .inr missing, rfl, rfl⟩
  obtain ⟨outcome, turns, rfl, finishes⟩ := finish_runs checked (Flow.require_inside found) ran
  exact .inr ⟨checked, ⟨_, found⟩, outcome, rfl, finishes.status⟩

/-- A flow that is refused is refused at once, and nothing panics. -/
theorem run_calm {cause : Panic} (panics : Task.Panics (engine.run flow ctx) () log cause) :
    engine.check flow = .ok () := by
  simp only [run, Task.panics_ofExcept_bind] at panics
  obtain ⟨⟨⟩, checked, -⟩ := panics
  exact checked

theorem runFrom_calm {entry : String} {cause : Panic}
    (panics : Task.Panics (engine.runFrom flow entry ctx) () log cause) :
    engine.check flow = .ok () ∧ ∃ node, flow.require entry = .ok node := by
  simp only [runFrom, Task.panics_ofExcept_bind] at panics
  obtain ⟨⟨⟩, checked, node, found, -⟩ := panics
  exact ⟨checked, node, found⟩

theorem startRun_unstarted
    (ran : Task.Runs (engine.startRun code version event) () log (.error e) ()) :
    Unstarted engine code version log e := by
  simp only [startRun, Task.runs_load_bind, Task.runs_identifier_bind] at ran
  rcases ran with ⟨_, rfl, ⟨⟩, -⟩ | ⟨flow, _, rfl, id, _, rfl, ran⟩
  · exact .unloaded
  rcases Task.runs_bind.mp ran with ⟨_, ran, ⟨⟩⟩ | ⟨_, _, _, _, _, ended, -⟩
  · rcases run_checked ran with ⟨_, unchecked, ⟨⟩, rfl⟩ | ⟨-, _, ok, -⟩
    · exact .refused unchecked
    · simp at ok
  · simp at ended

theorem goOn_ends {result : Except Error Resumed} (ready : Ready engine record flow ctx)
    (ran : Task.Runs (engine.goOn record event flow ctx) () log result ()) :
    ∃ outcome, result = .ok (.resumed outcome) := by
  simp only [goOn, Task.runs_publish_bind] at ran
  obtain ⟨_, rfl, ran⟩ := ran
  obtain ⟨node, waits⟩ := ready.waits
  rcases Task.runs_bind.mp ran with ⟨_, ran, -⟩ | ⟨outcome, _, _, _, _, ended, -⟩
  · obtain ⟨_, _, ok, -⟩ := finish_runs ready.checked (Flow.require_inside waits) ran
    simp at ok
  · exact ⟨outcome, (Task.runs_pure.mp ended).2.1⟩

theorem Resumption.stuck (goes : Resumption engine record event log (.ok (.error e)))
    (works : StoreWorks log) : Stuck engine record log e := by
  cases goes with
  | expiredFailed late => simp [StoreWorks, Exchange.storeFailure?] at works
  | unloaded inTime => exact .unloaded inTime
  | refused inTime refuses => exact .refused inTime refuses
  | unclaimed inTime ready => simp [StoreWorks, Exchange.storeFailure?] at works
  | taken inTime ready goes =>
    obtain ⟨_, ok⟩ := goOn_ends ready goes
    simp at ok

theorem Dispatching.undispatched (goes : Dispatching engine code version event log (.ok (.error e)))
    (works : StoreWorks log) : Undispatched engine code version event log e := by
  cases goes with
  | unfound chat => simp [StoreWorks, Exchange.storeFailure?] at works
  | @resumed record log former _ chat goes failed =>
    rcases former with cause | e' | v
    · contradiction
    · obtain rfl : e = e' := by simpa [Except.map] using failed
      exact .stuck chat (goes.stuck fun x member => works x (List.mem_cons_of_mem _ member))
    · simp [Except.map] at failed
  | unanswered chat starts => exact .unanswered chat (startRun_unstarted starts)
  | fresh other starts => exact .fresh other (startRun_unstarted starts)

/-! ## Refused early or not at all -/

/-- Callers are refused early or not at all. -/
structure RefusesEarly (engine : Engine) : Prop where
  run : ∀ {flow : Flow} {ctx : Context} {log : List Exchange}
    {ending : Except Panic (Except Error Outcome)}, Task.Ends (engine.run flow ctx) log ending →
      (∀ e, ending = .ok (.error e) ↔ engine.check flow = .error e) ∧
      (∀ e, ending = .ok (.error e) → log = []) ∧
      ∀ outcome, ending = .ok (.ok outcome) → outcome.status = .ofWalk ⟨outcome.executed⟩
  runFrom : ∀ {flow : Flow} {entry : String} {ctx : Context} {log : List Exchange}
    {ending : Except Panic (Except Error Outcome)},
    Task.Ends (engine.runFrom flow entry ctx) log ending →
      ((∃ e, ending = .ok (.error e)) ↔
        ∃ e, engine.check flow = .error e ∨ flow.require entry = .error e) ∧
      (∀ e, ending = .ok (.error e) → log = []) ∧
      ∀ outcome, ending = .ok (.ok outcome) → outcome.status = .ofWalk ⟨outcome.executed⟩
  resume : ∀ {record : Wait.Record} {event : Event} {log : List Exchange} {e : Error},
    Task.Runs (engine.resume record event) () log (.error e) () → StoreWorks log →
      Stuck engine record log e ∧ Untouched log
  dispatch : ∀ {code : String} {version : Option String} {event : Event} {log : List Exchange}
    {e : Error}, Task.Runs (engine.dispatch code version event) () log (.error e) () →
      StoreWorks log → Undispatched engine code version event log e ∧ Untouched log

/-- Whatever its runners do and whatever they are answered, an engine refuses early or not at all. -/
theorem refusesEarly (engine : Engine) : RefusesEarly engine where
  run {flow ctx log ending} ends := by
    cases ending with
    | error cause => exact ⟨fun _ => by simp [run_calm ends], by simp, by simp⟩
    | ok result =>
      rcases run_checked ends with ⟨e, refused, rfl, rfl⟩ | ⟨checked, outcome, rfl, status⟩
      · exact ⟨fun _ => by simp [refused], by simp, by simp⟩
      · exact ⟨fun _ => by simp [checked], by simp, by simpa using status⟩
  runFrom {flow entry ctx log ending} ends := by
    cases ending with
    | error cause =>
      obtain ⟨checked, node, found⟩ := runFrom_calm ends
      exact ⟨by simp [checked, found], by simp, by simp⟩
    | ok result =>
      rcases runFrom_checked ends with ⟨e, refused, rfl, rfl⟩ |
        ⟨checked, found, outcome, rfl, status⟩
      · exact ⟨⟨fun _ => ⟨e, refused⟩, fun _ => ⟨e, rfl⟩⟩, by simp, by simp⟩
      · obtain ⟨node, found⟩ := found
        exact ⟨by simp [checked, found], by simp, by simpa using status⟩
  resume {record event log e} ran works := by
    have goes : Resumption engine record event log (.ok (.error e)) := resume_resumption ran
    have stuck := goes.stuck works
    exact ⟨stuck, untouched stuck.traceless⟩
  dispatch {code version event log e} ran works := by
    have goes : Dispatching engine code version event log (.ok (.error e)) := dispatch_dispatching ran
    have undispatched := goes.undispatched works
    exact ⟨undispatched, untouched undispatched.traceless⟩

end Engine

/-! ### A run whose flow is gone -/

namespace Orphan

/-- The record of a run of a flow that no catalog has. -/
def record : Wait.Record where
  id := "w"
  organization := "org"
  conversation := "conv"
  origin := "conv"
  node := "wait"
  flowCode := "gone"
  flowVersion := "1"
  creator := ""
  timeout := none
  snapshot := ""
  createdAt := .ofSeconds 0

def world : World where
  store := .save record .inMemory

/-- A message in the conversation of the run. -/
def sends : Program (Except Error Dispatched × Unit) :=
  (Engine.standard {}).dispatch "other" none (Chat.message "hello") ()

/-- A flow whose second node has nothing that runs its code. -/
def flow : Flow where
  code := "failing"
  nodes := [Chat.start, { id := "code", type := "code", params := .ofFields [("code", .str "")] }]
  edges := [{ source := "start", target := "code", branch := some "m" }]

end Orphan

/-- The message is refused and the record stays. Where a node fails the caller is not refused. -/
theorem orphan_refused :
    (Orphan.sends.run Orphan.world).1 = .ok (.error (.flowNotFound "gone"), ()) ∧
      StoreWorks (Orphan.sends.heard Orphan.world) ∧
      (Engine.Undispatched (.standard {}) "other" none (Chat.message "hello")
          (Orphan.sends.heard Orphan.world) (.flowNotFound "gone") ∧
        Untouched (Orphan.sends.heard Orphan.world)) ∧
      (Orphan.sends.run Orphan.world).2.store.records = [Orphan.record] ∧
      (Engine.standard {}).check Orphan.flow = .ok () ∧
      (Chat.outcome? Orphan.flow).map Outcome.status = some (.failed "code"
        "Validation error: node code: no code executor configured") := by
  have failed : (Orphan.sends.run Orphan.world).1 = .ok (.error (.flowNotFound "gone"), ()) := rfl
  have heard : Orphan.sends.heard Orphan.world =
      [⟨.find (Chat.message "hello").scope, .ok (some Orphan.record)⟩,
        ⟨.clock, Orphan.world.clock⟩, ⟨.load "gone" (some "1"), .error (.flowNotFound "gone")⟩] := rfl
  have works : StoreWorks (Orphan.sends.heard Orphan.world) := by
    rw [heard]
    simp [StoreWorks, Exchange.storeFailure?]
  exact ⟨failed, works, (Engine.refusesEarly (.standard {})).dispatch (Program.runs_heard failed) works,
    rfl, rfl, by decide +kernel⟩

end Parley

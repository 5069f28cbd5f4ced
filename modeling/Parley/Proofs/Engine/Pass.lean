import Parley.Proofs.Engine.Resume
import Parley.Proofs.Engine.Suspend
/-!
# Passes of runs

A run may take several passes: the first starts with an event, and each later one goes on with an event
where an earlier pass has saved a record (`Engine.Pass`). A pass that asks to save a record walks its
flow, and the walk starts with a sound context, whether the pass returns or panics on the way
(`Engine.Pass.walks`).
-/
namespace Parley

/-- The outcome of a run that was taken up. -/
def Resumed.outcome? : Resumed → Option Outcome
  | .resumed o => some o
  | .dropped => none

namespace Engine

/-! ## How a pass ends -/

/-- A walk that has come to its end, and what was told then. -/
structure Finishes (engine : Engine) (flow : Flow) (entry : String) (ctx : Context)
    (log : List Exchange) (outcome : Outcome) (turns : List Turn) : Prop where
  walked : Task.Runs (engine.topWalk flow entry) ctx (turns.flatMap Turn.exchanges)
    (.ok ⟨outcome.executed⟩) outcome.context
  performed : Walk.Performed flow (engine.nodeVisitor deepest flow) engine.config.maxExecutions ctx
    turns outcome.context
  executed : outcome.executed = turns.map Turn.visit
  status : outcome.status = .ofWalk ⟨outcome.executed⟩
  log : log = turns.flatMap Turn.exchanges ++
    [⟨.publish (outcome.status.event outcome.context.runId flow.code), ()⟩]

/-- A walk of a flow that can be run, from one of its nodes, comes to its end. -/
theorem finish_runs {engine : Engine} {flow : Flow} {entry : String} {ctx : Context}
    {log : List Exchange} {result : Except Error Outcome} (checked : engine.check flow = .ok ())
    (inside : entry ∈ flow.ids) (run : Task.Runs (engine.finish flow entry ctx) () log result ()) :
    ∃ outcome turns, result = .ok outcome ∧ Finishes engine flow entry ctx log outcome turns := by
  rcases Task.runs_bind.mp run with ⟨e, failed, -⟩ | ⟨⟨walk, final⟩, _, early, late, ran, told, rfl⟩
  · obtain ⟨-, ⟨_, _, walked, -⟩ | ⟨_, _, -, same⟩⟩ := Task.runs_apart.mp failed
    · obtain ⟨turns, -, ended, -⟩ := walk_turns checked inside walked
      exact absurd ended (by simp)
    · exact absurd same (by simp)
  · obtain ⟨-, ⟨_, _, -, same⟩ | ⟨_, _, walked, same⟩⟩ := Task.runs_apart.mp ran
    · exact absurd same (by simp)
    obtain ⟨rfl, rfl⟩ := Prod.mk.inj (Except.ok.inj same)
    obtain ⟨turns, taken, ended, rfl⟩ := walk_turns checked inside walked
    obtain rfl := Except.ok.inj ended
    simp only [Task.runs_publish_bind, Task.runs_pure] at told
    obtain ⟨_, rfl, rfl, rfl, -⟩ := told
    exact ⟨_, turns, rfl, walked, taken.performed, rfl, rfl, rfl⟩

/-- A run panics when its walk does. -/
theorem finish_panics {engine : Engine} {flow : Flow} {entry : String} {ctx : Context}
    {log : List Exchange} {cause : Panic}
    (panics : Task.Panics (engine.finish flow entry ctx) () log cause) :
    Task.Panics (engine.walk (deepest + 1) flow entry none) ctx log cause := by
  rcases Task.panics_bind.mp panics with walked | ⟨_, _, _, _, -, told, -⟩
  · exact Task.panics_apart.mp walked
  · obtain ⟨_, -, ended⟩ := Task.panics_publish_bind.mp told
    exact absurd ended Task.not_panics_pure

theorem Finishes.saves {engine : Engine} {flow : Flow} {entry : String} {ctx : Context}
    {log : List Exchange} {outcome : Outcome} {turns : List Turn} {record : Wait.Record}
    {done : Except Error Unit} (finishes : Finishes engine flow entry ctx log outcome turns)
    (saved : ⟨.save record, done⟩ ∈ log) : ∃ t ∈ turns, ⟨.save record, done⟩ ∈ t.log := by
  rw [finishes.log] at saved
  rcases List.mem_append.mp saved with walked | told
  · obtain ⟨t, member, heard⟩ := List.mem_flatMap.mp walked
    exact ⟨t, member, (List.mem_append.mp heard).resolve_right (by simp)⟩
  · simp at told

/-! ## Passes -/

/-- A pass of a run: what was asked and answered from its event on, and how it has ended, with an
outcome if it has one. A text can tell the values of the flow, of the event and of the answers. -/
inductive Pass (engine : Engine) : List Exchange → Except Panic (Option Outcome) → Prop
  | fresh {flow : Flow} {run : String} {event : Event} {log : List Exchange}
      {ending : Except Panic (Except Error Outcome)} (faithful : flow.Faithful)
      (payload : event.payload.Faithful) (answers : ∀ x ∈ log, x.Faithful)
      (ran : Task.Ends (engine.run flow (.start run flow event)) log ending) :
      Pass engine log (ending.map Except.toOption)
  | entered {flow : Flow} {entry run : String} {event : Event} {log : List Exchange}
      {ending : Except Panic (Except Error Outcome)} (faithful : flow.Faithful)
      (payload : event.payload.Faithful) (answers : ∀ x ∈ log, x.Faithful)
      (ran : Task.Ends (engine.runFrom flow entry (.start run flow event)) log ending) :
      Pass engine log (ending.map Except.toOption)
  | resumed {earlier log : List Exchange} {before : Except Panic (Option Outcome)}
      {record : Wait.Record} {event : Event} {ending : Except Panic (Except Error Resumed)}
      (pass : Pass engine earlier before) (saved : ⟨.save record, .ok ()⟩ ∈ earlier)
      (payload : event.payload.Faithful) (answers : ∀ x ∈ log, x.Faithful)
      (ran : Task.Ends (engine.resume record event) log ending) :
      Pass engine log (ending.map fun result => result.toOption.bind Resumed.outcome?)

/-- How a pass ends that has walked: with the visits of the turns and the context that they have left, or
at a node that panics behind them. -/
inductive Pass.Stops (engine : Engine) (flow : Flow) (ctx : Context) (turns : List Turn)
    (last : Context) : Except Panic (Option Outcome) → Prop
  | ended {outcome : Outcome} (executed : outcome.executed = turns.map Turn.visit)
      (context : outcome.context = last) : Stops engine flow ctx turns last (.ok (some outcome))
  | torn {cause : Panic} {back : List Exchange}
      (torn : Walk.Torn flow (engine.nodeVisitor deepest flow) engine.config.maxExecutions cause ctx
        turns last back) : Stops engine flow ctx turns last (.error cause)

theorem Pass.Stops.of_outcome {engine : Engine} {flow : Flow} {ctx last : Context}
    {turns : List Turn} {ending : Except Panic (Option Outcome)} {outcome : Outcome}
    (stops : Pass.Stops engine flow ctx turns last ending) (ended : ending = .ok (some outcome)) :
    outcome.executed = turns.map Turn.visit ∧ outcome.context = last := by
  subst ended
  cases stops with
  | ended executed context => exact ⟨executed, context⟩

/-- What a pass has walked: its flow, the context in which the walk started, its turns, and the context
that they have left. -/
structure Pass.Walks (engine : Engine) (log : List Exchange) (ending : Except Panic (Option Outcome))
    (flow : Flow) (ctx : Context) (turns : List Turn) (last : Context) : Prop where
  faithful : flow.Faithful
  checked : engine.check flow = .ok ()
  sound : ctx.Sound
  performed : Walk.Performed flow (engine.nodeVisitor deepest flow) engine.config.maxExecutions ctx
    turns last
  stops : Pass.Stops engine flow ctx turns last ending
  answers : ∀ t ∈ turns, ∀ x ∈ t.log, x.Faithful
  saves : ∀ record done, ⟨.save record, done⟩ ∈ log → ∃ t ∈ turns, ⟨.save record, done⟩ ∈ t.log

section
variable {engine : Engine} {flow : Flow} {ctx last : Context} {log : List Exchange}
  {ending : Except Panic (Option Outcome)}

def Unsaved (log : List Exchange) : Prop := ∀ record done, ⟨.save record, done⟩ ∉ log

private theorem turns_answers {turns : List Turn} {front back : List Exchange}
    (answers : ∀ x ∈ front ++ (turns.flatMap Turn.exchanges ++ back), x.Faithful) :
    ∀ t ∈ turns, ∀ x ∈ t.log, x.Faithful := fun t member x heard =>
  answers x (List.mem_append_right _ (List.mem_append_left _
    (List.mem_flatMap.mpr ⟨t, member, List.mem_append_left _ heard⟩)))

private theorem finish_walks (builtIn : engine.BuiltIn) (faithful : flow.Faithful)
    (checked : engine.check flow = .ok ()) {entry : String} (inside : entry ∈ flow.ids)
    (sound : ctx.Sound) (front : List Exchange) {ending : Except Panic (Except Error Outcome)}
    (unsaved : Unsaved front) (answers : ∀ x ∈ front ++ log, x.Faithful)
    (ends : Task.Ends (engine.finish flow entry ctx) log ending) :
    ∃ turns last, Pass.Walks engine (front ++ log) (ending.map Except.toOption) flow ctx turns last := by
  cases ending with
  | ok result =>
    obtain ⟨outcome, turns, rfl, finishes⟩ := finish_runs checked inside ends
    refine ⟨turns, _, faithful, checked, sound, finishes.performed, .ended finishes.executed rfl, ?_,
      fun record done saved => ?_⟩
    · rw [finishes.log] at answers
      exact turns_answers answers
    · exact finishes.saves ((List.mem_append.mp saved).resolve_left (unsaved record done))
  | error cause =>
    obtain ⟨turns, last, back, torn, rfl, -⟩ := walk_torn checked inside (finish_panics ends)
    obtain ⟨node, arrival, -, panics⟩ := torn.panics
    refine ⟨turns, last, faithful, checked, sound, torn.performed, .torn torn, turns_answers answers,
      fun record done saved => ?_⟩
    -- the node that panics has saved nothing, so what was saved was saved in a turn
    have walked := (List.mem_append.mp saved).resolve_left (unsaved record done)
    have inTurn := (List.mem_append.mp walked).resolve_right (panics_unsaved builtIn (Nat.le_refl _) panics)
    obtain ⟨t, member, heard⟩ := List.mem_flatMap.mp inTurn
    exact ⟨t, member, (List.mem_append.mp heard).resolve_right (by simp)⟩

variable {turns : List Turn}

theorem Pass.Walks.before (lawful : engine.Lawful)
    (walks : Pass.Walks engine log ending flow ctx turns last) {t : Turn} (member : t ∈ turns) :
    t.before.Sound := by
  have each := (walks.performed.chained.keeps (fun ctx => ctx.Sound ∧ True)
    ⟨walks.sound, trivial⟩ fun t member => turn_sound lawful walks.faithful Context.lasting_true
      walks.performed member (walks.answers t member)).1
  exact (each t member).1

/-- A record that a pass asks to save is one of a turn in which a node waits. -/
theorem Pass.Walks.suspends (lawful : engine.Lawful)
    (walks : Pass.Walks engine log ending flow ctx turns last) {record : Wait.Record}
    {done : Except Error Unit} (saved : ⟨.save record, done⟩ ∈ log) :
    ∃ t ∈ turns, t.Suspends record done := by
  obtain ⟨t, member, heard⟩ := walks.saves record done saved
  exact ⟨t, member, turn_suspends lawful walks.performed member (walks.before lawful member) heard⟩

/-- A run that starts asks for nothing or tells that it starts and walks. -/
theorem run_finishes {ending : Except Panic (Except Error Outcome)}
    (ends : Task.Ends (engine.run flow ctx) log ending) :
    log = [] ∨ ∃ entry rest, engine.check flow = .ok () ∧ flow.requireEntry = .ok entry ∧
      log = ⟨.publish (.started ctx.runId flow.code ctx.trigger), ()⟩ :: rest ∧
      Task.Ends (engine.finish flow entry.id ctx) rest ending := by
  cases ending with
  | ok result =>
    simp only [Task.Ends, Engine.run, Task.runs_ofExcept_bind, Task.runs_publish_bind] at ends
    rcases ends with ⟨_, -, rfl, -⟩ | ⟨_, checked, ⟨_, -, rfl, -⟩ | ⟨entry, found, rest, rfl, ends⟩⟩
    · exact .inl rfl
    · exact .inl rfl
    · exact .inr ⟨entry, rest, checked, found, rfl, ends⟩
  | error cause =>
    simp only [Task.Ends, Engine.run, Task.panics_ofExcept_bind, Task.panics_publish_bind] at ends
    obtain ⟨_, checked, entry, found, rest, rfl, ends⟩ := ends
    exact .inr ⟨entry, rest, checked, found, rfl, ends⟩

/-- A run from a node of the caller's choice asks for nothing or walks. -/
theorem runFrom_finishes {entry : String} {ending : Except Panic (Except Error Outcome)}
    (ends : Task.Ends (engine.runFrom flow entry ctx) log ending) :
    log = [] ∨ engine.check flow = .ok () ∧ (∃ node, flow.require entry = .ok node) ∧
      Task.Ends (engine.finish flow entry ctx) log ending := by
  cases ending with
  | ok result =>
    simp only [Task.Ends, Engine.runFrom, Task.runs_ofExcept_bind] at ends
    rcases ends with ⟨_, -, rfl, -⟩ | ⟨_, checked, ⟨_, -, rfl, -⟩ | ⟨node, found, ends⟩⟩
    · exact .inl rfl
    · exact .inl rfl
    · exact .inr ⟨checked, ⟨node, found⟩, ends⟩
  | error cause =>
    simp only [Task.Ends, Engine.runFrom, Task.panics_ofExcept_bind] at ends
    obtain ⟨_, checked, node, found, ends⟩ := ends
    exact .inr ⟨checked, ⟨node, found⟩, ends⟩

/-- A run that goes on tells so and walks. -/
theorem goOn_finishes {record : Wait.Record} {event : Event}
    {ending : Except Panic (Except Error Resumed)}
    (ends : Task.Ends (engine.goOn record event flow ctx) log ending) :
    ∃ rest former, log = ⟨.publish (.resumed ctx.runId flow.code record.node), ()⟩ :: rest ∧
      Task.Ends (engine.finish flow record.node (ctx.resumedBy event)) rest former ∧
      ending = former.map (Except.map Resumed.resumed) := by
  obtain ⟨rest, rfl, later⟩ : ∃ rest,
      log = ⟨.publish (.resumed ctx.runId flow.code record.node), ()⟩ :: rest ∧
        Task.Ends (engine.finish flow record.node (ctx.resumedBy event) >>= fun outcome =>
          pure (.resumed outcome)) rest ending := by
    cases ending with
    | ok result => exact Task.runs_publish_bind.mp ends
    | error cause => exact Task.panics_publish_bind.mp ends
  obtain ⟨former, walked, same⟩ := Task.ends_bind_pure.mp later
  exact ⟨rest, former, rfl, walked, same⟩

/-- A pass that asks to save a record has walked its flow. -/
theorem Pass.walks (lawful : engine.Lawful) (pass : Pass engine log ending) :
    Unsaved log ∨ ∃ flow ctx turns last, Pass.Walks engine log ending flow ctx turns last := by
  induction pass with
  | @fresh flow run event log ending faithful payload answers ran =>
    rcases run_finishes ran with rfl | ⟨entry, rest, checked, found, rfl, walked⟩
    · exact .inl (by simp [Unsaved])
    · exact .inr ⟨flow, _, finish_walks lawful.builtIn faithful checked
        (Flow.requireEntry_inside found) (Context.sound_start faithful payload run) [_]
        (by simp [Unsaved]) answers walked⟩
  | @entered flow entry run event log ending faithful payload answers ran =>
    rcases runFrom_finishes ran with rfl | ⟨checked, ⟨node, found⟩, walked⟩
    · exact .inl (by simp [Unsaved])
    · exact .inr ⟨flow, _, finish_walks lawful.builtIn faithful checked (Flow.require_inside found)
        (Context.sound_start faithful payload run) [] (by simp [Unsaved]) answers walked⟩
  | @resumed earlier log before record event ending pass saved payload answers ran ih =>
    cases resume_resumption ran with
    | @taken now flow ctx rest _ inTime ready goes =>
      -- the record is one of an earlier pass, so its text is read as the context of a waiting node
      rcases ih with unsaved | ⟨_, _, _, _, walks⟩
      · exact absurd saved (unsaved record (.ok ()))
      obtain ⟨t, member, suspends⟩ := walks.suspends lawful saved
      have seen := walks.before lawful member
      have sound : ctx.Sound := by
        have back := ready.readable
        rw [suspends.snapshot, Context.ofSnapshot_serialize seen.toFaithful] at back
        split at back
        · exact Except.ok.inj back ▸ seen.kept
        · contradiction
      obtain ⟨node, waits⟩ := ready.waits
      have faithful : flow.Faithful := answers _ (List.mem_append_left _ (List.mem_cons_of_mem _
        (List.mem_cons_self ..)))
      obtain ⟨more, former, rfl, walked, rfl⟩ := goOn_finishes goes
      obtain ⟨turns, last, walks⟩ := finish_walks lawful.builtIn faithful ready.checked
        (Flow.require_inside waits) (sound.resumedBy payload) [_, _, _, _] (by simp [Unsaved])
        answers walked
      have same : (former.map (Except.map Resumed.resumed)).map
          (fun result => result.toOption.bind Resumed.outcome?) = former.map Except.toOption := by
        rcases former with cause | _ | outcome <;> rfl
      exact .inr ⟨flow, _, turns, last, same ▸ walks⟩
    | _ => exact .inl (by simp [Unsaved])

theorem Pass.of_world {run : String} {event : Event} {w : World} (faithful : flow.Faithful)
    (payload : event.payload.Faithful)
    (plain : ((engine.run flow (.start run flow event) ()).heard w).all Exchange.isPlain = true) :
    Pass engine ((engine.run flow (.start run flow event) ()).heard w)
      (((engine.run flow (.start run flow event) ()).run w).1.map fun ended => ended.1.toOption) := by
  have ends := Task.ends_of_program (Program.ends_heard (engine.run flow (.start run flow event) ()) w)
  have passed := Pass.fresh faithful payload
    (fun x heard => Exchange.faithful_of_isPlain (List.all_eq_true.mp plain x heard)) ends
  cases ended : ((engine.run flow (.start run flow event) ()).run w).1 <;>
    rwa [ended] at passed

end

end Engine

/-! ### Runs in a conversation -/

namespace Chat

def message (text : String) : Event :=
  .chatMessage { organization := "org", conversation := "conv" } text

/-- A start node that chat messages lead on from, by the edges of one label. -/
def start : Node where
  id := "start"
  type := "start"
  params := .ofFields [("branches", .arr [.ofFields
    [("branch_id", .str "m"), ("trigger_type", .str "chat_message")]])]

/-- A node that waits for a message. -/
def wait : Node where
  id := "wait"
  type := "wait_message"
  params := .empty

/-- A node that sets a variable. -/
def assign (id name : String) (v : Json) : Node where
  id := id
  type := "variable_save"
  params := .ofFields [("variables", .ofFields [(name, v)])]

/-- A run of a flow that starts with a message. -/
def run (flow : Flow) : Program (Except Error Outcome × Unit) :=
  (Engine.standard {}).run flow (.start "r" flow (message "first")) ()

/-- What a run has asked and was answered. -/
def log (flow : Flow) : List Exchange := (run flow).heard {}

/-- How a run has ended. -/
def ending (flow : Flow) : Except Panic (Option Outcome) :=
  ((run flow).run {}).1.map fun ended => ended.1.toOption

/-- What a run has come to. -/
def outcome? (flow : Flow) : Option Outcome := (ending flow).toOption.join

theorem ending_of_outcome {flow : Flow} {outcome : Outcome} (come : outcome? flow = some outcome) :
    ending flow = .ok (some outcome) := by
  unfold outcome? at come
  cases ended : ending flow with
  | error cause => simp [ended, Except.toOption] at come
  | ok result => simpa [ended, Except.toOption] using come

/-- The records that a run has saved. -/
def records (flow : Flow) : List Wait.Record := (log flow).filterMap Exchange.saved?

theorem faithful_start : start.params.Faithful :=
  Json.faithful_ofFields (by simpa using Json.faithful_ofFields (by simp))

theorem faithful_assign {id name : String} {v : Json} (faithful : v.Faithful) :
    (assign id name v).params.Faithful :=
  Json.faithful_ofFields (by simpa using Json.faithful_ofFields (by simpa using faithful))

theorem pass {flow : Flow} (params : ∀ n ∈ flow.nodes, n.params.Faithful)
    (undeclared : flow.declared = []) (plain : (log flow).all Exchange.isPlain = true) :
    Engine.Pass (.standard {}) (log flow) (ending flow) :=
  .of_world ⟨params, by simp [undeclared]⟩ (Json.faithful_ofFields (by simp)) plain

theorem mem_records {flow : Flow} {record : Wait.Record} :
    record ∈ records flow ↔ ⟨.save record, .ok ()⟩ ∈ log flow := by
  simp [records, Exchange.saved?_eq_some]

end Chat

end Parley

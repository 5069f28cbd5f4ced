import Parley.Engine.Basic
import Parley.Proofs.Invariant
import Parley.Proofs.Registry
/-!
# What walks ask for

A walk with the node types of every engine asks for the time, identifiers and flows, runs code, sends
messages to the conversation of its run and tells of nodes of the run that have run; outside all other
walks it also saves records of the run. It takes no record out of the store, and it starts, resumes and
ends no run. What holds of the context at the start of a walk, and is not undone by the nodes of a run,
holds whenever something is asked (`Engine.nested_asks`, `Engine.topWalk_asks`).
-/
namespace Parley

/-- What the work of a node asks for when it suspends no run. -/
def Request.IsWork (ctx : Context) : Request → Prop
  | .clock | .identifier | .load .. | .execute .. => True
  | .send scope _ => scope = ctx.scope
  | .publish (.nodeFinished run ..) => run = ctx.runId
  | _ => False

/-- What a node asks for that suspends a run: to save a record of its context. -/
def Request.IsWait (ctx : Context) (r : Request) : Prop :=
  ∃ id now timeout node,
    r = .save (Runner.WaitMessage.record id now timeout node ctx.snapshot.2 ctx.snapshot.1)

/-- What a run may ask for by an invariant of its context. Its nodes keep the invariant, and so do the
flows that they call. -/
structure Conduct (inv : Context → Prop) (allowed : Request → Prop) : Prop where
  record : ∀ ctx id v, inv ctx → inv (ctx.record id v)
  setVariable : ∀ ctx name v, inv ctx → inv (ctx.setVariable name v)
  forSubFlow : ∀ ctx flow payload, inv ctx → inv (ctx.forSubFlow flow payload)
  works : ∀ ctx r, inv ctx → r.IsWork ctx → allowed r

/-- What a run may ask for that can be suspended. -/
structure Conduct.Suspends (inv : Context → Prop) (allowed : Request → Prop) : Prop
    extends Conduct inv allowed where
  snapshot : ∀ ctx, inv ctx → inv ctx.snapshot.2
  waits : ∀ ctx r, inv ctx → r.IsWait ctx → allowed r

/-- Whatever it is answered, the task asks for what is allowed only and keeps the invariant. -/
abbrev Task.Asks {σ α : Type} (inv : σ → Prop) (allowed : Request → Prop) (t : Task σ α) : Prop :=
  Keeps inv (fun _ => True) allowed (fun _ => True) t

namespace Runner
open Parley.Task

/-- The runner keeps to what is allowed when the walks nested in it do. -/
def Works (runner : Runner) : Prop :=
  ∀ inv allowed around call, Conduct inv allowed →
    (∀ flow entry appointed, Asks inv allowed (around.nested flow entry appointed)) →
    Asks (fun s : NodeState => inv s.context) allowed (runner around call)

section
variable {inv : Context → Prop} {allowed : Request → Prop}

private theorem asks_ofExcept {σ α : Type} {part : σ → Prop} (e : Except Error α) :
    Asks part allowed (Task.ofExcept e) :=
  keeps_ofExcept fun _ _ => trivial

private theorem asks_ofChecked {σ α : Type} {part : σ → Prop} (checked : Except Panic α) :
    Asks part allowed (Task.ofChecked checked) :=
  keeps_ofChecked fun _ _ => trivial

private theorem asks_report (change : Report → Report) :
    Asks (fun s => inv s.context) allowed (report change) :=
  keeps_modify fun _ kept => kept

private theorem asks_context {change : Context → Context}
    (keeps : ∀ ctx, inv ctx → inv (change ctx)) :
    Asks (fun s => inv s.context) allowed (context change) :=
  keeps_modify fun s kept => keeps s.context kept

private theorem start_works : Works start := fun _ _ _ _ _ _ =>
  keeps_bind (asks_ofExcept _) fun _ _ => keeps_bind keeps_get fun _ _ =>
    keeps_bind (asks_ofExcept _) fun _ _ => asks_report _

private theorem ifElse_works : Works ifElse := fun _ _ _ _ _ _ =>
  keeps_bind (asks_ofExcept _) fun _ _ => keeps_bind keeps_get fun _ _ =>
    keeps_bind (asks_ofExcept _) fun _ _ => asks_report _

private theorem finish_works : Works finish := fun _ _ _ _ _ _ =>
  keeps_bind (asks_ofExcept _) fun _ _ => keeps_bind keeps_get fun _ _ =>
    keeps_bind (asks_ofExcept _) fun _ _ => asks_report _

private theorem iterate_asks {around : Surroundings} {call : Call} {body : String}
    (conduct : Conduct inv allowed)
    (nested : ∀ flow entry appointed, Asks inv allowed (around.nested flow entry appointed))
    (index : Nat) (items : List Json) :
    Asks (fun s => inv s.context) allowed (Loop.iterate around call body index items) := by
  induction items generalizing index with
  | nil => exact keeps_pure trivial
  | cons item rest ih =>
    refine keeps_bind (asks_context fun ctx => conduct.record ctx _ _) fun _ _ =>
      keeps_bind (keeps_within (fun _ kept => kept) (fun _ _ _ after => after) (nested _ _ _))
        fun walk _ => keeps_bind (asks_report _) fun _ _ => ?_
    split
    · exact keeps_throw _
    · exact ih _

private theorem loop_works : Works loop := by
  intro inv allowed around call conduct nested
  refine keeps_bind (asks_ofExcept _) fun params _ => keeps_bind keeps_get fun _ _ =>
    keeps_bind (asks_ofExcept _) fun _ _ => keeps_bind (asks_ofChecked _) fun turns _ => ?_
  split
  · exact keeps_guard fun _ => keeps_throw _
  · exact keeps_guard fun _ => keeps_bind (iterate_asks conduct nested _ _) fun _ _ => asks_report _

private theorem subFlow_works : Works subFlow := by
  intro inv allowed around call conduct nested
  refine keeps_somewhere fun s kept => keeps_bind (asks_ofExcept _) fun params _ =>
    keeps_bind (keeps_call_any (r := .load _ _) (conduct.works _ _ kept trivial))
      fun flow _ => keeps_bind (asks_ofExcept _) fun _ _ => keeps_bind (asks_ofExcept _) fun entry _ =>
    keeps_bind keeps_get fun now here => keeps_bind (asks_ofExcept _) fun argument _ =>
    keeps_bind (keeps_apart (conduct.forSubFlow _ _ _ here) (nested _ _ _)) fun ended _ =>
    keeps_bind (asks_report _) fun _ _ => ?_
  split
  · exact keeps_throw _
  · exact asks_report _

private theorem code_works : Works code := by
  intro inv allowed around call conduct nested
  refine keeps_somewhere fun s kept => keeps_bind (asks_ofExcept _) fun params _ =>
    keeps_bind (keeps_ask (.execute _ _ _) (conduct.works _ _ kept trivial)) fun result _ => ?_
  split
  · exact keeps_throw _
  · exact keeps_bind (asks_ofExcept _) fun _ _ => asks_report _

private theorem reply_works : Works reply := fun _ _ _ _ conduct _ =>
  keeps_bind (asks_ofExcept _) fun _ _ => keeps_bind keeps_get fun _ here =>
    keeps_bind (asks_ofExcept _) fun _ _ =>
    keeps_bind (keeps_call_any (r := .send _ _) (conduct.works _ _ here rfl))
      fun _ _ => asks_report _

private theorem setVariables_works : Works setVariables := by
  intro inv allowed around call conduct nested
  have assign (values : Keyed Json) (ctx : Context) (kept : inv ctx) :
      inv (SetVariables.assign ctx values) := by
    induction values generalizing ctx with
    | nil => exact kept
    | cons f fs ih => exact ih _ (conduct.setVariable _ _ _ kept)
  exact keeps_bind (asks_ofExcept _) fun _ _ => keeps_bind keeps_get fun _ _ =>
    keeps_bind (asks_ofExcept _) fun _ _ => keeps_bind (asks_context (assign _)) fun _ _ =>
    asks_report _

/-- Of the built-in runners only the one for nodes that wait does more than work. -/
theorem builtins_work : ∀ r ∈ builtins,
    (r.type = "wait_message" ∧ r.runner = waitMessage) ∨ Works r.runner := by
  simp only [builtins, firstVersion, List.forall_mem_cons, List.not_mem_nil, false_implies,
    implies_true, and_true]
  exact ⟨.inr start_works, .inl trivial, .inr ifElse_works, .inr loop_works, .inr subFlow_works,
    .inr finish_works, .inr code_works, .inr reply_works, .inr setVariables_works⟩

/-- A node that waits saves a record where a run can be suspended, and nowhere else. -/
theorem waitMessage_asks {around : Surroundings} {call : Call} (conduct : Conduct inv allowed)
    (suspends : call.maySuspend = true → Conduct.Suspends inv allowed) :
    Asks (fun s => inv s.context) allowed (waitMessage around call) := by
  unfold waitMessage
  split
  · exact keeps_bind keeps_get fun _ _ => asks_report _
  · unfold WaitMessage.suspend
    refine keeps_guard fun may => ?_
    have suspends := suspends (by simpa using may)
    exact keeps_somewhere fun s kept => keeps_bind (asks_ofExcept _) fun _ _ =>
      keeps_bind (keeps_ask .clock (conduct.works _ _ kept trivial)) fun _ _ =>
      keeps_bind (keeps_ask .identifier (conduct.works _ _ kept trivial)) fun _ _ =>
      keeps_bind (asks_ofChecked _) fun _ _ => keeps_bind keeps_get fun now here =>
      keeps_bind (asks_context fun _ _ => suspends.snapshot _ here) fun _ _ =>
      keeps_bind (keeps_call_any (r := .save _) (suspends.waits _ _ here ⟨_, _, _, _, rfl⟩)) fun _ _ =>
      asks_report _

end

end Runner

namespace Engine
open Parley.Task

/-- The runners of the engine are those of the built-in node types. -/
def BuiltIn (engine : Engine) : Prop := ∃ fallback, engine.registry = Runner.builtin fallback

theorem builtIn_standard (config : EngineConfig) : (standard config).BuiltIn := ⟨_, rfl⟩

section
variable {engine : Engine} {inv : Context → Prop} {allowed : Request → Prop}

/-- A node is served by the built-in runner of its type. -/
theorem BuiltIn.serves (builtIn : engine.BuiltIn) {type version : String}
    {r : Registration Runner} (found : engine.registry.resolve type version = .ok r) :
    r ∈ Runner.builtins ∧ r.type = type := by
  obtain ⟨fallback, registry⟩ := builtIn
  have served := registry ▸ found
  exact ⟨Runner.builtin_mem served, Registry.resolve_type served⟩

/-- The runner that serves a node waits or works. -/
theorem BuiltIn.waits_or_works (builtIn : engine.BuiltIn) {type version : String}
    {r : Registration Runner} (found : engine.registry.resolve type version = .ok r) :
    (type = "wait_message" ∧ r.runner = Runner.waitMessage) ∨ Runner.Works r.runner := by
  obtain ⟨builtin, rfl⟩ := builtIn.serves found
  exact Runner.builtins_work r builtin

private theorem recorded_keeps (conduct : Conduct inv allowed) (s : NodeState)
    (kept : inv s.context) : inv (recorded s).context := by
  unfold recorded
  split
  · exact kept
  · split
    · exact conduct.record _ _ _ kept
    · exact kept

private theorem visitor_asks (builtIn : engine.BuiltIn) (conduct : Conduct inv allowed)
    {around : Surroundings}
    (nested : ∀ flow entry appointed, Asks inv allowed (around.nested flow entry appointed))
    {depth : Nat} (suspends : depth = 0 → Conduct.Suspends inv allowed)
    (flow : Flow) (first : Bool) (node : Node) (arrival : Arrival) :
    Asks inv allowed (ExceptT.lift (engine.visitor around flow depth first node arrival)) := by
  have runs : Asks (fun s => inv s.context) allowed
      (engine.runNode around flow depth first node arrival) := by
    refine keeps_ofExcept_bind fun r found => keeps_bind keeps_get fun _ _ =>
      keeps_ofExcept_bind fun inputs _ => ?_
    have serves (call : Call) (may : call.maySuspend = true → depth = 0) :
        Asks (fun s => inv s.context) allowed (r.runner around call) := by
      rcases builtIn.waits_or_works found with ⟨-, waits⟩ | worker
      · rw [waits]
        exact Runner.waitMessage_asks conduct fun top => suspends (may top)
      · exact worker _ _ _ _ conduct nested
    exact keeps_bind (serves _ (by simp)) fun _ _ => keeps_modify (recorded_keeps conduct)
  refine keeps_lift fun ctx kept => (runs _ kept).bind ?_
  rintro ⟨result, s⟩ ⟨after, -⟩
  cases result <;> exact ⟨after, trivial⟩

private theorem proceed_asks (conduct : Conduct inv allowed) {flow : Flow} {visitor : Visitor}
    (visits : ∀ first node arrival, Asks inv allowed (ExceptT.lift (visitor first node arrival)))
    (limit left : Nat) (frontier : Frontier) (walk : Walk) :
    Asks inv allowed (Walk.proceed flow visitor limit left frontier walk) := by
  have announces (v : Visit) : Asks inv allowed (Walk.announce v) :=
    keeps_bind keeps_get fun ctx here =>
      (keeps_ask (.publish (v.event ctx.runId)) (conduct.works ctx _ here rfl)).ignore
  induction left generalizing frontier walk with
  | zero =>
    unfold Walk.proceed
    split
    · exact keeps_pure trivial
    · exact keeps_ofExcept_bind fun _ _ => keeps_bind (announces _) fun _ _ => keeps_pure trivial
  | succ left ih =>
    unfold Walk.proceed
    split
    · exact keeps_pure trivial
    · exact keeps_ofExcept_bind fun node _ => keeps_bind (visits _ _ _) fun ended _ =>
        keeps_bind (announces _) fun _ _ => ih _ _

/-- A walk within another one asks for nothing but work. -/
theorem nested_asks (builtIn : engine.BuiltIn) (conduct : Conduct inv allowed) {room : Nat}
    (nested : room ≤ deepest) (flow : Flow) (entry : String) (appointed : Option Trigger) :
    Asks inv allowed (engine.walk room flow entry appointed) := by
  induction room generalizing flow entry appointed with
  | zero => exact keeps_throw _
  | succ room ih =>
    exact proceed_asks conduct (visitor_asks builtIn conduct (ih (by omega))
      (fun top => absurd top (by omega)) flow) _ _ _ _

/-- A walk outside all other walks works and saves records. -/
theorem topWalk_asks (builtIn : engine.BuiltIn) (suspends : Conduct.Suspends inv allowed)
    (flow : Flow) (entry : String) : Asks inv allowed (engine.topWalk flow entry) :=
  proceed_asks suspends.toConduct (visitor_asks builtIn suspends.toConduct
    (nested_asks builtIn suspends.toConduct (Nat.le_refl _)) (fun _ => suspends) flow) _ _ _ _

end

end Engine

end Parley

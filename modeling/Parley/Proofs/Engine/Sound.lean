import Parley.Proofs.Requests
import Parley.Proofs.Runner.Sound
import Parley.Proofs.Engine.Closure
/-!
# Walks keep contexts sound

A walk with the built-in node types leads from sound contexts to sound ones when a text can tell its
flow and what it is answered, and what nodes cannot undo lasts (`Engine.walk_sound`). So the context
that a node finds is sound whatever has run before it (`Engine.Turn.keeps`).
-/
namespace Parley
open Parley.Task

namespace Engine
variable {engine : Engine} {flow : Flow} {has : Context → Prop}

/-- The engine has the built-in node types, and its expressions make no values up. -/
structure Lawful (engine : Engine) : Prop where
  builtIn : engine.BuiltIn
  resolver : Resolver.Faithful engine.resolver

theorem lawful_standard (config : EngineConfig) : (standard config).Lawful :=
  ⟨builtIn_standard config, Path.resolve_faithful⟩

/-! ## Nodes -/

/-- What the visitor of a node tells is how the run of the node went. -/
theorem runs_visitor {around : Surroundings} {depth : Nat} {first : Bool} {node : Node}
    {arrival : Arrival} {ctx ctx' : Context} {log : List Exchange} {report : Report}
    {failure : Option Error}
    (run : Program.Runs (engine.visitor around flow depth first node arrival ctx) log
      ((report, failure), ctx')) :
    ∃ result s, Task.Runs (engine.runNode around flow depth first node arrival)
        { context := ctx, report := { id := node.id } } log result s ∧
      report = s.report ∧ ctx' = s.context ∧
      ((result = .ok () ∧ failure = none) ∨ ∃ e, result = .error e ∧ failure = some e) := by
  obtain ⟨⟨result, s⟩, _, _, ran, told, rfl⟩ := Program.runs_bind.mp run
  cases result with
  | ok v =>
    obtain ⟨rfl, same⟩ := Program.runs_done.mp told
    cases same
    exact ⟨.ok v, s, by rwa [List.append_nil], rfl, rfl, .inl ⟨rfl, rfl⟩⟩
  | error e =>
    obtain ⟨rfl, same⟩ := Program.runs_done.mp told
    cases same
    exact ⟨.error e, s, by rwa [List.append_nil], rfl, rfl, .inr ⟨e, rfl, rfl⟩⟩

@[simp] theorem recorded_report (s : NodeState) : (recorded s).report = s.report := by
  unfold recorded
  split
  · rfl
  · split <;> rfl

theorem recorded_context {s : NodeState} {v : Json} (goesOn : s.report.suspended = false)
    (told : s.report.result = some v) : (recorded s).context = s.context.record s.report.id v := by
  simp [recorded, goesOn, told]

/-- The call with which a node is run. -/
def nodeCall (flow : Flow) (depth : Nat) (first : Bool) (node : Node) (arrival : Arrival)
    (inputs : Keyed Json) : Call where
  flow := flow
  node := node
  isFirst := first
  inputs := inputs
  parents := arrival.parents
  appointed := arrival.appointed
  maySuspend := depth == 0
  depth := depth

/-- The node can start: there is a runner for it, and all of its inputs have values. -/
structure Starts (engine : Engine) (ctx : Context) (node : Node) (r : Registration Runner)
    (inputs : Keyed Json) : Prop where
  served : engine.registry.resolve node.type node.version = .ok r
  given : inputValues engine.resolver ctx node.id [] node.inputs = .ok inputs

theorem Starts.unique {ctx : Context} {node : Node} {r r' : Registration Runner}
    {inputs inputs' : Keyed Json} (starts : engine.Starts ctx node r inputs)
    (starts' : engine.Starts ctx node r' inputs') : r = r' ∧ inputs = inputs' :=
  ⟨Except.ok.inj (starts.served.symm.trans starts'.served),
    Except.ok.inj (starts.given.symm.trans starts'.given)⟩

/-- A node without declared inputs starts in every context if its type is known. -/
theorem exists_starts {node : Node} (bare : node.inputs = [])
    (served : (engine.registry.resolve node.type node.version).toOption.isSome) (ctx : Context) :
    ∃ r, engine.Starts ctx node r [] := by
  cases found : engine.registry.resolve node.type node.version with
  | error e => simp [found, Except.toOption] at served
  | ok r => exact ⟨r, found, by rw [bare]; rfl⟩

section
variable {around : Surroundings} {depth : Nat} {first : Bool} {node : Node} {arrival : Arrival}
  {log : List Exchange}

/-- A node that cannot start fails at once. One that can is run by its runner, and the result is
recorded unless the runner has failed. -/
theorem runNode_runs {s s' : NodeState} {result : Except Error Unit}
    (run : Task.Runs (engine.runNode around flow depth first node arrival) s log result s') :
    ((∀ r inputs, ¬ engine.Starts s.context node r inputs) ∧
      ∃ e, result = .error e ∧ log = [] ∧ s' = s) ∨
      ∃ r inputs s₁, engine.Starts s.context node r inputs ∧
        Task.Runs (r.runner around (nodeCall flow depth first node arrival inputs)) s log result s₁ ∧
        ((result = .ok () ∧ s' = recorded s₁) ∨ ∃ e, result = .error e ∧ s' = s₁) := by
  simp only [runNode, runs_ofExcept_bind, runs_get_bind] at run
  rcases run with ⟨e, unserved, rfl, rfl, rfl⟩ | ⟨r, served, ⟨e, missing, rfl, rfl, rfl⟩ |
    ⟨inputs, given, run⟩⟩
  · refine .inl ⟨?_, e, rfl, rfl, rfl⟩
    rintro r inputs ⟨served, -⟩
    rw [unserved] at served
    contradiction
  · refine .inl ⟨?_, e, rfl, rfl, rfl⟩
    rintro r inputs ⟨-, given⟩
    rw [missing] at given
    contradiction
  rcases runs_bind.mp run with ⟨e, ran, rfl⟩ | ⟨_, s₁, _, _, ran, ended, rfl⟩
  · exact .inr ⟨r, inputs, s', ⟨served, given⟩, ran, .inr ⟨e, rfl, rfl⟩⟩
  · obtain ⟨rfl, rfl, rfl⟩ := runs_modify.mp ended
    rw [List.append_nil]
    exact .inr ⟨r, inputs, s₁, ⟨served, given⟩, ran, .inl ⟨rfl, rfl⟩⟩

/-- What a node ends with when its runner has ended in a state: the result is recorded unless there was
an error. -/
inductive Concludes (s : NodeState) : Except Error Unit → Option Error → Context → Prop
  | done : Concludes s (.ok ()) none (recorded s).context
  | failed (e : Error) : Concludes s (.error e) (some e) s.context

theorem Concludes.ok {s : NodeState} {result : Except Error Unit} {ctx' : Context}
    (ended : Concludes s result none ctx') : result = .ok () := by
  cases ended
  rfl

/-- The visitor tells what the runner has reported. -/
theorem visitor_runs {ctx ctx' : Context} {report : Report} {failure : Option Error}
    (run : Program.Runs (engine.visitor around flow depth first node arrival ctx) log
      ((report, failure), ctx')) :
    ((∀ r inputs, ¬ engine.Starts ctx node r inputs) ∧ log = [] ∧ failure.isSome ∧ ctx' = ctx) ∨
      ∃ r inputs result s, engine.Starts ctx node r inputs ∧
        Task.Runs (r.runner around (nodeCall flow depth first node arrival inputs))
          { context := ctx, report := { id := node.id } } log result s ∧ report = s.report ∧
        Concludes s result failure ctx' := by
  obtain ⟨result, s, ran, rfl, rfl, ⟨rfl, rfl⟩ | ⟨e, rfl, rfl⟩⟩ := runs_visitor run
  · rcases runNode_runs ran with ⟨-, _, failed, -⟩ |
      ⟨r, inputs, s₁, starts, worked, ⟨-, rfl⟩ | ⟨_, failed, -⟩⟩
    · contradiction
    · exact .inr ⟨r, inputs, .ok (), s₁, starts, worked, recorded_report s₁, .done⟩
    · contradiction
  · rcases runNode_runs ran with ⟨never, _, -, rfl, rfl⟩ |
      ⟨r, inputs, s₁, starts, worked, ⟨ok, -⟩ | ⟨_, -, rfl⟩⟩
    · exact .inl ⟨never, rfl, rfl, rfl⟩
    · contradiction
    · exact .inr ⟨r, inputs, .error e, s, starts, worked, rfl, .failed e⟩

/-- A node that can start ends as its runner does. -/
theorem visitor_iff {ctx ctx' : Context} {report : Report} {failure : Option Error}
    {r : Registration Runner} {inputs : Keyed Json} (starts : engine.Starts ctx node r inputs) :
    Program.Runs (engine.visitor around flow depth first node arrival ctx) log
        ((report, failure), ctx') ↔
      ∃ result s, Task.Runs (r.runner around (nodeCall flow depth first node arrival inputs))
          { context := ctx, report := { id := node.id } } log result s ∧ report = s.report ∧
        Concludes s result failure ctx' := by
  constructor
  · intro run
    rcases visitor_runs run with ⟨never, -⟩ | ⟨r', inputs', result, s, starts', worked⟩
    · exact absurd starts (never r inputs)
    · obtain ⟨rfl, rfl⟩ := starts.unique starts'
      exact ⟨result, s, worked⟩
  · rintro ⟨result, s, worked, rfl, ended⟩
    have node : Task.Runs (engine.runNode around flow depth first node arrival)
        { context := ctx, report := { id := node.id } } log result
        (match result with | .ok _ => recorded s | .error _ => s) := by
      simp only [runNode, runs_ofExcept_bind, runs_get_bind, starts.served, starts.given]
      refine .inr ⟨r, rfl, .inr ⟨inputs, rfl, runs_bind.mpr ?_⟩⟩
      cases result with
      | ok => exact .inr ⟨(), s, log, [], worked, runs_modify.mpr ⟨rfl, rfl, rfl⟩, by simp⟩
      | error e => exact .inl ⟨e, worked, rfl⟩
    cases ended with
    | done =>
      have told : (recorded s).report = s.report := recorded_report s
      exact Program.runs_bind.mpr
        ⟨_, log, [], node, Program.runs_done.mpr ⟨rfl, by rw [told]⟩, by simp⟩
    | failed e => exact Program.runs_bind.mpr ⟨_, log, [], node, Program.runs_done.mpr ⟨rfl, rfl⟩, by simp⟩

theorem runNode_panics {s : NodeState} {cause : Panic} :
    Task.Panics (engine.runNode around flow depth first node arrival) s log cause ↔
      ∃ r inputs, engine.Starts s.context node r inputs ∧
        Task.Panics (r.runner around (nodeCall flow depth first node arrival inputs)) s log cause := by
  simp only [runNode, panics_ofExcept_bind, panics_get_bind]
  constructor
  · rintro ⟨r, served, inputs, given, panics⟩
    rcases panics_bind.mp panics with worked | ⟨_, _, _, _, -, ended, -⟩
    · exact ⟨r, inputs, ⟨served, given⟩, worked⟩
    · exact absurd ended not_panics_modify
  · rintro ⟨r, inputs, ⟨served, given⟩, worked⟩
    exact ⟨r, served, inputs, given, panics_bind.mpr (.inl worked)⟩

/-- A node panics when it can start and its runner does. -/
theorem visitor_panics {ctx : Context} {cause : Panic} :
    Program.Ends (engine.visitor around flow depth first node arrival ctx) log (.error cause) ↔
      ∃ r inputs, engine.Starts ctx node r inputs ∧
        Task.Panics (r.runner around (nodeCall flow depth first node arrival inputs))
          { context := ctx, report := { id := node.id } } log cause := by
  refine Iff.trans ?_ (runNode_panics (s := { context := ctx, report := { id := node.id } }))
  constructor
  · intro ends
    rcases Program.ends_bind.mp ends with ⟨_, ran, same⟩ | ⟨⟨result, s⟩, _, _, -, told, -⟩
    · exact Except.error.inj same ▸ ran
    · cases result <;> exact nomatch (Program.ends_done.mp told).2
  · exact fun ran => Program.ends_bind.mpr (.inl ⟨cause, ran, rfl⟩)

end

private theorem recorded_sound (lasting : Context.Lasting has) (s : NodeState)
    (sound : s.Sound has) : (recorded s).Sound has := by
  unfold recorded
  split
  · exact sound
  · split
    · next v result =>
      exact ⟨sound.context.record (sound.report v result), lasting.record _ _ _ sound.lasts,
        sound.report⟩
    · exact sound

private theorem runNode_sound (lawful : engine.Lawful) (lasting : Context.Lasting has)
    {around : Surroundings} (sound : around.Sound) (faithful : flow.Faithful) {node : Node}
    (params : node.params.Faithful) (depth : Nat) (first : Bool) (arrival : Arrival) :
    Keeps (NodeState.Sound has) Exchange.Faithful (fun _ => True) (fun _ => True)
      (engine.runNode around flow depth first node arrival) := by
  exact keeps_ofExcept_bind fun r found => keeps_bind keeps_get fun _ _ =>
    keeps_ofExcept_bind fun inputs _ => keeps_bind
      (Runner.builtins_sound r (lawful.builtIn.serves found).1 has lasting around _ sound faithful
        params)
      fun _ _ => keeps_modify (recorded_sound lasting)

theorem visitor_sound (lawful : engine.Lawful) (lasting : Context.Lasting has)
    {around : Surroundings} (sound : around.Sound) (faithful : flow.Faithful) {node : Node}
    (params : node.params.Faithful) (depth : Nat) (first : Bool) (arrival : Arrival) (ctx : Context)
    (before : ctx.Sound ∧ has ctx) :
    Program.Asks Exchange.Faithful (fun _ => True) (fun ended => (ended.2.Sound ∧ has ended.2) ∧ True)
      (engine.visitor around flow depth first node arrival ctx) := by
  have start : NodeState.Sound has { context := ctx, report := { id := node.id } } :=
    ⟨before.1, before.2, by simp [Report.Faithful]⟩
  refine (runNode_sound lawful lasting sound faithful params depth first arrival _ start).bind ?_
  rintro ⟨result, s⟩ ⟨after, -⟩
  cases result <;> exact ⟨⟨after.context, after.lasts⟩, trivial⟩

/-! ## Walks -/

theorem params_faithful (faithful : flow.Faithful) {id : String} {node : Node}
    (found : flow.require id = .ok node) : node.params.Faithful :=
  faithful.params node (Flow.require_mem found).1

private theorem proceed_sound (lawful : engine.Lawful) {around : Surroundings}
    (sound : around.Sound) (faithful : flow.Faithful) (depth limit left : Nat)
    (frontier : Frontier) (walk : Walk) :
    Task.KeepsSound (Walk.proceed flow (engine.visitor around flow depth) limit left frontier walk)
    := by
  intro has lasting
  have announces (v : Visit) : Keeps (fun ctx => ctx.Sound ∧ has ctx) Exchange.Faithful
      (fun _ => True) (fun _ => True) (Walk.announce v) :=
    keeps_bind keeps_get fun ctx _ => (keeps_ask (.publish (v.event ctx.runId)) trivial).ignore
  induction left generalizing frontier walk with
  | zero =>
    unfold Walk.proceed
    split
    · exact keeps_pure trivial
    · exact keeps_ofExcept_bind fun _ _ => keeps_bind (announces _) fun _ _ => keeps_pure trivial
  | succ left ih =>
    unfold Walk.proceed
    split
    · exact keeps_pure trivial
    · refine keeps_ofExcept_bind fun node found => ?_
      have visits (first : Bool) (arrival : Arrival) :
          Keeps (fun ctx => ctx.Sound ∧ has ctx) Exchange.Faithful (fun _ => True) (fun _ => True)
            (ExceptT.lift (engine.visitor around flow depth first node arrival)) :=
        keeps_lift (visitor_sound lawful lasting sound faithful (params_faithful faithful found) _ _ _)
      exact keeps_bind (visits _ _) fun ended _ => keeps_bind (announces _) fun _ _ => ih _ _

theorem walk_sound (lawful : engine.Lawful) (faithful : flow.Faithful) (room : Nat) (entry : String)
    (appointed : Option Trigger) : Task.KeepsSound (engine.walk room flow entry appointed) := by
  induction room generalizing flow entry appointed with
  | zero => exact fun _ _ => keeps_throw _
  | succ room ih =>
    exact proceed_sound lawful ⟨lawful.resolver, fun flow entry appointed faithful =>
      ih faithful entry appointed⟩ faithful _ _ _ _ _

theorem around_sound (lawful : engine.Lawful) (room : Nat) : (engine.around room).Sound :=
  ⟨lawful.resolver, fun _ entry appointed faithful => walk_sound lawful faithful room entry appointed⟩

/-- A turn of a walk leads from a sound context to a sound one, and what lasts is not undone. -/
theorem turn_sound (lawful : engine.Lawful) (faithful : flow.Faithful)
    (lasting : Context.Lasting has) {room limit : Nat} {ctx ctx' : Context} {turns : List Turn}
    (performed : Walk.Performed flow (engine.nodeVisitor room flow) limit ctx turns ctx') {t : Turn}
    (member : t ∈ turns) (answers : ∀ x ∈ t.log, x.Faithful) (before : t.before.Sound ∧ has t.before) :
    t.after.Sound ∧ has t.after := by
  rcases performed.turn member with ⟨first, node, arrival, report, failure, found, -, run⟩ | cut
  · exact ((visitor_sound lawful lasting (around_sound lawful room) faithful
      (params_faithful faithful found) _ _ _ _ before).goes run answers).2.1
  · exact cut.after ▸ before

end Engine

end Parley

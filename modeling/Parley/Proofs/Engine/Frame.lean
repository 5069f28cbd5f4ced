import Parley.Proofs.Runner.Frame
import Parley.Proofs.Runner.Reports
import Parley.Proofs.Engine.Loop
/-!
# What walks change of contexts

A node that fails leaves the context as it was, and one that succeeds writes its own output, and the
variables that it sets (`Engine.Frames`). Only a loop changes more, and that is what the nodes of its
body change. So a walk writes nothing but outputs of nodes of its flow and variables that its nodes set,
however its loops are nested.
-/
namespace Parley

/-! ## Changes -/

/-- Nothing of the context has changed but the outputs of some nodes and the values of some variables. -/
structure Context.ChangesOnly (nodes names : String → Prop) (ctx ctx' : Context) : Prop where
  run : ctx'.runId = ctx.runId
  flow : ctx'.flowCode = ctx.flowCode ∧ ctx'.flowVersion = ctx.flowVersion
  trigger : ctx'.trigger = ctx.trigger
  payload : ctx'.payload = ctx.payload
  operator : ctx'.operator = ctx.operator
  scope : ctx'.scope = ctx.scope
  outputs : ∀ id, ¬ nodes id → ctx'.output? id = ctx.output? id
  values : ∀ name, ¬ names name → ctx'.variableValue? name = ctx.variableValue? name

namespace Context
variable {nodes names : String → Prop} {ctx ctx₁ ctx₂ : Context}

theorem ChangesOnly.refl (ctx : Context) : ctx.ChangesOnly nodes names ctx :=
  ⟨rfl, ⟨rfl, rfl⟩, rfl, rfl, rfl, rfl, fun _ _ => rfl, fun _ _ => rfl⟩

theorem ChangesOnly.trans (one : ctx.ChangesOnly nodes names ctx₁)
    (two : ctx₁.ChangesOnly nodes names ctx₂) : ctx.ChangesOnly nodes names ctx₂ where
  run := two.run.trans one.run
  flow := ⟨two.flow.1.trans one.flow.1, two.flow.2.trans one.flow.2⟩
  trigger := two.trigger.trans one.trigger
  payload := two.payload.trans one.payload
  operator := two.operator.trans one.operator
  scope := two.scope.trans one.scope
  outputs id other := (two.outputs id other).trans (one.outputs id other)
  values name other := (two.values name other).trans (one.values name other)

theorem ChangesOnly.mono {more others : String → Prop} (changes : ctx.ChangesOnly nodes names ctx₁)
    (wider : ∀ id, nodes id → more id) (further : ∀ name, names name → others name) :
    ctx.ChangesOnly more others ctx₁ :=
  { changes with
    outputs := fun id other => changes.outputs id fun here => other (wider id here)
    values := fun name other => changes.values name fun here => other (further name here) }

theorem Same.changesOnly (same : ctx.Same ctx₁) : ctx.ChangesOnly nodes names ctx₁ := by
  rw [same]
  exact ⟨rfl, ⟨rfl, rfl⟩, rfl, rfl, rfl, rfl, fun _ _ => rfl, fun _ _ => rfl⟩

theorem changesOnly_record {id : String} (v : Json) (here : nodes id) :
    ctx.ChangesOnly nodes names (ctx.record id v) :=
  ⟨rfl, ⟨rfl, rfl⟩, rfl, rfl, rfl, rfl,
    fun _ other => Keyed.get?_insert_of_ne _ _ fun same => other (same ▸ here), fun _ _ => rfl⟩

theorem changesOnly_assign {assigned : Keyed Json} (here : ∀ name ∈ assigned.keys, names name) :
    ctx.ChangesOnly nodes names (Runner.SetVariables.assign ctx assigned) := by
  have values (name : String) (other : ¬ names name) :
      (Runner.SetVariables.assign ctx assigned).variableValue? name = ctx.variableValue? name := by
    unfold variableValue?
    rw [Runner.SetVariables.values_assign]
    exact Keyed.get?_insertAll_of_not_mem fun member => other (here name member)
  rw [Runner.SetVariables.assign_eq] at values ⊢
  exact ⟨rfl, ⟨rfl, rfl⟩, rfl, rfl, rfl, rfl, fun _ _ => rfl, values⟩

end Context

/-- The node sets the variable whenever it does not fail. -/
def Node.Assigns (node : Node) (name : String) : Prop :=
  node.type = "variable_save" ∧ ∃ params,
    node.params.decode Runner.SetVariables.Params.decoder = .ok params ∧
      name ∈ params.assignments.keys

/-- A node of the flow sets the variable. -/
def Flow.Assigns (flow : Flow) (name : String) : Prop := ∃ node ∈ flow.nodes, node.Assigns name

namespace Engine

/-- A round of a loop within which there are `room` walks below one another: the walk is refused, or it
is one of the body. -/
def BodyRound (engine : Engine) (flow : Flow) (body : String) : (room : Nat) → Walked → Prop
  | 0, i => i.log = [] ∧ i.after = i.before
  | room + 1, i => BodyWalk engine room flow body i

/-- What the rounds of a loop have made of a context. -/
structure Looped (engine : Engine) (room : Nat) (flow : Flow) (id : String) (ctx : Context)
    (log : List Exchange) (report : Report) (failure : Option Error) (ctx' : Context)
    (items : List Json) (rounds : List Walked) : Prop where
  walks : ∀ i ∈ rounds, ∃ body, flow.bodyEntry? id = some body ∧ BodyRound engine flow body.id room i
  heard : log = rounds.flatMap Walked.log
  /-- Each round has recorded its item and index for the loop, and done what its walk has done; at the
  end a loop that has not failed has recorded its result. -/
  left : ∃ last, Runner.Loop.Chained id 0 items ctx rounds last ∧
    ((failure = none ∧ ∃ v, report.result = some v ∧ ctx' = last.record id v) ∨
      (failure.isSome ∧ ctx' = last))

/-- What is left of a context when a node has run in it. -/
structure Frames (engine : Engine) : Prop where
  /-- A node that fails changes nothing, whatever it has failed for. -/
  failed {flow : Flow} {room : Nat} {first : Bool} {node : Node} {arrival : Arrival}
    {ctx ctx' : Context} {log : List Exchange} {report : Report} {e : Error} : node.type ≠ "loop" →
    Program.Runs (engine.nodeVisitor room flow first node arrival ctx) log ((report, some e), ctx') →
    ctx.Same ctx'
  /-- Neither does a node that suspends the run. -/
  suspended {flow : Flow} {room : Nat} {first : Bool} {node : Node} {arrival : Arrival}
    {ctx ctx' : Context} {log : List Exchange} {report : Report} : report.suspended = true →
    Program.Runs (engine.nodeVisitor room flow first node arrival ctx) log ((report, none), ctx') →
    node.type = "wait_message" ∧ ctx.Same ctx'
  /-- Any other node writes its result under its own id. -/
  wrote {flow : Flow} {room : Nat} {first : Bool} {node : Node} {arrival : Arrival}
    {ctx ctx' : Context} {log : List Exchange} {report : Report} : node.type ≠ "loop" →
    node.type ≠ "variable_save" → report.suspended = false →
    Program.Runs (engine.nodeVisitor room flow first node arrival ctx) log ((report, none), ctx') →
    ∃ v, report.result = some v ∧ ctx' = ctx.record node.id v
  /-- A node that sets variables has set all of them before that, and each to the value that it puts
  out. -/
  assigned {flow : Flow} {room : Nat} {first : Bool} {node : Node} {arrival : Arrival}
    {ctx ctx' : Context} {log : List Exchange} {report : Report} : node.type = "variable_save" →
    Program.Runs (engine.nodeVisitor room flow first node arrival ctx) log ((report, none), ctx') →
    ∃ assigned : Keyed Json, report.result = some (.obj assigned) ∧
      ctx' = (Runner.SetVariables.assign ctx assigned).record node.id (.obj assigned) ∧
      (∀ name, name ∈ assigned.keys ↔ node.Assigns name) ∧
      ∀ name v, (name, v) ∈ assigned → ctx'.variableValue? name = some v
  /-- Nothing else is different behind a node that is no loop. -/
  only {flow : Flow} {room : Nat} {first : Bool} {node : Node} {arrival : Arrival}
    {ctx ctx' : Context} {log : List Exchange} {report : Report} {failure : Option Error} :
    node.type ≠ "loop" →
    Program.Runs (engine.nodeVisitor room flow first node arrival ctx) log ((report, failure), ctx') →
    ctx.ChangesOnly (· = node.id) node.Assigns ctx'
  /-- A loop does what the nodes of its body do in the walks of its rounds. -/
  looped {flow : Flow} {room : Nat} {first : Bool} {node : Node} {arrival : Arrival}
    {ctx ctx' : Context} {log : List Exchange} {report : Report} {failure : Option Error} :
    engine.check flow = .ok () → node.type = "loop" →
    Program.Runs (engine.nodeVisitor room flow first node arrival ctx) log ((report, failure), ctx') →
    ∃ items rounds, Looped engine room flow node.id ctx log report failure ctx' items rounds
  /-- So a walk writes outputs of nodes of its flow and variables that its nodes set, and nothing
  else. -/
  walk {flow : Flow} {room : Nat} {entry : String} {appointed : Option Trigger} {ctx ctx' : Context}
    {log : List Exchange} {ended : Except Error Walk} : engine.check flow = .ok () →
    entry ∈ flow.ids → Task.Runs (engine.walk room flow entry appointed) ctx log ended ctx' →
    ctx.ChangesOnly (· ∈ flow.ids) flow.Assigns ctx'

variable {engine : Engine} {flow : Flow} {room : Nat} {first : Bool} {node : Node}
  {arrival : Arrival} {ctx ctx' : Context} {log : List Exchange} {report : Report}
  {failure : Option Error}

/-! ## Nodes -/

/-- How a node that is no loop leaves a context. -/
inductive Leaves (node : Node) (ctx : Context) (report : Report) : Option Error → Context → Prop
  | failed {e : Error} {ctx' : Context} : ctx.Same ctx' → Leaves node ctx report (some e) ctx'
  | suspended {ctx' : Context} : node.type = "wait_message" → report.suspended = true →
    ctx.Same ctx' → Leaves node ctx report none ctx'
  | wrote {v : Json} : node.type ≠ "variable_save" → report.suspended = false →
    report.result = some v → Leaves node ctx report none (ctx.record node.id v)
  | assigned {params : Runner.SetVariables.Params} {assigned : Keyed Json} :
    node.type = "variable_save" → report.suspended = false →
    node.params.decode Runner.SetVariables.Params.decoder = .ok params →
    assigned.keys = params.assignments.keys → report.result = some (.obj assigned) →
    Leaves node ctx report none
      ((Runner.SetVariables.assign ctx assigned).record node.id (.obj assigned))

section
variable {around : Surroundings} {call : Call} {s : NodeState} {result : Except Error Unit}

private theorem waitMessage_left (waits : node.type = "wait_message")
    (ran : Task.Runs (Runner.waitMessage around call) { context := ctx, report := { id := node.id } }
      log result s)
    (ended : Concludes s result failure ctx') :
    Leaves node ctx s.report failure ctx' := by
  obtain ⟨same, leaves⟩ := Runner.waitMessage_leaves ran
  cases ended with
  | done =>
    rcases leaves rfl with suspended | ⟨kept, v, told⟩
    · have still : recorded s = s := by simp [recorded, suspended]
      rw [still]
      exact .suspended waits suspended same
    · have written : (recorded s).context = ctx.record node.id v := by
        simp [recorded_context, told, kept, Report.withResult]
      rw [written]
      exact .wrote (by rw [waits]; decide) (by rw [told]; rfl) (by rw [told]; rfl)
  | failed e => exact .failed same

private theorem setVariables_left (sets : node.type = "variable_save") (same : call.node = node)
    (ran : Task.Runs (Runner.setVariables around call) { context := ctx, report := { id := node.id } }
      log result s)
    (ended : Concludes s result failure ctx') :
    Leaves node ctx s.report failure ctx' := by
  obtain ⟨-, ⟨e, rfl, rfl⟩ | ⟨params, assigned, read, resolved, rfl, context, told⟩⟩ :=
    Runner.setVariables_runs ran
  · cases ended
    exact .failed (.refl _)
  · cases ended
    have written : (recorded s).context =
        (Runner.SetVariables.assign ctx assigned).record node.id (.obj assigned) := by
      simp [recorded_context, told, context, Report.withResult]
    rw [written]
    exact .assigned sets (by rw [told]; rfl) (same ▸ read) (Runner.keys_values resolved)
      (by rw [told]; rfl)

private theorem read_left (other : node.type ≠ "variable_save")
    (read : Runner.Read { context := ctx, report := { id := node.id } } result s)
    (ended : Concludes s result failure ctx') :
    Leaves node ctx s.report failure ctx' := by
  obtain ⟨kept, id, goesOn, answers⟩ := read
  cases ended with
  | done =>
    obtain ⟨v, told⟩ := answers rfl
    rw [recorded_context goesOn told, kept, id]
    exact .wrote other goesOn told
  | failed e =>
    rw [kept]
    exact .failed (.refl _)

end

/-- A node that is no loop leaves the context in one of these ways. -/
theorem visitor_leaves (builtIn : engine.BuiltIn) (other : node.type ≠ "loop")
    (run : Program.Runs (engine.nodeVisitor room flow first node arrival ctx) log
      ((report, failure), ctx')) : Leaves node ctx report failure ctx' := by
  rcases visitor_runs run with ⟨-, -, failed, rfl⟩ | ⟨r, inputs, result, s, starts, ran, rfl, ended⟩
  · obtain ⟨e, rfl⟩ := Option.isSome_iff_exists.mp failed
    exact .failed (.refl _)
  obtain ⟨builtin, type⟩ := builtIn.serves starts.served
  rcases Runner.builtins_frame r builtin with ⟨waits, runner⟩ | ⟨sets, runner⟩ | ⟨loops, -⟩ |
    ⟨none, reads⟩
  · rw [runner] at ran
    exact waitMessage_left (type.symm.trans waits) ran ended
  · rw [runner] at ran
    exact setVariables_left (type.symm.trans sets) rfl ran ended
  · exact absurd (type.symm.trans loops) other
  · simp only [List.mem_cons, List.not_mem_nil, or_false, not_or] at none
    exact read_left (type ▸ none.2.1) (reads ran) ended

theorem Leaves.changesOnly (leaves : Leaves node ctx report failure ctx') :
    ctx.ChangesOnly (· = node.id) node.Assigns ctx' := by
  cases leaves with
  | failed same => exact same.changesOnly
  | suspended _ _ same => exact same.changesOnly
  | wrote => exact Context.changesOnly_record _ rfl
  | assigned sets _ read keys _ =>
    refine (Context.changesOnly_assign fun name member => ?_).trans (Context.changesOnly_record _ rfl)
    exact ⟨sets, _, read, keys ▸ member⟩

/-! ## Loops -/

/-- A loop leaves what its rounds have left, and its result when it has not failed. -/
theorem visitor_loops (builtIn : engine.BuiltIn) (checked : engine.check flow = .ok ())
    (loops : node.type = "loop")
    (run : Program.Runs (engine.nodeVisitor room flow first node arrival ctx) log
      ((report, failure), ctx')) :
    ∃ items rounds, Looped engine room flow node.id ctx log report failure ctx' items rounds := by
  rcases visitor_runs run with ⟨-, rfl, failed, rfl⟩ | ⟨r, inputs, result, s, starts, ran, rfl, ended⟩
  · exact ⟨[], [], by simp, rfl, _, rfl, .inr ⟨failed, rfl⟩⟩
  obtain ⟨builtin, type⟩ := builtIn.serves starts.served
  have runner : r.runner = Runner.loop := Runner.builtin_runner rfl builtin (type.trans loops)
  rw [runner] at ran
  rcases Runner.loop_runs ran with ⟨-, e, rfl, rfl, rfl⟩ |
    ⟨params, turns, body, rounds, s₁, ready, each, context, told⟩
  · cases ended
    exact ⟨[], [], by simp, rfl, _, rfl, .inr ⟨rfl, rfl⟩⟩
  refine ⟨turns.values, rounds, ?walks, each.heard, s₁.context, each.chained, ?left⟩
  case walks =>
    intro i member
    refine ⟨body, ready.found, ?_⟩
    cases room with
    | zero =>
      obtain ⟨silent, -, kept⟩ := Task.runs_throw.mp (each.ran i member)
      exact ⟨silent, kept⟩
    | succ room =>
      exact bodyWalk_of_ran checked (Flow.entered_bodyEntry ready.found) (each.walked i member)
        (each.ran i member)
  case left =>
    cases ended with
    | done =>
      have start : s₁.report = { id := node.id, log := Runner.Loop.lines 0 rounds } := by
        simpa [nodeCall] using each.report
      have goesOn : s.report.suspended = false := by rw [told, start]; rfl
      have result : s.report.result = some (Runner.Loop.outcome turns.length) := by rw [told]; rfl
      have id : s.report.id = node.id := by rw [told, start]; rfl
      exact .inl ⟨rfl, _, result, by rw [recorded_context goesOn result, id, context]⟩
    | failed e => exact .inr ⟨rfl, context⟩

/-- A relation between contexts that holds where a node of the flow, on its own, has led from one to the
other. -/
structure Carried (flow : Flow) (rel : Context → Context → Prop) : Prop where
  refl : ∀ ctx, rel ctx ctx
  trans : ∀ {ctx ctx₁ ctx₂}, rel ctx ctx₁ → rel ctx₁ ctx₂ → rel ctx ctx₂
  node : ∀ {node ctx report failure ctx'}, node ∈ flow.nodes → Leaves node ctx report failure ctx' →
    rel ctx ctx'

section
variable {rel : Context → Context → Prop}

theorem Carried.record (carried : Carried flow rel) (inside : node ∈ flow.nodes)
    (loops : node.type = "loop") (ctx : Context) (v : Json) : rel ctx (ctx.record node.id v) := by
  have leaves : Leaves node ctx { id := node.id, result := some v } none (ctx.record node.id v) :=
    .wrote (by rw [loops]; decide) rfl rfl
  exact carried.node inside leaves

theorem chained_carried (carried : Carried flow rel) (inside : node ∈ flow.nodes)
    (loops : node.type = "loop") {index : Nat} {items : List Json} {rounds : List Walked}
    {last : Context} (chained : Runner.Loop.Chained node.id index items ctx rounds last)
    (each : ∀ i ∈ rounds, rel i.before i.after) : rel ctx last := by
  induction rounds generalizing index items ctx with
  | nil =>
    rw [Runner.Loop.Chained] at chained
    rw [chained]
    exact carried.refl ctx
  | cons i rounds ih =>
    cases items with
    | nil => exact chained.elim
    | cons item items =>
      obtain ⟨before, later⟩ := chained
      obtain ⟨first, others⟩ := List.forall_mem_cons.mp each
      rw [before] at first
      exact carried.trans (carried.trans (carried.record inside loops ctx _) first) (ih later others)

theorem Looped.carried (carried : Carried flow rel) (inside : node ∈ flow.nodes)
    (loops : node.type = "loop") {items : List Json} {rounds : List Walked}
    (looped : Looped engine room flow node.id ctx log report failure ctx' items rounds)
    (each : ∀ i ∈ rounds, rel i.before i.after) : rel ctx ctx' := by
  obtain ⟨last, chained, ⟨-, v, -, rfl⟩ | ⟨-, rfl⟩⟩ := looped.left
  · exact carried.trans (chained_carried carried inside loops chained each)
      (carried.record inside loops last v)
  · exact chained_carried carried inside loops chained each

/-! ## Walks -/

/-- What each turn that was run leads along, all turns do. -/
theorem performed_carried (carried : Carried flow rel) {limit : Nat} {visitor : Visitor}
    {turns : List Turn} (performed : Walk.Performed flow visitor limit ctx turns ctx')
    (each : ∀ {first node arrival before log ended after}, node ∈ flow.nodes →
      Program.Runs (visitor first node arrival before) log (ended, after) → rel before after) :
    (∀ t ∈ turns, rel t.before t.after) ∧ rel ctx ctx' := by
  have turn : ∀ t ∈ turns, rel t.before t.after := by
    intro t member
    rcases performed.turn member with ⟨first, node, arrival, report, failure, found, -, ran⟩ | cut
    · exact each (Flow.require_mem found).1 ran
    · rw [cut.after]
      exact carried.refl _
  have kept := performed.chained.keeps (rel ctx) (carried.refl ctx) fun t member before =>
    carried.trans before (turn t member)
  exact ⟨turn, kept.2⟩

/-- Whatever a node of a checked flow is, it leads along the relation, for so do the nodes that it runs. -/
theorem visitor_carried (builtIn : engine.BuiltIn) (checked : engine.check flow = .ok ())
    (carried : Carried flow rel) (inside : node ∈ flow.nodes)
    (run : Program.Runs (engine.nodeVisitor room flow first node arrival ctx) log
      ((report, failure), ctx')) : rel ctx ctx' := by
  induction room generalizing first node arrival ctx log report failure ctx' with
  | zero =>
    by_cases loops : node.type = "loop"
    · obtain ⟨items, rounds, looped⟩ := visitor_loops builtIn checked loops run
      refine looped.carried carried inside loops fun i round => ?_
      obtain ⟨body, -, -, kept⟩ := looped.walks i round
      rw [kept]
      exact carried.refl _
    · exact carried.node inside (visitor_leaves builtIn loops run)
  | succ room ih =>
    by_cases loops : node.type = "loop"
    · obtain ⟨items, rounds, looped⟩ := visitor_loops builtIn checked loops run
      refine looped.carried carried inside loops fun i round => ?_
      -- the rounds have one walk less below them, so this holds of their nodes already
      obtain ⟨body, -, walks⟩ := looped.walks i round
      obtain ⟨turns, -, -, performed, -⟩ := walks.turns
      exact (performed_carried carried performed ih).2
    · exact carried.node inside (visitor_leaves builtIn loops run)

/-- So every turn of a walk leads along the relation, and the whole walk. -/
theorem walk_carried (builtIn : engine.BuiltIn) (checked : engine.check flow = .ok ())
    (carried : Carried flow rel) {turns : List Turn} {limit : Nat}
    (performed : Walk.Performed flow (engine.nodeVisitor room flow) limit ctx turns ctx') :
    (∀ t ∈ turns, rel t.before t.after) ∧ rel ctx ctx' :=
  performed_carried carried performed fun inside run => visitor_carried builtIn checked carried inside run

end

theorem carried_changesOnly (flow : Flow) :
    Carried flow (Context.ChangesOnly (· ∈ flow.ids) flow.Assigns) where
  refl := .refl
  trans := .trans
  node inside leaves := by
    refine leaves.changesOnly.mono ?_ fun name assigns => ⟨_, inside, assigns⟩
    rintro _ rfl
    exact List.mem_map_of_mem inside

/-- A walk writes outputs of nodes of its flow and variables that its nodes set, and nothing else. -/
theorem walk_changesOnly (builtIn : engine.BuiltIn) (checked : engine.check flow = .ok ())
    {entry : String} {appointed : Option Trigger} {ended : Except Error Walk}
    (inside : entry ∈ flow.ids)
    (run : Task.Runs (engine.walk room flow entry appointed) ctx log ended ctx') :
    ctx.ChangesOnly (· ∈ flow.ids) flow.Assigns ctx' := by
  cases room with
  | zero =>
    obtain ⟨-, -, rfl⟩ := Task.runs_throw.mp run
    exact .refl _
  | succ room =>
    obtain ⟨turns, taken, -, -⟩ := walk_turns checked inside run
    exact (walk_carried builtIn checked (carried_changesOnly flow) taken.performed).2

/-- Only a node that waits suspends the run. -/
theorem visitor_suspends (builtIn : engine.BuiltIn) (suspends : report.suspended = true)
    (run : Program.Runs (engine.nodeVisitor room flow first node arrival ctx) log
      ((report, none), ctx')) : node.type = "wait_message" := by
  rcases visitor_runs run with ⟨-, -, failed, -⟩ | ⟨r, inputs, result, s, starts, ran, rfl, -⟩
  · contradiction
  obtain ⟨builtin, type⟩ := builtIn.serves starts.served
  rcases Runner.builtins_write r builtin with ⟨waits, -⟩ | writes
  · exact type.symm.trans waits
  · rw [(writes.flags ran).2] at suspends
    contradiction

theorem variableValue?_assigned {assigned : Keyed Json} (distinct : assigned.keys.Nodup) {name : String}
    {v : Json} (member : (name, v) ∈ assigned) :
    (Runner.SetVariables.assign ctx assigned).variableValue? name = some v := by
  unfold Context.variableValue?
  rw [Runner.SetVariables.values_assign]
  exact Keyed.get?_insertAll_of_mem distinct member

/-- With the built-in node types a node that fails leaves the context alone, and one that succeeds
writes its own entry, whatever the flow and the context are and however the loops are nested. -/
theorem frames (builtIn : engine.BuiltIn) : Frames engine where
  failed other run := by
    cases visitor_leaves builtIn other run with
    | failed same => exact same
  suspended suspends run := by
    have waits := visitor_suspends builtIn suspends run
    refine ⟨waits, ?_⟩
    cases visitor_leaves builtIn (by rw [waits]; decide) run with
    | suspended _ _ same => exact same
    | wrote _ goesOn => simp [goesOn] at suspends
    | assigned _ goesOn => simp [goesOn] at suspends
  wrote other plain goesOn run := by
    cases visitor_leaves builtIn other run with
    | suspended _ suspends => simp [goesOn] at suspends
    | wrote _ _ told => exact ⟨_, told, rfl⟩
    | assigned sets => exact absurd sets plain
  assigned sets run := by
    cases visitor_leaves builtIn (by rw [sets]; decide) run with
    | suspended waits => exact absurd (waits.symm.trans sets) (by decide)
    | wrote other => exact absurd sets other
    | @assigned params assigned _ _ read keys told =>
      refine ⟨assigned, told, rfl, ?names, ?each⟩
      case names =>
        intro name
        rw [keys]
        constructor
        · exact fun member => ⟨sets, params, read, member⟩
        · rintro ⟨-, params', read', member⟩
          rwa [Except.ok.inj (read.symm.trans read')]
      case each =>
        intro name v member
        have distinct := (Runner.assignments_sorted read).nodup_keys
        exact variableValue?_assigned (keys ▸ distinct) member
  only other run := (visitor_leaves builtIn other run).changesOnly
  looped checked loops run := visitor_loops builtIn checked loops run
  walk checked inside run := walk_changesOnly builtIn checked inside run

end Engine

/-! ### A value that cannot be had -/

namespace Notes

/-- A node that sets two variables, the second one to the value of an expression. -/
def node (expr : String) : Node where
  id := "set"
  type := "variable_save"
  params := .ofFields [("variables", .ofFields
    [("first", .int 1), ("second", .ofFields [("$ref", .str expr)])])]

def flow (expr : String) : Flow where
  code := "notes"
  nodes := [Chat.start, node expr]
  edges := [{ source := "start", target := "set", branch := some "m" }]

def context (expr : String) : Context := .start "r" (flow expr) (Chat.message "first")

/-- The run of the node. -/
def visit (expr : String) : Program ((Report × Option Error) × Context) :=
  (Engine.standard {}).nodeVisitor 8 (flow expr) false (node expr) { id := "set" } (context expr)

/-- Whether the node works, if it returns, and the variables and outputs that it leaves. -/
def left (expr : String) : Except Panic (Bool × List String × List String) :=
  ((visit expr).run {}).1.map fun ended =>
    (ended.1.2.isNone, ended.2.values.keys, ended.2.outputs.keys)

end Notes

/-- The node sets both variables or none; a loop that fails leaves what its rounds have written. -/
theorem notes_frame :
    (Engine.standard {}).BuiltIn ∧ Engine.Frames (.standard {}) ∧
      Notes.left "trigger" = .ok (true, ["first", "second"], ["set"]) ∧
      (∃ report e ctx, ((Notes.visit "nowhere").run {}).1 = .ok ((report, some e), ctx) ∧
        (Notes.context "nowhere").Same ctx) ∧
      ∃ report failure ctx items rounds,
        ((Rows.visit Rows.items).run {}).1 = .ok ((report, failure), ctx) ∧
        ctx.outputs.keys = ["inner", "inner/start", "outer", "outer/start"] ∧
        Engine.Looped (.standard {}) 8 (Rows.flow Rows.items) "outer" (Rows.context Rows.items)
          ((Rows.visit Rows.items).heard {}) report failure ctx items rounds := by
  have builtIn := Engine.builtIn_standard {}
  refine ⟨builtIn, Engine.frames builtIn, by decide +kernel, ?failed, ?looped⟩
  case failed =>
    obtain ⟨⟨⟨report, failure⟩, ctx⟩, ran, run⟩ :=
      Program.exists_runs_heard (p := Notes.visit "nowhere") (w := {}) (by decide +kernel)
    have told : Notes.left "nowhere" = .ok (false, [], []) := by decide +kernel
    rw [Notes.left, ran] at told
    cases failure with
    | none => exact absurd told (by simp [Except.map])
    | some e =>
      exact ⟨report, e, ctx, ran, (Engine.frames builtIn).failed (by decide) run⟩
  case looped =>
    obtain ⟨⟨⟨report, failure⟩, ctx⟩, ran, run⟩ :=
      Program.exists_runs_heard (p := Rows.visit Rows.items) (w := {}) (by decide +kernel)
    have checked : (Engine.standard {}).check (Rows.flow Rows.items) = .ok () := rfl
    have loops : (Rows.outer Rows.items).type = "loop" := rfl
    obtain ⟨items, rounds, looped⟩ := (Engine.frames builtIn).looped checked loops run
    have told : (((Rows.visit Rows.items).run {}).1.map fun ended => ended.2.outputs.keys) =
        .ok ["inner", "inner/start", "outer", "outer/start"] := by decide +kernel
    rw [ran] at told
    exact ⟨report, failure, ctx, items, rounds, ran, Except.ok.inj told, looped⟩

end Parley

import Parley.Proofs.Interleaving
import Parley.Proofs.Engine.Frame
import Parley.Proofs.Runner.SubFlow
/-!
# Nodes that call a flow

A called flow has nothing of the context of its caller but what it shares with it and its payload. So a
call asks the same, ends in the same way and puts out the same in all contexts that agree in these, and
it changes nothing of them but the output of its node (`Engine.callsAlike`). What it puts out is the
output of the end node that ran last in the walk of the called flow.
-/
namespace Parley

open Runner.SubFlow (Does Breaks Enters Outputs endType loaded output payload)

namespace Engine

/-- A call has come back with a value from a walk of the called flow. -/
structure Returned (engine : Engine) (room : Nat) (node : Node) (params : Runner.SubFlow.Params)
    (child : Flow → Context) (ctx : Context) (log : List Exchange) (report : Report) (ctx' : Context)
    (i : Walked) (walk : Walk) (v : Json) : Prop where
  enters : Enters (engine.around room) child i
  heard : log = loaded params (.ok i.flow) :: i.log
  ended : i.ended = .ok walk
  through : walk.failed = none ∧ walk.suspendedAt = none
  /-- The value is the output of the end node that ran last in the walk, or empty when none ran. -/
  outputs : Outputs walk i.after v
  /-- It is what this node has put out itself, unless it has run again since in the body of a loop. -/
  own : ∀ front e back, walk.visits = front ++ e :: back → e.type = endType →
    (∀ x ∈ back, x.type ≠ endType ∧ x.type ≠ "loop") → e.report.result = some v
  result : report.result = some v
  /-- Nothing else of the called flow is left to the caller. -/
  left : ctx' = ctx.record node.id v

/-- How a call ends, when each flow has a context to run in, and what it leaves of the one of its
caller. -/
structure CallEnds (engine : Engine) (room : Nat) (node : Node) (params : Runner.SubFlow.Params)
    (child : Flow → Context) (ctx : Context) (log : List Exchange) (report : Report)
    (failure : Option Error) (ctx' : Context) : Prop where
  /-- What is asked and told depends on the contexts of the flows alone. -/
  does : ∃ result, Does (engine.around room) node.id params child { id := node.id } log
    (result, report) ∧ Concludes ⟨ctx, report⟩ result failure ctx'
  failed : failure.isSome → ctx' = ctx
  returned : failure = none → ∃ i walk v,
    Returned engine room node params child ctx log report ctx' i walk v

/-- Who runs a node. -/
structure Caller where
  first : Bool
  arrival : Arrival
  context : Context

namespace Caller

/-- The run of the node. -/
def visit (engine : Engine) (room : Nat) (flow : Flow) (node : Node) (c : Caller) :
    Program ((Report × Option Error) × Context) :=
  engine.nodeVisitor room flow c.first node c.arrival c.context

/-- The node can start there, and its parameters come to this payload. -/
structure Pays (engine : Engine) (room : Nat) (node : Node) (params : Runner.SubFlow.Params)
    (paid : Json) (c : Caller) : Prop where
  starts : ∃ r inputs, engine.Starts c.context node r inputs
  given : ∃ argument, Runner.value (engine.around room) c.context params.params = .ok argument ∧
    payload argument = paid

end Caller

/-- A node that calls a flow with a payload does the same for two callers. -/
structure CallsAlike (engine : Engine) (room : Nat) (flow : Flow) (node : Node)
    (params : Runner.SubFlow.Params) (paid : Json) (one other : Caller) : Prop where
  /-- Every flow has one and the same context to run in. -/
  child : ∀ called, other.context.forSubFlow called paid = one.context.forSubFlow called paid
  /-- Whatever the answers are, it asks the same for both, and ends in the same way. -/
  alike : ∀ log report failure,
    (∃ ctx', (one.visit engine room flow node).Runs log ((report, failure), ctx')) ↔
      ∃ ctx', (other.visit engine room flow node).Runs log ((report, failure), ctx')
  /-- It panics for both or for neither, and then within the walk of the called flow. -/
  torn : ∀ c ∈ [one, other], ∀ log cause,
    (c.visit engine room flow node).Ends log (.error cause) ↔
      Breaks (engine.around room) params (fun called => one.context.forSubFlow called paid) log cause
  /-- So no world can tell the two apart. -/
  world : ∀ w, (other.visit engine room flow node).heard w = (one.visit engine room flow node).heard w ∧
    ((other.visit engine room flow node).run w).1.map Prod.fst =
      ((one.visit engine room flow node).run w).1.map Prod.fst ∧
    ((other.visit engine room flow node).run w).2 = ((one.visit engine room flow node).run w).2
  ends : ∀ c ∈ [one, other], ∀ log report failure ctx',
    (c.visit engine room flow node).Runs log ((report, failure), ctx') →
    CallEnds engine room node params (fun called => one.context.forSubFlow called paid) c.context log
      report failure ctx'

variable {engine : Engine} {flow : Flow} {room : Nat} {first : Bool} {node : Node} {arrival : Arrival}
  {ctx ctx' : Context} {log : List Exchange} {report : Report} {failure : Option Error}

/-! ## Outputs -/

theorem output?_record_self (ctx : Context) (id : String) (v : Json) :
    (ctx.record id v).output? id = some v := Keyed.get?_insert_self ..

theorem output?_record_of_ne (ctx : Context) {id other : String} (v : Json) (different : id ≠ other) :
    (ctx.record other v).output? id = ctx.output? id := Keyed.get?_insert_of_ne _ _ different

theorem isSome_output?_record {id : String} (other : String) (v : Json)
    (some : (ctx.output? id).isSome) : ((ctx.record other v).output? id).isSome := by
  by_cases same : id = other
  · rw [same, output?_record_self]
    rfl
  · rwa [output?_record_of_ne ctx v same]

/-- What has an output does not lose it. -/
theorem carried_outputs (flow : Flow) (id : String) :
    Carried flow fun ctx ctx' => (ctx.output? id).isSome → (ctx'.output? id).isSome where
  refl _ := fun some => some
  trans one two := fun some => two (one some)
  node inside leaves some := by
    cases leaves with
    | failed same => rwa [same]
    | suspended _ _ same => rwa [same]
    | wrote => exact isSome_output?_record _ _ some
    | @assigned _ assigned =>
      refine isSome_output?_record _ _ ?_
      rw [Runner.SetVariables.assign_eq]
      exact some

/-- An end node that has not failed has put out what it has recorded. -/
theorem end_recorded (builtIn : engine.BuiltIn) (type : node.type = endType)
    (run : Program.Runs (engine.nodeVisitor room flow first node arrival ctx) log ((report, none), ctx')) :
    ∃ v, report.result = some v ∧ ctx'.output? node.id = some v := by
  cases visitor_leaves builtIn (by rw [type]; decide) run with
  | suspended waits => exact absurd (type.symm.trans waits) (by decide)
  | wrote _ _ told => exact ⟨_, told, output?_record_self ..⟩
  | assigned sets => exact absurd (type.symm.trans sets) (by decide)

section
variable {turns : List Turn} {limit : Nat}

/-- Each turn of a walk in which nothing has failed is the run of a node that has not. -/
theorem turn_through (performed : Walk.Performed flow (engine.nodeVisitor room flow) limit ctx turns ctx')
    (through : Walk.failed ⟨turns.map Turn.visit⟩ = none) {t : Turn} (member : t ∈ turns) :
    ∃ first node arrival report, flow.require t.visit.id = .ok node ∧
      t.visit = Walk.visitOf t.visit.level node arrival report none ∧
      Program.Runs (engine.nodeVisitor room flow first node arrival t.before) t.log
        ((report, none), t.after) := by
  have works : ¬ t.visit.failure.isSome := by
    intro failed
    have first : (Walk.failed ⟨turns.map Turn.visit⟩).isSome :=
      Walk.failed_isSome (List.mem_map_of_mem member) failed
    simp [through] at first
  rcases performed.turn member with ⟨first, node, arrival, report, failure, found, seen, ran⟩ | cut
  · cases failure with
    | none => exact ⟨first, node, arrival, report, found, seen, ran⟩
    | some e => exact absurd (by rw [seen]; rfl) works
  · exact absurd (by rw [cut.failure]; rfl) works

/-- Behind a turn the others go on from what it has left. -/
theorem chained_behind {front back : List Turn} {t : Turn}
    (performed : Walk.Performed flow (engine.nodeVisitor room flow) limit ctx turns ctx')
    (split : turns = front ++ t :: back) : Turn.Chained t.after back ctx' := by
  have chained := performed.chained
  rw [split] at chained
  obtain ⟨between, -, -, later⟩ := chained.split
  exact later

/-- In a walk in which nothing has failed the end nodes that ran have outputs. -/
theorem ends_recorded (builtIn : engine.BuiltIn) (checked : engine.check flow = .ok ())
    (performed : Walk.Performed flow (engine.nodeVisitor room flow) limit ctx turns ctx')
    (through : Walk.failed ⟨turns.map Turn.visit⟩ = none) {t : Turn} (member : t ∈ turns)
    (type : t.visit.type = endType) : ∃ v, ctx'.output? t.visit.id = some v := by
  obtain ⟨first, node, arrival, report, -, seen, ran⟩ := turn_through performed through member
  have isEnd : node.type = endType := by rwa [seen] at type
  have named : t.visit.id = node.id := by rw [seen]; rfl
  obtain ⟨v, -, told⟩ := end_recorded builtIn isEnd ran
  obtain ⟨front, back, split⟩ := List.append_of_mem member
  have each := (walk_carried builtIn checked (carried_outputs flow node.id) performed).1
  rw [named]
  refine Option.isSome_iff_exists.mp ?_
  refine ((chained_behind performed split).keeps (fun ctx => (ctx.output? node.id).isSome) ?_ ?_).2
  · rw [told]
    rfl
  · exact fun x later => each x (by rw [split]; simp [later])

/-- What an end node has put out stays its output when only other nodes run behind it that are no
loops. -/
theorem last_recorded (builtIn : engine.BuiltIn)
    (performed : Walk.Performed flow (engine.nodeVisitor room flow) limit ctx turns ctx')
    (through : Walk.failed ⟨turns.map Turn.visit⟩ = none) {front back : List Turn} {t : Turn}
    (split : turns = front ++ t :: back) (type : t.visit.type = endType)
    (others : ∀ x ∈ back, x.visit.type ≠ endType ∧ x.visit.type ≠ "loop") :
    ∃ v, t.visit.report.result = some v ∧ ctx'.output? t.visit.id = some v := by
  obtain ⟨first, node, arrival, report, found, seen, ran⟩ :=
    turn_through performed through (t := t) (by simp [split])
  have isEnd : node.type = endType := by rwa [seen] at type
  obtain ⟨v, result, told⟩ := end_recorded builtIn isEnd ran
  have named : t.visit.id = node.id := by rw [seen]; rfl
  refine ⟨v, by rw [seen]; exact result, ?_⟩
  rw [named]
  refine ((chained_behind performed split).keeps (fun ctx => ctx.output? node.id = some v) told ?_).2
  intro x later kept
  obtain ⟨first', node', arrival', report', found', seen', ran'⟩ :=
    turn_through performed through (t := x) (by simp [split, later])
  obtain ⟨noEnd, noLoop⟩ := others x later
  rw [seen'] at noEnd noLoop
  -- a node of the same id would be the same node, and that is an end node
  have different : node.id ≠ node'.id := by
    intro same
    have named' : x.visit.id = node'.id := by rw [seen']; rfl
    rw [named', ← same, ← named, found] at found'
    obtain rfl := Except.ok.inj found'
    exact noEnd isEnd
  rw [(visitor_leaves builtIn noLoop ran').changesOnly.outputs node.id different, kept]

end

/-! ## Calls -/

/-- The walk of a called flow gives an output. -/
theorem enters_outputs (builtIn : engine.BuiltIn) {child : Flow → Context} {i : Walked} {walk : Walk}
    (enters : Enters (engine.around room) child i) (ended : i.ended = .ok walk)
    (through : walk.failed = none) :
    Outputs walk i.after (output i.after walk) ∧
      ∀ front e back, walk.visits = front ++ e :: back → e.type = endType →
        (∀ x ∈ back, x.type ≠ endType ∧ x.type ≠ "loop") →
        e.report.result = some (output i.after walk) := by
  have ran : Task.Runs (engine.walk room i.flow i.entry i.appointed) i.before i.log i.ended i.after :=
    enters.ran
  cases room with
  | zero =>
    obtain ⟨-, refused, -⟩ := Task.runs_throw.mp ran
    rw [ended] at refused
    contradiction
  | succ room =>
  have checked : engine.check i.flow = .ok () := enters.checked
  obtain ⟨entry, found, same⟩ := enters.entered
  obtain ⟨start, member, -, named⟩ := Flow.entered_requireEntry found
  have inside : i.entry ∈ i.flow.ids := by
    rw [same, ← named]
    exact List.mem_map_of_mem member
  obtain ⟨turns, taken, whole, -⟩ := walk_turns checked inside ran
  rw [ended] at whole
  obtain rfl := Except.ok.inj whole
  have performed := taken.performed
  refine ⟨Runner.SubFlow.outputs_output ?_, ?_⟩
  · intro e visited type
    obtain ⟨t, member, rfl⟩ := List.mem_map.mp visited
    exact ends_recorded builtIn checked performed through member type
  · intro front e back split type others
    obtain ⟨before, rest, rfl, rfl, behind⟩ := List.map_eq_append_iff.mp split
    obtain ⟨t, later, rfl, rfl, rfl⟩ := List.map_eq_cons_iff.mp behind
    obtain ⟨v, result, told⟩ := last_recorded builtIn performed through rfl type fun x member =>
      others x.visit (List.mem_map_of_mem member)
    rw [Runner.SubFlow.output_last split type (fun x member => (others x member).1) told, result]

variable {params : Runner.SubFlow.Params} {paid : Json} {c one other : Caller}

/-- A node that calls a flow does what the contexts of the flows let it do. -/
theorem calling_iff (builtIn : engine.BuiltIn) (calls : node.type = "sub_flow")
    (read : node.params.decode Runner.SubFlow.Params.decoder = .ok params)
    (pays : c.Pays engine room node params paid) :
    (c.visit engine room flow node).Runs log ((report, failure), ctx') ↔
      ∃ result, Does (engine.around room) node.id params
          (fun called => c.context.forSubFlow called paid) { id := node.id } log (result, report) ∧
        Concludes ⟨c.context, report⟩ result failure ctx' := by
  obtain ⟨⟨r, inputs, starts⟩, argument, given, rfl⟩ := pays
  obtain ⟨builtin, type⟩ := builtIn.serves starts.served
  have runner : r.runner = Runner.subFlow := Runner.builtin_runner rfl builtin (type.trans calls)
  unfold Caller.visit
  rw [visitor_iff starts, runner]
  constructor
  · rintro ⟨result, s, worked, rfl, ended⟩
    obtain ⟨does, kept⟩ := (Runner.subFlow_iff read given).mp worked
    obtain ⟨ctx, report⟩ := s
    obtain rfl : ctx = c.context := kept
    exact ⟨result, does, ended⟩
  · rintro ⟨result, does, ended⟩
    exact ⟨result, ⟨c.context, report⟩, (Runner.subFlow_iff read given).mpr ⟨does, rfl⟩, rfl, ended⟩

/-- Neither does the context of its caller settle more than that of the flows when it panics. -/
theorem calling_breaks (builtIn : engine.BuiltIn) (calls : node.type = "sub_flow")
    (read : node.params.decode Runner.SubFlow.Params.decoder = .ok params)
    (pays : c.Pays engine room node params paid) {cause : Panic} :
    (c.visit engine room flow node).Ends log (.error cause) ↔
      Breaks (engine.around room) params (fun called => c.context.forSubFlow called paid) log cause := by
  obtain ⟨⟨r, inputs, starts⟩, argument, given, rfl⟩ := pays
  obtain ⟨builtin, type⟩ := builtIn.serves starts.served
  have runner : r.runner = Runner.subFlow := Runner.builtin_runner rfl builtin (type.trans calls)
  let call := nodeCall flow (deepest - room) c.first node c.arrival inputs
  have breaks : Task.Panics (Runner.subFlow (engine.around room) call)
      { context := c.context, report := { id := node.id } } log cause ↔ _ :=
    Runner.subFlow_breaks read given
  refine visitor_panics.trans (Iff.trans ?_ breaks)
  constructor
  · rintro ⟨r', inputs', starts', worked⟩
    obtain ⟨rfl, rfl⟩ := starts.unique starts'
    rwa [runner] at worked
  · intro worked
    exact ⟨r, inputs, starts, runner ▸ worked⟩

theorem call_ends (builtIn : engine.BuiltIn) {child : Flow → Context} {result : Except Error Unit}
    (does : Does (engine.around room) node.id params child { id := node.id } log (result, report))
    (ended : Concludes ⟨ctx, report⟩ result failure ctx') :
    CallEnds engine room node params child ctx log report failure ctx' := by
  refine ⟨⟨result, does, ended⟩, ?failed, ?returned⟩
  case failed =>
    intro fails
    cases ended with
    | done => simp at fails
    | failed => rfl
  case returned =>
    rintro rfl
    cases ended
    obtain ⟨i, walk, enters, heard, whole, through, told⟩ := does.returned
    obtain ⟨outputs, own⟩ := enters_outputs builtIn enters whole through.1
    have result : report.result = some (output i.after walk) := by rw [told]; rfl
    refine ⟨i, walk, _, enters, heard, whole, through, outputs, own, result, ?_⟩
    rw [recorded_context (by rw [told]; rfl) result, told]
    rfl

/-- What a node ends with does not depend on the context that it leaves. -/
theorem Concludes.elsewhere {result : Except Error Unit}
    (ended : Concludes ⟨ctx, report⟩ result failure ctx') (ctx₁ : Context) :
    ∃ ctx₁', Concludes ⟨ctx₁, report⟩ result failure ctx₁' := by
  cases ended with
  | done => exact ⟨_, .done⟩
  | failed e => exact ⟨_, .failed e⟩

/-- Programs that end in the same way whatever they are answered are answered the same by each world. -/
theorem world_alike {α β : Type} {p q : Program (α × β)}
    (alike : ∀ log former, p.Ends log former →
      ∃ latter, q.Ends log latter ∧ latter.map Prod.fst = former.map Prod.fst) (w : World) :
    q.heard w = p.heard w ∧ (q.run w).1.map Prod.fst = (p.run w).1.map Prod.fst ∧
      (q.run w).2 = (p.run w).2 := by
  obtain ⟨latter, ends, same⟩ := alike _ _ (p.ends_heard w)
  obtain ⟨heard, ended⟩ := Program.heard_of_answers ends (p.answers_heard w)
  exact ⟨heard, by rw [ended, same], by rw [ended]⟩

/-- A call of a flow is a function of its payload: it does the same for all callers that share run, scope
and operator, whatever else their contexts are, and it leaves them nothing but its output. -/
theorem callsAlike (builtIn : engine.BuiltIn) (calls : node.type = "sub_flow")
    (read : node.params.decode Runner.SubFlow.Params.decoder = .ok params)
    (run : other.context.runId = one.context.runId) (scope : other.context.scope = one.context.scope)
    (operator : other.context.operator = one.context.operator)
    (pays : one.Pays engine room node params paid) (pays' : other.Pays engine room node params paid) :
    CallsAlike engine room flow node params paid one other := by
  have child (called : Flow) :
      other.context.forSubFlow called paid = one.context.forSubFlow called paid := by
    simp only [Context.forSubFlow, run, scope, operator]
  have does {log : List Exchange} {report : Report} {failure : Option Error} {ctx' : Context} {c : Caller}
      (member : c ∈ [one, other]) :
      (c.visit engine room flow node).Runs log ((report, failure), ctx') ↔
        ∃ result, Does (engine.around room) node.id params
            (fun called => one.context.forSubFlow called paid) { id := node.id } log (result, report) ∧
          Concludes ⟨c.context, report⟩ result failure ctx' := by
    rcases List.mem_pair.mp member with rfl | rfl
    · exact calling_iff builtIn calls read pays
    · simpa only [child] using calling_iff builtIn calls read pays'
  have passes {c d : Caller} (here : c ∈ [one, other]) (there : d ∈ [one, other]) {log : List Exchange}
      {ended : Report × Option Error} : (∃ ctx', (c.visit engine room flow node).Runs log (ended, ctx')) →
        ∃ ctx', (d.visit engine room flow node).Runs log (ended, ctx') := by
    rintro ⟨ctx', runs⟩
    obtain ⟨result, told, ended⟩ := (does here).mp runs
    obtain ⟨ctx₁', ended⟩ := ended.elsewhere d.context
    exact ⟨ctx₁', (does there).mpr ⟨result, told, ended⟩⟩
  have torn {c : Caller} (member : c ∈ [one, other]) {log : List Exchange} {cause : Panic} :
      (c.visit engine room flow node).Ends log (.error cause) ↔ Breaks (engine.around room) params
        (fun called => one.context.forSubFlow called paid) log cause := by
    rcases List.mem_pair.mp member with rfl | rfl
    · exact calling_breaks builtIn calls read pays
    · simpa only [child] using calling_breaks builtIn calls read pays'
  have first : one ∈ [one, other] := List.mem_cons_self ..
  have second : other ∈ [one, other] := List.mem_cons_of_mem _ (List.mem_singleton_self _)
  refine ⟨child, fun log report failure => ⟨passes first second, passes second first⟩,
    fun c member log cause => torn member, ?world, ?ends⟩
  case world =>
    refine world_alike fun log former ends => ?_
    cases former with
    | error cause => exact ⟨.error cause, (torn second).mpr ((torn first).mp ends), rfl⟩
    | ok ended =>
      obtain ⟨ctx', runs⟩ := passes first second ⟨ended.2, ends⟩
      exact ⟨.ok (ended.1, ctx'), runs, rfl⟩
  case ends =>
    intro c member log report failure ctx' runs
    obtain ⟨result, does, ended⟩ := (does member).mp runs
    exact call_ends builtIn does ended

end Engine

/-! ### Two callers of one flow -/

namespace Relay

/-- A flow that puts a text out twice, by way of a variable. -/
def called : Flow where
  code := "double"
  nodes := [
    { id := "start", type := "start", params := .ofFields [("branches", .arr [.ofFields
      [("branch_id", .str "c"), ("trigger_type", .str "param_call")]])] },
    { id := "set", type := "variable_save", params := .ofFields [("variables", .ofFields
      [("x", .ofFields [("$ref", .str "start.text")])])] },
    { id := "end", type := "end", params := .ofFields [("outputs", .ofFields
      [("twice", .str "\x7b\x7b variables.x \x7d\x7d\x7b\x7b variables.x \x7d\x7d")])] }]
  edges := [{ source := "start", target := "set", branch := some "c" },
    { source := "set", target := "end" }]

/-- A node that calls it with the message of the run. -/
def node : Node where
  id := "call"
  type := "sub_flow"
  params := .ofFields [("flow_code", .str "double"),
    ("params", .ofFields [("text", .ofFields [("$ref", .str "start.message")])])]

/-- What the node reads from its parameters. -/
def params : Runner.SubFlow.Params :=
  ⟨"double", none, .ofFields [("text", .ofFields [("$ref", .str "start.message")])]⟩

def flow : Flow where
  code := "relay"
  nodes := [Chat.start, node, { id := "end", type := "end" }]
  edges := [{ source := "start", target := "call", branch := some "m" }, { source := "call", target := "end" }]

/-- A run that has begun with a message. -/
def begun (trigger : Trigger) (message : Json) : Context :=
  (Context.start "r" flow { trigger, scope := ⟨"org", "conv", none, none⟩, payload := message }).record
    "start" message

/-- A caller that has nothing else. -/
def one : Engine.Caller :=
  ⟨false, { id := "call" }, begun .chatMessage (.ofFields [("message", .str "ab")])⟩

/-- A caller that has an output and a variable by the names of the called flow. -/
def other : Engine.Caller where
  first := false
  arrival := { id := "call", parents := [⟨"end", some (.int 7)⟩] }
  context := ((begun .openChatWindow (.ofFields [("at", .int 3), ("message", .str "ab")])).record
    "end" (.int 7)).setVariable "x" (.int 1)

def paid : Json := .ofFields [("text", .str "ab")]

def world : World where
  catalog := .ofFlows [called]

/-- Whether the node works for a caller, and its output then, if it returns. -/
def output (c : Engine.Caller) : Except Panic (Bool × Option String) :=
  ((c.visit (.standard {}) 8 flow node).run world).1.map fun ended =>
    (ended.1.2.isNone, (ended.2.output? "call").map Json.text)

/-- By which names it leaves outputs and variables, and what it leaves by names of the called flow. -/
def left (c : Engine.Caller) :
    Except Panic (List String × List String × Option String × Option String) :=
  ((c.visit (.standard {}) 8 flow node).run world).1.map fun ended =>
    (ended.2.outputs.keys, ended.2.values.keys, (ended.2.output? "end").map Json.text,
      (ended.2.variableValue? "x").map Json.text)

theorem pays {c : Engine.Caller}
    (given : Runner.value ((Engine.standard {}).around 8) c.context params.params = .ok paid) :
    c.Pays (.standard {}) 8 node params paid := by
  obtain ⟨r, starts⟩ : ∃ r, (Engine.standard {}).Starts c.context node r [] :=
    Engine.exists_starts rfl (by decide +kernel) _
  exact ⟨⟨r, [], starts⟩, paid, given, rfl⟩

end Relay

/-- Both callers get the text twice. What the second has by the names of the called flow it keeps, and
neither gets anything else. -/
theorem relay_calls_alike :
    (Engine.standard {}).BuiltIn ∧ Relay.one.Pays (.standard {}) 8 Relay.node Relay.params Relay.paid ∧
      Relay.other.Pays (.standard {}) 8 Relay.node Relay.params Relay.paid ∧
      Engine.CallsAlike (.standard {}) 8 Relay.flow Relay.node Relay.params Relay.paid Relay.one
        Relay.other ∧
      (∀ c ∈ [Relay.one, Relay.other],
        Relay.output c = .ok (true, some "\x7b\"twice\":\"abab\"\x7d")) ∧
      Relay.left Relay.one = .ok (["call", "start"], [], none, none) ∧
      Relay.left Relay.other = .ok (["call", "end", "start"], ["x"], some "7", some "1") := by
  have builtIn := Engine.builtIn_standard {}
  have read : Relay.node.params.decode Runner.SubFlow.Params.decoder = .ok Relay.params := rfl
  have pays : Relay.one.Pays (.standard {}) 8 Relay.node Relay.params Relay.paid := Relay.pays rfl
  have pays' : Relay.other.Pays (.standard {}) 8 Relay.node Relay.params Relay.paid := Relay.pays rfl
  exact ⟨builtIn, pays, pays', Engine.callsAlike builtIn rfl read rfl rfl rfl pays pays',
    by decide +kernel, by decide +kernel, by decide +kernel⟩

end Parley

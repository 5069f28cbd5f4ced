import Parley.Proofs.Runner.Loop
/-!
# Walks within nodes

What a node tells of nodes is told by the walks that it walks within its own, one after the other
(`Runner.Nests`). Only loops and nodes that call a flow walk at all: from where the body or the flow is
entered, and they fail unless every walk has gone through. When such a node panics the last of its walks
is torn off (`Runner.Tears`).
-/
namespace Parley

/-! ## Where walks are entered -/

/-- The id is that of a node where flows and bodies are entered. -/
def Flow.Entered (flow : Flow) (id : String) : Prop :=
  ∃ node ∈ flow.nodes, node.type = Node.startType ∧ node.id = id

theorem Flow.Entered.inside {flow : Flow} {id : String} (entered : flow.Entered id) : id ∈ flow.ids := by
  obtain ⟨node, member, -, rfl⟩ := entered
  exact List.mem_map_of_mem member

theorem Flow.entered_bodyEntry {flow : Flow} {id : String} {body : Node}
    (found : flow.bodyEntry? id = some body) : flow.Entered body.id := by
  have start := List.find?_some found
  simp only [Bool.and_eq_true, beq_iff_eq] at start
  exact ⟨body, List.mem_of_find?_eq_some found, start.1, rfl⟩

theorem Flow.entered_requireEntry {flow : Flow} {entry : Node}
    (found : flow.requireEntry = .ok entry) : flow.Entered entry.id := by
  cases looked : flow.entry? with
  | none => simp [requireEntry, looked] at found
  | some n =>
    obtain rfl : n = entry := by simpa [requireEntry, looked] using found
    have start := List.find?_some looked
    simp only [Bool.and_eq_true, beq_iff_eq] at start
    exact ⟨n, List.mem_of_find?_eq_some looked, start.1, rfl⟩

/-! ## Walks within a node -/

namespace Runner

/-- The walks within a node, in order. -/
structure Nests (around : Surroundings) (call : Call) (log : List Exchange)
    (result : Except Error Unit) (inners : List Walked) : Prop where
  ran : ∀ i ∈ inners, i.Ran around
  allowed : ∀ i ∈ inners, i.flow = call.flow ∨ around.check i.flow = .ok ()
  entered : ∀ i ∈ inners, i.flow.Entered i.entry
  /-- Before its walks the node itself tells of nothing. -/
  heard : ∃ own, events own = [] ∧ log = own ++ inners.flatMap Walked.log
  through : result = .ok () → ∀ i ∈ inners, i.Through

section
variable {around : Surroundings} {call : Call} {log : List Exchange} {result : Except Error Unit}
  {s s' : NodeState}

theorem nests_nil (silent : events log = []) : Nests around call log result [] :=
  ⟨by simp, by simp, by simp, ⟨log, silent, by simp⟩, by simp⟩

theorem nests_once {o : List Exchange} {i : Walked} (silent : events o = []) (ran : i.Ran around)
    (allowed : i.flow = call.flow ∨ around.check i.flow = .ok ()) (entered : i.flow.Entered i.entry)
    (through : result = .ok () → i.Through) : Nests around call (o ++ i.log) result [i] :=
  ⟨by simpa using ran, by simpa using allowed, by simpa using entered, ⟨o, silent, by simp⟩,
    by simpa using through⟩

end

/-- The walks within a node that panics, in order: those that have gone through, and one that is torn
off unless the node panics outside all of them. -/
structure Tears (around : Surroundings) (call : Call) (log : List Exchange) (cause : Panic)
    (inners : List Walked) (last : Option TornWalk) : Prop where
  ran : ∀ i ∈ inners, i.Ran around
  through : ∀ i ∈ inners, i.Through
  torn : ∀ i ∈ last, i.Panics around cause
  allowed : (∀ i ∈ inners, i.flow = call.flow ∨ around.check i.flow = .ok ()) ∧
    ∀ i ∈ last, i.flow = call.flow ∨ around.check i.flow = .ok ()
  entered : (∀ i ∈ inners, i.flow.Entered i.entry) ∧ ∀ i ∈ last, i.flow.Entered i.entry
  heard : ∃ own, events own = [] ∧
    log = own ++ inners.flatMap Walked.log ++ last.elim [] TornWalk.log

theorem tears_nil {around : Surroundings} {call : Call} {log : List Exchange} {cause : Panic}
    (silent : events log = []) : Tears around call log cause [] none :=
  ⟨by simp, by simp, by simp, by simp, by simp, ⟨log, silent, by simp⟩⟩

/-- What the node tells is told by walks within it, and where no run can be suspended it suspends
none. -/
def Nesting (runner : Runner) : Prop :=
  ∀ {around call s log result s'}, Task.Runs (runner around call) s log result s' →
    (∃ inners, Nests around call log result inners) ∧
      (call.maySuspend = false → s'.report.suspended = s.report.suspended)

/-! ### Nodes that walk nothing -/

private theorem still {around : Surroundings} {call : Call} {log : List Exchange}
    {result : Except Error Unit} {s s' : NodeState} (silent : events log = [])
    (same : s'.report.suspended = s.report.suspended) :
    (∃ inners, Nests around call log result inners) ∧
      (call.maySuspend = false → s'.report.suspended = s.report.suspended) :=
  ⟨⟨[], nests_nil silent⟩, fun _ => same⟩

theorem Quiet.nesting {runner : Runner} (quiet : Quiet runner) : Nesting runner := by
  intro around call s log result s' run
  obtain ⟨silent, reads⟩ := quiet run
  exact still silent reads.suspended

private theorem setVariables_nesting : Nesting setVariables := by
  intro around call s log result s' run
  obtain ⟨rfl, ⟨e, rfl, rfl⟩ | ⟨params, assigned, -, -, rfl, -, told⟩⟩ := setVariables_runs run
  · exact still rfl rfl
  · exact still rfl (by rw [told]; rfl)

private theorem waitMessage_nesting : Nesting waitMessage := by
  intro around call s log result s' run
  cases waitMessage_does run with
  | waited => exact still rfl rfl
  | nested => exact still rfl rfl
  | unread => exact still rfl rfl
  | unsaved => exact still rfl rfl
  | suspended may => exact ⟨⟨[], nests_nil rfl⟩, fun never => absurd may (by simp [never])⟩

/-- A node that is to wait in a nested walk fails at once. -/
theorem waitMessage_fails {around : Surroundings} {call : Call} {s s' : NodeState}
    {log : List Exchange} {result : Except Error Unit} (reached : call.isFirst = false)
    (nested : call.maySuspend = false)
    (run : Task.Runs (waitMessage around call) s log result s') :
    result = .error (.cannotSuspend (.nested call.node.id)) := by
  cases waitMessage_does run with
  | waited first => simp [reached] at first
  | nested => rfl
  | unread may => simp [nested] at may
  | unsaved may => simp [nested] at may
  | suspended may => simp [nested] at may

/-! ### Nodes that walk -/

theorem Loop.Rounds.nests {around : Surroundings} {call : Call} {body : Node} {index : Nat}
    {items : List Json} {s s' : NodeState} {log : List Exchange} {rounds : List Walked}
    {result : Except Error Unit} (found : call.flow.bodyEntry? call.node.id = some body)
    (each : Loop.Rounds around call body.id index items s log rounds result s') :
    Nests around call log result rounds where
  ran := each.ran
  allowed i member := .inl (each.walked i member).1
  entered i member := by
    obtain ⟨flow, entry, -⟩ := each.walked i member
    rw [flow, entry]
    exact Flow.entered_bodyEntry found
  heard := ⟨[], rfl, each.heard⟩
  through ok := by
    cases each.ends with
    | all _ through => exact through
    | stopped => contradiction

private theorem loop_nesting : Nesting loop := by
  intro around call s log result s' run
  rcases loop_runs run with ⟨-, e, rfl, rfl, rfl⟩ |
    ⟨params, turns, body, rounds, s₁, ready, each, -, told⟩
  · exact still rfl rfl
  · refine ⟨⟨rounds, each.nests ready.found⟩, fun _ => ?_⟩
    rw [told]
    cases result <;> simp [Loop.conclude, Report.withResult, each.report]

private theorem subFlow_nesting : Nesting subFlow := by
  intro around call s log result s' run
  obtain ⟨reads, ⟨silent, -⟩ | ⟨i, called⟩⟩ := subFlow_runs run
  · exact still silent reads.suspended
  · refine ⟨⟨[i], ?_⟩, fun _ => reads.suspended⟩
    obtain ⟨entry, found, same⟩ := called.entered
    obtain ⟨code, version, rfl⟩ := called.heard
    exact nests_once (o := [⟨.load code version, .ok i.flow⟩]) rfl called.ran (.inr called.checked)
      (same ▸ Flow.entered_requireEntry found) called.through

/-- The runners of all built-in node types do. -/
theorem builtins_nesting : ∀ r ∈ builtins, Nesting r.runner := by
  simp only [builtins, firstVersion, List.forall_mem_cons, List.not_mem_nil, false_implies,
    implies_true, and_true]
  exact ⟨start_quiet.nesting, waitMessage_nesting, ifElse_quiet.nesting, loop_nesting,
    subFlow_nesting, finish_quiet.nesting, code_quiet.nesting, reply_quiet.nesting,
    setVariables_nesting⟩

/-! ### Nodes that panic -/

/-- What the node tells before it panics is told by walks within it. -/
def Tearing (runner : Runner) : Prop :=
  ∀ ⦃around call s log cause⦄, Task.Panics (runner around call) s log cause →
    ∃ inners last, Tears around call log cause inners last

theorem Calm.tearing {runner : Runner} (calm : Calm runner) : Tearing runner :=
  fun _ _ _ _ _ panics => (calm panics).elim

private theorem waitMessage_tearing : Tearing waitMessage := by
  intro around call s log cause panics
  obtain ⟨-, -, params, now, id, -, -, rfl⟩ := waitMessage_panics.mp panics
  exact ⟨[], none, tears_nil rfl⟩

private theorem loop_tearing : Tearing loop := by
  intro around call s log cause panics
  obtain ⟨params, turns, -, -, ⟨-, -, rfl⟩ | ⟨body, rounds, ready, torn⟩⟩ := loop_panics panics
  · exact ⟨[], none, tears_nil rfl⟩
  obtain ⟨item, last, back, -, -, breaks, rfl⟩ := torn.torn
  have entered := Flow.entered_bodyEntry ready.found
  refine ⟨rounds, some ⟨call.flow, body.id, some .loopStart, _, back⟩, torn.ran, torn.through,
    by rintro _ ⟨⟩; exact breaks, ⟨fun i member => .inl (torn.walked i member).1, by simp⟩,
    ⟨fun i member => ?_, by simpa using entered⟩, ⟨[], rfl, by simp⟩⟩
  obtain ⟨flow, entry, -⟩ := torn.walked i member
  exact flow ▸ entry ▸ entered

private theorem subFlow_tearing : Tearing subFlow := by
  intro around call s log cause panics
  obtain ⟨params, argument, flow, entry, rest, -, -, rfl, checked, found, breaks⟩ :=
    subFlow_panics.mp panics
  have entered := Flow.entered_requireEntry found
  exact ⟨[], some ⟨flow, entry.id, none, _, rest⟩, by simp, by simp, by rintro _ ⟨⟩; exact breaks,
    ⟨by simp, by simpa using .inr checked⟩, ⟨by simp, by simpa using entered⟩,
    ⟨[⟨.load params.code params.version, .ok flow⟩], rfl, by simp⟩⟩

theorem builtins_tearing : ∀ r ∈ builtins, Tearing r.runner := by
  simp only [builtins, firstVersion, List.forall_mem_cons, List.not_mem_nil, false_implies,
    implies_true, and_true]
  exact ⟨start_calm.tearing, waitMessage_tearing, ifElse_calm.tearing, loop_tearing,
    subFlow_tearing, finish_calm.tearing, code_calm.tearing, reply_calm.tearing,
    setVariables_calm.tearing⟩

end Runner

end Parley

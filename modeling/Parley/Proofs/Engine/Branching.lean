import Parley.Proofs.Runner.Trigger
import Parley.Proofs.Runner.Reports
import Parley.Proofs.Engine.Sound
/-!
# Which children are followed

A start node and a conditional node select a branch or none (`Runner.Selects`), and the walk goes on to
exactly the targets of the edges of that branch, each once and in the order in which the graph has the
children of the node (`Follows`). Whatever list of children a node keeps, it is only asked which
children of the graph are in it (`KeepsOnly`).
-/
namespace Parley

/-! ## Edges of a branch -/

namespace Flow
variable {flow : Flow} {id label child : String}

theorem mem_branchTargets : child ∈ flow.branchTargets id label ↔
    ∃ e ∈ flow.edges, e.source = id ∧ e.branch = some label ∧ e.target = child := by
  simp only [branchTargets, outgoing, mem_distinct, List.mem_map, List.mem_filter, beq_iff_eq,
    and_assoc]

theorem nodup_branchTargets (flow : Flow) (id label : String) :
    (flow.branchTargets id label).Nodup := nodup_distinct _

theorem nodup_children (flow : Flow) (id : String) : (flow.children id).Nodup := nodup_distinct _

theorem children_of_branch (member : child ∈ flow.branchTargets id label) :
    child ∈ flow.children id := by
  obtain ⟨e, edge, source, -, target⟩ := mem_branchTargets.mp member
  exact mem_children.mpr ⟨e, edge, source, target⟩

end Flow

/-! ## Lists of children -/

/-- Of a list of children that a node keeps, only those count that the graph has, each once and in the
order of the graph. -/
structure KeepsOnly (graph ids taken : List String) : Prop where
  exact : ∀ child, child ∈ taken ↔ child ∈ graph ∧ child ∈ ids
  nodup : taken.Nodup
  ordered : taken.Sublist graph
  /-- What the graph does not have, and what is repeated, makes no difference. -/
  extras : ∀ r : Report, r.children = .only (distinct (ids.filter (· ∈ graph))) →
    r.keptChildren graph = taken

theorem Report.keptChildren_only {r : Report} {ids : List String} (kept : r.children = .only ids)
    (graph : List String) : r.keptChildren graph = graph.filter fun id => ids.contains id := by
  simp [Report.keptChildren, kept]

theorem Report.keepsOnly {r : Report} {ids graph : List String} (kept : r.children = .only ids)
    (distinct : graph.Nodup) : KeepsOnly graph ids (r.keptChildren graph) where
  exact child := by simp [Report.keptChildren_only kept]
  nodup := by
    rw [Report.keptChildren_only kept]
    exact distinct.filter _
  ordered := by
    rw [Report.keptChildren_only kept]
    exact List.filter_sublist
  extras s same := by
    rw [Report.keptChildren_only kept, Report.keptChildren_only same]
    refine List.filter_congr fun child member => ?_
    simp [mem_distinct, member]

/-- The children that are followed are those of the branch that was selected, if any. -/
structure Follows (flow : Flow) (id : String) (label : Option String) (taken : List String) : Prop where
  /-- They are the targets of the edges with the label, and of no other edges. -/
  exact : ∀ child, child ∈ taken ↔
    ∃ l, label = some l ∧ ∃ e ∈ flow.edges, e.source = id ∧ e.branch = some l ∧ e.target = child
  nodup : taken.Nodup
  perm : ∀ l, label = some l → taken.Perm (flow.branchTargets id l)
  ordered : taken.Sublist (flow.children id)
  none : label = none → taken = []

theorem follows_of_kept {flow : Flow} {id : String} {label : Option String} {r : Report}
    (kept : r.children = .only (label.elim [] (flow.branchTargets id))) :
    Follows flow id label (r.keptChildren (flow.children id)) := by
  have keeps := r.keepsOnly kept (flow.nodup_children id)
  cases label with
  | none =>
    have empty : r.keptChildren (flow.children id) = [] :=
      List.eq_nil_iff_forall_not_mem.mpr fun child member => by simp [keeps.exact] at member
    exact ⟨fun child => by simp [empty], keeps.nodup, nofun, keeps.ordered, fun _ => empty⟩
  | some l =>
    have taken (child : String) :
        child ∈ r.keptChildren (flow.children id) ↔ child ∈ flow.branchTargets id l := by
      rw [keeps.exact]
      exact ⟨And.right, fun member => ⟨Flow.children_of_branch member, member⟩⟩
    refine ⟨?exact, keeps.nodup, ?perm, keeps.ordered, nofun⟩
    case exact =>
      intro child
      rw [taken, Flow.mem_branchTargets]
      simp
    case perm =>
      rintro _ ⟨⟩
      exact (List.perm_ext_iff_of_nodup keeps.nodup (flow.nodup_branchTargets id l)).mpr taken

/-! ## Which branch is selected -/

namespace Runner

/-- The label of the first branch that subscribes to the trigger. -/
def Start.selected (params : Start.Params) (trigger : Trigger) : Option String :=
  (params.branches.find? fun b => b.trigger = trigger).map Start.Branch.label

/-- The branch that a start node or a conditional node selects in a context. -/
inductive Selects (around : Surroundings) (ctx : Context) (node : Node) (arrival : Arrival) :
    Option String → Prop
  | start {params : Start.Params} : node.type = Node.startType →
    node.params.decode Start.Params.decoder = .ok params →
    Selects around ctx node arrival (Start.selected params (arrival.appointed.getD ctx.trigger))
  | ifElse {params : IfElse.Params} {label : Option String} : node.type = "if_else" →
    node.params.decode IfElse.Params.decoder = .ok params →
    IfElse.taken around ctx params.branches = .ok label →
    Selects around ctx node arrival (label.or params.otherwise)

theorem Selects.unique {around : Surroundings} {ctx : Context} {node : Node} {arrival : Arrival}
    {label label' : Option String} (one : Selects around ctx node arrival label)
    (other : Selects around ctx node arrival label') : label = label' := by
  cases one with
  | start type read =>
    cases other with
    | start _ read' => rw [Except.ok.inj (read.symm.trans read')]
    | ifElse type' => exact absurd (type.symm.trans type') (by decide)
  | ifElse type read taken =>
    cases other with
    | start type' => exact absurd (type'.symm.trans type) (by decide)
    | ifElse _ read' taken' =>
      obtain rfl := Except.ok.inj (read.symm.trans read')
      rw [Except.ok.inj (taken.symm.trans taken')]

/-- A start node keeps the targets of the branch that it selects. -/
theorem start_keeps {params : Start.Params} {ctx : Context} {call : Call} {r r' : Report}
    (executed : Start.execute params ctx call r = .ok r') :
    r'.children = .only ((Start.selected params (call.appointed.getD ctx.trigger)).elim []
      call.branch) := by
  unfold Start.execute at executed
  dsimp only at executed
  split at executed
  · next none =>
    obtain rfl := Except.ok.inj executed
    simp [Start.selected, none, Report.prune, Report.keep]
  · next branch found =>
    split at executed
    · contradiction
    · obtain rfl := Except.ok.inj executed
      simp [Start.selected, found, Report.keep]

/-- A conditional node keeps the targets of the branch that it selects. -/
theorem ifElse_keeps {around : Surroundings} {call : Call} {s s' : NodeState} {log : List Exchange}
    (run : Task.Runs (ifElse around call) s log (.ok ()) s') :
    ∃ params label, call.node.params.decode IfElse.Params.decoder = .ok params ∧
      IfElse.taken around s.context params.branches = .ok label ∧
      s'.report.children = .only ((label.or params.otherwise).elim [] call.branch) := by
  simp only [ifElse, report, Task.runs_ofExcept_bind, Task.runs_get_bind, Task.runs_modify] at run
  obtain ⟨_, -, -, failed, -⟩ | ⟨params, read, ⟨_, -, -, failed, -⟩ | ⟨label, taken, -, -, rfl⟩⟩ := run
  · contradiction
  · contradiction
  · refine ⟨params, label, decode_of_parameters read, taken, ?_⟩
    unfold IfElse.follow
    cases label.or params.otherwise <;> rfl

end Runner

/-! ## Walks -/

namespace Engine
variable {engine : Engine}

/-- Which children a walk takes from the nodes that it has run. -/
structure FollowsBranches (engine : Engine) : Prop where
  /-- A start node or a conditional node never panics. -/
  calm {flow : Flow} {room : Nat} {first : Bool} {node : Node} {arrival : Arrival} {ctx : Context}
    {log : List Exchange} {cause : Panic} :
    node.type = Node.startType ∨ node.type = "if_else" →
    ¬ Program.Ends (engine.nodeVisitor room flow first node arrival ctx) log (.error cause)
  /-- A start node or a conditional node that has not failed has selected a branch or none, and what it
  has selected is followed. -/
  selected {flow : Flow} {room level : Nat} {first : Bool} {node : Node} {arrival : Arrival}
    {ctx ctx' : Context} {log : List Exchange} {report : Report} :
    node.type = Node.startType ∨ node.type = "if_else" →
    Program.Runs (engine.nodeVisitor room flow first node arrival ctx) log ((report, none), ctx') →
    (∃ label, Runner.Selects (engine.around room) ctx node arrival label) ∧
      ∀ label, Runner.Selects (engine.around room) ctx node arrival label →
        Follows flow node.id label
          ((Walk.visitOf level node arrival report none).leadsTo (flow.children node.id))
  /-- A node that fails leads nowhere. -/
  failed {flow : Flow} {level : Nat} {node : Node} {arrival : Arrival} {report : Report}
    {reason : String} :
    (Walk.visitOf level node arrival report (some reason)).leadsTo (flow.children node.id) = []
  /-- Whatever list a node keeps, of any type: it is followed as far as the graph has it. -/
  kept {flow : Flow} {level : Nat} {node : Node} {arrival : Arrival} {report : Report}
    {ids : List String} : report.children = .only ids → report.suspended = false →
    KeepsOnly (flow.children node.id) ids
      ((Walk.visitOf level node arrival report none).leadsTo (flow.children node.id))

/-- A start node or a conditional node is run by a runner that never panics. -/
theorem calm_of_branching (builtIn : engine.BuiltIn) {ctx : Context} {node : Node}
    {r : Registration Runner} {inputs : Keyed Json} (starts : engine.Starts ctx node r inputs)
    (branching : node.type = Node.startType ∨ node.type = "if_else") : Runner.Calm r.runner := by
  obtain ⟨builtin, type⟩ := builtIn.serves starts.served
  rcases branching with start | conditional
  · rw [Runner.builtin_runner rfl builtin (type.trans start)]
    exact Runner.start_calm
  · rw [Runner.builtin_runner rfl builtin (type.trans conditional)]
    exact Runner.ifElse_calm

theorem leadsTo_visitOf {level : Nat} {node : Node} {arrival : Arrival} {report : Report}
    (goesOn : report.suspended = false) (graph : List String) :
    (Walk.visitOf level node arrival report none).leadsTo graph = report.keptChildren graph := by
  simp [Visit.leadsTo, Walk.visitOf, goesOn]

theorem followsBranches (builtIn : engine.BuiltIn) : FollowsBranches engine where
  calm branching panics := by
    obtain ⟨r, inputs, starts, worked⟩ := visitor_panics.mp panics
    exact calm_of_branching builtIn starts branching worked
  failed := rfl
  kept only goesOn := by
    rw [leadsTo_visitOf goesOn]
    exact Report.keepsOnly only (Flow.nodup_children _ _)
  selected := by
    intro flow room level first node arrival ctx ctx' log report branching run
    rcases visitor_runs run with ⟨-, -, failed, -⟩ | ⟨r, inputs, result, s, starts, worked, rfl, ended⟩
    · contradiction
    cases ended
    obtain ⟨builtin, type⟩ := builtIn.serves starts.served
    have goesOn : s.report.suspended = false := by
      rcases Runner.builtins_write r builtin with ⟨waits, -⟩ | writes
      · rw [← type, waits] at branching
        exact absurd branching (by decide)
      · exact (writes.flags worked).2
    have follows {label : Option String}
        (selects : Runner.Selects (engine.around room) ctx node arrival label)
        (kept : s.report.children = .only (label.elim [] (flow.branchTargets node.id))) :
        (∃ label, Runner.Selects (engine.around room) ctx node arrival label) ∧
          ∀ label, Runner.Selects (engine.around room) ctx node arrival label →
            Follows flow node.id label
              ((Walk.visitOf level node arrival s.report none).leadsTo (flow.children node.id)) := by
      refine ⟨⟨label, selects⟩, ?_⟩
      intro other selects'
      obtain rfl := selects.unique selects'
      rw [leadsTo_visitOf goesOn]
      exact follows_of_kept kept
    rcases branching with start | conditional
    · have runner : r.runner = Runner.start := Runner.builtin_runner rfl builtin (type.trans start)
      rw [runner] at worked
      obtain ⟨params, read, executed⟩ := Runner.start_runs worked
      exact follows (.start start (Runner.decode_of_parameters read))
        (Runner.start_keeps executed)
    · have runner : r.runner = Runner.ifElse :=
        Runner.builtin_runner rfl builtin (type.trans conditional)
      rw [runner] at worked
      obtain ⟨params, label, read, taken, kept⟩ := Runner.ifElse_keeps worked
      exact follows (.ifElse conditional read taken) kept

end Engine

/-! ### Branches that share their targets -/

namespace Crossing

/-- A start node with a branch for messages and one for windows. -/
def start : Node where
  id := "start"
  type := "start"
  params := .ofFields [("branches", .arr [
    .ofFields [("branch_id", .str "m"), ("trigger_type", .str "chat_message")],
    .ofFields [("branch_id", .str "w"), ("trigger_type", .str "open_chat_window")]])]

/-- A flow whose windows reach first what messages reach second. -/
def flow : Flow where
  code := "crossing"
  nodes := start :: ["a", "b", "c"].map Ring.node
  edges := [("b", "w"), ("c", "w"), ("a", "m"), ("b", "m"), ("a", "m")].map
    fun (target, label) => { source := "start", target, branch := some label }

def context : Context :=
  .start "r" flow (.chatMessage { organization := "org", conversation := "conv" } "hello")

/-- The run of the start node. -/
def visit : Program ((Report × Option Error) × Context) :=
  (Engine.standard {}).nodeVisitor 8 flow true start { id := "start" } context

/-- The nodes to which the walk goes on, if the start node has not failed. -/
def taken? : Option (List String) :=
  match (visit.run {}).1 with
  | .ok ((report, none), _) =>
    some ((Walk.visitOf 0 start { id := "start" } report none).leadsTo (flow.children "start"))
  | _ => none

end Crossing

/-- The message goes where its edges lead, once to each node, in the order of all edges. -/
theorem crossing_follows :
    (Engine.standard {}).BuiltIn ∧ Engine.FollowsBranches (.standard {}) ∧
      Crossing.flow.children "start" = ["b", "c", "a"] ∧
      Crossing.flow.branchTargets "start" "m" = ["a", "b"] ∧ Crossing.taken? = some ["b", "a"] ∧
      Follows Crossing.flow "start" (some "m") ["b", "a"] := by
  have builtIn := Engine.builtIn_standard {}
  have read : Crossing.start.params.decode Runner.Start.Params.decoder = .ok
      ⟨[⟨"m", .chatMessage, []⟩, ⟨"w", .openChatWindow, []⟩]⟩ := rfl
  have selects : Runner.Selects ((Engine.standard {}).around 8) Crossing.context Crossing.start
      { id := "start" } (some "m") := Runner.Selects.start rfl read
  have taken : Crossing.taken? = some ["b", "a"] := by decide +kernel
  refine ⟨builtIn, Engine.followsBranches builtIn, by decide +kernel, by decide +kernel, taken, ?_⟩
  unfold Crossing.taken? at taken
  split at taken
  · next report _ ran =>
    rw [← Option.some.inj taken]
    exact ((Engine.followsBranches builtIn).selected (.inl rfl) (Program.runs_heard ran)).2 _ selects
  · contradiction

end Parley

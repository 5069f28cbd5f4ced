import Parley.Run.Task
import Parley.Run.Report
import Parley.Context
import Parley.Flow.Shape
/-!
# Walks

A walk goes through a flow from an entry, level by level. A node that has run leads on to the
children that it keeps; two nodes of one level that lead to one child are merged into one arrival
there, and a child that is reached on several levels runs on each of them. A node that fails or
suspends leads nowhere, and the others go on. Only so many nodes are run: the next one after that
fails for this reason and ends the walk.
-/
namespace Parley

/-- A node that led on to another one, with its result. -/
structure Parent where
  id : String
  result : Option Json

/-- A node that is about to run. -/
structure Arrival where
  id : String
  parents : List Parent := []
  /-- The trigger that the node is told instead of the one of the run. -/
  appointed : Option Trigger := none

/-- A node that has run within a walk. -/
structure Visit where
  /-- How many levels lie before the node. -/
  level : Nat
  id : String
  type : String
  parents : List Parent
  /-- What the node left behind. -/
  report : Report
  /-- Why the node failed. -/
  failure : Option String

namespace Visit

def suspends (v : Visit) : Bool :=
  v.failure.isNone && v.report.suspended

/-- The children of the graph to which the node leads on. -/
def leadsTo (v : Visit) (graph : List String) : List String :=
  if v.failure.isSome || v.report.suspended then [] else v.report.keptChildren graph

/-- The event that tells of the visit. -/
def event (v : Visit) (run : String) : RunEvent :=
  .nodeFinished run v.id v.type v.report.success

end Visit

/-- The nodes that have run, in order. -/
structure Walk where
  visits : List Visit := []

namespace Walk

/-- The first node that failed, and why. -/
def failed (walk : Walk) : Option (String × String) :=
  walk.visits.findSome? fun v => v.failure.map fun reason => (v.id, reason)

/-- The first node that suspended the run. -/
def suspendedAt (walk : Walk) : Option String :=
  (walk.visits.find? Visit.suspends).map Visit.id

/-- The walk with a further visit. -/
def push (walk : Walk) (v : Visit) : Walk :=
  { walk with visits := walk.visits ++ [v] }

end Walk

/-! ## Levels -/

/-- The nodes still to run on a level, and those of the next level as far as they are known. -/
structure Frontier where
  level : Nat := 0
  pending : List Arrival
  next : List Arrival := []

namespace Frontier

/-- The next node to run, on the next level when the level is done. -/
def pop (f : Frontier) : Option (Arrival × Frontier) :=
  match f.pending, f.next with
  | a :: rest, _ => some (a, { f with pending := rest })
  | [], a :: rest => some (a, { level := f.level + 1, pending := rest })
  | [], [] => none

/-- Adds a parent to the arrival at a child, which is the last one when it is new. -/
def arrive (parent : Parent) (child : String) : List Arrival → List Arrival
  | [] => [{ id := child, parents := [parent] }]
  | a :: rest =>
    if a.id = child then { a with parents := a.parents ++ [parent] } :: rest
    else a :: arrive parent child rest

/-- The frontier once a node leads on to the children. -/
def extend (f : Frontier) (parent : Parent) (children : List String) : Frontier :=
  { f with next := children.foldl (fun next child => arrive parent child next) f.next }

end Frontier

/-! ## Walking -/

/-- Runs a node for an arrival, first of the walk or not: the report and why the node failed. -/
abbrev Visitor := (first : Bool) → Node → Arrival → StateT Context Program (Report × Option Error)

namespace Walk

/-- Why the node after the last one allowed fails. -/
def limitText (limit : Nat) : String :=
  "exceeded max_node_executions (" ++ toString limit ++ ")"

/-- The visit of a node that ended as told. -/
def visitOf (level : Nat) (node : Node) (arrival : Arrival) (report : Report)
    (failure : Option String) : Visit where
  level := level
  id := node.id
  type := node.type
  parents := arrival.parents
  report := match failure with
    | some reason => report.fail reason
    | none => report
  failure := failure

def announce (v : Visit) : Task Context Unit := do
  Task.publish (v.event (← get).runId)

/-- Goes on with a walk when `left` more nodes may run. -/
def proceed (flow : Flow) (visitor : Visitor) (limit : Nat) :
    (left : Nat) → Frontier → Walk → Task Context Walk
  | left, frontier, walk =>
    match frontier.pop with
    | none => return walk
    | some (arrival, frontier) => do
      let node ← Task.ofExcept (flow.require arrival.id)
      match left with
      | 0 => do
        let visit := visitOf frontier.level node arrival { id := node.id } (some (limitText limit))
        announce visit
        return walk.push visit
      | left + 1 => do
        let (report, failure) ← visitor walk.visits.isEmpty node arrival
        let visit := visitOf frontier.level node arrival report (failure.map Error.message)
        announce visit
        let parent : Parent := ⟨node.id, visit.report.result⟩
        proceed flow visitor limit left
          (frontier.extend parent (visit.leadsTo (flow.children node.id))) (walk.push visit)

/-- Walks a flow from a node, running at most `limit` nodes. -/
def run (flow : Flow) (visitor : Visitor) (limit : Nat) (entry : String)
    (appointed : Option Trigger) : Task Context Walk :=
  proceed flow visitor limit limit { pending := [{ id := entry, appointed }] } {}

end Walk

end Parley

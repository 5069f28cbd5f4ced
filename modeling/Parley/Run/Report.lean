import Parley.Json.Basic
/-!
# Reports of nodes

What a node leaves behind when it has run: a result, the children that the walk may go on to, and
lines of a log. A suspended or failed node keeps no child.
-/
namespace Parley

/-- The children that a node keeps. -/
inductive Kept
  /-- All that the graph has. -/
  | all
  /-- Those among the given ones that the graph has. -/
  | only (ids : List String)
deriving DecidableEq

/-- What a node leaves behind. -/
structure Report where
  id : String
  result : Option Json := none
  children : Kept := .all
  success : Bool := true
  suspended : Bool := false
  log : List String := []

namespace Report

def withResult (r : Report) (v : Json) : Report :=
  { r with result := some v }

/-- The report that keeps the given children only. -/
def keep (r : Report) (ids : List String) : Report :=
  { r with children := .only ids }

/-- The report that keeps no child. -/
def prune (r : Report) : Report :=
  r.keep []

/-- The report of a node that suspends the run. -/
def suspend (r : Report) : Report :=
  { r.prune with suspended := true }

/-- The report with a further line in its log. -/
def addLine (r : Report) (line : String) : Report :=
  { r with log := r.log ++ [line] }

/-- The report of a node that fails. -/
def fail (r : Report) (reason : String) : Report :=
  { r.prune with success := false }.addLine ("failed: " ++ reason)

/-- The children of the graph that the node keeps, in the order of the graph. -/
def keptChildren (r : Report) (graph : List String) : List String :=
  match r.children with
  | .all => graph
  | .only ids => graph.filter fun id => ids.contains id

def Kept.toJson : Kept → Json
  | .all => .str "all"
  | .only ids => .ofFields [("only", .ofStrings ids)]

def toJson (r : Report) : Json :=
  .ofFields [("node_id", .str r.id), ("result", .ofOption r.result),
    ("children", Kept.toJson r.children), ("success", .bool r.success),
    ("suspended", .bool r.suspended), ("debug_log", .ofStrings r.log)]

end Report

end Parley

import Parley.Json.Basic
/-!
# Flows

The graph that a run walks: nodes with a type, parameters and declared inputs, edges with an
optional branch label, and the variables of the run with their first values. Where a list of targets
is asked for, each target stands once, at its first place.
-/
namespace Parley

/-- An input of a node, resolved before the node runs. -/
structure Input where
  name : String
  expr : String
  required : Bool := true
deriving DecidableEq

structure Node where
  id : String
  name : String := ""
  /-- The type of the node, which selects how it runs. -/
  type : String
  version : String := "v0"
  params : Json := .null
  inputs : List Input := []
  outputs : List String := []
  /-- The node whose body this node belongs to. -/
  parent : Option String := none

/-- An edge, belonging to a branch of its source when it has a label. -/
structure Edge where
  source : String
  target : String
  branch : Option String := none
deriving DecidableEq

/-- A variable with its first value. -/
structure Variable where
  name : String
  default : Json := .null

structure Flow where
  code : String
  version : String := "1"
  name : String := ""
  nodes : List Node
  edges : List Edge := []
  /-- The variables of its runs. -/
  declared : List Variable := []

/-- The type of the nodes where a flow or a body is entered. -/
def Node.startType : String := "start"

/-- The list without the repetitions of what stands before. -/
def distinct : List String → List String
  | [] => []
  | x :: xs => x :: (distinct xs).filter (· ≠ x)

namespace Flow

/-- The first node of an id. -/
def node? (flow : Flow) (id : String) : Option Node :=
  flow.nodes.find? fun n => n.id == id

/-- The first start node outside all bodies. -/
def entry? (flow : Flow) : Option Node :=
  flow.nodes.find? fun n => n.type == Node.startType && n.parent.isNone

/-- The first start node in the body of a node. -/
def bodyEntry? (flow : Flow) (parent : String) : Option Node :=
  flow.nodes.find? fun n => n.type == Node.startType && n.parent == some parent

/-- The edges that leave a node. -/
def outgoing (flow : Flow) (id : String) : List Edge :=
  flow.edges.filter fun e => e.source == id

/-- The targets of the edges that leave a node. -/
def children (flow : Flow) (id : String) : List String :=
  distinct ((flow.outgoing id).map Edge.target)

/-- The targets of the edges that leave a node with a label. -/
def branchTargets (flow : Flow) (id label : String) : List String :=
  distinct (((flow.outgoing id).filter fun e => e.branch == some label).map Edge.target)

/-- The first values of the variables; of two of one name the later one counts. -/
def firstValues (flow : Flow) : Keyed Json :=
  Keyed.ofList (flow.declared.map fun v => (v.name, v.default))

end Flow

end Parley

import Parley.Flow.Basic
import Parley.Error
/-!
# The shape of a flow

`Flow.validate` looks for the first fault: node ids that are not unique, edges to nodes that do not
exist, parents that do not exist, and a flow that cannot be entered, in this order.
-/
namespace Parley.Flow

def ids (flow : Flow) : List String :=
  flow.nodes.map Node.id

/-- The first id that stands in the list for a second time, after the ids of `seen`. -/
def firstRepeated (seen : List String) : List String → Option String
  | [] => none
  | id :: rest => if seen.contains id then some id else firstRepeated (id :: seen) rest

def ends (e : Edge) : List String := [e.source, e.target]

/-- The first edge with an end that is no node, source before target. -/
def danglingEdge? (flow : Flow) : Option FlowFault :=
  flow.edges.findSome? fun e =>
    ((ends e).find? fun id => !flow.ids.contains id).map fun id =>
      .danglingEdge e.source e.target id

/-- The first node whose parent is no node. -/
def unknownParent? (flow : Flow) : Option FlowFault :=
  flow.nodes.findSome? fun n =>
    match n.parent with
    | some p => if flow.ids.contains p then none else some (.unknownParent n.id p)
    | none => none

/-- The first fault of a flow. -/
def fault? (flow : Flow) : Option FlowFault :=
  ((firstRepeated [] flow.ids).map .duplicateNode)
    |>.or flow.danglingEdge?
    |>.or flow.unknownParent?
    |>.or (if flow.entry?.isNone then some .noStart else none)

/-- Refuses a flow with a fault. -/
def validate (flow : Flow) : Except Error Unit :=
  match flow.fault? with
  | some f => .error (.invalid (.flow flow.code f))
  | none => .ok ()

def require (flow : Flow) (id : String) : Except Error Node :=
  match flow.node? id with
  | some n => .ok n
  | none => .error (.nodeNotFound id)

/-- The node where a flow is entered. -/
def requireEntry (flow : Flow) : Except Error Node :=
  match flow.entry? with
  | some n => .ok n
  | none => .error (.invalid (.noEntry flow.code))

end Parley.Flow

import Parley.Json.Decoder
/-!
# Errors

Everything that can go wrong, as causes: what is wrong with a flow, with a parameter, with a node's
run or with a collaborator. `Error.message` is the only place with their wording.
-/
namespace Parley

/-! ## Invalid flows and parameters -/

/-- What is wrong with the shape of a flow. -/
inductive FlowFault
  | duplicateNode (id : String)
  | danglingEdge (source target missing : String)
  | unknownParent (id parent : String)
  | noStart
deriving DecidableEq

/-- The wording of a fault in a flow. -/
def FlowFault.message : FlowFault → String
  | .duplicateNode id => "duplicate node id " ++ id
  | .danglingEdge source target missing =>
    "edge " ++ source ++ " -> " ++ target ++ " references unknown node " ++ missing
  | .unknownParent id parent => "node " ++ id ++ " has unknown parent " ++ parent
  | .noStart => "no top-level start node"

/-- What is wrong with the iterations of a loop node. -/
inductive LoopFault
  | itemsNotArray (items : Json)
  | countNotNatural (count : Json)
  | nothingToIterate
  | tooMany (count limit : Nat)
  | noBody

/-- The wording of a fault in the loop node `id`. -/
def LoopFault.message (id : String) : LoopFault → String
  | .itemsNotArray items => "loop " ++ id ++ ": items must be an array, got " ++ items.text
  | .countNotNatural count =>
    "loop " ++ id ++ ": count must be a non-negative integer, got " ++ count.text
  | .nothingToIterate => "loop " ++ id ++ " needs items or count"
  | .tooMany count limit =>
    "loop " ++ id ++ " has " ++ toString count ++ " iterations, above max_iterations "
      ++ toString limit
  | .noBody => "loop " ++ id ++ " has no body start node"

/-- What is refused before or while a node runs because it makes no sense. -/
inductive Invalid
  | flow (code : String) (fault : FlowFault)
  | noEntry (code : String)
  | missingParameter (id type parameter : String)
  | parameters (id : String) (error : DecodeError)
  | reference (got : Json)
  | trigger (name : String)
  | loop (id : String) (fault : LoopFault)
  | noExecutor (id : String)
  | nesting (limit : Nat) (entry : String)
  | file (path : String) (text : String)
  | other (text : String)

def Invalid.message : Invalid → String
  | .flow code fault => "flow " ++ code ++ ": " ++ fault.message
  | .noEntry code => "flow " ++ code ++ " has no entry node"
  | .missingParameter id type parameter =>
    "node " ++ id ++ " (" ++ type ++ ") is missing parameter '" ++ parameter ++ "'"
  | .parameters id error => "invalid params for node " ++ id ++ ": " ++ error.message
  | .reference got => "$ref must be a string, got " ++ got.text
  | .trigger name => "unknown trigger type: " ++ name
  | .loop id fault => fault.message id
  | .noExecutor id => "node " ++ id ++ ": no code executor configured"
  | .nesting limit entry => "nesting deeper than " ++ toString limit ++ " levels at " ++ entry
  | .file path text => path ++ ": " ++ text
  | .other text => text

/-! ## Failing nodes -/

/-- Why the run of a node failed by what it ran itself. -/
inductive NodeFailure
  | iteration (index : Nat) (place reason : String)
  | subFlow (code place reason : String)
  | other (text : String)
deriving DecidableEq

def NodeFailure.message : NodeFailure → String
  | .iteration index place reason =>
    "iteration " ++ toString index ++ " failed at " ++ place ++ ": " ++ reason
  | .subFlow code place reason => "sub-flow " ++ code ++ " failed at " ++ place ++ ": " ++ reason
  | .other text => text

/-- Why a run cannot be suspended where it stands. -/
inductive SuspensionFault
  | nested (id : String)
  | loopBody (id place : String)
  | subFlow (code place : String)
deriving DecidableEq

def SuspensionFault.message : SuspensionFault → String
  | .nested id => "node " ++ id ++ " cannot wait inside a loop body or sub-flow"
  | .loopBody id place => "loop " ++ id ++ " body suspended at " ++ place
  | .subFlow code place => "sub-flow " ++ code ++ " suspended at " ++ place

/-! ## All errors -/

/-- What is wrong with a configuration. -/
inductive ConfigFault
  | unreadable
  | noExecutions
  | noReaperInterval
  | noRoutine (name : String)
deriving DecidableEq

/-- The wording of a fault in a configuration. -/
def ConfigFault.message : ConfigFault → String
  | .unreadable => "TOML parse error"
  | .noExecutions => "engine.max_node_executions must be at least 1"
  | .noReaperInterval => "reaper.interval_secs must be at least 1"
  | .noRoutine name => "no routine named " ++ name

/-- Why an operation of the library fails. -/
inductive Error
  | invalid (why : Invalid)
  | missingInput (id input : String)
  | unresolved (reference : String)
  | unknownNodeType (type version : String)
  | nodeNotFound (id : String)
  | flowNotFound (flow : String)
  | nodeFailed (id : String) (why : NodeFailure)
  | cannotSuspend (why : SuspensionFault)
  | codeFailed (text : String)
  | undelivered (text : String)
  | config (why : ConfigFault)
  | configNotFound (path : String)
  | database (text : String)
  | io (text : String)
  | json (why : DecodeError)

def Error.message : Error → String
  | .invalid why => "Validation error: " ++ why.message
  | .missingInput id input => "Missing required input '" ++ input ++ "' for node " ++ id
  | .unresolved reference => "Unresolved reference: " ++ reference
  | .unknownNodeType type version => "Unknown node type: " ++ type ++ " (" ++ version ++ ")"
  | .nodeNotFound id => "Node not found in flow: " ++ id
  | .flowNotFound flow => "Flow not found: " ++ flow
  | .nodeFailed id why => "Node runner failed: " ++ id ++ ": " ++ why.message
  | .cannotSuspend why => "Run cannot suspend here: " ++ why.message
  | .codeFailed text => "Code execution failed: " ++ text
  | .undelivered text => "Outbound delivery failed: " ++ text
  | .config why => "Config error: " ++ why.message
  | .configNotFound path => "Config file not found: " ++ path
  | .database text => "Database error: " ++ text
  | .io text => "I/O error: " ++ text
  | .json why => "JSON error: " ++ why.message

/-- The error of a change to a table that cannot be changed. -/
def Error.readOnly : Error := .database "attempt to write a readonly database"

end Parley

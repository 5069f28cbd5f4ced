import Parley.Runner.Basic
import Parley.Condition
/-!
# Conditional nodes

A conditional node follows the first branch whose conditions hold, and otherwise its last resort if
it has one. Conditions are evaluated up to the branch taken and no further.
-/
namespace Parley.Runner.IfElse

/-- A comparison of two parameters. -/
structure Condition where
  left : Json
  op : Comparison
  right : Json

def Condition.decoder : Decoder Condition :=
  Record.decode "Condition" <|
    Condition.mk <$> .required "left" .json
      <*> .required "op" Comparison.decoder
      <*> .withDefault "right" .json .null

/-- A branch: its conditions and the label of its edges. -/
structure Branch where
  label : String
  logic : Logic := .all
  conditions : List Condition := []

def Branch.decoder : Decoder Branch :=
  Record.decode "ConditionBranch" <|
    Branch.mk <$> .required "branch_id" .string
      <*> .withDefault "logic" Logic.decoder .all
      <*> .withDefault "conditions" (.list Condition.decoder) []

structure Params where
  branches : List Branch
  otherwise : Option String

def Params.decoder : Decoder Params :=
  Record.decode "IfElseParams" <|
    Params.mk <$> .required "branches" (.list Branch.decoder)
      <*> .optional "else_branch" .string

/-- The outcomes of conditions, from the left. -/
def outcomes (around : Surroundings) (ctx : Context) : List Condition → Except Error (List Bool)
  | [] => .ok []
  | c :: rest => do
    let left ← value around ctx c.left
    let right ← value around ctx c.right
    let others ← outcomes around ctx rest
    return c.op.compare left right :: others

/-- The first branch whose conditions hold. -/
def taken (around : Surroundings) (ctx : Context) : List Branch → Except Error (Option String)
  | [] => .ok none
  | b :: rest => do
    let results ← outcomes around ctx b.conditions
    if b.logic.combine results then return some b.label else taken around ctx rest

/-- What a conditional node leaves behind when it takes a branch or none. -/
def follow (call : Call) (r : Report) (label : Option String) : Report :=
  let r := match label with
    | some l => (r.addLine ("branch " ++ l)).keep (call.branch l)
    | none => (r.addLine "no branch matched").prune
  r.withResult (.ofFields [("branch_id", .ofString? label)])

end IfElse

def ifElse : Runner := fun around call => do
  let params ← Task.ofExcept (parameters IfElse.Params.decoder call)
  let s ← get
  let label ← Task.ofExcept (IfElse.taken around s.context params.branches)
  report fun r => IfElse.follow call r (label.or params.otherwise)

end Parley.Runner

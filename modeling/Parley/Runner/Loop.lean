import Parley.Runner.Basic
import Parley.Text.Blank
/-!
# Loop nodes

A loop node walks its body once for each item, or a number of times, in order, and stops at the
first walk that fails. Before each walk the item and its index become the output of the loop, where
the body finds them; at the end the output is the number of iterations. The items of a number are
listed before it is asked whether there are too many.
-/
namespace Parley.Runner.Loop
open Parley.Text

structure Params where
  items : Option Json
  count : Option Json
  maxIterations : Nat

def Params.decoder : Decoder Params :=
  Record.decode "LoopParams" <|
    Params.mk <$> .optional "items" .json
      <*> .optional "count" .json
      <*> .withDefault "max_iterations" (.natural "usize") 100

/-- What a loop goes through. -/
inductive Turns
  | items (values : List Json)
  | count (n : Nat)

def Turns.length : Turns → Nat
  | .items values => values.length
  | .count n => n

/-- The items of the iterations; those of a number are the numbers below it. -/
def Turns.values : Turns → List Json
  | .items values => values
  | .count n => (List.range n).map .ofNat

/-- Lists the items of a number. The list is not needed here before the loop begins, so it is only seen
whether there can be one. -/
def Turns.listed : Turns → Except Panic Turns
  | .items values => .ok (.items values)
  | .count n => if n ≤ mostValues then .ok (.count n) else .error .capacity

/-- There can be a list of the items. -/
def Turns.Listable : Turns → Prop
  | .items _ => True
  | .count n => n ≤ mostValues

instance : (turns : Turns) → Decidable turns.Listable
  | .items _ => .isTrue trivial
  | .count n => inferInstanceAs (Decidable (n ≤ mostValues))

theorem Turns.listed_eq_ok {turns listed : Turns} :
    turns.listed = .ok listed ↔ turns.Listable ∧ listed = turns := by
  cases turns with
  | items values => simp [Turns.listed, Listable, eq_comm]
  | count n =>
    by_cases fits : n ≤ mostValues <;> simp [Turns.listed, Listable, fits, eq_comm]

theorem Turns.listed_eq_error {turns : Turns} {cause : Panic} :
    turns.listed = .error cause ↔ ¬ turns.Listable ∧ cause = .capacity := by
  cases turns with
  | items values => simp [Turns.listed, Listable]
  | count n =>
    by_cases fits : n ≤ mostValues <;> simp [Turns.listed, Listable, fits, eq_comm]

/-- The number of iterations that a value stands for. -/
def asCount : Json → Option Nat
  | .int n => if 0 ≤ n then some n.toNat else none
  | .str s => readNatural greatest64 (trim s.toList)
  | _ => none

/-- What the loop goes through, items before a number. -/
def turns (around : Surroundings) (ctx : Context) (id : String) (params : Params) :
    Except Error Turns :=
  match params.items, params.count with
  | some param, _ => do
    match ← value around ctx param with
    | .arr values => return .items values
    | .null => return .items []
    | other => .error (.invalid (.loop id (.itemsNotArray other)))
  | none, some param => do
    let v ← value around ctx param
    match asCount v with
    | some n => return .count n
    | none => .error (.invalid (.loop id (.countNotNatural v)))
  | none, none => .error (.invalid (.loop id .nothingToIterate))

/-- What the body finds as the output of the loop. -/
def iteration (item : Json) (index : Nat) : Json :=
  .ofFields [("item", item), ("index", .ofNat index)]

/-- The error of a loop whose body did not run through. -/
def bodyError (id : String) (index : Nat) (walk : Walk) : Option Error :=
  match walk.failed, walk.suspendedAt with
  | some (place, reason), _ => some (.nodeFailed id (.iteration index place reason))
  | none, some place => some (.cannotSuspend (.loopBody id place))
  | none, none => none

/-- The place of an iteration in the log. -/
def place (index : Nat) : String := "[" ++ toString index ++ "] "

/-- Walks the body for each item, from an index on. -/
def iterate (around : Surroundings) (call : Call) (body : String) :
    (index : Nat) → List Json → Task NodeState Unit
  | _, [] => return ()
  | index, item :: rest => do
    context fun ctx => ctx.record call.node.id (iteration item index)
    let walk ← Task.within NodeState.context (fun ctx s => { s with context := ctx })
      (around.nested call.flow body (some .loopStart))
    logWalk (place index) walk
    match bodyError call.node.id index walk with
    | some e => throw e
    | none => iterate around call body (index + 1) rest

end Loop

def loop : Runner := fun around call => do
  let params ← Task.ofExcept (parameters Loop.Params.decoder call)
  let id := call.node.id
  let turns ← Task.ofExcept (Loop.turns around (← get).context id params)
  let turns ← Task.ofChecked turns.listed
  if params.maxIterations < turns.length then
    throw (.invalid (.loop id (.tooMany turns.length params.maxIterations)))
  match call.flow.bodyEntry? id with
  | none => throw (.invalid (.loop id .noBody))
  | some body => do
    Loop.iterate around call body.id 0 turns.values
    report fun r => r.withResult (.ofFields [("iterations", .ofNat turns.length)])

end Parley.Runner

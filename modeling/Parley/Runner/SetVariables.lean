import Parley.Runner.Basic
/-!
# Nodes that set variables

All values are resolved before the first variable is set, so a node that fails sets none.
-/
namespace Parley.Runner.SetVariables

structure Params where
  assignments : Keyed Json

def Params.decoder : Decoder Params :=
  Record.decode "VariableParams" <|
    Params.mk <$> .required "variables" (.table .json)

/-- The context with the values of the variables. -/
def assign (ctx : Context) (values : Keyed Json) : Context :=
  values.foldl (fun ctx (name, v) => ctx.setVariable name v) ctx

end SetVariables

def setVariables : Runner := fun around call => do
  let params ← Task.ofExcept (parameters SetVariables.Params.decoder call)
  let assigned ← Task.ofExcept (values around (← get).context params.assignments)
  context fun ctx => SetVariables.assign ctx assigned
  report fun r => r.withResult (.obj assigned)

end Parley.Runner

import Parley.Runner.Basic
/-!
# End nodes

An end node puts out the values of its parameters and leads nowhere.
-/
namespace Parley.Runner.Finish

structure Params where
  outputs : Keyed Json

def Params.decoder : Decoder Params :=
  Record.decode "EndParams" <|
    Params.mk <$> .withDefault "outputs" (.table .json) []

end Finish

def finish : Runner := fun around call => do
  let params ← Task.ofExcept (parameters Finish.Params.decoder call)
  let outputs ← Task.ofExcept (values around (← get).context params.outputs)
  report fun r => (r.withResult (.obj outputs)).prune

end Parley.Runner

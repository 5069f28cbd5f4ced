import Parley.Runner.Basic
/-!
# Code nodes

A code node hands a piece of code and its inputs to whatever runs code, and puts out what comes
back.
-/
namespace Parley.Runner.Code

structure Params where
  language : String
  code : String

def Params.decoder : Decoder Params :=
  Record.decode "CodeParams" <|
    Params.mk <$> .withDefault "language" .string "python"
      <*> .required "code" .string

end Code

def code : Runner := fun _ call => do
  let params ← Task.ofExcept (parameters Code.Params.decoder call)
  match ← Task.ask (.execute params.language params.code (.obj call.inputs)) with
  | none => throw (.invalid (.noExecutor call.node.id))
  | some result => do
    let output ← Task.ofExcept result
    report fun r => r.withResult output

end Parley.Runner

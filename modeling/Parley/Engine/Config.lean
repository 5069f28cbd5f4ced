import Parley.Json.Decoder
/-!
# Settings of the engine
-/
namespace Parley

/-- The settings of the engine. -/
structure EngineConfig where
  /-- How many nodes a walk may run. -/
  maxExecutions : Nat := 1000
  /-- A version that is not registered may stand for an older one. -/
  fallback : Bool := false
deriving DecidableEq

namespace EngineConfig

def decoder : Decoder EngineConfig :=
  Record.decode "EngineConfig" <|
    EngineConfig.mk <$> .withDefault "max_node_executions" (.natural "usize") 1000
      <*> .withDefault "allow_version_fallback" .bool false

end EngineConfig

end Parley

import Parley.Config.Basic
import Parley.Toml.Printer
/-!
# Writing settings

The text of settings as a file that reads back as the same settings. A setting that is none is left
out.
-/
namespace Parley

/-- A field that is left out when it is none. -/
def fieldOf {α : Type} (name : String) (write : α → Document) (value : Option α) :
    List (String × Document) :=
  match value with
  | some v => [(name, write v)]
  | none => []

def JobConfig.fields (c : JobConfig) : List (String × Document) :=
  [("name", .str c.name), ("schedule", .str c.schedule), ("flow_code", .str c.code)]
    ++ fieldOf "flow_version" .str c.version
    ++ [("organization_code", .str c.organization), ("conversation_id", .str c.conversation)]
    ++ fieldOf "payload" .ofJson c.payload

def RoutineConfig.document (c : RoutineConfig) : Document :=
  .obj [("jobs", .arr (c.jobs.map fun job => .obj job.fields none) none)] none

namespace Config

/-- The settings in the order in which they are written. -/
def fields (c : Config) : List (String × Document) :=
  [("engine", .obj [("max_node_executions", .int c.engine.maxExecutions),
      ("allow_version_fallback", .bool c.engine.fallback)] none),
    ("store", .obj (fieldOf "path" .str c.store.path) none),
    ("flows", .obj [("dir", .str c.flows.folder)] none),
    ("reaper", .obj [("enabled", .bool c.reaper.enabled),
      ("interval_secs", .int c.reaper.interval)] none)]
    ++ fieldOf "routine" RoutineConfig.document c.routine
    ++ [("log", .obj [("filter", .str c.log.filter)] none)]

/-- The text of the settings; none when a payload holds a null. -/
def text (c : Config) : Option String :=
  Toml.write c.fields

end Config

end Parley

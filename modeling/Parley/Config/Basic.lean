import Parley.Engine.Routine
/-!
# Settings

What a settings file decides: the limits of the engine, where wait records and flows are kept, how
often expired records are removed, the routines and what is logged. Every setting has a value for
when it is absent.
-/
namespace Parley

/-- Where wait records are kept: in memory without a path. -/
structure StoreConfig where
  path : Option String := none
deriving DecidableEq

def StoreConfig.decoder : Decoder StoreConfig :=
  Record.decode "StoreConfig" <| StoreConfig.mk <$> .optional "path" .string

/-- Where flows are kept. -/
structure FlowsConfig where
  folder : String := "flows"
deriving DecidableEq

def FlowsConfig.decoder : Decoder FlowsConfig :=
  Record.decode "FlowsConfig" <| FlowsConfig.mk <$> .withDefault "dir" .string "flows"

/-- Whether expired records are removed, and every how many seconds. -/
structure ReaperConfig where
  enabled : Bool := true
  interval : Nat := 30
deriving DecidableEq

def ReaperConfig.decoder : Decoder ReaperConfig :=
  Record.decode "ReaperConfig" <|
    ReaperConfig.mk <$> .withDefault "enabled" .bool true
      <*> .withDefault "interval_secs" (.natural "u64") 30

/-- What is logged. -/
structure LogConfig where
  filter : String := "info"
deriving DecidableEq

def LogConfig.decoder : Decoder LogConfig :=
  Record.decode "LogConfig" <| LogConfig.mk <$> .withDefault "filter" .string "info"

/-- All settings. -/
structure Config where
  engine : EngineConfig := {}
  store : StoreConfig := {}
  flows : FlowsConfig := {}
  reaper : ReaperConfig := {}
  routine : Option RoutineConfig := none
  log : LogConfig := {}

namespace Config

def decoder : Decoder Config :=
  Record.decode "AppConfig" <|
    Config.mk <$> .withDefault "engine" EngineConfig.decoder {}
      <*> .withDefault "store" StoreConfig.decoder {}
      <*> .withDefault "flows" FlowsConfig.decoder {}
      <*> .withDefault "reaper" ReaperConfig.decoder {}
      <*> .optional "routine" RoutineConfig.decoder
      <*> .withDefault "log" LogConfig.decoder {}

/-- Refuses settings with which nothing could run. -/
def check (config : Config) : Except Error Unit :=
  if config.engine.maxExecutions = 0 then .error (.config .noExecutions)
  else if config.reaper.enabled ∧ config.reaper.interval = 0 then .error (.config .noReaperInterval)
  else .ok ()

def toJson (c : Config) : Json :=
  .ofFields [
    ("engine", .ofFields [("max_node_executions", .ofNat c.engine.maxExecutions),
      ("allow_version_fallback", .bool c.engine.fallback)]),
    ("store", .ofFields [("path", .ofString? c.store.path)]),
    ("flows", .ofFields [("dir", .str c.flows.folder)]),
    ("reaper", .ofFields [("enabled", .bool c.reaper.enabled),
      ("interval_secs", .ofNat c.reaper.interval)]),
    ("routine", .ofOption (c.routine.map RoutineConfig.toJson)),
    ("log", .ofFields [("filter", .str c.log.filter)])]

end Config

end Parley

import Parley.Engine.Dispatch
import Parley.Cron.Parser
/-!
# Routines

Jobs that dispatch an event of their own at the instants of a schedule. One job fires at a time: the
one whose schedule holds first after now, and of several the one that is configured first.
-/
namespace Parley

/-- A job as it is configured. -/
structure JobConfig where
  name : String
  schedule : String
  code : String
  version : Option String
  organization : String
  conversation : String
  payload : Option Json

def JobConfig.decoder : Decoder JobConfig :=
  Record.decode "RoutineJobConfig" <|
    JobConfig.mk <$> .required "name" .string
      <*> .required "schedule" .string
      <*> .required "flow_code" .string
      <*> .optional "flow_version" .string
      <*> .required "organization_code" .string
      <*> .required "conversation_id" .string
      <*> .optional "payload" .json

def JobConfig.toJson (c : JobConfig) : Json :=
  .ofFields [("name", .str c.name), ("schedule", .str c.schedule), ("flow_code", .str c.code),
    ("flow_version", .ofString? c.version), ("organization_code", .str c.organization),
    ("conversation_id", .str c.conversation), ("payload", .ofOption c.payload)]

/-- The jobs as they are configured. -/
structure RoutineConfig where
  jobs : List JobConfig := []

def RoutineConfig.decoder : Decoder RoutineConfig :=
  Record.decode "RoutineConfig" <|
    RoutineConfig.mk <$> .withDefault "jobs" (.list JobConfig.decoder) []

def RoutineConfig.toJson (c : RoutineConfig) : Json :=
  .ofFields [("jobs", .arr (c.jobs.map JobConfig.toJson))]

/-- A job. -/
structure Job where
  name : String
  schedule : Cron.Schedule
  code : String
  version : Option String
  scope : Scope
  payload : Json

namespace Job

/-- The job of a configuration whose schedule can be read. -/
def ofConfig (c : JobConfig) : Option Job :=
  (Cron.Schedule.read c.schedule).map fun schedule =>
    { name := c.name, schedule, code := c.code, version := c.version,
      scope := { organization := c.organization, conversation := c.conversation },
      payload := c.payload.getD .empty }

/-- The event of a job that fires at an instant. -/
def event (job : Job) (now : Instant) : Event where
  trigger := .routine
  scope := job.scope
  payload := job.payload
  receivedAt := now

end Job

namespace Routine

/-- The jobs that can be run; the others are passed over. -/
def jobs (config : RoutineConfig) : List Job :=
  config.jobs.filterMap Job.ofConfig

/-- The first job whose instant is not later than those of the others. -/
def earliest : List (Instant × Job) → Option (Instant × Job)
  | [] => none
  | c :: rest => some (rest.foldl (fun best c => if Instant.before c.1 best.1 then c else best) c)

/-- The job that fires next after an instant, and when. -/
def next (jobs : List Job) (after : Instant) : Option (Instant × Job) :=
  earliest (jobs.filterMap fun job => (job.schedule.next after).map fun t => (t, job))

def fireJob (engine : Engine) (job : Job) : Task Unit Dispatched := do
  engine.dispatch job.code job.version (job.event (← Task.clock))

/-- Fires the first job of a name. -/
def fire (engine : Engine) (jobs : List Job) (name : String) : Task Unit Dispatched :=
  match jobs.find? fun job => job.name == name with
  | some job => fireJob engine job
  | none => throw (.config (.noRoutine name))

/-- Waits for the job that fires next and fires it, whatever comes of it. Without a job to wait for
the answer is `false`. -/
def turn (engine : Engine) (jobs : List Job) : Task Unit Bool := do
  match next jobs (← Task.clock) with
  | none => return false
  | some (t, job) => do
    Task.sleep t
    tryCatch (do let _ ← fireJob engine job) fun _ => return ()
    return true

end Routine

end Parley

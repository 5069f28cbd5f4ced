import Parley.Cli.Arguments
import Parley.Cli.Result
import Parley.Cli.System
import Parley.Config.Printer
import Parley.Config.Reader
import Parley.Engine.Reaper
import Parley.Run.World
/-!
# The program

A command reads the settings, opens the wait records and then the flows, does its work and keeps
what has become of the wait records. Only the settings themselves are shown without the rest.
-/
namespace Parley.Cli

def version : String := "flowrun 0.3.0"

/-! ## Work in a world -/

/-- The result of a task in a world, and what becomes of the world. -/
def inWorld {α : Type} (w : World) (task : Task Unit α) (tell : α → World → Result) :
    Result × World :=
  match Program.run (task ()) w with
  | (.ok (.ok value, _), w) => (tell value w, w)
  | (.ok (.error e, _), w) => (.failed "" (.ofError e), w)
  | (.error cause, w) => (.panicked cause, w)

/-- The value of a payload; none when the event brings nothing along. -/
def Payload.value : Payload → Except Failure (Option Json)
  | .nothing => .ok none
  | .message text => .ok (some (.ofFields [("message", .str text)]))
  | .json text =>
    match Json.parse text with
    | .ok v => .ok (some v)
    | .error e => .error ⟨"--payload is not valid JSON", [e.message]⟩

def Delivery.event (d : Delivery) (now : Instant) : Except Failure Event := do
  let given ← d.payload.value
  let scope : Scope :=
    { organization := d.organization, conversation := d.conversation, topic := d.topic }
  let event : Event := { trigger := d.trigger, receivedAt := now, scope }
  return { event with
    payload := given.getD event.payload
    operator := match d.operator with | some uid => { uid } | none => {} }

/-- What is put out about an event. -/
def dispatchedText (d : Dispatched) : String :=
  match d.outcome? with
  | some outcome => outcome.toJson.prettyText
  | none => (Json.ofFields [("status", .str "dropped")]).text

def run (engine : Engine) (d : Delivery) (w : World) : Result × World :=
  match d.event w.clock with
  | .error f => (.failed "" f, w)
  | .ok event =>
    inWorld w (engine.dispatch d.flow d.version event) fun d _ =>
      { output := Result.lines [dispatchedText d] }

/-- When a record expires. A second outside the calendar stands as a number. -/
def timeoutText (r : Wait.Record) : String :=
  match r.timeout with
  | none => "never"
  | some t =>
    if Instant.inRange t then (Instant.ofSeconds t).offsetText
    else String.ofList (Text.writeInteger t)

/-- The line of a wait record. -/
def waitLine (now : Instant) (r : Wait.Record) : String :=
  r.node ++ "  flow=" ++ r.flowCode ++ "@" ++ r.flowVersion
    ++ "  created=" ++ r.createdAt.offsetText
    ++ "  timeout=" ++ timeoutText r ++ (if r.isExpired now then "  (expired)" else "")

/-- Lists the wait records of a conversation. -/
def waits (organization conversation : String) (w : World) : Result × World :=
  inWorld w (Task.list { organization, conversation }) fun records w =>
    if records.isEmpty then { output := Result.lines ["No wait records."] }
    else { output := Result.lines (records.map (waitLine w.clock)) }

/-- Removes the wait records that have expired. -/
def reap (w : World) : Result × World :=
  inWorld w Reaper.once fun records _ =>
    let head := "Reaped " ++ toString records.length ++ " expired wait record(s)."
    let line (r : Wait.Record) := "  " ++ r.key.text ++ "  flow=" ++ r.flowCode
    { output := Result.lines (head :: records.map line) }

/-- The line of a flow: how many nodes it has, or what is wrong with it. -/
def flowLine (engine : Engine) (flow : Flow) : String :=
  let name := flow.code ++ "@" ++ flow.version
  match engine.check flow with
  | .ok () => "  [ok]   " ++ name ++ " (" ++ toString flow.nodes.length ++ " nodes)"
  | .error e => "  [FAIL] " ++ name ++ ": " ++ e.message

def isSound (engine : Engine) (flow : Flow) : Bool :=
  match engine.check flow with
  | .ok () => true
  | .error _ => false

def validate (engine : Engine) (folder : String) (flows : List Flow) : Result :=
  if flows.isEmpty then { output := Result.lines ["No flows found in " ++ folder] }
  else
    let output := Result.lines (flows.map (flowLine engine))
    match (flows.filter fun flow => !isSound engine flow).length with
    | 0 => { output }
    | failures => .failed output ⟨toString failures ++ " flow(s) failed validation", []⟩

def showConfig (config : Config) : Result :=
  match config.text with
  | some text => { output := Result.lines [text] }
  | none => .failed "" ⟨"unsupported unit type", []⟩

/-- Does a command in a world. -/
def work (engine : Engine) (config : Config) (folder : String) : Command → World → Result × World
  | .run d, w => run engine d w
  | .waits organization conversation, w => waits organization conversation w
  | .reap, w => reap w
  | .validate, w => (validate engine folder w.catalog.flows, w)
  | .config, w => (showConfig config, w)

/-! ## Commands on a system -/

section
variable {m : Type → Type} [Monad m]

/-- The settings in a file, or those for when there is nothing under its path. -/
def settings (sys : System m) (path : String) : m (Except Error Config) := do
  match ← sys.entry path with
  | none => return .ok {}
  | some .folder => return .error (.configNotFound path)
  | some (.file content) => do
    let env ← sys.environment (Environment.mentioned ((String.fromUTF8? content).getD ""))
    return Config.ofFile env path (some content)

/-- The wait records at an address, or none in a table of no file. -/
def openStore (sys : System m) :
    (text : Option String) → m (Except Failure (Wait.Address × Wait.Table))
  | none => return .ok (.transient, {})
  | some text => do
    match ← sys.openTable text with
    | .ok opened => return .ok opened
    | .error e => return .error (.during ("opening wait store at " ++ text) e)

/-- Keeps the wait records of a world at an address. -/
def keepStore (sys : System m) (address : Wait.Address) (w : World) : m Unit :=
  match w.store with
  | .table table => sys.keepTable address table
  | .ledger _ => return ()

/-- The world of a command, the wait records and the flows of a folder, and where the wait records
are kept. -/
def openWorld (sys : System m) (store : Option String) (folder : String) :
    m (Except Failure (Wait.Address × World)) := do
  match ← openStore sys store with
  | .error f => return .error f
  | .ok (address, table) =>
    match ← sys.openFlows folder with
    | .error e => return .error (.during ("loading flows from " ++ folder) e)
    | .ok catalog =>
      let w : World :=
        { store := .table table, frozen := address.isReadOnly, clock := ← sys.clock, catalog,
          serial := ← sys.serial }
      return .ok (address, w)

def perform (sys : System m) (config : Config) (command : Command) : m Result := do
  match command with
  | .config => return showConfig config
  | command => do
    let env ← sys.environment [Environment.homeVariable]
    let store := config.storePath env
    let folder := config.flowsFolder env
    match ← openWorld sys store folder with
    | .error f => return .failed "" f
    | .ok (address, w) =>
      let (result, w) := work (.standard config.engine) config folder command w
      keepStore sys address w
      return result

def program (sys : System m) (words : List String) : m Result := do
  match readArguments (← sys.environment [settingsVariable]) words with
  | none => return .misused
  | some .version => return { output := Result.lines [version] }
  | some (.command path command) =>
    match ← settings sys path with
    | .error e => return .failed "" (.ofError e)
    | .ok config => perform sys config command

end

end Parley.Cli

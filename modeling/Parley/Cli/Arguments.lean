import Parley.Trigger
import Parley.Config.Variables
/-!
# Arguments

The words behind the name of the program: options for all commands, the name of a command, and the
options of that command. An option is `--name value` or `--name=value`, and no option is given
twice.
-/
namespace Parley.Cli

/-! ## Options -/

/-- An option that takes a value. -/
structure Flag where
  name : String
  /-- The letter that stands for the name. -/
  letter : Option Char := none
  /-- The value may be empty. -/
  mayBeEmpty : Bool := true

/-- The values of options, the last one first. -/
abbrev Given := List (String × String)

/-- The word is an option as far as its first characters show. -/
def isOption (word : String) : Bool :=
  match word.toList with
  | '-' :: _ :: _ => true
  | _ => false

/-- Splits a word at its first equals sign. -/
def splitEquals (cs : List Char) : String × Option String :=
  let name := cs.takeWhile (· != '=')
  match cs.drop name.length with
  | _ :: value => (String.ofList name, some (String.ofList value))
  | [] => (String.ofList name, none)

/-- The option that a word names, and the value that the word itself gives it. -/
def flag? (flags : List Flag) (word : String) : Option (Flag × Option String) :=
  match word.toList with
  | '-' :: '-' :: cs =>
    match splitEquals cs with
    | (name, value) => (flags.find? fun f => f.name == name).map fun f => (f, value)
  | '-' :: letter :: cs =>
    let value := match cs with
      | [] => none
      | '=' :: cs => some (String.ofList cs)
      | cs => some (String.ofList cs)
    (flags.find? fun f => f.letter == some letter).map fun f => (f, value)
  | _ => none

/-- Adds a value, unless the option has one or the value must not be empty. -/
def give (given : Given) (f : Flag) (value : String) : Option Given :=
  if (given.lookup f.name).isSome ∨ (value.isEmpty ∧ ¬ f.mayBeEmpty) then none
  else some ((f.name, value) :: given)

/-- Reads options up to the first word that is none, or at which `stops` says so. The word `--` ends
them, and nothing may follow it. -/
def readFlags (flags : List Flag) (stops : String → Bool) :
    Given → List String → Option (Given × List String)
  | given, [] => some (given, [])
  | given, word :: rest =>
    if word = "--" then (if rest.isEmpty then some (given, []) else none)
    else if ¬ isOption word ∨ stops word then some (given, word :: rest)
    else
      match flag? flags word, rest with
      | some (f, some value), rest => do readFlags flags stops (← give given f value) rest
      | some (f, none), value :: rest =>
        if isOption value then none else do readFlags flags stops (← give given f value) rest
      | some (_, none), [] => none
      | none, _ => none

/-! ## Commands -/

/-- What an event brings along. -/
inductive Payload
  | nothing
  /-- A JSON text. -/
  | json (text : String)
  /-- A chat message. -/
  | message (text : String)
deriving DecidableEq

/-- An event to dispatch. -/
structure Delivery where
  flow : String
  version : Option String
  trigger : Trigger
  organization : String
  conversation : String
  topic : Option String
  payload : Payload
  operator : Option String
deriving DecidableEq

/-- What the program is asked to do. -/
inductive Command
  /-- Dispatch an event. -/
  | run (delivery : Delivery)
  /-- List the wait records of a conversation. -/
  | waits (organization conversation : String)
  /-- Remove the wait records that have expired. -/
  | reap
  /-- Check all flows. -/
  | validate
  /-- Show the settings. -/
  | config
deriving DecidableEq

/-- The options of an event to dispatch. -/
def deliveryFlags : List Flag :=
  [⟨"flow", none, true⟩, ⟨"flow-version", none, true⟩, ⟨"trigger", none, true⟩,
    ⟨"organization", none, true⟩, ⟨"conversation", none, true⟩, ⟨"topic", none, true⟩,
    ⟨"payload", none, true⟩, ⟨"message", none, true⟩, ⟨"operator", none, true⟩]

/-- The options that name a conversation. -/
def conversationFlags : List Flag :=
  [⟨"organization", none, true⟩, ⟨"conversation", none, true⟩]

/-- The payload of an event, of which at most one form is given. -/
def payloadOf (given : Given) : Option Payload :=
  match given.lookup "payload", given.lookup "message" with
  | none, none => some .nothing
  | some text, none => some (.json text)
  | none, some text => some (.message text)
  | some _, some _ => none

/-- The event of the options given. -/
def deliveryOf (given : Given) : Option Delivery := do
  let trigger ← match given.lookup "trigger" with
    | some name => (Trigger.ofName name).toOption
    | none => some .chatMessage
  return {
    flow := ← given.lookup "flow"
    version := given.lookup "flow-version"
    trigger
    organization := ← given.lookup "organization"
    conversation := ← given.lookup "conversation"
    topic := given.lookup "topic"
    payload := ← payloadOf given
    operator := given.lookup "operator" }

/-- The options of a command, when no other word follows them. -/
def readAll (flags : List Flag) (words : List String) : Option Given :=
  match readFlags flags (fun _ => false) [] words with
  | some (given, []) => some given
  | _ => none

/-- Reads a command behind its name. -/
def readCommand (name : String) (words : List String) : Option Command :=
  match name with
  | "run" => (readAll deliveryFlags words).bind deliveryOf |>.map .run
  | "waits" => do
    let given ← readAll conversationFlags words
    return .waits (← given.lookup "organization") (← given.lookup "conversation")
  | "reap" => (readAll [] words).map fun _ => .reap
  | "validate" => (readAll [] words).map fun _ => .validate
  | "config" => (readAll [] words).map fun _ => .config
  | _ => none

/-! ## The program -/

/-- What the arguments ask for. -/
inductive Invocation
  /-- Tell the version of the program. -/
  | version
  /-- Do a command with the settings in a file. -/
  | command (settings : String) (command : Command)
deriving DecidableEq

def settingsFlag : Flag := ⟨"config", some 'c', false⟩

/-- The variable of the environment that names the settings file. -/
def settingsVariable : String := "FLOWRUN_CONFIG"

/-- Where the settings are when neither option nor environment says so. -/
def defaultSettings : String := "flowrun.toml"

/-- The settings file: that of the option, else that of the environment, which must not be empty. -/
def settingsPath (env : Environment) (given : Given) : Option String :=
  match given.lookup settingsFlag.name, env settingsVariable with
  | some path, _ => some path
  | none, some path => if path.isEmpty then none else some path
  | none, none => some defaultSettings

/-- The word asks for the version. -/
def asksVersion (word : String) : Bool :=
  word == "--version" || "-V".toList.isPrefixOf word.toList

/-- Reads the arguments. The version is told as soon as it is asked for, whatever follows. -/
def readArguments (env : Environment) (words : List String) : Option Invocation :=
  match readFlags [settingsFlag] asksVersion [] words with
  | some (given, word :: rest) =>
    if asksVersion word then some .version
    else do
      let command ← readCommand word rest
      return .command (← settingsPath env given) command
  | _ => none

end Parley.Cli

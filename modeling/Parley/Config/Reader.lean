import Parley.Config.Basic
import Parley.Config.Variables
import Parley.Toml.Reader
/-!
# Reading settings
-/
namespace Parley.Config

/-- The settings that a document holds, when they can be used. -/
def ofDocument (d : Document) : Except Error Config :=
  match decoder .settings d with
  | .error _ => .error (.config .unreadable)
  | .ok config => do
    config.check
    return config

/-- The settings that a text holds, with the variables of the environment in it. -/
def read (env : Environment) (text : String) : Except Error Config :=
  match Toml.read (env.expand text) with
  | none => .error (.config .unreadable)
  | some d => ofDocument d

/-- The settings in the content of a file. A file without content is not there or no file, and one
that is no text is as good as that. -/
def ofFile (env : Environment) (path : String) (content : Option ByteArray) : Except Error Config :=
  match content.bind String.fromUTF8? with
  | some text => read env text
  | none => .error (.configNotFound path)

/-- Where wait records are kept, in full. -/
def storePath (config : Config) (env : Environment) : Option String :=
  config.store.path.map env.expandHome

/-- Where flows are kept, in full. -/
def flowsFolder (config : Config) (env : Environment) : String :=
  env.expandHome config.flows.folder

end Parley.Config

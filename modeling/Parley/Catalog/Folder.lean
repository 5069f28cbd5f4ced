import Parley.Catalog.Basic
import Parley.Flow.Format
import Parley.Location
/-!
# Flows in a folder

A folder of flows is read as a whole: every file whose name ends in `.json`, in the order of the
names. One file that cannot be read spoils the folder.
-/
namespace Parley.Catalog

/-- What stands under a name in a folder. -/
inductive Entry
  | file (content : ByteArray)
  | folder

/-- What the system says when a folder is read as a file. -/
def isFolder : String := "Is a directory (os error 21)"

/-- What is said of a file whose bytes are no text. -/
def notText : String := "stream did not contain valid UTF-8"

def Entry.text : Entry → Except Error String
  | .folder => .error (.io isFolder)
  | .file content =>
    match String.fromUTF8? content with
    | some s => .ok s
    | none => .error (.io notText)

/-- The name is that of a flow: an extension `json` behind a name that is not empty. -/
def isFlowName (name : String) : Bool :=
  let reversed := name.toList.reverse
  "nosj.".toList.isPrefixOf reversed && decide (5 < reversed.length)

/-- The flow that a text holds; complaints name the path. -/
def readFlow (path text : String) : Except Error Flow :=
  match Flow.decoder.ofText text with
  | .error e => .error (.invalid (.file path e.message))
  | .ok flow =>
    match flow.validate with
    | .error e => .error (.invalid (.file path e.message))
    | .ok () => .ok flow

/-- Puts in the flows of files, one after the other. -/
def insertFiles (folder : String) (catalog : Catalog) : List (String × Entry) → Except Error Catalog
  | [] => .ok catalog
  | (name, entry) :: rest => do
    let text ← entry.text
    let flow ← readFlow (Location.join folder name) text
    insertFiles folder (catalog.insert flow) rest

/-- The catalog of a folder with the given entries. -/
def ofFolder (folder : String) (entries : Keyed Entry) : Except Error Catalog :=
  insertFiles folder {} (entries.filter fun (name, _) => isFlowName name)

end Parley.Catalog

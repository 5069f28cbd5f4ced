import Parley.Catalog.Folder
import Parley.Config.Variables
import Parley.Wait.Address
import Parley.Wait.Archive
/-!
# The system

What the program needs of the machine that it runs on. The monad says what machine that is: one that
is only a value, or a real one.
-/
namespace Parley.Cli

/-- The calls to a machine. -/
structure System (m : Type → Type) where
  /-- The value of a variable of the environment. -/
  lookup : String → m (Option String)
  /-- What stands under a path. -/
  entry : String → m (Option Catalog.Entry)
  /-- The path of the folder that relative paths are seen from. -/
  workingFolder : m String
  /-- What stands in a folder, by name. -/
  entries : String → m (Keyed Catalog.Entry)
  /-- Makes a folder in a folder that is there. -/
  makeFolder : String → m Unit
  /-- Writes a file in a folder that is there. -/
  write : String → ByteArray → m Unit
  /-- The time. -/
  clock : m Instant
  /-- A number from which on identifiers can be made. -/
  serial : m Nat

namespace System
variable {m : Type → Type} [Monad m]

/-- The environment as far as some variables are concerned. -/
def environment (sys : System m) (names : List String) : m Environment := do
  let values ← names.mapM fun name => do return (name, ← sys.lookup name)
  return fun name => (values.lookup name).join

/-- What the machine says when a file stands where a folder is to be made. -/
def alreadyThere : String := "File exists (os error 17)"

/-- What the machine says when a file stands on the way to something. -/
def notFolder : String := "Not a directory (os error 20)"

/-- What the machine says about a name or a path with too many bytes. -/
def tooLong : String := "File name too long (os error 36)"

/-- What is said of a path with a character that no path can have. -/
def withNull : String := "file name contained an unexpected NUL byte"

/-- Makes the folders on a way, from the outermost one on, unless they are there. -/
def makeFolders (sys : System m) : List String → m (Except String Unit)
  | [] => return .ok ()
  | path :: rest => do
    match ← sys.entry path with
    | some .folder => sys.makeFolders rest
    | some (.file _) => return .error (if rest.isEmpty then alreadyThere else notFolder)
    | none =>
      if Location.isTooLong path then return .error tooLong
      else do
        sys.makeFolder path
        sys.makeFolders rest

/-- Makes the folders on the way to a path. -/
def prepare (sys : System m) (path : String) : m (Except String Unit) :=
  let folders := Location.folders path
  if folders.any Location.hasNull then return .error withNull else sys.makeFolders folders

/-! ## Wait records -/

/-- What is said of a file that cannot be opened. -/
def cannotOpen : String := "unable to open database file"

/-- What is said of a file that cannot be read. -/
def cannotRead : String := "disk I/O error"

/-- How many bytes the path of a table can have. -/
def tableRoom : Nat := 504

/-- How many bytes the name of a table can have, so that there is room for the name of its
journal. -/
def tableNameRoom : Nat := 247

/-- Files of no more bytes than this hold the table without rows. -/
def blankRoom : Nat := 1

/-- A way that leads through a file or has too long a name or path on it. -/
def isBlocked (sys : System m) (way : List String) : m Bool := do
  let path := Location.ofNames way
  if Location.isTooLong path || decide (tableRoom < path.utf8ByteSize) then return true
  else
    match ← sys.entry (Location.ofNames way.dropLast) with
    | some (.file _) => return true
    | _ => return false

/-- Keeps a table at an address, unless the table is gone with the program or cannot be changed. -/
def keepTable (sys : System m) (address : Wait.Address) (table : Wait.Table) : m Unit :=
  if address.isTransient || address.isReadOnly then return ()
  else
    let archive : Wait.Archive := { table, logged := address.logs }
    sys.write address.path archive.text.toUTF8

/-- Starts the table in a file that is missing or blank. A table that cannot be changed cannot be
started, and leaves a blank file behind where it may make one. -/
def startTable (sys : System m) (address : Wait.Address) (isMissing : Bool) :
    m (Except Error Wait.Table) := do
  let name := (Location.names address.path).getLastD ""
  let refusal :=
    if address.isReadOnly then some Error.readOnly
    else if tableNameRoom < name.utf8ByteSize then some (.database cannotOpen)
    else none
  match refusal with
  | none => do
    sys.keepTable address {}
    return .ok {}
  | some e => do
    if isMissing then sys.write address.path .empty
    return .error e

/-- Opens the table that a file keeps. A log must be kept on where there is one, and is begun where
there is none, unless the file never changes. -/
def resumeTable (sys : System m) (address : Wait.Address) (archive : Wait.Archive) :
    m (Except Error Wait.Table) := do
  if address.frozen || archive.logged == address.logs then return .ok archive.table
  else if archive.logged then return .error (.database cannotOpen)
  else if address.isReadOnly then return .error .readOnly
  else do
    sys.keepTable address archive.table
    return .ok archive.table

/-- Opens the table in the file under an absolute path. `text` is the address as it was written. -/
def openFile (sys : System m) (text : String) (address : Wait.Address) :
    m (Except Error Wait.Table) := do
  let unable : Error := .database (cannotOpen ++ ": " ++ text)
  match ← sys.entry address.path with
  | some .folder =>
    return .error (if address.mode = .read then .database cannotRead else unable)
  | some (.file content) =>
    if content.size ≤ blankRoom then sys.startTable address false
    else match Wait.Archive.ofContent content with
      | .error e => return .error e
      | .ok archive => sys.resumeTable address archive
  | none =>
    let above := Location.ofNames (Location.names address.path).dropLast
    match address.mode, ← sys.entry above with
    | .create, some .folder => sys.startTable address true
    | _, _ => return .error unable

/-- Opens the table at an address, which is then known by its absolute path. A missing file is made
if that is asked for, and the folders on the way to the text of the address are made in any case. -/
def openTable (sys : System m) (text : String) :
    m (Except Error (Wait.Address × Wait.Table)) := do
  match ← sys.prepare text with
  | .error fault => return .error (.database ("Failed to create db directory: " ++ fault))
  | .ok () =>
    match Wait.Address.read text with
    | .error fault => return .error (.database fault)
    | .ok address =>
      if address.isTransient then
        return if address.isReadOnly then .error .readOnly else .ok (address, {})
      else do
        let folder ← sys.workingFolder
        let start := if Location.isAbsolute address.path then [] else Location.names folder
        let blocked ←
          (Location.turns start (Location.names address.path)).anyM fun way => sys.isBlocked way
        if blocked then return .error (.database (cannotOpen ++ ": " ++ text))
        else do
          let path := Location.ofNames (Location.straight folder address.path)
          let address := { address with path }
          return (← sys.openFile text address).map fun table => (address, table)

/-! ## Flows -/

/-- The catalog of a folder. A missing folder holds no flows. -/
def openFlows (sys : System m) (folder : String) : m (Except Error Catalog) := do
  match ← sys.entry folder with
  | none => return .ok {}
  | some (.file _) => return .error (.io notFolder)
  | some .folder => return Catalog.ofFolder folder (← sys.entries folder)

end System

end Parley.Cli

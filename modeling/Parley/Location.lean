/-!
# Locations

Paths of files and folders as texts, with a slash between the names. A path that starts with a slash
is absolute.
-/
namespace Parley.Location

/-- The path starts at the root of all folders. -/
def isAbsolute (path : String) : Bool :=
  path.toList.head? == some '/'

/-- A path seen from a folder. An absolute one stands by itself. -/
def join (folder path : String) : String :=
  if isAbsolute path || folder.isEmpty then path
  else if folder.toList.getLast? == some '/' then folder ++ path
  else folder ++ "/" ++ path

def names (path : String) : List String :=
  (path.splitOn "/").filter fun name => name ≠ "" ∧ name ≠ "."

/-- The paths on the way along names from a folder. -/
def along (folder : String) : List String → List String
  | [] => []
  | name :: rest => join folder name :: along (join folder name) rest

/-- The folders on the way to a path, from the outermost one on. -/
def folders (path : String) : List String :=
  along (if isAbsolute path then "/" else "") (names path).dropLast

def ofNames (names : List String) : String :=
  "/" ++ "/".intercalate names

/-! ## Ways

The way to a place is the names from the root of all folders on.
-/

/-- The way when `..` takes back the name before it, whatever stands there. -/
def turn (way : List String) (name : String) : List String :=
  if name = ".." then way.dropLast else way ++ [name]

/-- The ways one after the other along names. -/
def turns (way : List String) : List String → List (List String)
  | [] => []
  | name :: rest => turn way name :: turns (turn way name) rest

/-- The way to a path that is seen from a folder, when every `..` takes back a name. -/
def straight (folder path : String) : List String :=
  (names (join folder path)).foldl turn []

/-! ## Bounds -/

/-- How many bytes a name can have. -/
def nameRoom : Nat := 255

/-- How many bytes a path can have. -/
def pathRoom : Nat := 4095

/-- The path or one of its names has more bytes than it can have. -/
def isTooLong (path : String) : Bool :=
  decide (pathRoom < path.utf8ByteSize)
    || (names path).any fun name => decide (nameRoom < name.utf8ByteSize)

/-- The path has a character that no path can have. -/
def hasNull (path : String) : Bool :=
  path.toList.contains '\x00'

end Parley.Location

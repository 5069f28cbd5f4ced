import Parley.Cli.System
/-!
# Disks

A machine that is only a value: files and folders from a root on, one of which relative paths are
seen from.
-/
namespace Parley.Simulation

/-- Files and folders by the names on the way to them from the root. -/
structure Disk where
  /-- The way to the folder that relative paths are seen from. -/
  home : List String
  entries : List (List String × Catalog.Entry)
  now : Instant := default
  /-- The number of the next identifier. -/
  serial : Nat := 1

namespace Disk

def standing? (disk : Disk) (place : List String) : Option Catalog.Entry :=
  disk.entries.lookup place

/-- The place behind a name in a path. Every name is looked up in a folder, also the empty one
between two slashes or behind the last one. -/
def step (disk : Disk) (place : List String) (name : String) : Option (List String) :=
  match disk.standing? place with
  | some .folder =>
    if name = "" ∨ name = "." then some place
    else if Location.isTooLong name then none
    else some (Location.turn place name)
  | _ => none

/-- The place that a path leads to, where something can stand. -/
def place? (disk : Disk) (path : String) : Option (List String) :=
  if path.isEmpty || Location.isTooLong path || Location.hasNull path then none
  else (path.splitOn "/").foldlM disk.step (if Location.isAbsolute path then [] else disk.home)

def found? (disk : Disk) (path : String) : Option Catalog.Entry :=
  (disk.place? path).bind disk.standing?

/-- Puts something at a place, in place of what stood there. -/
def put (disk : Disk) (place : List String) (entry : Catalog.Entry) : Disk :=
  { disk with entries := (place, entry) :: disk.entries.filter fun (p, _) => p ≠ place }

/-- Puts something under a path that leads somewhere. -/
def putAt (disk : Disk) (path : String) (entry : Catalog.Entry) : Disk :=
  match disk.place? path with
  | some place => disk.put place entry
  | none => disk

/-- The ways on the way to a place, from the root on. -/
def ways (place : List String) : List (List String) :=
  (List.range place.length).map place.take

/-- Puts something at a place with the folders on the way. -/
def putWithWays (disk : Disk) (place : List String) (entry : Catalog.Entry) : Disk :=
  ((ways place).foldl (fun disk way => disk.put way .folder) disk).put place entry

/-- The disk with nothing but the folder that relative paths are seen from. -/
def withHome (home : List String) : Disk :=
  putWithWays { home, entries := [] } home .folder

/-- Puts something under a path seen from the home folder, with the folders on the way. -/
def putInHome (disk : Disk) (path : String) (entry : Catalog.Entry) : Disk :=
  disk.putWithWays (disk.home ++ Location.names path) entry

/-- What stands in a folder, by name. -/
def children (disk : Disk) (path : String) : Keyed Catalog.Entry :=
  match disk.place? path with
  | none => Keyed.ofList []
  | some folder =>
    Keyed.ofList <| disk.entries.filterMap fun (place, entry) =>
      match place.getLast? with
      | some name => if place.dropLast = folder then some (name, entry) else none
      | none => none

/-- How many identifiers a program may make. -/
def serialsPerProgram : Nat := Nat.pow 2 32

/-- The disk as the system of the program, with an environment. -/
def system (env : Environment) : Cli.System (StateM Disk) where
  lookup name := return env name
  entry path := do return (← get).found? path
  workingFolder := do return Location.ofNames (← get).home
  entries path := do return (← get).children path
  makeFolder path := modify fun disk => disk.putAt path .folder
  write path content := modify fun disk => disk.putAt path (.file content)
  clock := do return (← get).now
  serial := modifyGet fun disk =>
    (disk.serial, { disk with serial := disk.serial + serialsPerProgram })

end Disk

end Parley.Simulation

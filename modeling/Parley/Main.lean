import Std.Time.DateTime.Timestamp
import Parley.Cli.Program
/-!
# The program on a machine

The calls of the program to a real machine: its files, its environment, its clock and its source of
random numbers. What cannot be read is not there.
-/
namespace Parley.Cli.Machine

def entry (path : String) : IO (Option Catalog.Entry) := do
  try
    let place ← IO.FS.realPath path
    if ← place.isDir then return some .folder
    return some (.file (← IO.FS.readBinFile place))
  catch _ => return none

/-- What stands in a folder, by name. -/
def entries (path : String) : IO (Keyed Catalog.Entry) := do
  let mut found := []
  for item in ← (← IO.FS.realPath path).readDir do
    if let some content ← entry (Location.join path item.fileName) then
      found := (item.fileName, content) :: found
  return Keyed.ofList found

def clock : IO Instant := do
  let now ← Std.Time.Timestamp.now
  return .ofMillis now.toMillisecondsSinceUnixEpoch.val

/-- A random number below the number of identifiers. -/
def serial : IO Nat := do
  let bytes ← IO.getRandomBytes 16
  return bytes.toList.foldl (fun n b => n * 256 + b.toNat) 0 % Identifier.count

def system : System IO where
  lookup := fun name => IO.getEnv name
  entry := entry
  workingFolder := do return (← IO.currentDir).toString
  entries := entries
  makeFolder := fun path => IO.FS.createDir path
  write := fun path content => IO.FS.writeBinFile path content
  clock := clock
  serial := serial

end Parley.Cli.Machine

/-- Runs the program with the words behind its name. -/
def main (words : List String) : IO UInt32 := do
  let result ← Parley.Cli.program Parley.Cli.Machine.system words
  IO.print result.output
  IO.eprint result.complaint
  return result.code.toUInt32

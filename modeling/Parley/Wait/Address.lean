import Parley.Text.Natural
/-!
# Addresses of tables

A table is kept in the file under a path. A path that starts with `file:` is an address instead: it
can name the machine that it is on, then comes the path of the file, and behind a `?` come options
with `&` between them. What stands behind a `#` does not count. A byte can be written by its number,
with a `%` and two digits, and the byte zero ends the part of the address that it stands in.
-/
namespace Parley.Wait
open Parley.Text

/-- What is done with the file of a table. -/
inductive Mode
  /-- A file that is there is read. -/
  | read
  /-- A file that is there is read and written. -/
  | write
  /-- The same, and a missing file is made. -/
  | create
  /-- Nothing: the table stays in memory. -/
  | memory
deriving DecidableEq

/-- Where a table is kept, and how it is opened. -/
structure Address where
  /-- The path of the file. -/
  path : String
  mode : Mode := .create
  /-- The file is taken for one that never changes. -/
  frozen : Bool := false
  /-- A log of changes can be kept beside the file. -/
  logs : Bool := true

namespace Mode

/-- The name of a mode in an address. -/
def name : Mode → String
  | .read => "ro"
  | .write => "rw"
  | .create => "rwc"
  | .memory => "memory"

def ofName? (s : String) : Option Mode :=
  [read, write, create, memory].find? fun mode => mode.name == s

/-- The place of a mode in the order of what may be done in it. -/
def rank : Mode → Nat
  | .read => 0
  | .write => 1
  | .create => 2
  | .memory => 3

/-- An option may ask for a mode that allows no more than the one before it, or for memory. -/
def admits (before asked : Mode) : Bool :=
  asked == .memory || decide (asked.rank ≤ before.rank)

end Mode

namespace Address

/-! ## Signs -/

/-- A sign of an address: a character, or a byte that is written by its number. -/
inductive Sign
  | char (c : Char)
  | byte (tens ones : Char)
deriving DecidableEq

/-- Reads signs. A `%` without two digits behind it is a character. -/
def readSigns : List Char → List Sign
  | '%' :: tens :: ones :: rest =>
    if (hexDigit? tens).isSome && (hexDigit? ones).isSome then .byte tens ones :: readSigns rest
    else .char '%' :: readSigns (tens :: ones :: rest)
  | c :: rest => .char c :: readSigns rest
  | [] => []

/-- The bytes that a sign stands for. -/
def Sign.bytes : Sign → List UInt8
  | .char c => (String.singleton c).toUTF8.toList
  | .byte tens ones =>
    [(((hexDigit? tens).getD 0) * 16 + (hexDigit? ones).getD 0).toUInt8]

/-- The characters that a sign is written with. -/
def Sign.written : Sign → List Char
  | .char c => [c]
  | .byte tens ones => ['%', tens, ones]

/-- The text of a part: what its bytes stand for, or, when that is no text, the part as written. -/
def partText (signs : List Sign) : String :=
  let signs := signs.takeWhile fun sign => sign.bytes != [0]
  match String.fromUTF8? ⟨(signs.flatMap Sign.bytes).toArray⟩ with
  | some s => s
  | none => String.ofList (signs.flatMap Sign.written)

/-- The signs up to the first mark, and those behind it. -/
def cutAt (mark : Char) (signs : List Sign) : List Sign × List Sign :=
  let first := signs.takeWhile fun sign => sign != .char mark
  (first, signs.drop (first.length + 1))

def pieces (mark : Char) : List Sign → List (List Sign)
  | [] => [[]]
  | sign :: rest =>
    if sign = .char mark then [] :: pieces mark rest
    else match pieces mark rest with
      | piece :: more => (sign :: piece) :: more
      | [] => [[sign]]

/-! ## Options -/

/-- The options of an address by their names. What has no name is no option. -/
def readOptions (signs : List Sign) : List (String × String) :=
  let options := (pieces '&' signs).map fun piece =>
    match cutAt '=' piece with
    | (name, value) => (partText name, partText value)
  options.filter fun (name, _) => !name.isEmpty

def afterOption (mode : Mode) (option : String × String) : Except String Mode :=
  match option with
  | ("mode", value) =>
    match Mode.ofName? value with
    | none => .error ("no such access mode: " ++ value)
    | some asked =>
      if mode.admits asked then .ok asked else .error ("access mode not allowed: " ++ value)
  | ("cache", value) =>
    if value == "shared" || value == "private" then .ok mode
    else .error ("no such cache mode: " ++ value)
  | _ => .ok mode

/-- The layer that holds its files in memory. -/
def memoryLayer : String := "memdb"

/-- The layers between tables and files under their names, with what they say on logs. -/
def layers : List (String × Bool) :=
  [("unix", true), ("unix-excl", true), ("unix-none", false), ("unix-dotfile", false)]

/-- The value says yes, by a word or by a number. -/
def isYes (value : String) : Bool :=
  match value.toList.takeWhile fun c => (digit? c).isSome with
  | [] => ["on", "yes", "true"].contains value.toLower
  | digits => digits.any fun c => c != '0'

/-- The address of a path with options. The last layer that is asked for counts, and the first word
on whether the file is frozen or has no locks. Without locks there is no log. -/
def withOptions (path : String) (options : List (String × String)) : Except String Address := do
  let mode ← options.foldlM afterOption .create
  let asks (name : String) := ((options.lookup name).map isYes).getD false
  let address : Address := { path, mode, frozen := asks "immutable", logs := !asks "nolock" }
  match options.reverse.lookup "vfs" with
  | none => return address
  | some layer =>
    if layer == memoryLayer then
      return if mode == .read then { address with path := "" } else { address with mode := .memory }
    else match layers.lookup layer with
      | some logs => return { address with logs := address.logs && logs }
      | none => .error ("no such vfs: " ++ layer)

/-! ## Addresses -/

/-- The address behind the name of a machine, which must be this one. -/
def behindMachine : List Char → Except String (List Char)
  | '/' :: '/' :: rest =>
    let machine := String.ofList (rest.takeWhile fun c => c != '/')
    if machine == "" || machine == "localhost" then .ok (rest.drop machine.length)
    else .error ("invalid uri authority: " ++ machine)
  | rest => .ok rest

def scheme : List Char := "file:".toList

/-- The address that a text without the character zero is. -/
def ofText (s : String) : Except String Address :=
  if scheme.isPrefixOf s.toList then do
    let rest ← behindMachine (s.toList.drop scheme.length)
    let (signs, _) := cutAt '#' (readSigns rest)
    let (path, options) := cutAt '?' signs
    withOptions (partText path) (readOptions options)
  else .ok { path := s }

def read (s : String) : Except String Address :=
  let before := s.toList.takeWhile fun c => c != '\x00'
  if before.length < s.length then
    .error ("nul byte found in provided data at position: "
      ++ toString (String.ofList before).utf8ByteSize)
  else ofText s

def transient : Address := { path := "" }

/-- The table is gone with the program. -/
def isTransient (a : Address) : Bool :=
  a.mode == .memory || a.path.isEmpty || a.path == ":memory:"

def isReadOnly (a : Address) : Bool :=
  a.mode == .read || a.frozen && !a.isTransient

end Address

end Parley.Wait

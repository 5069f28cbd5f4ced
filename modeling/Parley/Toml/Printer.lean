import Parley.Toml.Lexeme
import Parley.Json.Document
import Parley.Binary64.Shortest
import Parley.Text.Quoted
/-!
# Writing settings files

The text of a table as a settings file: first its values, a line each, then a block with a header
for each table in it and for each item of a list of tables. A list of two or more values takes a
line an item. Null has no text.
-/
namespace Parley.Toml
open Parley.Text

/-! ## What can be written -/

mutual
def isWritable : Document → Bool
  | .null => false
  | .faulty _ _ _ => false
  | .arr items _ => areWritable items
  | .obj fields _ => fieldsWritable fields
  | .bool _ | .int _ | .float _ | .str _ => true

def areWritable : List Document → Bool
  | [] => true
  | d :: ds => isWritable d && areWritable ds

/-- The documents of all fields can be written. -/
def fieldsWritable : List (String × Document) → Bool
  | [] => true
  | (_, d) :: rest => isWritable d && fieldsWritable rest
end

/-! ## Strings -/

/-- The character needs an escape in any string: a control character but the tab and the newline. -/
def isControl (c : Char) : Bool :=
  !isPlain c && c != '\n'

/-- The longest run of a character. -/
def longestRun (c : Char) : (longest run : Nat) → List Char → Nat
  | longest, run, [] => max longest run
  | longest, run, d :: ds =>
    if d = c then longestRun c longest (run + 1) ds else longestRun c (max longest run) 0 ds

/-- A control character as an escape. -/
def escapeControl (c : Char) : List Char :=
  if c = '\x08' then ['\\', 'b']
  else if c = '\t' then ['\\', 't']
  else if c = '\n' then ['\\', 'n']
  else if c = '\x0c' then ['\\', 'f']
  else if c = '\r' then ['\\', 'r']
  else
    let digits := (writeHex c.toNat).map Char.toUpper
    ['\\', 'u'] ++ List.replicate (4 - digits.length) '0' ++ digits

/-- The characters of a basic string. Over several lines, a newline stands for itself, and so do the
first two of a run of quotes; `run` quotes stand just before. -/
def escapeBasic (long : Bool) : (run : Nat) → List Char → List Char
  | _, [] => []
  | run, c :: cs =>
    if c = '"' then
      if long ∧ run < 2 then '"' :: escapeBasic long (run + 1) cs
      else '\\' :: '"' :: escapeBasic long 0 cs
    else if c = '\\' then '\\' :: '\\' :: escapeBasic long 0 cs
    else if c = '\t' ∨ isControl c ∨ (c = '\n' ∧ ¬ long) then
      escapeControl c ++ escapeBasic long 0 cs
    else c :: escapeBasic long 0 cs

/-- What decides between the kinds of strings. -/
structure StringTraits where
  control : Bool
  newline : Bool
  backslash : Bool
  singleQuotes : Nat
  doubleQuotes : Nat

def StringTraits.of (cs : List Char) : StringTraits where
  control := cs.any isControl
  newline := cs.contains '\n'
  backslash := cs.contains '\\'
  singleQuotes := longestRun '\'' 0 0 cs
  doubleQuotes := longestRun '"' 0 0 cs

/-- Characters between three quotes; a text of several lines starts on a line of its own. -/
def betweenLong (quote : Char) (newline : Bool) (inside : List Char) : List Char :=
  let quotes := [quote, quote, quote]
  quotes ++ (if newline then ['\n'] else []) ++ inside ++ quotes

/-- A string of the first kind that needs no escapes, and if none does a basic one with escapes. -/
def writeString (s : String) : List Char :=
  let cs := s.toList
  let t := StringTraits.of cs
  let basic := '"' :: escapeBasic false 0 cs ++ ['"']
  let long := betweenLong '"' t.newline (escapeBasic true 0 cs)
  if ¬ t.control ∧ ¬ t.backslash ∧ t.doubleQuotes = 0 ∧ ¬ t.newline then basic
  else if ¬ t.control ∧ t.singleQuotes = 0 ∧ ¬ t.newline then '\'' :: cs ++ ['\'']
  else if ¬ t.control ∧ ¬ t.backslash ∧ t.doubleQuotes ≤ 2 then long
  else if ¬ t.control ∧ t.singleQuotes ≤ 2 then betweenLong '\'' t.newline cs
  else if t.newline then long
  else basic

/-- A name of a key: as it is where it can be, else as a string on one line. -/
def writeName (name : String) : List Char :=
  let cs := name.toList
  let t := StringTraits.of cs
  if ¬ cs.isEmpty ∧ cs.all isKeyChar then cs
  else if ¬ t.control ∧ ¬ t.newline ∧ (t.backslash ∨ t.doubleQuotes > 0) ∧ t.singleQuotes = 0 then
    '\'' :: cs ++ ['\'']
  else '"' :: escapeBasic false 0 cs ++ ['"']

/-! ## Values -/

/-- A number with all its digits and always with a point. -/
def writeFloat (x : Finite64) : List Char :=
  let magnitude :=
    if x.units = 0 then ['0', '.', '0']
    else
      let (d, k) := Finite64.shortest x.units
      let digits := writeNatural d
      let point := k + digits.length
      if 0 ≤ k then digits ++ List.replicate k.toNat '0' ++ ['.', '0']
      else if 0 < point then digits.take point.toNat ++ '.' :: digits.drop point.toNat
      else '0' :: '.' :: List.replicate (-point).toNat '0' ++ digits
  if x.negative then '-' :: magnitude else magnitude

mutual
/-- A value on the right side of a key. -/
def writeValue : Document → List Char
  | .bool b => (if b then "true" else "false").toList
  | .int n => writeInteger n
  | .float x => writeFloat x
  | .str s => writeString s
  | .arr [] _ => ['[', ']']
  | .arr [d] _ => '[' :: writeValue d ++ [']']
  | .arr (d :: ds) _ => '[' :: writeItem d ++ writeItems ds ++ ",\n]".toList
  | .obj [] _ => ['\x7b', '\x7d']
  | .obj ((k, d) :: rest) _ => "\x7b ".toList ++ writePair k d ++ writePairs rest ++ " \x7d".toList
  | .null => []
  | .faulty _ _ _ => []

/-- An item on a line of its own. -/
def writeItem (d : Document) : List Char :=
  "\n    ".toList ++ writeValue d

def writeItems : List Document → List Char
  | [] => []
  | d :: ds => ',' :: writeItem d ++ writeItems ds

def writePair (k : String) (d : Document) : List Char :=
  writeName k ++ " = ".toList ++ writeValue d

def writePairs : List (String × Document) → List Char
  | [] => []
  | (k, d) :: rest => ", ".toList ++ writePair k d ++ writePairs rest
end

/-! ## Blocks -/

def isTable : Document → Bool
  | .obj _ _ => true
  | _ => false

/-- The document gets blocks of its own: it is a table, or a list of tables. -/
def hasBlocks : Document → Bool
  | .obj _ _ => true
  | .arr items _ => !items.isEmpty && items.all isTable
  | _ => false

/-- The lines of the values of a table. -/
def valueLines (fields : List (String × Document)) : List Char :=
  (fields.filter fun (_, d) => !hasBlocks d).flatMap fun (k, d) => writePair k d ++ ['\n']

def writePath (path : List String) : List Char :=
  ['.'].intercalate (path.map writeName)

/-- The block of a table: its header and its values. A table that holds only tables needs none. -/
def tableBlock (path : List String) (fields : List (String × Document)) : List (List Char) :=
  if fields.isEmpty || fields.any (fun (_, d) => !hasBlocks d) then
    ['[' :: writePath path ++ "]\n".toList ++ valueLines fields]
  else []

mutual
/-- The blocks of what stands at a path. -/
def blocks (path : List String) : Document → List (List Char)
  | .obj fields _ => tableBlock path fields ++ fieldBlocks path fields
  | .arr items stop => if hasBlocks (.arr items stop) then itemBlocks path items else []
  | _ => []

def fieldBlocks (path : List String) : List (String × Document) → List (List Char)
  | [] => []
  | (k, d) :: rest => blocks (path ++ [k]) d ++ fieldBlocks path rest

def itemBlocks (path : List String) : List Document → List (List Char)
  | [] => []
  | .obj fields _ :: rest =>
    ("[[".toList ++ writePath path ++ "]]\n".toList ++ valueLines fields)
      :: fieldBlocks path fields ++ itemBlocks path rest
  | _ :: rest => itemBlocks path rest
end

/-- The text of a table as a file, with an empty line between blocks. -/
def write (fields : List (String × Document)) : Option String :=
  if fieldsWritable fields then
    let own := valueLines fields
    some <| String.ofList <| ['\n'].intercalate <|
      (if own.isEmpty then [] else [own]) ++ fieldBlocks [] fields
  else none

end Parley.Toml

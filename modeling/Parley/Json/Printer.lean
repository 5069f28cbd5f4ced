import Parley.Json.Basic
import Parley.Binary64.Shortest
import Parley.Text.Quoted
/-!
# JSON text

`Json.text` is the compact text of a value, without any white space; `Json.prettyText` puts each
member on a line of its own, indented by two blanks a level.
-/
namespace Parley.Json
open Parley.Text

/-! ## Strings -/

def writeByteHex (n : Nat) : List Char :=
  let digits := writeHex n
  List.replicate (2 - digits.length) '0' ++ digits

/-- A character of a string: quotes, backslashes and controls are escaped, all else stands as it
is. -/
def escape (c : Char) : List Char :=
  if c = '"' then ['\\', '"']
  else if c = '\\' then ['\\', '\\']
  else if c = '\x08' then ['\\', 'b']
  else if c = '\x0c' then ['\\', 'f']
  else if c = '\n' then ['\\', 'n']
  else if c = '\r' then ['\\', 'r']
  else if c = '\t' then ['\\', 't']
  else if c.toNat < 0x20 then ['\\', 'u', '0', '0'] ++ writeByteHex c.toNat
  else [c]

def writeString (s : String) : List Char :=
  '"' :: s.toList.flatMap escape ++ ['"']

/-! ## Compact text -/

mutual
/-- The compact text of a value. -/
def write : Json → List Char
  | .null => "null".toList
  | .bool true => "true".toList
  | .bool false => "false".toList
  | .int n => writeInteger n
  | .float x => x.write
  | .str s => writeString s
  | .arr [] => ['[', ']']
  | .arr (v :: vs) => '[' :: write v ++ writeItems vs
  | .obj [] => ['\x7b', '\x7d']
  | .obj ((k, v) :: fs) => '\x7b' :: writeString k ++ ':' :: write v ++ writeFields fs

/-- The further items of an array, up to its end. -/
def writeItems : List Json → List Char
  | [] => [']']
  | v :: vs => ',' :: write v ++ writeItems vs

/-- The further fields of an object, up to its end. -/
def writeFields : List (String × Json) → List Char
  | [] => ['\x7d']
  | (k, v) :: fs => ',' :: writeString k ++ ':' :: write v ++ writeFields fs
end

def text (v : Json) : String :=
  String.ofList v.write

/-! ## Indented text -/

/-- A new line at a level. -/
def newLine (level : Nat) : List Char :=
  '\n' :: List.replicate (2 * level) ' '

mutual
/-- The indented text of a value that stands at a level. -/
def writePretty (level : Nat) : Json → List Char
  | .arr [] => ['[', ']']
  | .arr (v :: vs) =>
    '[' :: newLine (level + 1) ++ writePretty (level + 1) v ++ writePrettyItems level vs
  | .obj [] => ['\x7b', '\x7d']
  | .obj ((k, v) :: fs) =>
    '\x7b' :: newLine (level + 1) ++ writeString k ++ [':', ' '] ++ writePretty (level + 1) v
      ++ writePrettyFields level fs
  | .null => write .null
  | .bool b => write (.bool b)
  | .int n => write (.int n)
  | .float x => write (.float x)
  | .str s => write (.str s)

/-- The further items of an array at a level, up to its end. -/
def writePrettyItems (level : Nat) : List Json → List Char
  | [] => newLine level ++ [']']
  | v :: vs => ',' :: newLine (level + 1) ++ writePretty (level + 1) v ++ writePrettyItems level vs

/-- The further fields of an object at a level, up to its end. -/
def writePrettyFields (level : Nat) : List (String × Json) → List Char
  | [] => newLine level ++ ['\x7d']
  | (k, v) :: fs =>
    ',' :: newLine (level + 1) ++ writeString k ++ [':', ' '] ++ writePretty (level + 1) v
      ++ writePrettyFields level fs
end

/-- The indented text of a value. -/
def prettyText (v : Json) : String :=
  String.ofList (writePretty 0 v)

end Parley.Json

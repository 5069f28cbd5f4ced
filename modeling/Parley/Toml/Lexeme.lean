import Parley.Text.Natural
/-!
# The text of settings files

What a TOML text is made of below its values: blanks, comments, ends of lines, strings and keys. A
reader takes what it reads from the start of the text and gives back what follows.
-/
namespace Parley.Toml
open Parley.Text

/-! ## Blanks and comments -/

def isSpace (c : Char) : Bool :=
  c == ' ' || c == '\t'

/-- A character that stands for itself: no control character but the tab. -/
def isPlain (c : Char) : Bool :=
  c == '\t' || (decide (0x20 ≤ c.toNat) && decide (c.toNat ≤ 0x7e)) || decide (0x80 ≤ c.toNat)

/-- The text behind the white space it starts with. -/
def skipSpace (cs : List Char) : List Char :=
  cs.dropWhile isSpace

/-- The text behind the comment it starts with. -/
def skipComment : List Char → List Char
  | '#' :: cs => cs.dropWhile isPlain
  | cs => cs

/-- The text behind the end of a line. -/
def readNewline : List Char → Option (List Char)
  | '\n' :: cs => some cs
  | '\r' :: '\n' :: cs => some cs
  | _ => none

/-- Reads the rest of a line that holds nothing more, up to the next line or the end of the text. -/
def readLineEnd (cs : List Char) : Option (List Char) :=
  match skipComment (skipSpace cs) with
  | [] => some []
  | rest => readNewline rest

/-- The text behind blanks, comments and ends of lines. Each line takes a character, so `fuel` is
enough when it is the length of the text. -/
def skipLines : (fuel : Nat) → List Char → List Char
  | 0, cs => cs
  | fuel + 1, cs =>
    let rest := skipComment (skipSpace cs)
    match readNewline rest with
    | some next => skipLines fuel next
    | none => rest

/-- The text behind blanks and ends of lines, wherever they stand. -/
def skipBlanks : List Char → List Char
  | [] => []
  | '\r' :: '\n' :: cs => skipBlanks cs
  | c :: cs => if isSpace c || c == '\n' then skipBlanks cs else c :: cs

/-! ## Strings -/

/-- The character of a one-letter escape. -/
def escaped? (c : Char) : Option Char :=
  if c = '"' then some '"'
  else if c = '\\' then some '\\'
  else if c = 'b' then some '\x08'
  else if c = 'f' then some '\x0c'
  else if c = 'n' then some '\n'
  else if c = 'r' then some '\r'
  else if c = 't' then some '\t'
  else none

/-- The number that digits in base sixteen stand for. -/
def hexValue : (acc : Nat) → List Char → Option Nat
  | acc, [] => some acc
  | acc, c :: cs =>
    match hexDigit? c with
    | some d => hexValue (acc * 16 + d) cs
    | none => none

/-- Reads a character by its number in so many digits in base sixteen. -/
def readNumbered (width : Nat) (cs : List Char) : Option (Char × List Char) := do
  let n ← hexValue 0 (cs.take width)
  if (cs.take width).length = width ∧ n.isValidChar then return (Char.ofNat n, cs.drop width)
  else none

/-- Reads an escape behind its backslash. -/
def readEscape : List Char → Option (Char × List Char)
  | [] => none
  | 'u' :: cs => readNumbered 4 cs
  | 'U' :: cs => readNumbered 8 cs
  | c :: cs => (escaped? c).map fun d => (d, cs)

/-- Reads the characters of a basic string up to its closing quote. -/
def readBasic : (fuel : Nat) → List Char → Option (List Char × List Char)
  | 0, _ => none
  | _ + 1, [] => none
  | fuel + 1, c :: cs =>
    if c = '"' then some ([], cs)
    else if c = '\\' then do
      let (d, rest) ← readEscape cs
      let (ds, rest) ← readBasic fuel rest
      return (d :: ds, rest)
    else if isPlain c then do
      let (ds, rest) ← readBasic fuel cs
      return (c :: ds, rest)
    else none

/-- Reads the characters of a literal string up to its closing quote. -/
def readLiteral (cs : List Char) : Option (List Char × List Char) :=
  let inside := cs.takeWhile fun c => isPlain c && c != '\''
  match cs.drop inside.length with
  | '\'' :: rest => some (inside, rest)
  | _ => none

/-- Reads the end of a string over several lines: three quotes, before which up to two more belong
to the string. -/
def readClosing (quote : Char) (cs : List Char) : Option (List Char × List Char) :=
  let count := (cs.takeWhile (· == quote)).length
  if count < 3 then none
  else
    let inside := min (count - 3) 2
    some (List.replicate inside quote, cs.drop (inside + 3))

/-- The text behind a backslash that joins lines: the blanks up to the next other character. -/
def joinLines (cs : List Char) : Option (List Char) :=
  (readNewline (skipSpace cs)).map skipBlanks

/-- Reads the characters of a string over several lines, with escapes or without. -/
def readLong (quote : Char) (escapes : Bool) :
    (fuel : Nat) → List Char → Option (List Char × List Char)
  | 0, _ => none
  | fuel + 1, cs =>
    match readClosing quote cs, readNewline cs, cs with
    | some closing, _, _ => some closing
    | none, some next, _ => do
      let (ds, rest) ← readLong quote escapes fuel next
      return ('\n' :: ds, rest)
    | none, none, [] => none
    | none, none, c :: cs =>
      if escapes && c == '\\' then
        match joinLines cs with
        | some next => readLong quote escapes fuel next
        | none => do
          let (d, rest) ← readEscape cs
          let (ds, rest) ← readLong quote escapes fuel rest
          return (d :: ds, rest)
      else if isPlain c then do
        let (ds, rest) ← readLong quote escapes fuel cs
        return (c :: ds, rest)
      else none

/-- The text of a string over several lines without the end of the line that it opens on. -/
def skipFirstLine (cs : List Char) : List Char :=
  (readNewline cs).getD cs

/-- Reads a string of any kind. -/
def readString (cs : List Char) : Option (List Char × List Char) :=
  match cs with
  | '"' :: '"' :: '"' :: rest => readLong '"' true (rest.length + 1) (skipFirstLine rest)
  | '\'' :: '\'' :: '\'' :: rest => readLong '\'' false (rest.length + 1) (skipFirstLine rest)
  | '"' :: rest => readBasic (rest.length + 1) rest
  | '\'' :: rest => readLiteral rest
  | _ => none

/-! ## Keys -/

def isKeyChar (c : Char) : Bool :=
  (digit? c).isSome || ('a' ≤ c && c ≤ 'z') || ('A' ≤ c && c ≤ 'Z') || c == '_' || c == '-'

/-- Reads a part of a key: a word, or a string on one line. -/
def readKeyPart (cs : List Char) : Option (String × List Char) :=
  match cs with
  | '"' :: rest => (readBasic (rest.length + 1) rest).map fun (s, rest) => (String.ofList s, rest)
  | '\'' :: rest => (readLiteral rest).map fun (s, rest) => (String.ofList s, rest)
  | _ =>
    let word := cs.takeWhile isKeyChar
    if word.isEmpty then none else some (String.ofList word, cs.drop word.length)

/-- Reads the parts of a key, with points between them and blanks around them. -/
def readKeyParts : (fuel : Nat) → List Char → Option (List String × List Char)
  | 0, _ => none
  | fuel + 1, cs => do
    let (part, rest) ← readKeyPart (skipSpace cs)
    match skipSpace rest with
    | '.' :: rest => do
      let (parts, rest) ← readKeyParts fuel rest
      return (part :: parts, rest)
    | rest => return ([part], rest)

/-- A key: the tables on the way and the name in the last of them. -/
structure Key where
  path : List String
  last : String
deriving DecidableEq

/-- How many parts a key may have, and how many levels deep values may nest. -/
def deepest : Nat := 79

def Key.ofParts (parts : List String) : Option Key :=
  match parts.getLast? with
  | some last => if parts.length ≤ deepest then some ⟨parts.dropLast, last⟩ else none
  | none => none

/-- Reads a key with the blanks around it. -/
def readKey (cs : List Char) : Option (Key × List Char) := do
  let (parts, rest) ← readKeyParts (cs.length + 1) cs
  let key ← Key.ofParts parts
  return (key, rest)

end Parley.Toml

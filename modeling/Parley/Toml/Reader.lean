import Parley.Toml.Scalar
import Parley.Toml.Table
/-!
# Reading settings files

`Toml.read` turns a TOML text into a document. A text with a fault is not read at all.
-/
namespace Parley.Toml

/-! ## Values -/

mutual
/-- Reads a value that may hold `room` further levels of lists and tables. -/
def readValue : (fuel room : Nat) → List Char → Option (Document × List Char)
  | 0, _, _ => none
  | fuel + 1, room, cs =>
    match cs with
    | [] => none
    | c :: rest =>
      if c = '"' ∨ c = '\'' then
        (readString cs).map fun (s, rest) => (.str (String.ofList s), rest)
      else if c = '[' then
        match room with
        | 0 => none
        | room + 1 => (readItems fuel room rest).map fun (items, rest) => (.arr items none, rest)
      else if c = '\x7b' then
        match room, skipSpace rest with
        | 0, _ => none
        | _, '\x7d' :: rest => some (.obj [] none, rest)
        | room + 1, rest =>
          (readPairs fuel room [] rest).map fun (table, rest) => (table.document, rest)
      else readWord cs

/-- Reads the further items of a list, up to its end. -/
def readItems : (fuel room : Nat) → List Char → Option (List Document × List Char)
  | 0, _, _ => none
  | fuel + 1, room, cs =>
    match skipLines cs.length cs with
    | ']' :: rest => some ([], rest)
    | cs => do
      let (d, rest) ← readValue fuel room cs
      match skipLines rest.length rest with
      | ']' :: rest => return ([d], rest)
      | ',' :: rest => do
        let (ds, rest) ← readItems fuel room rest
        return (d :: ds, rest)
      | _ => none

/-- Reads the further pairs of a table within a line, up to its end. -/
def readPairs : (fuel room : Nat) → Entries → List Char → Option (Entries × List Char)
  | 0, _, _, _ => none
  | fuel + 1, room, table, cs =>
    match readKey cs with
    | some (key, '=' :: rest) => do
      let (d, rest) ← readValue fuel room (skipSpace rest)
      let table ← table.set [] key d
      match skipSpace rest with
      | '\x7d' :: rest => return (table, rest)
      | ',' :: rest => readPairs fuel room table rest
      | _ => none
    | _ => none
end

/-! ## Files -/

/-- What has been read of a file: its tables, and the path of the one that is being filled. -/
structure Draft where
  root : Entries := []
  header : List String := []

namespace Draft

/-- Reads a header behind its first bracket, and opens its table. -/
def readHeader (draft : Draft) (cs : List Char) : Option (Draft × List Char) :=
  match cs with
  | '[' :: cs =>
    match readKey cs with
    | some (key, ']' :: ']' :: rest) => do
      return (⟨← draft.root.openItem key, key.path ++ [key.last]⟩, rest)
    | _ => none
  | cs =>
    match readKey cs with
    | some (key, ']' :: rest) => do
      return (⟨← draft.root.openTable key, key.path ++ [key.last]⟩, rest)
    | _ => none

/-- Reads a pair of key and value, and sets it in the table that is being filled. -/
def readPair (draft : Draft) (cs : List Char) : Option (Draft × List Char) :=
  match readKey cs with
  | some (key, '=' :: rest) => do
    let (d, rest) ← readValue (2 * rest.length + 2) deepest (skipSpace rest)
    return ({ draft with root := ← draft.root.set draft.header key d }, rest)
  | _ => none

/-- Reads what stands on a line, if anything. -/
def readLine (draft : Draft) (cs : List Char) : Option (Draft × List Char) :=
  match cs with
  | [] => some (draft, [])
  | c :: rest =>
    if c = '#' ∨ c = '\n' ∨ c = '\r' then some (draft, cs)
    else if c = '[' then draft.readHeader rest
    else draft.readPair cs

/-- Reads line by line up to the end of the text. Each line takes a character, so `fuel` is enough
when it is above the length of the text. -/
def readLines : (fuel : Nat) → Draft → List Char → Option Draft
  | 0, _, _ => none
  | fuel + 1, draft, cs =>
    match skipSpace cs with
    | [] => some draft
    | cs => do
      let (draft, rest) ← draft.readLine cs
      readLines fuel draft (← readLineEnd rest)

end Draft

/-- The text without the mark of its byte order. -/
def skipMark : List Char → List Char
  | '\ufeff' :: cs => cs
  | cs => cs

/-- The document that a whole file holds. -/
def read (s : String) : Option Document :=
  let cs := skipMark s.toList
  (Draft.readLines (cs.length + 1) {} cs).map fun draft => draft.root.document

end Parley.Toml

import Parley.Json.Basic
/-!
# Documents

What reading a JSON text sees, before anything is decoded: values in the order of the text, with
the faults of the text at the places where they stand. A value that is already in memory is the
document without faults (`Document.ofJson`), so one set of decoders serves both, and the first
complaint in reading order wins whether it is about the text or about its meaning.
-/
namespace Parley

/-- What can be wrong with a JSON text. -/
inductive Fault
  | endInList
  | endInObject
  | endInString
  | endInValue
  | colonExpected
  | listCommaOrEndExpected
  | objectCommaOrEndExpected
  | identExpected
  | valueExpected
  | invalidEscape
  | invalidNumber
  | numberOutOfRange
  | controlCharacter
  | keyMustBeString
  | loneSurrogate
  | hexEscapeEnded
  | trailingComma
  | trailingCharacters
  | nestingTooDeep
deriving DecidableEq

def Fault.message : Fault → String
  | .endInList => "EOF while parsing a list"
  | .endInObject => "EOF while parsing an object"
  | .endInString => "EOF while parsing a string"
  | .endInValue => "EOF while parsing a value"
  | .colonExpected => "expected `:`"
  | .listCommaOrEndExpected => "expected `,` or `]`"
  | .objectCommaOrEndExpected => "expected `,` or `\x7d`"
  | .identExpected => "expected ident"
  | .valueExpected => "expected value"
  | .invalidEscape => "invalid escape"
  | .invalidNumber => "invalid number"
  | .numberOutOfRange => "number out of range"
  | .controlCharacter => "control character (\\u0000-\\u001F) found while parsing a string"
  | .keyMustBeString => "key must be a string"
  | .loneSurrogate => "lone leading surrogate in hex escape"
  | .hexEscapeEnded => "unexpected end of hex escape"
  | .trailingComma => "trailing comma"
  | .trailingCharacters => "trailing characters"
  | .nestingTooDeep => "recursion limit exceeded"

/-- The end of an array or object that cannot be read as a whole: the fault met in reading on, and
the one met in passing over the rest. Without the second one the text goes on behind the whole. -/
structure Stop where
  reading : Fault
  passing : Option Fault
deriving DecidableEq

/-- The stop at a fault that is met either way. -/
def Stop.both (fault : Fault) : Stop := ⟨fault, some fault⟩

/-- A JSON text as it was read. -/
inductive Document
  | null
  | bool (b : Bool)
  | int (n : Int)
  | float (x : Finite64)
  | str (s : String)
  /-- A place that cannot be read, for the fault `reading`. Passing over it without reading it
  meets the fault `passing`; without one the text goes on behind it. What is `bare` starts as a word
  or a number, which nobody reads who looks for a name. -/
  | faulty (reading : Fault) (passing : Option Fault) (bare : Bool)
  /-- An array. With a stop, it ends there after the items. -/
  | arr (items : List Document) (stop : Option Stop)
  /-- An object, with its fields in the order of the text. With a stop, it ends there after the
  fields. -/
  | obj (fields : List (String × Document)) (stop : Option Stop)

namespace Document

instance : Inhabited Document := ⟨.null⟩

mutual
/-- The document of a value in memory. -/
def ofJson : Json → Document
  | .null => .null
  | .bool b => .bool b
  | .int n => .int n
  | .float x => .float x
  | .str s => .str s
  | .arr items => .arr (ofItems items) none
  | .obj fields => .obj (ofFields fields) none

/-- The documents of the items of an array. -/
def ofItems : List Json → List Document
  | [] => []
  | v :: vs => ofJson v :: ofItems vs

/-- The documents of the fields of an object. -/
def ofFields : List (String × Json) → List (String × Document)
  | [] => []
  | (k, v) :: fs => (k, ofJson v) :: ofFields fs
end

mutual
/-- The fault met when the document is passed over without being read. -/
def passed : Document → Option Fault
  | .faulty _ passing _ => passing
  | .arr items stop => passedItems items stop
  | .obj fields stop => passedFields fields stop
  | _ => none

/-- The first fault met in passing over items, and then over what follows them. -/
def passedItems : List Document → Option Stop → Option Fault
  | [], stop => stop.bind Stop.passing
  | d :: ds, stop =>
    match passed d with
    | some f => some f
    | none => passedItems ds stop

/-- The first fault met in passing over fields, and then over what follows them. -/
def passedFields : List (String × Document) → Option Stop → Option Fault
  | [], stop => stop.bind Stop.passing
  | (_, d) :: ds, stop =>
    match passed d with
    | some f => some f
    | none => passedFields ds stop
end

/-- The text cannot be followed behind this place, so what holds it ends there, too. -/
def ends : Document → Bool
  | .faulty _ passing _ => passing.isSome
  | .arr _ stop | .obj _ stop => (stop.bind Stop.passing).isSome
  | _ => false

end Document

end Parley

import Parley.Json.Reader
import Parley.Json.Printer
import Parley.Text.Quoted
/-!
# Decoding documents

A decoder reads a value of a type from a document or says what is wrong with it. Records are read
from an object, where unknown fields are passed over, or from an array with the fields in their
order. Fields are complained about in the order of the document and missing ones after that, in the
order of the record.
-/
namespace Parley

/-! ## Complaints -/

/-- What stands where something else was expected. -/
inductive Found
  | null
  | bool (b : Bool)
  | int (n : Int)
  | float (x : Finite64)
  | str (s : String)
  | sequence
  | map

def Found.message : Found → String
  | .null => "null"
  | .bool b => "boolean `" ++ (if b then "true" else "false") ++ "`"
  | .int n => "integer `" ++ String.ofList (Text.writeInteger n) ++ "`"
  | .float x => "floating point `" ++ String.ofList x.write ++ "`"
  | .str s => "string " ++ Text.quoted s
  | .sequence => "sequence"
  | .map => "map"

/-- Why a document is no value of the expected type. -/
inductive DecodeError
  | malformed (fault : Fault)
  | invalidType (found : Found) (expected : String)
  | invalidValue (found : Found) (expected : String)
  | invalidLength (length : Nat) (expected : String)
  | unknownVariant (variant : String) (expected : List String)
  | missingField (field : String)
  | duplicateField (field : String)
  | custom (text : String)

/-- The names to choose from: two are joined by "or", more are listed behind "one of". -/
def DecodeError.choice : List String → String
  | [] => "there are no variants"
  | [a] => "expected `" ++ a ++ "`"
  | [a, b] => "expected `" ++ a ++ "` or `" ++ b ++ "`"
  | names => "expected one of " ++ ", ".intercalate (names.map fun n => "`" ++ n ++ "`")

def DecodeError.message : DecodeError → String
  | .malformed fault => fault.message
  | .invalidType found expected => "invalid type: " ++ found.message ++ ", expected " ++ expected
  | .invalidValue found expected => "invalid value: " ++ found.message ++ ", expected " ++ expected
  | .invalidLength n expected => "invalid length " ++ toString n ++ ", expected " ++ expected
  | .unknownVariant variant names =>
    "unknown variant `" ++ variant ++ "`, " ++ DecodeError.choice names
  | .missingField field => "missing field `" ++ field ++ "`"
  | .duplicateField field => "duplicate field `" ++ field ++ "`"
  | .custom text => text

/-! ## Decoders -/

/-- Where a document comes from. -/
inductive Source
  /-- A value in memory. -/
  | value
  /-- A JSON text, of which `room` further levels of nesting are read less one. -/
  | text (room : Nat)
  /-- A settings file. -/
  | settings

/-- How many levels of nesting a text may have, counting the one that is refused. -/
def Source.textRoom : Nat := 128

/-- The source inside an array or an object. -/
def Source.enter : Source → Except DecodeError Source
  | .value => .ok .value
  | .settings => .ok .settings
  | .text room => if room ≤ 1 then .error (.malformed .nestingTooDeep) else .ok (.text (room - 1))

/-- Reads a value of a type from a document. -/
abbrev Decoder (α : Type) := Source → Document → Except DecodeError α

/-- Complains about a fault, if there is one. -/
def noFault : Option Fault → Except DecodeError Unit
  | some f => .error (.malformed f)
  | none => .ok ()

/-- Complains about the fault at which the reading of an array or object stops. -/
def stopped (stop : Option Stop) : Except DecodeError Unit :=
  noFault (stop.map Stop.reading)

namespace Document

/-- The complaint about a document that is not of the expected kind. -/
def mismatch (d : Document) (expected : String) : DecodeError :=
  match d with
  | .null => .invalidType .null expected
  | .bool b => .invalidType (.bool b) expected
  | .int n => .invalidType (.int n) expected
  | .float x => .invalidType (.float x) expected
  | .str s => .invalidType (.str s) expected
  | .faulty f _ _ => .malformed f
  | .arr _ _ => .invalidType .sequence expected
  | .obj _ _ => .invalidType .map expected

mutual
def toJson (source : Source) : Document → Except DecodeError Json
  | .null => .ok .null
  | .bool b => .ok (.bool b)
  | .int n => .ok (.int n)
  | .float x => .ok (.float x)
  | .str s => .ok (.str s)
  | .faulty f _ _ => .error (.malformed f)
  | .arr items stop => do
    let items ← toItems (← source.enter) items
    stopped stop
    return .arr items
  | .obj fields stop => do
    let fields ← toFields (← source.enter) fields
    stopped stop
    return .ofFields fields

/-- Reads the items of an array. -/
def toItems (source : Source) : List Document → Except DecodeError (List Json)
  | [] => .ok []
  | d :: ds => do
    let v ← toJson source d
    let vs ← toItems source ds
    return v :: vs

/-- Reads the fields of an object. -/
def toFields (source : Source) :
    List (String × Document) → Except DecodeError (List (String × Json))
  | [] => .ok []
  | (k, d) :: ds => do
    let v ← toJson source d
    let vs ← toFields source ds
    return (k, v) :: vs
end

end Document

namespace Decoder
variable {α β : Type}

def json : Decoder Json := Document.toJson

def string : Decoder String
  | _, .str s => .ok s
  | _, d => .error (d.mismatch "a string")

def bool : Decoder Bool
  | _, .bool b => .ok b
  | _, d => .error (d.mismatch "a boolean")

/-- Reads a natural number of a machine word, called `name`. -/
def natural (name : String) : Decoder Nat
  | _, .int n =>
    if 0 ≤ n ∧ n ≤ (Text.greatest64 : Int) then .ok n.toNat
    else .error (.invalidValue (.int n) name)
  | _, d => .error (d.mismatch name)

/-- Reads a whole number of 64 bits with a sign. -/
def integer : Decoder Int
  | _, .int n =>
    if -(Text.greatestSigned64 : Int) - 1 ≤ n ∧ n ≤ (Text.greatestSigned64 : Int) then .ok n
    else .error (.invalidValue (.int n) "i64")
  | _, d => .error (d.mismatch "i64")

/-- Reads null as none. A settings file has no null of its own, so there it is a value like any
other. -/
def option (decode : Decoder α) : Decoder (Option α)
  | .settings, d => some <$> decode .settings d
  | _, .null => .ok none
  | source, d => some <$> decode source d

/-- Reads items one after the other. -/
def items (decode : Decoder α) (source : Source) : List Document → Except DecodeError (List α)
  | [] => .ok []
  | d :: ds => do
    let v ← decode source d
    let vs ← items decode source ds
    return v :: vs

def list (decode : Decoder α) : Decoder (List α)
  | source, .arr ds stop => do
    let vs ← items decode (← source.enter) ds
    stopped stop
    return vs
  | _, d => .error (d.mismatch "a sequence")

/-- Reads fields one after the other. -/
def entries (decode : Decoder α) (source : Source) :
    List (String × Document) → Except DecodeError (List (String × α))
  | [] => .ok []
  | (k, d) :: ds => do
    let v ← decode source d
    let vs ← entries decode source ds
    return (k, v) :: vs

/-- Reads an object as a table; of two fields of one name the later one counts. -/
def table (decode : Decoder α) : Decoder (Keyed α)
  | source, .obj fields stop => do
    let vs ← entries decode (← source.enter) fields
    stopped stop
    return Keyed.ofList vs
  | _, d => .error (d.mismatch "a map")

/-- The complaint about a document that names no variant. -/
def variantExpected : Source → Document → DecodeError
  | .text _, .faulty f _ false => .malformed f
  | .text _, _ => .malformed .valueExpected
  | _, d => d.mismatch "string or map"

/-- The value of a variant by name. -/
def variantNamed (variants : List (String × α)) (name : String) : Except DecodeError α :=
  match variants.lookup name with
  | some v => .ok v
  | none => .error (.unknownVariant name (variants.map Prod.fst))

/-- Reads one of the named variants: its name, or an object with the name as its only key and null
under it. -/
def variant (variants : List (String × α)) : Decoder α
  | _, .str name => variantNamed variants name
  | source, .obj [(name, content)] stop => do
    let _ ← source.enter
    let v ← variantNamed variants name
    match content with
    | .null => pure ()
    | d => .error (d.mismatch "unit")
    match stop.map Stop.reading with
    | none => return v
    | some .endInObject => .error (.malformed .endInObject)
    | some _ => .error (.malformed .valueExpected)
  | source, .obj fields stop =>
    match source with
    | .text _ => do
      let _ ← source.enter
      match fields with
      | [] => .error (.malformed ((stop.map Stop.reading).getD .keyMustBeString))
      | (name, content) :: _ =>
        let _ ← variantNamed variants name
        match content with
        | .null => .error (.malformed .valueExpected)
        | d => .error (d.mismatch "unit")
    | _ => .error (.invalidValue .map "map with a single key")
  | source, d => .error (variantExpected source d)

end Decoder

/-! ## Records -/

/-- A field of a record as far as reading order is concerned. -/
structure FieldRule where
  /-- The name of the field. -/
  name : String
  /-- Complains about a document that is no value of the field. -/
  accepts : Decoder Unit
  /-- The field has a value when it is absent. -/
  optional : Bool

/-- How a record is read: its fields in order, and the record from the documents of its fields. -/
structure Record (α : Type) where
  rules : List FieldRule
  build : Source → (String → Option Document) → Except DecodeError α

namespace Record
variable {α β : Type}

/-- A field that must be there. -/
def required (name : String) (decode : Decoder α) : Record α where
  rules := [⟨name, fun source d => (fun _ => ()) <$> decode source d, false⟩]
  build source field :=
    match field name with
    | some d => decode source d
    | none => .error (.missingField name)

/-- A field with a value for when it is absent. -/
def withDefault (name : String) (decode : Decoder α) (default : α) : Record α where
  rules := [⟨name, fun source d => (fun _ => ()) <$> decode source d, true⟩]
  build source field :=
    match field name with
    | some d => decode source d
    | none => .ok default

/-- A field that is none when it is absent. -/
def optional (name : String) (decode : Decoder α) : Record (Option α) :=
  withDefault name (Decoder.option decode) none

/-- The record made of the values of another. -/
def map (f : α → β) (r : Record α) : Record β where
  rules := r.rules
  build source field := f <$> r.build source field

/-- The fields of two records, one after the other. -/
def seq (r : Record (α → β)) (s : Unit → Record α) : Record β where
  rules := r.rules ++ (s ()).rules
  build source field := do
    let f ← r.build source field
    let v ← (s ()).build source field
    return f v

instance : Functor Record := { map := map }
instance : Seq Record := { seq := seq }

/-- "struct" with the name of a record. -/
def kind (name : String) : String := "struct " ++ name

/-- The record and how many elements an array for it has. -/
def size (name : String) (n : Nat) : String :=
  kind name ++ " with " ++ toString n ++ (if n = 1 then " element" else " elements")

/-- Complains about the first field that cannot be read, in the order of the document. `seen` are
the fields before it. -/
def checkFields (rules : List FieldRule) (source : Source) (stop : Option Stop) :
    (seen : List String) → List (String × Document) → Except DecodeError Unit
  | _, [] => stopped stop
  | seen, (key, d) :: rest =>
    match rules.find? fun r => r.name == key with
    | some rule =>
      if seen.contains key then .error (.duplicateField key)
      else do
        rule.accepts source d
        checkFields rules source stop (key :: seen) rest
    | none =>
      match d.passed with
      | some f => .error (.malformed f)
      | none => checkFields rules source stop seen rest

/-- The fault at the end of an array of which no more items are asked for. -/
def endFault (rest : List Document) (stop : Option Stop) : Option Fault :=
  match rest, stop.map Stop.reading with
  | [], none => none
  | [], some .endInList => some .endInList
  | [], some .trailingComma => some .trailingComma
  | _, _ => some .trailingCharacters

/-- Complains about the first item that cannot be read as the field at its place, about missing
items and about items too many. -/
def checkItems (name : String) (count total : Nat) (source : Source) (stop : Option Stop) :
    (position : Nat) → List FieldRule → List Document → Except DecodeError Unit
  | _, [], rest =>
    match source with
    | .value =>
      if rest.isEmpty then .ok () else .error (.invalidLength total "fewer elements in array")
    | .text _ => noFault (endFault rest stop)
    | .settings => .ok ()
  | position, rule :: rules, [] =>
    match stop with
    | some s => .error (.malformed s.reading)
    | none =>
      if rule.optional then checkItems name count total source stop (position + 1) rules []
      else .error (.invalidLength position (size name count))
  | position, rule :: rules, d :: rest => do
    rule.accepts source d
    checkItems name count total source stop (position + 1) rules rest

/-- Reads a record from an object or an array. -/
def decode (name : String) (r : Record α) : Decoder α
  | source, .obj fields stop => do
    let source ← source.enter
    checkFields r.rules source stop [] fields
    r.build source fun key => fields.lookup key
  | source, .arr items stop => do
    let source ← source.enter
    checkItems name r.rules.length items.length source stop 0 r.rules items
    r.build source fun key => ((r.rules.map FieldRule.name).zip items).lookup key
  | _, d => .error (d.mismatch (kind name))

end Record

/-! ## Whole values -/

def Json.decode {α : Type} (decoder : Decoder α) (v : Json) : Except DecodeError α :=
  decoder .value (.ofJson v)

def Decoder.ofText {α : Type} (decoder : Decoder α) (s : String) : Except DecodeError α :=
  match Document.read s with
  | (d, trailing) => do
    let v ← decoder (.text Source.textRoom) d
    noFault trailing
    return v

/-- The JSON value that a whole text holds. -/
def Json.parse (s : String) : Except DecodeError Json :=
  Decoder.ofText Decoder.json s

end Parley

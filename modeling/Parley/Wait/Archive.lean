import Parley.Wait.Table
import Parley.Json.Decoder
/-!
# Tables in files

The text under which a table is kept in a file: a line that tells what the file is and whether it
has a log beside it, and then a row a line. What does not start with such a line, or has a line that
is no row, is not a table.
-/
namespace Parley.Wait

namespace Record

/-- The fields of a record as a row keeps them. -/
def toJson (r : Record) : Json :=
  .ofFields [("record_id", .str r.id), ("organization_code", .str r.organization),
    ("conversation_id", .str r.conversation), ("origin_conversation_id", .str r.origin),
    ("waiting_node_id", .str r.node), ("flow_code", .str r.flowCode),
    ("flow_version", .str r.flowVersion), ("creator", .str r.creator),
    ("timeout_at", match r.timeout with | some t => .int t | none => .null),
    ("snapshot", .str r.snapshot), ("created_at", .int r.createdAt.seconds)]

def decoder : Decoder Record :=
  Parley.Record.decode "WaitRecord" <|
    Record.mk <$> .required "record_id" .string
      <*> .required "organization_code" .string
      <*> .required "conversation_id" .string
      <*> .required "origin_conversation_id" .string
      <*> .required "waiting_node_id" .string
      <*> .required "flow_code" .string
      <*> .required "flow_version" .string
      <*> .required "creator" .string
      <*> .optional "timeout_at" .integer
      <*> .required "snapshot" .string
      <*> (Instant.ofSeconds <$> .required "created_at" .integer)

end Record

def Row.toJson (row : Row) : Json :=
  .ofFields [("number", .ofNat row.number), ("record", row.record.toJson)]

def Row.decoder : Decoder Row :=
  Parley.Record.decode "Row" <|
    Row.mk <$> .required "number" (.natural "u64") <*> .required "record" Record.decoder

/-- A table as a file keeps it. -/
structure Archive where
  table : Table := {}
  /-- Changes of the table go through a log beside the file. -/
  logged : Bool := true

namespace Archive

/-- The first line of a file that holds a table. -/
def mark (logged : Bool) : String :=
  if logged then "parley wait records with a log" else "parley wait records"

def text (archive : Archive) : String :=
  let rows := archive.table.rows.map fun row => row.toJson.text
  "\n".intercalate (mark archive.logged :: rows) ++ "\n"

/-- What is said of a file that holds no table. -/
def noTable : Error := .database "file is not a database"

def readRows : List String → Except Error (List Row)
  | [] => .ok []
  | line :: rest =>
    if line.isEmpty then readRows rest
    else match Row.decoder.ofText line with
      | .error _ => .error noTable
      | .ok row => do return row :: (← readRows rest)

def ofLines : List String → Except Error Archive
  | [] => .error noTable
  | first :: rest =>
    match [true, false].find? fun logged => mark logged == first with
    | none => .error noTable
    | some logged => do return ⟨⟨← readRows rest⟩, logged⟩

/-- The table in the content of a file. -/
def ofContent (content : ByteArray) : Except Error Archive :=
  match String.fromUTF8? content with
  | some s => ofLines (s.splitOn "\n")
  | none => .error noTable

end Archive

end Parley.Wait

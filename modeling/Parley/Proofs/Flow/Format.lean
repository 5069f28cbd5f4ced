import Parley.Flow.Format
import Parley.Flow.Shape
import Parley.Proofs.Json.Format
import Parley.Proofs.Context.Sound
/-!
# Flows are read back

A flow is read back from the value that it is written as (`Flow.roundTrips`). A value from which a flow is
read may leave out fields, have fields that no record knows, and have arrays in the place of objects. The
flow is written as this value with all the fields of all records and no others (`Flow.completed`), and
reading and writing it again changes nothing.
-/
namespace Parley
open Parley.Json

/-! ## The fields of the parts -/

namespace Input

def fields : List (Field Input) :=
  [{ name := "name", format := .string, value := Input.name },
    { name := "expr", format := .string, value := Input.expr },
    { name := "required", format := .bool, absent := some true, value := Input.required }]

theorem tell : Field.Tell fields decoder toJson where
  decoded := by
    refine ⟨_, _, rfl, rfl, fun source field i => ?_⟩
    cases i
    -- the truth value stays one unknown, to be solved for like the texts
    simp [fields, Field.record, Record.build_seq, Record.build_map, -Bool.exists_bool]
  written _ := rfl
  distinct := by simp [fields]
  proper := by simp [fields]

def format : Format Input := .record fields tell

@[simp] theorem ordered_toJson (i : Input) : i.toJson.Ordered := by
  simp [tell.ordered_iff, fields]

@[simp] theorem faithful_toJson (i : Input) : i.toJson.Faithful :=
  tell.faithful (by simp [fields])

end Input

namespace Node

def fields : List (Field Node) :=
  [{ name := "id", format := .string, value := Node.id },
    { name := "name", format := .string, absent := some "", value := Node.name },
    { name := "type", format := .string, value := Node.type },
    { name := "version", format := .string, absent := some "v0", value := Node.version },
    { name := "params", format := .json, absent := some .null, value := Node.params },
    { name := "inputs", format := .list Input.format, absent := some [], value := Node.inputs },
    { name := "outputs", format := .list .string, absent := some [], value := Node.outputs },
    { name := "parent_id", format := .string?, absent := some none, value := Node.parent }]

theorem tell : Field.Tell fields decoder toJson where
  decoded := by
    refine ⟨_, _, rfl, rfl, fun source field n => ?_⟩
    -- of a node in its fields, each field that is built is one that the node has
    cases n
    simp [fields, Field.record, Record.build_seq, Record.build_map, Record.optional, Input.format,
      and_assoc]
  written _ := rfl
  distinct := by simp [fields]
  proper := by simp [fields]

def format : Format Node := .record fields tell

@[simp] theorem ordered_toJson {n : Node} : n.toJson.Ordered ↔ n.params.Ordered := by
  simp [tell.ordered_iff, fields, Input.format]

theorem faithful_toJson {n : Node} (params : n.params.Faithful) : n.toJson.Faithful :=
  tell.faithful (by simp [fields, Input.format, params])

end Node

namespace Edge

def fields : List (Field Edge) :=
  [{ name := "source", format := .string, value := Edge.source },
    { name := "target", format := .string, value := Edge.target },
    { name := "branch", format := .string?, absent := some none, value := Edge.branch }]

theorem tell : Field.Tell fields decoder toJson where
  decoded := by
    refine ⟨_, _, rfl, rfl, fun source field e => ?_⟩
    cases e
    simp [fields, Field.record, Record.build_seq, Record.build_map, Record.optional]
  written _ := rfl
  distinct := by simp [fields]
  proper := by simp [fields]

def format : Format Edge := .record fields tell

@[simp] theorem ordered_toJson (e : Edge) : e.toJson.Ordered := by
  simp [tell.ordered_iff, fields]

@[simp] theorem faithful_toJson (e : Edge) : e.toJson.Faithful :=
  tell.faithful (by simp [fields])

end Edge

namespace Variable

def fields : List (Field Variable) :=
  [{ name := "name", format := .string, value := Variable.name },
    { name := "default", format := .json, absent := some .null, value := Variable.default }]

theorem tell : Field.Tell fields decoder toJson where
  decoded := by
    refine ⟨_, _, rfl, rfl, fun source field v => ?_⟩
    cases v
    simp [fields, Field.record, Record.build_seq, Record.build_map]
  written _ := rfl
  distinct := by simp [fields]
  proper := by simp [fields]

def format : Format Variable := .record fields tell

@[simp] theorem ordered_toJson {v : Variable} : v.toJson.Ordered ↔ v.default.Ordered := by
  simp [tell.ordered_iff, fields]

theorem faithful_toJson {v : Variable} (default : v.default.Faithful) : v.toJson.Faithful :=
  tell.faithful (by simp [fields, default])

end Variable

namespace Flow
variable {f : Flow}

def fields : List (Field Flow) :=
  [{ name := "code", format := .string, value := Flow.code },
    { name := "version", format := .string, absent := some "1", value := Flow.version },
    { name := "name", format := .string, absent := some "", value := Flow.name },
    { name := "nodes", format := .list Node.format, value := Flow.nodes },
    { name := "edges", format := .list Edge.format, absent := some [], value := Flow.edges },
    { name := "variables", format := .list Variable.format, absent := some [],
      value := Flow.declared }]

theorem tell : Field.Tell fields decoder toJson where
  decoded := by
    refine ⟨_, _, rfl, rfl, fun source field f => ?_⟩
    cases f
    simp [fields, Field.record, Record.build_seq, Record.build_map, Node.format, Edge.format,
      Variable.format, and_assoc]
  written _ := rfl
  distinct := by simp [fields]
  proper := by simp [fields]

def format : Format Flow := .record fields tell

/-- The value of a flow with all fields of all records. -/
def completed (v : Json) : Json :=
  format.complete v

/-! ## Flows that can be written -/

/-- All objects in the parameters of the nodes and in the first values of the variables stand in the
order of their keys. -/
structure Ordered (f : Flow) : Prop where
  params : ∀ n ∈ f.nodes, n.params.Ordered
  defaults : ∀ v ∈ f.declared, v.default.Ordered

theorem ordered_toJson : f.toJson.Ordered ↔ f.Ordered := by
  have parts : f.toJson.Ordered ↔
      (∀ n ∈ f.nodes, n.params.Ordered) ∧ ∀ v ∈ f.declared, v.default.Ordered := by
    simp [tell.ordered_iff, fields, Node.format, Edge.format, Variable.format]
  rw [parts]
  exact ⟨fun ⟨params, defaults⟩ => ⟨params, defaults⟩, fun o => ⟨o.params, o.defaults⟩⟩

theorem faithful_toJson (faithful : f.Faithful) : f.toJson.Faithful := by
  have nodes : ∀ n ∈ f.nodes, n.toJson.Faithful := fun n member =>
    Node.faithful_toJson (faithful.params n member)
  have declared : ∀ v ∈ f.declared, v.toJson.Faithful := fun v member =>
    Variable.faithful_toJson (faithful.defaults v member)
  exact tell.faithful (by simpa [fields, Node.format, Edge.format, Variable.format] using
    ⟨nodes, declared⟩)

/-! ## Reading what was written -/

theorem ordered_of_decoder {source : Source} {d : Document} (decoded : decoder source d = .ok f) :
    f.Ordered :=
  ordered_toJson.mp (tell.ordered decoded)

theorem decode_toJson (ordered : f.Ordered) : f.toJson.decode decoder = .ok f :=
  (tell.decodes rfl (ordered_toJson.mpr ordered)).eq

theorem toJson_of_decode {v : Json} (inOrder : v.Ordered) (decoded : v.decode decoder = .ok f) :
    f.toJson = completed v :=
  tell.completes inOrder decoded

/-- A flow and the values that tell it. -/
structure RoundTrips (f : Flow) : Prop where
  /-- The flow is read back from the value that it is written as, provided that its objects stand in the
  order of their keys, as those of all values do that are made or read; and only then. -/
  readBack : f.toJson.decode decoder = .ok f ↔ f.Ordered
  /-- So it is whenever it was itself read, from a value in memory or from a text, -/
  again : ∀ source d, decoder source d = .ok f → f.Ordered ∧ f.toJson.decode decoder = .ok f
  /-- and then it is written as the value from which it was read, with all that this one leaves out. -/
  completed : ∀ v, v.Ordered → v.decode decoder = .ok f → f.toJson = Flow.completed v
  /-- Nothing is left out of what is written, -/
  settled : f.Ordered → Flow.completed f.toJson = f.toJson
  /-- and what is read back from it is as valid as the flow. -/
  valid : f.Ordered → validate <$> f.toJson.decode decoder = .ok f.validate
  /-- The flow is read back from its text as well, if a text can tell all of it, unless it is nested too
  deep for a text. -/
  text : f.Faithful → decoder.ofText f.toJson.text =
    if f.toJson.depth < Source.textRoom then .ok f else .error (.malformed .nestingTooDeep)

/-- A flow is read back from what it is written as, and what is absent is filled once and for all. -/
theorem roundTrips (f : Flow) : RoundTrips f where
  readBack := ⟨ordered_of_decoder, decode_toJson⟩
  again source d decoded := ⟨ordered_of_decoder decoded, decode_toJson (ordered_of_decoder decoded)⟩
  completed v inOrder decoded := toJson_of_decode inOrder decoded
  settled ordered := (toJson_of_decode (ordered_toJson.mpr ordered) (decode_toJson ordered)).symm
  valid ordered := by
    rw [decode_toJson ordered]
    rfl
  text faithful := by
    have told := faithful_toJson faithful
    exact Decoder.ofText_text (Document.readsBack told) (tell.decodes rfl told.ordered)

/-- The one node is an array of its first three fields. -/
example : Flow.completed (.ofFields [("code", .str "f"), ("color", .int 3),
      ("nodes", .arr [.arr [.str "s", .str "", .str "start"]])]) =
    .ofFields [("code", .str "f"), ("version", .str "1"), ("name", .str ""),
      ("nodes", .arr [.ofFields [("id", .str "s"), ("name", .str ""), ("type", .str "start"),
        ("version", .str "v0"), ("params", .null), ("inputs", .arr []), ("outputs", .arr []),
        ("parent_id", .null)]]),
      ("edges", .arr []), ("variables", .arr [])] := by
  rfl

end Flow

/-! ### A value with gaps -/

namespace Outline

/-- A node with a field that no node has, an input and a node as arrays, and an edge whose branch is
null. -/
def value : Json :=
  .ofFields [("code", .str "outline"),
    ("nodes", .arr [.ofFields [("id", .str "s"), ("type", .str "start"), ("color", .int 3),
        ("params", .ofFields [("branches", .arr [])]),
        ("inputs", .arr [.arr [.str "who", .str "trigger.uid"]])],
      .arr [.str "e", .str "", .str "end"]]),
    ("edges", .arr [.ofFields [("source", .str "s"), ("target", .str "e"), ("branch", .null)]])]

def flow : Flow where
  code := "outline"
  nodes :=
    [{ id := "s"
       type := "start"
       params := .ofFields [("branches", .arr [])]
       inputs := [{ name := "who", expr := "trigger.uid" }] },
     { id := "e", type := "end" }]
  edges := [{ source := "s", target := "e" }]

end Outline

open Outline in
/-- The flow that is read from the value is written as the value without gaps, and read back. -/
theorem outline_round_trips :
    value.Ordered ∧ value.decode Flow.decoder = .ok flow ∧ flow.Ordered ∧ flow.Faithful ∧
      flow.toJson = Flow.completed value ∧ Flow.completed flow.toJson = flow.toJson ∧
      flow.toJson.decode Flow.decoder = .ok flow ∧
      Flow.validate <$> flow.toJson.decode Flow.decoder = .ok (.ok ()) ∧
      Flow.decoder.ofText flow.toJson.text = .ok flow := by
  have inOrder : value.Ordered := by
    unfold value
    simp [ordered_ofFields]
  have decoded : value.decode Flow.decoder = .ok flow := by rfl
  have params : (ofFields [("branches", .arr [])]).Faithful := faithful_ofFields (by simp)
  have faithful : flow.Faithful := ⟨by simp [flow, params], by simp [flow]⟩
  have trips := Flow.roundTrips flow
  obtain ⟨ordered, again⟩ := trips.again .value (.ofJson value) decoded
  have shallow : flow.toJson.depth < Source.textRoom := by decide +kernel
  exact ⟨inOrder, decoded, ordered, faithful, trips.completed value inOrder decoded,
    trips.settled ordered, again, trips.valid ordered, (trips.text faithful).trans (if_pos shallow)⟩

end Parley

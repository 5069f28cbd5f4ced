import Parley.Flow.Basic
import Parley.Json.Decoder
/-!
# Flows as JSON

Every part of a flow is a record. Writing gives every field; reading fills absent ones with their
defaults.
-/
namespace Parley

namespace Input

def decoder : Decoder Input :=
  Record.decode "InputSpec" <|
    Input.mk <$> .required "name" .string <*> .required "expr" .string
      <*> .withDefault "required" .bool true

def toJson (i : Input) : Json :=
  .ofFields [("name", .str i.name), ("expr", .str i.expr), ("required", .bool i.required)]

end Input

namespace Node

def decoder : Decoder Node :=
  Record.decode "Node" <|
    Node.mk <$> .required "id" .string
      <*> .withDefault "name" .string ""
      <*> .required "type" .string
      <*> .withDefault "version" .string "v0"
      <*> .withDefault "params" .json .null
      <*> .withDefault "inputs" (.list Input.decoder) []
      <*> .withDefault "outputs" (.list .string) []
      <*> .optional "parent_id" .string

def toJson (n : Node) : Json :=
  .ofFields [("id", .str n.id), ("name", .str n.name), ("type", .str n.type),
    ("version", .str n.version), ("params", n.params), ("inputs", .arr (n.inputs.map Input.toJson)),
    ("outputs", .ofStrings n.outputs), ("parent_id", .ofString? n.parent)]

end Node

namespace Edge

def decoder : Decoder Edge :=
  Record.decode "Edge" <|
    Edge.mk <$> .required "source" .string <*> .required "target" .string
      <*> .optional "branch" .string

def toJson (e : Edge) : Json :=
  .ofFields [("source", .str e.source), ("target", .str e.target), ("branch", .ofString? e.branch)]

end Edge

namespace Variable

def decoder : Decoder Variable :=
  Record.decode "VariableSpec" <|
    Variable.mk <$> .required "name" .string <*> .withDefault "default" .json .null

def toJson (v : Variable) : Json :=
  .ofFields [("name", .str v.name), ("default", v.default)]

end Variable

namespace Flow

def decoder : Decoder Flow :=
  Record.decode "FlowDefinition" <|
    Flow.mk <$> .required "code" .string
      <*> .withDefault "version" .string "1"
      <*> .withDefault "name" .string ""
      <*> .required "nodes" (.list Node.decoder)
      <*> .withDefault "edges" (.list Edge.decoder) []
      <*> .withDefault "variables" (.list Variable.decoder) []

def toJson (f : Flow) : Json :=
  .ofFields [("code", .str f.code), ("version", .str f.version), ("name", .str f.name),
    ("nodes", .arr (f.nodes.map Node.toJson)), ("edges", .arr (f.edges.map Edge.toJson)),
    ("variables", .arr (f.declared.map Variable.toJson))]

end Flow

end Parley

import Harvest.Flow.Basic

/-! The written form of graphs. What the editor keeps on a node beside its identifier and its
data is kept in order; unknown members inside the data and on edges are dropped.
-/

namespace Harvest

namespace Edge

/-- An edge as a value. -/
def toJson (e : Edge) : Json :=
  .object [("source", .string e.source), ("sourceHandle", .string e.sourceHandle),
    ("target", .string e.target), ("targetHandle", .string e.targetHandle)]

/-- The fields of an edge. -/
def shape : Json.Shape Edge :=
  Edge.mk <$> .required "source" .string <*> .required "sourceHandle" .string
    <*> .required "target" .string <*> .required "targetHandle" .string

/-- Reads an edge. -/
def decode : Json.Decoder Edge := shape.decode "struct GraphEdge"

end Edge

namespace Node

/-- A node as a value. -/
def toJson (node : Node) : Json :=
  .object <| [("id", .string node.id),
    ("data", .object [("type", node.taskType.toJson), ("inputs", .object node.inputs)])]
    ++ node.extra

/-- The fields of the data of a node: its task type and its literals. -/
def dataShape : Json.Shape (TaskType × Json.Members) :=
  Prod.mk <$> .required "type" TaskType.decode
    <*> .defaulted "inputs" (.record .any) []

/-- Reads the data of a node. -/
def decodeData : Json.Decoder (TaskType × Json.Members) := dataShape.decode "struct NodeData"

/-- A node while its members are read. -/
structure Partial where
  id : Option String
  data : Option (TaskType × Json.Members)
  /-- The other members in order of arrival. -/
  extra : Json.Members

/-- A node that has been read as far as one more member. -/
def Partial.add (mode : Json.Mode) (acc : Partial)
    (member : Except Json.SyntaxError String × Json.Draft) : Json.Decoded Partial := do
  let (key, item) := member
  let key ← Json.Decoder.name key
  if key == "id" then
    if acc.id.isSome then throw (.duplicateField "id")
    return { acc with id := some (← Json.Decoder.string mode item) }
  else if key == "data" then
    if acc.data.isSome then throw (.duplicateField "data")
    return { acc with data := some (← decodeData mode item) }
  else
    return { acc with extra := acc.extra ++ [(key, ← Json.Decoder.any mode item)] }

/-- Reads a node. -/
def decode : Json.Decoder Node := fun mode draft =>
  match draft with
  | .object members closing => do
      Json.Decoder.opens mode
      let acc ← members.foldlM (Partial.add mode.inner) ⟨none, none, []⟩
      Json.Decoder.closed closing
      match acc.id, acc.data with
      | none, _ => throw (.missingField "id")
      | _, none => throw (.missingField "data")
      | some id, some (taskType, inputs) =>
          return ⟨id, taskType, inputs, Named.collect acc.extra⟩
  | draft => Json.Decoder.mismatch "struct GraphNode" draft

/-- Reads a node from a text. -/
def parse (text : String) : Json.Decoded Node := Json.decodeText decode text

/-- The text of a node. -/
def text (node : Node) : String := node.toJson.compact

end Node

namespace Flow

/-- A graph as a value. -/
def toJson (flow : Flow) : Json :=
  .object <| [("nodes", .array (flow.nodes.map Node.toJson)),
    ("edges", .array (flow.edges.map Edge.toJson))]
    ++ (flow.viewport.map fun v => ("viewport", v)).toList

/-- The fields of a graph. -/
def shape : Json.Shape Flow :=
  Flow.mk <$> .required "nodes" (.list Node.decode)
    <*> .defaulted "edges" (.list Edge.decode) []
    <*> .defaulted "viewport" (.option .any) none

/-- Reads a graph. -/
def decode : Json.Decoder Flow := shape.decode "struct FlowDefinition"

/-- Reads a graph from a text. -/
def parse (text : String) : Json.Decoded Flow := Json.decodeText decode text

/-- The text of a graph. -/
def text (flow : Flow) : String := flow.toJson.compact

end Flow

end Harvest

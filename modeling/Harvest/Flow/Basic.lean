import Harvest.Task.Basic
import Harvest.Value

/-! Workflow graphs: nodes that each do one task, and edges that carry an output of one node
to an input of another. An input is fed by the literal of its node when that counts as
supplied, and otherwise by the first edge into it.
-/

namespace Harvest

/-- A node of a graph. -/
structure Node where
  id : String
  taskType : TaskType
  /-- What the editor holds for the inputs, one value a name. -/
  inputs : Json.Members
  /-- What else the editor keeps about the node. -/
  extra : Json.Members
deriving DecidableEq, Repr, Inhabited

/-- An edge from an output of one node to an input of another. -/
structure Edge where
  source : String
  sourceHandle : String
  target : String
  targetHandle : String
deriving DecidableEq, Repr, Inhabited

/-- A workflow graph. -/
structure Flow where
  nodes : List Node
  edges : List Edge
  viewport : Option Json
deriving DecidableEq, Repr, Inhabited

namespace Node

/-- A node without literals. -/
def bare (id : String) (t : TaskType) : Node := ⟨id, t, [], []⟩

/-- The same node with one more literal. -/
def withInput (node : Node) (name : String) (value : Json) : Node :=
  { node with inputs := Named.put name value node.inputs }

/-- A node whose literals are the defaults of a definition. -/
def ofDefinition (id : String) (d : TaskDefinition) : Node :=
  d.inputs.foldl (fun node param =>
    match param.default with
    | some value => node.withInput param.name value
    | none => node) (bare id d.taskType)

/-- The literal of an input, when it counts as supplied. -/
def literal? (node : Node) (name : String) : Option TaskValue :=
  ((Named.get? name node.inputs).bind TaskValue.ofJson?).filter TaskValue.isProvided

end Node

/-- The edge leads into an input of a node. -/
def Edge.feeds (edge : Edge) (node input : String) : Bool :=
  edge.target == node && edge.targetHandle == input

namespace Flow

/-- The graph without nodes. -/
def empty : Flow := ⟨[], [], none⟩

/-- The graph with one more node. -/
def addNode (flow : Flow) (node : Node) : Flow :=
  { flow with nodes := flow.nodes ++ [node] }

/-- The graph with one more edge. -/
def connect (flow : Flow) (edge : Edge) : Flow :=
  { flow with edges := flow.edges ++ [edge] }

/-- The edge that feeds an input of a node: the first one that leads into it. -/
def incomingEdge? (flow : Flow) (node input : String) : Option Edge :=
  flow.edges.find? (·.feeds node input)

/-- The first node of an identifier. -/
def node? (flow : Flow) (id : String) : Option Node :=
  flow.nodes.find? (·.id == id)

end Flow

end Harvest

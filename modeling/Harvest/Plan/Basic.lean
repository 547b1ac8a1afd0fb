import Harvest.Flow.Format

/-! Plans order the nodes of a graph in phases. The first entry node alone is phase one; each
following phase holds, in input order, every node whose inputs are supplied by literals or by
nodes of earlier phases.
-/

namespace Harvest

/-- Reasons why a graph has no plan. -/
inductive PlanError where
  | noEntryPoint
  | unsatisfiableInputs (node : String) (inputs : List String)
  | stuck (nodes : List String)
  | unknownTaskType (node : String) (taskType : TaskType)
  | unknownNode (id : String)
  | duplicateNode (id : String)
deriving DecidableEq, Repr

/-- The wording of a reason. -/
def PlanError.message : PlanError → String
  | .noEntryPoint => "no entry point"
  | .unsatisfiableInputs node inputs =>
      "unsatisfiable inputs on node " ++ node ++ ": " ++ ", ".intercalate inputs
  | .stuck nodes => "planning stuck, unplanned nodes: " ++ ", ".intercalate nodes
  | .unknownTaskType node t => "unknown task type " ++ t.name ++ " on node " ++ node
  | .unknownNode id => "edge references unknown node: " ++ id
  | .duplicateNode id => "duplicate node id: " ++ id

/-- Nodes that can run once all earlier phases are done. -/
structure Phase where
  number : Nat
  nodes : List Node
deriving DecidableEq, Repr, Inhabited

/-- The phases of a graph in order. -/
structure Plan where
  phases : List Phase
deriving DecidableEq, Repr, Inhabited

namespace Plan

/-- The number of planned nodes. -/
def nodeCount (p : Plan) : Nat :=
  (p.phases.flatMap (·.nodes)).length

/-- The nodes in the order in which they run, each with the number of its phase. -/
def nodes (p : Plan) : List (Nat × Node) :=
  p.phases.flatMap fun phase => phase.nodes.map fun node => (phase.number, node)

/-- The number of the phase of a node. -/
def phaseOf? (p : Plan) (id : String) : Option Nat :=
  (p.nodes.find? (·.2.id == id)).map (·.1)

/-- A plan as a value. -/
def toJson (p : Plan) : Json :=
  .object [("phases", .array (p.phases.map fun phase =>
    .object [("number", .nat phase.number),
      ("nodes", .array (phase.nodes.map Node.toJson))]))]

end Plan

namespace Flow

/-- How an input of a node stands against the nodes planned so far. -/
inductive Supply where
  | ready
  /-- The node that feeds the input is not planned yet. -/
  | waiting
  /-- The input is required, and nothing feeds it. -/
  | missing
deriving DecidableEq, Repr

/-- The standing of one input. -/
def supply (flow : Flow) (planned : List String) (node : Node) (param : TaskParam) : Supply :=
  if (node.literal? param.name).isSome then .ready
  else
    match flow.incomingEdge? node.id param.name with
    | some edge => if planned.contains edge.source then .ready else .waiting
    | none => if param.required then .missing else .ready

/-- The required inputs of a node that nothing feeds, in declaration order. -/
def missingInputs (flow : Flow) (params : List TaskParam) (node : Node) : List String :=
  (params.filter fun p => flow.supply [] node p == .missing).map (·.name)

/-- Every input of the node is supplied by a literal or by a planned node. -/
def isReady (flow : Flow) (planned : List String) (params : List TaskParam) (node : Node)
    : Bool :=
  params.all fun p => flow.supply planned node p == .ready

/-- Every node with an edge into this one is planned. -/
def predecessorsPlanned (flow : Flow) (planned : List String) (id : String) : Bool :=
  flow.edges.all fun e => e.target != id || planned.contains e.source

/-- The declared inputs of a node. -/
def paramsOf (catalog : Catalog) (node : Node) : List TaskParam :=
  ((catalog.get? node.taskType).map (·.inputs)).getD []

/-- Every node has a known task type and an identifier of its own. -/
def checkNodes (catalog : Catalog) : (seen : List String) → List Node → Except PlanError Unit
  | _, [] => return ()
  | seen, node :: rest =>
      if (catalog.get? node.taskType).isNone then
        throw (.unknownTaskType node.id node.taskType)
      else if seen.contains node.id then throw (.duplicateNode node.id)
      else checkNodes catalog (node.id :: seen) rest

/-- Both ends of every edge are nodes. -/
def checkEdges (ids : List String) : List Edge → Except PlanError Unit
  | [] => return ()
  | edge :: rest =>
      if !ids.contains edge.source then throw (.unknownNode edge.source)
      else if !ids.contains edge.target then throw (.unknownNode edge.target)
      else checkEdges ids rest

/-- The inputs that keep an entry node from starting: what nothing feeds, and every input
with an edge into it, for no phase comes earlier.
-/
def entryObstacles (flow : Flow) (catalog : Catalog) (entry : Node) : List String :=
  let missing := flow.missingInputs (paramsOf catalog entry) entry
  let fed := flow.edges.filter (·.target == entry.id)
  fed.foldl (fun acc e => if acc.contains e.targetHandle then acc else acc ++ [e.targetHandle])
    missing

/-- The nodes that one round plans, or the first node that can never be supplied although
all nodes before it are planned.
-/
def round (flow : Flow) (catalog : Catalog) (planned : List String)
    : List Node → Except PlanError (List Node)
  | [] => return []
  | node :: rest => do
      if planned.contains node.id then round flow catalog planned rest
      else
        let params := paramsOf catalog node
        if flow.isReady planned params node then
          return node :: (← round flow catalog planned rest)
        else
          let missing := flow.missingInputs params node
          if !missing.isEmpty && flow.predecessorsPlanned planned node.id then
            throw (.unsatisfiableInputs node.id missing)
          else round flow catalog planned rest

/-- The nodes that are not planned, in input order. -/
def unplanned (flow : Flow) (planned : List String) : List String :=
  (flow.nodes.filter fun n => !planned.contains n.id).map (·.id)

/-- The phases from a number on. Every round plans a node, so as many rounds as there are
unplanned nodes are enough; `fuel` counts them.
-/
def phasesFrom (flow : Flow) (catalog : Catalog)
    : (fuel : Nat) → (number : Nat) → (planned : List String) → Except PlanError (List Phase)
  | fuel, number, planned =>
      if (flow.unplanned planned).isEmpty then return []
      else
        match fuel with
        | 0 => throw (.stuck (flow.unplanned planned))
        | fuel + 1 => do
            let current ← flow.round catalog planned flow.nodes
            if current.isEmpty then throw (.stuck (flow.unplanned planned))
            let rest ← phasesFrom flow catalog fuel (number + 1)
              (planned ++ current.map (·.id))
            return ⟨number, current⟩ :: rest

/-- The plan of a graph. -/
def plan (catalog : Catalog) (flow : Flow) : Except PlanError Plan := do
  checkNodes catalog [] flow.nodes
  checkEdges (flow.nodes.map (·.id)) flow.edges
  match flow.nodes.find? (catalog.isEntryPoint ·.taskType) with
  | none => throw .noEntryPoint
  | some entry =>
      let obstacles := flow.entryObstacles catalog entry
      if !obstacles.isEmpty then throw (.unsatisfiableInputs entry.id obstacles)
      let rest ← flow.phasesFrom catalog (flow.nodes.length - 1) 2 [entry.id]
      return ⟨⟨1, [entry]⟩ :: rest⟩

end Flow

end Harvest

import Harvest.Service.Basic

/-! How workflows and executions come to be. A workflow is saved once its graph can be read; an
execution is made only for the owner of the workflow and only of a graph that has a plan.
-/

namespace Harvest.Service

open ServiceM

/-- Saves a new workflow. -/
def createWorkflow (user name definition : String) : ExceptT ServiceError ServiceM Workflow := do
  if let .error reason := Flow.parse definition then
    throw (.invalidDefinition reason.message)
  let workflow := Workflow.fresh (← freshId) (← now) user name definition
  stored .store (.createWorkflow workflow)
  return workflow

/-- The plan of a graph in writing. -/
def planOf (catalog : Catalog) (definition : String) : Except TriggerError Plan := do
  let flow ← (Flow.parse definition).mapError fun reason =>
    TriggerError.invalidDefinition reason.message
  (flow.plan catalog).mapError .planning

/-- What a task type is called. -/
def label (catalog : Catalog) (t : TaskType) : String :=
  ((catalog.get? t).map (·.label)).getD t.name

/-- One phase record for each planned node, in plan order from a position on. -/
def phaseRecords (catalog : Catalog) (execution : Uuid)
    : (position : Nat) → List (Nat × Node) → ServiceM (List PhaseRecord)
  | _, [] => return []
  | position, (number, node) :: nodes => do
      let phase := PhaseRecord.fresh (← freshId) execution number position
        (label catalog node.taskType) node.taskType node.text
      return phase :: (← phaseRecords catalog execution (position + 1) nodes)

/-- Makes an execution that has not started, with its phases. -/
def createExecution (catalog : Catalog) (request : RunRequest)
    : ExceptT TriggerError ServiceM Execution := do
  let workflow : Workflow ← stored missing (.getWorkflow request.workflow)
  if workflow.userId != request.user then throw (.unauthorized workflow.id request.user)
  let plan ← ExceptT.mk (pure (planOf catalog request.definition))
  let execution :=
    Execution.fresh (← freshId) workflow.id (← now) request.user request.definition
  let phases ← phaseRecords catalog execution.id 0 plan.nodes
  stored .store (.createExecution execution phases)
  stored .store
    (.recordLastRunStart workflow.id execution.id .pending execution.createdAt)
  return execution
where
  /-- A workflow that is not there is an error of its own. -/
  missing : StoreError → TriggerError
    | .notFound _ => .workflowNotFound request.workflow
    | reason => .store reason

end Harvest.Service

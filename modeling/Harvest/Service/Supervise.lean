import Harvest.Service.Create

/-! How runs are started, stopped and cleared up after. A stop is stored before the run is told,
so that it holds whether or not a run is under way.
-/

namespace Harvest.Service

open ServiceM

/-- Runs an execution that is stored to its end. -/
def run (settings : RunSettings) (execution : Uuid)
    : ExceptT SetupError ServiceM RunOutcome := ExceptT.mk do
  let token : Token ← ask (.enlist execution)
  let outcome ← ofRun (Run.execute settings execution token)
  ask (.dismiss execution)
  return outcome

/-- What a run in the background does. -/
def background (settings : RunSettings) (execution : Uuid) (token : Token) : ServiceM Unit := do
  let _ ← ofRun (Run.execute settings execution token)
  ask (.dismiss execution)

/-- Makes an execution and starts it in the background. -/
def trigger (settings : RunSettings) (request : RunRequest)
    : ExceptT TriggerError ServiceM Uuid := do
  let execution ← createExecution settings.catalog request
  let token : Token ← ask (.enlist execution.id)
  ask (.spawn execution.id token)
  return execution.id

/-- Makes an execution and runs it to its end. -/
def triggerAndWait (settings : RunSettings) (request : RunRequest)
    : ExceptT ServiceError ServiceM RunOutcome := do
  let execution ← (createExecution settings.catalog request).adapt .trigger
  (run settings execution.id).adapt .setup

/-- Asks a run to stop before its next phase. -/
def stop (execution : Uuid) : ExceptT ServiceError ServiceM Unit := do
  stored .store (.requestStop execution)
  ask (.cancel execution)

/-- Fails an execution that its process left unfinished; tells whether it was still so. -/
def recoverOne (execution : Execution) : ExceptT ServiceError ServiceM Bool := do
  let _ : Nat ← stored .store (.setPhaseStatuses execution.id .running .failed)
  let failed := { execution with status := .failed, completedAt := some (← now) }
  match ← tried (.updateExecution failed) with
  | .error (.terminal _) => return false
  | .error reason => throw (.store reason)
  | .ok () =>
      ExceptT.lift (ofRun (Run.noteLastRun execution .failed))
      return true

/-- Fails the executions of a list that are unfinished, and counts them. -/
def recoverAll : List Execution → ExceptT ServiceError ServiceM Nat
  | [] => return 0
  | execution :: executions => do
      let one ← recoverOne execution
      let others ← recoverAll executions
      return (if one then 1 else 0) + others

/-- Fails every execution that an earlier process left unfinished, and counts them. -/
def recover : ExceptT ServiceError ServiceM Nat := do
  let running : List Execution ← stored .store (.listByStatus .running)
  let first ← recoverAll running
  let pending : List Execution ← stored .store (.listByStatus .pending)
  return first + (← recoverAll pending)

end Harvest.Service

import Harvest.Store.Row

/-! The store in tables. An identifier stands in one row of its table, a row refers only to
rows that are there, and an update touches the columns that may change and no others.
-/

namespace Harvest

open Time

/-- A store in tables. -/
structure Tables where
  workflows : List WorkflowRow
  executions : List ExecutionRow
  phases : List PhaseRow
  logs : List LogRow
deriving Repr, Inhabited

namespace Tables

/-- The tables without rows. -/
def empty : Tables := ⟨[], [], [], []⟩

/-- The table of workflows. -/
def workflowTable : String := "workflows"

/-- The table of executions. -/
def executionTable : String := "workflow_executions"

/-- The table of phases. -/
def phaseTable : String := "execution_phases"

/-- The table of log entries. -/
def logTable : String := "execution_logs"

/-- A workflow of that identifier is there. -/
def hasWorkflow (t : Tables) (id : String) : Bool := t.workflows.any (·.id == id)

/-- An execution of that identifier is there. -/
def hasExecution (t : Tables) (id : String) : Bool := t.executions.any (·.id == id)

/-- A phase of that identifier is there. -/
def hasPhase (t : Tables) (id : String) : Bool := t.phases.any (·.id == id)

/-- Adds a workflow. -/
def insertWorkflow (t : Tables) (row : WorkflowRow) : Except StoreError Tables :=
  if t.hasWorkflow row.id then throw (.database (.notUnique workflowTable))
  else return { t with workflows := t.workflows ++ [row] }

/-- Adds an execution of a workflow that is there. -/
def insertExecution (t : Tables) (row : ExecutionRow) : Except StoreError Tables :=
  if t.hasExecution row.id then throw (.database (.notUnique executionTable))
  else if !t.hasWorkflow row.workflowId then throw (.database .foreignKey)
  else return { t with executions := t.executions ++ [row] }

/-- Adds a phase of an execution that is there. -/
def insertPhase (t : Tables) (row : PhaseRow) : Except StoreError Tables :=
  if t.hasPhase row.id then throw (.database (.notUnique phaseTable))
  else if !t.hasExecution row.executionId then throw (.database .foreignKey)
  else return { t with phases := t.phases ++ [row] }

/-- The number of the next log row. -/
def nextLog (t : Tables) : Nat := t.logs.foldl (fun n row => max n row.id) 0 + 1

/-- Adds a log entry of a phase that is there. -/
def insertLog (phase : String) (t : Tables) (entry : LogEntry) : Except StoreError Tables :=
  if !t.hasPhase phase then throw (.database .foreignKey)
  else return { t with logs := t.logs ++
    [⟨t.nextLog, phase, entry.level.name, entry.message, storedTime entry.timestamp⟩] }

/-- A change that is made as a whole or not at all. -/
def atomically (t : Tables) (change : Except StoreError Tables)
    : Except StoreError Unit × Tables :=
  match change with
  | .ok t => (return (), t)
  | .error e => (throw e, t)

/-- Why an update of a row found none that it may touch. -/
def untouched (present : Bool) (table : String) (id : Uuid) : StoreError :=
  if present then .terminal id.text else .notFound (table ++ " " ++ id.text)

/-- The rows with those that pass a test changed. -/
def replaceWhere {ρ : Type} (touched : ρ → Bool) (change : ρ → ρ) (rows : List ρ) : List ρ :=
  rows.map fun row => if touched row then change row else row

/-- Changes the execution of an identifier, unless it is in a terminal status. -/
def changeExecution (t : Tables) (id : Uuid) (change : ExecutionRow → ExecutionRow)
    : Except StoreError Unit × Tables :=
  let touched (row : ExecutionRow) := row.id == id.text && !row.isTerminal
  if t.executions.any touched then
    (return (), { t with executions := replaceWhere touched change t.executions })
  else (throw (untouched (t.hasExecution id.text) executionTable id), t)

/-- Changes the phase of an identifier, unless it is in a terminal status. -/
def changePhase (t : Tables) (id : Uuid) (change : PhaseRow → PhaseRow)
    : Except StoreError Unit × Tables :=
  let touched (row : PhaseRow) := row.id == id.text && !row.isTerminal
  if t.phases.any touched then
    (return (), { t with phases := replaceWhere touched change t.phases })
  else (throw (untouched (t.hasPhase id.text) phaseTable id), t)

/-- Changes the workflows that pass a test, or refuses when there are none. -/
def changeWorkflow (t : Tables) (touched : WorkflowRow → Bool)
    (change : WorkflowRow → WorkflowRow) (refusal : StoreError)
    : Except StoreError Unit × Tables :=
  if t.workflows.any touched then
    (return (), { t with workflows := replaceWhere touched change t.workflows })
  else (throw refusal, t)

/-- The columns of an execution that an update sets. -/
def setExecution (e : Execution) (row : ExecutionRow) : ExecutionRow :=
  { row with
    status := e.status.name
    startedAt := e.startedAt.map storedTime
    completedAt := e.completedAt.map storedTime
    credits := .integer e.credits
    stopRequested := .flag (row.stopRequested.holds || e.stopRequested) }

/-- The columns of a phase that an update sets. -/
def setPhase (p : PhaseRecord) (row : PhaseRow) : PhaseRow :=
  { row with
    status := p.status.name
    startedAt := p.startedAt.map storedTime
    completedAt := p.completedAt.map storedTime
    inputs := p.inputs
    outputs := p.outputs
    credits := .integer p.credits }

/-- The row belongs to an execution and is in a status. -/
def inStatus (execution : Uuid) (status : PhaseStatus) (row : PhaseRow) : Bool :=
  row.executionId == execution.text && row.status == status.name

/-- Reads the row of an identifier. -/
def readOne {ρ α : Type} (row : Option ρ) (read : ρ → RowRead α) (refusal : StoreError)
    : RowRead α :=
  match row with
  | some row => read row
  | none => throw refusal

/-- The answer to a call and the tables after it. -/
def answer (call : StoreCall) (t : Tables) : call.Answer × Tables :=
  match call with
  | .createWorkflow w => t.atomically (t.insertWorkflow (.ofRecord w))
  | .getWorkflow id =>
      (readOne (t.workflows.find? (·.id == id.text)) WorkflowRow.record (.noWorkflow id), t)
  | .recordLastRunStart w e status time =>
      t.changeWorkflow (·.id == w.text)
        (fun row => { row with lastRunId := some e.text, lastRunAt := some (storedTime time),
                               lastRunStatus := some status.name })
        (.noWorkflow w)
  | .recordLastRunStatus w e status =>
      t.changeWorkflow (fun row => row.id == w.text && row.lastRunId == some e.text)
        (fun row => { row with lastRunStatus := some status.name })
        (.superseded w e)
  | .createExecution e phases =>
      t.atomically do
        let t ← t.insertExecution (.ofRecord e)
        phases.foldlM (fun t p => t.insertPhase (.ofRecord p)) t
  | .getExecution id =>
      (readOne (t.executions.find? (·.id == id.text)) ExecutionRow.record (.noExecution id), t)
  | .updateExecution e => t.changeExecution e.id (setExecution e)
  | .listExecutions w =>
      (((t.executions.filter (·.workflowId == w.text)).mergeSort
        ExecutionRow.latestUpTo).mapM ExecutionRow.record, t)
  | .listByStatus status =>
      (((t.executions.filter (·.status == status.name)).mergeSort
        ExecutionRow.upTo).mapM ExecutionRow.record, t)
  | .requestStop id => t.changeExecution id fun row => { row with stopRequested := .flag true }
  | .listPhases id =>
      (((t.phases.filter (·.executionId == id.text)).mergeSort
        PhaseRow.upTo).mapM PhaseRow.record, t)
  | .getPhase id =>
      (readOne (t.phases.find? (·.id == id.text)) PhaseRow.record (.noPhase id), t)
  | .updatePhase p => t.changePhase p.id (setPhase p)
  | .setPhaseStatuses id source target =>
      (return t.phases.countP (inStatus id source),
        { t with phases := replaceWhere (inStatus id source)
                    (fun row => { row with status := target.name }) t.phases })
  | .appendLogs id entries => t.atomically (entries.foldlM (insertLog id.text) t)
  | .listLogs id =>
      (((t.logs.filter (·.phaseId == id.text)).mergeSort LogRow.upTo).mapM LogRow.record, t)

instance : Store Tables where
  empty := empty
  answer := answer

end Tables

end Harvest

import Harvest.Store.Tables

/-! Single cells of the tables can be overwritten from outside, past all rules of the store
but those of the tables themselves.
-/

namespace Harvest.Tables

/-- The workflow row with one column set. -/
def setWorkflowCell (column : String) (value : Cell) (row : WorkflowRow)
    : Option WorkflowRow :=
  let text := value.asText
  match column with
  | "id" => some { row with id := text }
  | "user_id" => some { row with userId := text }
  | "name" => some { row with name := text }
  | "definition" => some { row with definition := text }
  | "created_at" => some { row with createdAt := text }
  | "last_run_at" => some { row with lastRunAt := some text }
  | "last_run_id" => some { row with lastRunId := some text }
  | "last_run_status" => some { row with lastRunStatus := some text }
  | _ => none

/-- The execution row with one column set. -/
def setExecutionCell (column : String) (value : Cell) (row : ExecutionRow)
    : Option ExecutionRow :=
  let text := value.asText
  match column with
  | "id" => some { row with id := text }
  | "workflow_id" => some { row with workflowId := text }
  | "user_id" => some { row with userId := text }
  | "status" => some { row with status := text }
  | "trigger_kind" => some { row with triggerKind := text }
  | "created_at" => some { row with createdAt := text }
  | "started_at" => some { row with startedAt := some text }
  | "completed_at" => some { row with completedAt := some text }
  | "definition" => some { row with definition := text }
  | "credits_consumed" => some { row with credits := value.asNumber }
  | "stop_requested" => some { row with stopRequested := value.asNumber }
  | _ => none

/-- The phase row with one column set. -/
def setPhaseCell (column : String) (value : Cell) (row : PhaseRow) : Option PhaseRow :=
  let text := value.asText
  match column with
  | "id" => some { row with id := text }
  | "execution_id" => some { row with executionId := text }
  | "number" => some { row with number := value.asNumber }
  | "position" => some { row with position := value.asNumber }
  | "name" => some { row with name := text }
  | "task_type" => some { row with taskType := text }
  | "node" => some { row with node := text }
  | "status" => some { row with status := text }
  | "started_at" => some { row with startedAt := some text }
  | "completed_at" => some { row with completedAt := some text }
  | "inputs" => some { row with inputs := some text }
  | "outputs" => some { row with outputs := some text }
  | "credits_consumed" => some { row with credits := value.asNumber }
  | _ => none

/-- The log row with one column set. -/
def setLogCell (column : String) (value : Cell) (row : LogRow) : Option LogRow :=
  let text := value.asText
  match column with
  | "phase_id" => some { row with phaseId := text }
  | "level" => some { row with level := text }
  | "message" => some { row with message := text }
  | "timestamp" => some { row with timestamp := text }
  | _ => none

/-- Every row refers to rows that are there. -/
def isSound (t : Tables) : Bool :=
  t.executions.all (t.hasWorkflow ·.workflowId)
    && t.phases.all (t.hasExecution ·.executionId)
    && t.logs.all (t.hasPhase ·.phaseId)

/-- The rows with the one of a key changed, and how many that are. -/
def overwrite {ρ : Type} (isKey : ρ → Bool) (change : ρ → Option ρ) (rows : List ρ)
    : Nat × List ρ :=
  ((rows.filter isKey).length,
    rows.map fun row => if isKey row then (change row).getD row else row)

/-- Overwrites the cell of a column in the row of a key, and counts the rows that have it. -/
def setCell (t : Tables) (table column : String) (value key : Cell)
    : Except StoreError Nat × Tables :=
  let renamed := column == "id" && value.asText != key.asText
  let (count, changed, taken) :=
    if table == workflowTable then
      let (n, rows) := overwrite (·.id == key.asText) (setWorkflowCell column value) t.workflows
      (n, { t with workflows := rows }, t.hasWorkflow value.asText)
    else if table == executionTable then
      let (n, rows) :=
        overwrite (·.id == key.asText) (setExecutionCell column value) t.executions
      (n, { t with executions := rows }, t.hasExecution value.asText)
    else if table == phaseTable then
      let (n, rows) := overwrite (·.id == key.asText) (setPhaseCell column value) t.phases
      (n, { t with phases := rows }, t.hasPhase value.asText)
    else
      let (n, rows) := overwrite (fun row : LogRow => Cell.integer row.id == key.asNumber)
        (setLogCell column value) t.logs
      (n, { t with logs := rows }, false)
  if renamed && count != 0 && taken then (throw (.database (.notUnique table)), t)
  else if !changed.isSound then (throw (.database .foreignKey), t)
  else (return count, changed)

end Harvest.Tables

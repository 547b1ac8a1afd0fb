import Harvest.Record.Status
import Harvest.Task.Basic
import Harvest.Time.Rfc3339
import Harvest.Uuid

/-! The records that outlive a run: workflows with their last run, executions, their phases in
plan order, and the log entries of each phase.
-/

namespace Harvest

open Time

/-- A saved workflow and a summary of its last run. -/
structure Workflow where
  id : Uuid
  userId : String
  name : String
  definition : String
  createdAt : Instant
  lastRunAt : Option Instant
  lastRunId : Option Uuid
  lastRunStatus : Option ExecutionStatus
deriving DecidableEq, Repr, Inhabited

/-- One run of a workflow, with the text of the graph that its plan was made from. -/
structure Execution where
  id : Uuid
  workflowId : Uuid
  userId : String
  status : ExecutionStatus
  trigger : Trigger
  createdAt : Instant
  startedAt : Option Instant
  completedAt : Option Instant
  definition : String
  credits : Nat
  stopRequested : Bool
deriving DecidableEq, Repr, Inhabited

/-- One planned node of an execution. -/
structure PhaseRecord where
  id : Uuid
  executionId : Uuid
  /-- The number of the phase in the plan, from one. -/
  number : Nat
  /-- The place of the node within the execution, from zero. -/
  position : Nat
  name : String
  taskType : TaskType
  /-- The text of the node. -/
  node : String
  status : PhaseStatus
  startedAt : Option Instant
  completedAt : Option Instant
  inputs : Option String
  outputs : Option String
  credits : Nat
deriving DecidableEq, Repr, Inhabited

/-- A line in the log of a phase. -/
structure LogEntry where
  level : LogLevel
  message : String
  timestamp : Instant
deriving DecidableEq, Repr, Inhabited

namespace Workflow

/-- A workflow that has never run. -/
def fresh (id : Uuid) (time : Instant) (user name definition : String) : Workflow :=
  ⟨id, user, name, definition, time, none, none, none⟩

/-- A workflow as a value. -/
def toJson (w : Workflow) : Json :=
  .object [("id", w.id.toJson), ("user_id", .string w.userId), ("name", .string w.name),
    ("definition", .string w.definition), ("created_at", w.createdAt.toJson),
    ("last_run_at", Json.orNull Instant.toJson w.lastRunAt),
    ("last_run_id", Json.orNull Uuid.toJson w.lastRunId),
    ("last_run_status", Json.orNull ExecutionStatus.toJson w.lastRunStatus)]

/-- The fields of a workflow. -/
def shape : Json.Shape Workflow :=
  Workflow.mk <$> .required "id" Uuid.decode <*> .required "user_id" .string
    <*> .required "name" .string <*> .required "definition" .string
    <*> .required "created_at" Instant.decode <*> .optional "last_run_at" Instant.decode
    <*> .optional "last_run_id" Uuid.decode
    <*> .optional "last_run_status" ExecutionStatus.decode

/-- Reads a workflow. -/
def decode : Json.Decoder Workflow := shape.decode "struct WorkflowRecord"

end Workflow

namespace Execution

/-- An execution that has not started. -/
def fresh (id workflowId : Uuid) (time : Instant) (user definition : String) : Execution :=
  ⟨id, workflowId, user, .pending, .manual, time, none, none, definition, 0, false⟩

/-- An execution as a value. -/
def toJson (e : Execution) : Json :=
  .object [("id", e.id.toJson), ("workflow_id", e.workflowId.toJson),
    ("user_id", .string e.userId), ("status", e.status.toJson),
    ("trigger", e.trigger.toJson), ("created_at", e.createdAt.toJson),
    ("started_at", Json.orNull Instant.toJson e.startedAt),
    ("completed_at", Json.orNull Instant.toJson e.completedAt),
    ("definition", .string e.definition), ("credits_consumed", .nat e.credits),
    ("stop_requested", .bool e.stopRequested)]

/-- The fields of an execution. -/
def shape : Json.Shape Execution :=
  Execution.mk <$> .required "id" Uuid.decode <*> .required "workflow_id" Uuid.decode
    <*> .required "user_id" .string <*> .required "status" ExecutionStatus.decode
    <*> .required "trigger" Trigger.decode <*> .required "created_at" Instant.decode
    <*> .optional "started_at" Instant.decode <*> .optional "completed_at" Instant.decode
    <*> .required "definition" .string <*> .required "credits_consumed" .nat32
    <*> .required "stop_requested" .bool

/-- Reads an execution. -/
def decode : Json.Decoder Execution := shape.decode "struct WorkflowExecution"

end Execution

namespace PhaseRecord

/-- A phase that has not started. -/
def fresh (id executionId : Uuid) (number position : Nat) (name : String) (t : TaskType)
    (node : String) : PhaseRecord :=
  ⟨id, executionId, number, position, name, t, node, .created, none, none, none, none, 0⟩

/-- The milliseconds that a finished phase took. -/
def duration? (p : PhaseRecord) : Option Int := do
  return (← p.completedAt).millisSince (← p.startedAt)

/-- A phase as a value. -/
def toJson (p : PhaseRecord) : Json :=
  .object [("id", p.id.toJson), ("execution_id", p.executionId.toJson),
    ("number", .nat p.number), ("position", .nat p.position), ("name", .string p.name),
    ("task_type", p.taskType.toJson), ("node", .string p.node), ("status", p.status.toJson),
    ("started_at", Json.orNull Instant.toJson p.startedAt),
    ("completed_at", Json.orNull Instant.toJson p.completedAt),
    ("inputs", Json.orNull .string p.inputs), ("outputs", Json.orNull .string p.outputs),
    ("credits_consumed", .nat p.credits)]

/-- The fields of a phase. -/
def shape : Json.Shape PhaseRecord :=
  PhaseRecord.mk <$> .required "id" Uuid.decode <*> .required "execution_id" Uuid.decode
    <*> .required "number" .nat32 <*> .required "position" .nat32
    <*> .required "name" .string <*> .required "task_type" TaskType.decode
    <*> .required "node" .string <*> .required "status" PhaseStatus.decode
    <*> .optional "started_at" Instant.decode <*> .optional "completed_at" Instant.decode
    <*> .optional "inputs" .string <*> .optional "outputs" .string
    <*> .required "credits_consumed" .nat32

/-- Reads a phase. -/
def decode : Json.Decoder PhaseRecord := shape.decode "struct ExecutionPhase"

end PhaseRecord

namespace LogEntry

/-- A log entry as a value. -/
def toJson (l : LogEntry) : Json :=
  .object [("level", l.level.toJson), ("message", .string l.message),
    ("timestamp", l.timestamp.toJson)]

/-- The fields of a log entry. -/
def shape : Json.Shape LogEntry :=
  LogEntry.mk <$> .required "level" LogLevel.decode <*> .required "message" .string
    <*> .required "timestamp" Instant.decode

/-- Reads a log entry. -/
def decode : Json.Decoder LogEntry := shape.decode "struct LogEntry"

end LogEntry

end Harvest

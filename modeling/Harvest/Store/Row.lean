import Harvest.Store.Basic
import Harvest.Time.Column

/-! Rows of the tables in which records can be kept. Identifiers, statuses and times are text;
numbers and flags are cells that hold an integer unless someone wrote a text into them. What
a row says is checked only when it is read.
-/

namespace Harvest

open Time

/-- A cell of a column for numbers. -/
inductive Cell where
  | integer (value : Int)
  | text (value : String)
deriving DecidableEq, Repr, Inhabited

namespace Cell

/-- A flag as a cell. -/
def flag (b : Bool) : Cell := .integer (if b then 1 else 0)

/-- The cell counts as true. -/
def holds : Cell → Bool
  | integer n => n != 0
  | text _ => false

/-- The order of cells: numbers by size, then texts. -/
def upTo : Cell → Cell → Bool
  | integer a, integer b => decide (a ≤ b)
  | integer _, text _ => true
  | text _, integer _ => false
  | text a, text b => !Text.before b a

/-- The cell as text. -/
def asText : Cell → String
  | integer n => toString n
  | text s => s

/-- The cell as a column for numbers keeps it: texts that spell an integer become one. -/
def asNumber : Cell → Cell
  | integer n => integer n
  | text s =>
      match Text.integer? (Text.trim s).toList with
      | some n => integer n
      | none => text s

end Cell

/-- A row of the table of workflows. -/
structure WorkflowRow where
  id : String
  userId : String
  name : String
  definition : String
  createdAt : String
  lastRunAt : Option String
  lastRunId : Option String
  lastRunStatus : Option String
deriving DecidableEq, Repr, Inhabited

/-- A row of the table of executions. -/
structure ExecutionRow where
  id : String
  workflowId : String
  userId : String
  status : String
  triggerKind : String
  createdAt : String
  startedAt : Option String
  completedAt : Option String
  definition : String
  credits : Cell
  stopRequested : Cell
deriving DecidableEq, Repr, Inhabited

/-- A row of the table of phases. -/
structure PhaseRow where
  id : String
  executionId : String
  number : Cell
  position : Cell
  name : String
  taskType : String
  node : String
  status : String
  startedAt : Option String
  completedAt : Option String
  inputs : Option String
  outputs : Option String
  credits : Cell
deriving DecidableEq, Repr, Inhabited

/-- A row of the table of log entries, numbered in the order of their arrival. -/
structure LogRow where
  id : Nat
  phaseId : String
  level : String
  message : String
  timestamp : String
deriving DecidableEq, Repr, Inhabited

/-- An instant as the tables keep it. -/
def storedTime (t : Instant) : String := t.textWith "+00:00"

/-- What reading a row gives. -/
abbrev RowRead (α : Type) := Except StoreError α

namespace RowRead

/-- Reads an identifier. -/
def uuid (s : String) : RowRead Uuid :=
  match Uuid.parse? s with
  | some id => return id
  | none => throw (.corrupt ("bad id " ++ s ++ ": " ++ Uuid.refusal s))

/-- Reads a name of an enumeration; `what` says of which. -/
def word {α : Type} (parse : String → Option α) (what s : String) : RowRead α :=
  match parse s with
  | some value => return value
  | none => throw (.corrupt ("unknown " ++ what ++ ": " ++ s))

/-- Reads an instant of a column. -/
def time (column s : String) : RowRead Instant :=
  match Instant.ofColumn? s with
  | some t => return t
  | none => throw (.database (.column column ("invalid datetime: " ++ s)))

/-- Reads an integer of a column; `kinds` names the two types that do not agree. -/
def integer (column : String) (kinds : String) : Cell → RowRead Int
  | .integer n => return n
  | .text _ => throw (.database (.column column ("mismatched types; Rust type " ++ kinds
      ++ " is not compatible with SQL type `TEXT`")))

/-- Reads a natural number of at most 32 bits. -/
def nat32 (column : String) (cell : Cell) : RowRead Nat := do
  let n ← integer column "`i64` (as SQL type `INTEGER`)" cell
  if 0 ≤ n && n < 4294967296 then return n.toNat
  else throw (.corrupt ("out of range: " ++ toString n))

/-- Reads a flag: every integer but zero is true. -/
def flag (column : String) (cell : Cell) : RowRead Bool := do
  let n ← integer column "`bool` (as SQL type `BOOLEAN`)" cell
  return n != 0

end RowRead

namespace WorkflowRow

/-- The row of a workflow. -/
def ofRecord (w : Workflow) : WorkflowRow where
  id := w.id.text
  userId := w.userId
  name := w.name
  definition := w.definition
  createdAt := storedTime w.createdAt
  lastRunAt := w.lastRunAt.map storedTime
  lastRunId := w.lastRunId.map Uuid.text
  lastRunStatus := w.lastRunStatus.map ExecutionStatus.name

/-- The workflow of a row. -/
def record (row : WorkflowRow) : RowRead Workflow := do
  let id ← RowRead.uuid row.id
  let createdAt ← RowRead.time "created_at" row.createdAt
  let lastRunAt ← row.lastRunAt.mapM (RowRead.time "last_run_at")
  let lastRunId ← row.lastRunId.mapM RowRead.uuid
  let lastRunStatus ←
    row.lastRunStatus.mapM (RowRead.word ExecutionStatus.parse? "execution status")
  return ⟨id, row.userId, row.name, row.definition, createdAt, lastRunAt, lastRunId,
    lastRunStatus⟩

end WorkflowRow

namespace ExecutionRow

/-- The row of an execution. -/
def ofRecord (e : Execution) : ExecutionRow where
  id := e.id.text
  workflowId := e.workflowId.text
  userId := e.userId
  status := e.status.name
  triggerKind := e.trigger.name
  createdAt := storedTime e.createdAt
  startedAt := e.startedAt.map storedTime
  completedAt := e.completedAt.map storedTime
  definition := e.definition
  credits := .integer e.credits
  stopRequested := .flag e.stopRequested

/-- The execution of a row. -/
def record (row : ExecutionRow) : RowRead Execution := do
  let id ← RowRead.uuid row.id
  let workflowId ← RowRead.uuid row.workflowId
  let status ← RowRead.word ExecutionStatus.parse? "execution status" row.status
  let trigger ← RowRead.word Trigger.parse? "trigger" row.triggerKind
  let createdAt ← RowRead.time "created_at" row.createdAt
  let startedAt ← row.startedAt.mapM (RowRead.time "started_at")
  let completedAt ← row.completedAt.mapM (RowRead.time "completed_at")
  let credits ← RowRead.nat32 "credits_consumed" row.credits
  let stopRequested ← RowRead.flag "stop_requested" row.stopRequested
  return ⟨id, workflowId, row.userId, status, trigger, createdAt, startedAt, completedAt,
    row.definition, credits, stopRequested⟩

/-- The row is in a terminal status. -/
def isTerminal (row : ExecutionRow) : Bool :=
  row.status == "COMPLETED" || row.status == "FAILED"

/-- The order of rows by age; equal times are ordered by identifier. -/
def upTo (a b : ExecutionRow) : Bool :=
  Text.before a.createdAt b.createdAt
    || (a.createdAt == b.createdAt && !Text.before b.id a.id)

/-- The order of rows, the latest first; equal times are ordered by identifier. -/
def latestUpTo (a b : ExecutionRow) : Bool :=
  Text.before b.createdAt a.createdAt
    || (a.createdAt == b.createdAt && !Text.before b.id a.id)

end ExecutionRow

namespace PhaseRow

/-- The row of a phase. -/
def ofRecord (p : PhaseRecord) : PhaseRow where
  id := p.id.text
  executionId := p.executionId.text
  number := .integer p.number
  position := .integer p.position
  name := p.name
  taskType := p.taskType.name
  node := p.node
  status := p.status.name
  startedAt := p.startedAt.map storedTime
  completedAt := p.completedAt.map storedTime
  inputs := p.inputs
  outputs := p.outputs
  credits := .integer p.credits

/-- The phase of a row. -/
def record (row : PhaseRow) : RowRead PhaseRecord := do
  let id ← RowRead.uuid row.id
  let executionId ← RowRead.uuid row.executionId
  let number ← RowRead.nat32 "number" row.number
  let position ← RowRead.nat32 "position" row.position
  let taskType ← RowRead.word TaskType.parse? "task type" row.taskType
  let status ← RowRead.word PhaseStatus.parse? "phase status" row.status
  let startedAt ← row.startedAt.mapM (RowRead.time "started_at")
  let completedAt ← row.completedAt.mapM (RowRead.time "completed_at")
  let credits ← RowRead.nat32 "credits_consumed" row.credits
  return ⟨id, executionId, number, position, row.name, taskType, row.node, status, startedAt,
    completedAt, row.inputs, row.outputs, credits⟩

/-- The row is in a terminal status. -/
def isTerminal (row : PhaseRow) : Bool :=
  row.status == "COMPLETED" || row.status == "FAILED"

/-- The order of rows within an execution; equal places are ordered by identifier. -/
def upTo (a b : PhaseRow) : Bool :=
  if a.number != b.number then a.number.upTo b.number
  else if a.position != b.position then a.position.upTo b.position
  else !Text.before b.id a.id

end PhaseRow

namespace LogRow

/-- The log entry of a row. -/
def record (row : LogRow) : RowRead LogEntry := do
  let level ← RowRead.word LogLevel.parse? "log level" row.level
  let timestamp ← RowRead.time "timestamp" row.timestamp
  return ⟨level, row.message, timestamp⟩

/-- The order of rows by time; rows of one time are ordered by their arrival. -/
def upTo (a b : LogRow) : Bool :=
  Text.before a.timestamp b.timestamp || (a.timestamp == b.timestamp && decide (a.id ≤ b.id))

end LogRow

end Harvest

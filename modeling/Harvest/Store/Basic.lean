import Harvest.Record.Basic

/-! What a store of run records can be asked, and what it answers. Finished executions and
phases are never changed; whoever tries is told that they are terminal.
-/

namespace Harvest

open Time

/-- Faults below the store's own rules. -/
inductive DatabaseFault where
  /-- A row that had to be there was not. -/
  | rowMissing
  /-- A second row with the key of a first. -/
  | notUnique (table : String)
  /-- A row that refers to one that is not there, or is referred to and would be gone. -/
  | foreignKey
  /-- A database that could not be opened. -/
  | cannotOpen
  /-- A cell that does not hold what its column stands for. -/
  | column (name reason : String)
deriving DecidableEq, Repr

/-- The wording of a fault. -/
def DatabaseFault.message : DatabaseFault → String
  | .rowMissing =>
      "no rows returned by a query that expected to return at least one row"
  | .notUnique table =>
      "error returned from database: (code: 1555) UNIQUE constraint failed: " ++ table ++ ".id"
  | .foreignKey =>
      "error returned from database: (code: 787) FOREIGN KEY constraint failed"
  | .cannotOpen => "error returned from database: (code: 14) unable to open database file"
  | .column name reason =>
      "error occurred while decoding column " ++ Text.quoted name ++ ": " ++ reason

/-- Reasons why a store does not do what it is asked. -/
inductive StoreError where
  | notFound (what : String)
  | terminal (id : String)
  | conflict (reason : String)
  | corrupt (reason : String)
  | database (fault : DatabaseFault)
deriving DecidableEq, Repr

/-- The wording of a reason. -/
def StoreError.message : StoreError → String
  | .notFound what => "not found: " ++ what
  | .terminal id => "record " ++ id ++ " is in a terminal state"
  | .conflict reason => "conflict: " ++ reason
  | .corrupt reason => "corrupt record: " ++ reason
  | .database fault => "database error: " ++ fault.message

/-- What a store can be asked. -/
inductive StoreCall where
  | createWorkflow (workflow : Workflow)
  | getWorkflow (workflow : Uuid)
  /-- Points the last run of a workflow at an execution. -/
  | recordLastRunStart (workflow execution : Uuid) (status : ExecutionStatus) (time : Instant)
  /-- Sets the status of the last run as long as it is this execution. -/
  | recordLastRunStatus (workflow execution : Uuid) (status : ExecutionStatus)
  /-- Creates an execution together with its phases. -/
  | createExecution (execution : Execution) (phases : List PhaseRecord)
  | getExecution (execution : Uuid)
  | updateExecution (execution : Execution)
  /-- The executions of a workflow, the latest first. -/
  | listExecutions (workflow : Uuid)
  /-- The executions in a status, the oldest first. -/
  | listByStatus (status : ExecutionStatus)
  /-- Raises the stop flag of an execution. -/
  | requestStop (execution : Uuid)
  /-- The phases of an execution in plan order. -/
  | listPhases (execution : Uuid)
  | getPhase (phase : Uuid)
  | updatePhase (phase : PhaseRecord)
  /-- Moves every phase of an execution from one status to another, and counts them. -/
  | setPhaseStatuses (execution : Uuid) (source target : PhaseStatus)
  | appendLogs (phase : Uuid) (entries : List LogEntry)
  /-- The log of a phase, the oldest entry first. -/
  | listLogs (phase : Uuid)
deriving DecidableEq, Repr

/-- What a store gives for a call that it grants. -/
def StoreCall.Result : StoreCall → Type
  | .getWorkflow _ => Workflow
  | .getExecution _ => Execution
  | .listExecutions _ => List Execution
  | .listByStatus _ => List Execution
  | .listPhases _ => List PhaseRecord
  | .getPhase _ => PhaseRecord
  | .setPhaseStatuses _ _ _ => Nat
  | .listLogs _ => List LogEntry
  | _ => Unit

/-- What a store answers to a call. -/
abbrev StoreCall.Answer (call : StoreCall) : Type := Except StoreError call.Result

/-- A kind of store: how it answers a call, and what it holds afterwards. -/
class Store (σ : Type) where
  /-- The store that holds nothing. -/
  empty : σ
  /-- The answer to a call and the store after it. -/
  answer : (call : StoreCall) → σ → call.Answer × σ

namespace StoreError

/-- No workflow of that identifier. -/
def noWorkflow (id : Uuid) : StoreError := .notFound ("workflow " ++ id.text)

/-- No execution of that identifier. -/
def noExecution (id : Uuid) : StoreError := .notFound ("execution " ++ id.text)

/-- No phase of that identifier. -/
def noPhase (id : Uuid) : StoreError := .notFound ("phase " ++ id.text)

/-- The last run of a workflow is another execution by now. -/
def superseded (workflow execution : Uuid) : StoreError :=
  .conflict ("workflow " ++ workflow.text ++ " last run is no longer " ++ execution.text)

end StoreError

/-- The order of phases within an execution; equal places are ordered by identifier. -/
def PhaseRecord.upTo (a b : PhaseRecord) : Bool :=
  decide (a.number < b.number) || (a.number == b.number
    && (decide (a.position < b.position) || (a.position == b.position
      && decide (a.id.bits ≤ b.id.bits))))

/-- The order of executions by age; equal times are ordered by identifier. -/
def Execution.upTo (a b : Execution) : Bool :=
  a.createdAt.before b.createdAt
    || (a.createdAt == b.createdAt && decide (a.id.bits ≤ b.id.bits))

/-- The order of executions, the latest first; equal times are ordered by identifier. -/
def Execution.latestUpTo (a b : Execution) : Bool :=
  b.createdAt.before a.createdAt
    || (a.createdAt == b.createdAt && decide (a.id.bits ≤ b.id.bits))

end Harvest

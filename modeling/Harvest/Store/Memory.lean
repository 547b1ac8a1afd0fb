import Harvest.Store.Basic

/-! The store in memory: one list of records a kind, each record found by its identifier. -/

namespace Harvest

open Time

/-- A store in memory. -/
structure Memory where
  workflows : List Workflow
  executions : List Execution
  phases : List PhaseRecord
  logs : List (Uuid × LogEntry)
deriving Repr, Inhabited

namespace Memory

/-- The store without records. -/
def empty : Memory := ⟨[], [], [], []⟩

/-- A list of records with one of them put in: in place of the record with its identifier,
else at the end.
-/
def insert {α : Type} (key : α → Uuid) (record : α) : List α → List α
  | [] => [record]
  | old :: rest => if key old == key record then record :: rest else old :: insert key record rest

/-- The record of an identifier. -/
def find? {α : Type} (key : α → Uuid) (id : Uuid) (records : List α) : Option α :=
  records.find? (key · == id)

/-- The workflow of an identifier. -/
def workflow? (m : Memory) (id : Uuid) : Option Workflow := find? Workflow.id id m.workflows

/-- The execution of an identifier. -/
def execution? (m : Memory) (id : Uuid) : Option Execution :=
  find? Execution.id id m.executions

/-- The phase of an identifier. -/
def phase? (m : Memory) (id : Uuid) : Option PhaseRecord := find? PhaseRecord.id id m.phases

/-- The store with a workflow put in. -/
def putWorkflow (m : Memory) (w : Workflow) : Memory :=
  { m with workflows := insert Workflow.id w m.workflows }

/-- The store with an execution put in. -/
def putExecution (m : Memory) (e : Execution) : Memory :=
  { m with executions := insert Execution.id e m.executions }

/-- The store with a phase put in. -/
def putPhase (m : Memory) (p : PhaseRecord) : Memory :=
  { m with phases := insert PhaseRecord.id p m.phases }

/-- Replaces an execution that is not finished. A raised stop flag stays raised. -/
def updateExecution (m : Memory) (e : Execution) : Except StoreError Unit × Memory :=
  match m.execution? e.id with
  | none => (throw (.noExecution e.id), m)
  | some stored =>
      if stored.status.isTerminal then (throw (.terminal e.id.text), m)
      else (return (), m.putExecution
        { e with stopRequested := stored.stopRequested || e.stopRequested })

/-- Raises the stop flag of an execution that is not finished. -/
def requestStop (m : Memory) (id : Uuid) : Except StoreError Unit × Memory :=
  match m.execution? id with
  | none => (throw (.noExecution id), m)
  | some stored =>
      if stored.status.isTerminal then (throw (.terminal id.text), m)
      else (return (), m.putExecution { stored with stopRequested := true })

/-- Replaces a phase that is not finished. -/
def updatePhase (m : Memory) (p : PhaseRecord) : Except StoreError Unit × Memory :=
  match m.phase? p.id with
  | none => (throw (.noPhase p.id), m)
  | some stored =>
      if stored.status.isTerminal then (throw (.terminal p.id.text), m)
      else (return (), m.putPhase p)

/-- Points the last run of a workflow at an execution. -/
def recordLastRunStart (m : Memory) (workflow execution : Uuid) (status : ExecutionStatus)
    (time : Instant) : Except StoreError Unit × Memory :=
  match m.workflow? workflow with
  | none => (throw (.noWorkflow workflow), m)
  | some w => (return (), m.putWorkflow
      { w with lastRunId := some execution, lastRunAt := some time,
               lastRunStatus := some status })

/-- Sets the status of the last run as long as it is this execution. -/
def recordLastRunStatus (m : Memory) (workflow execution : Uuid) (status : ExecutionStatus)
    : Except StoreError Unit × Memory :=
  match m.workflow? workflow with
  | none => (throw (.noWorkflow workflow), m)
  | some w =>
      if w.lastRunId == some execution then
        (return (), m.putWorkflow { w with lastRunStatus := some status })
      else (throw (.superseded workflow execution), m)

/-- The phase belongs to an execution and is in a status. -/
def inStatus (execution : Uuid) (status : PhaseStatus) (p : PhaseRecord) : Bool :=
  p.executionId == execution && p.status == status

/-- Moves every phase of an execution from one status to another. -/
def setPhaseStatuses (m : Memory) (execution : Uuid) (source target : PhaseStatus)
    : Nat × Memory :=
  (m.phases.countP (inStatus execution source),
    { m with phases := m.phases.map fun p =>
        if inStatus execution source p then { p with status := target } else p })

/-- The log of a phase, the oldest entry first; entries of one time keep their order. -/
def logsOf (m : Memory) (phase : Uuid) : List LogEntry :=
  ((m.logs.filter (·.1 == phase)).map (·.2)).mergeSort
    fun a b => a.timestamp.upTo b.timestamp

/-- The answer to a call and the store after it. -/
def answer (call : StoreCall) (m : Memory) : call.Answer × Memory :=
  match call with
  | .createWorkflow w => (return (), m.putWorkflow w)
  | .getWorkflow id => ((m.workflow? id).elim (throw (.noWorkflow id)) pure, m)
  | .recordLastRunStart w e status time => m.recordLastRunStart w e status time
  | .recordLastRunStatus w e status => m.recordLastRunStatus w e status
  | .createExecution e phases => (return (), phases.foldl putPhase (m.putExecution e))
  | .getExecution id => ((m.execution? id).elim (throw (.noExecution id)) pure, m)
  | .updateExecution e => m.updateExecution e
  | .listExecutions w =>
      (return (m.executions.filter (·.workflowId == w)).mergeSort Execution.latestUpTo, m)
  | .listByStatus status =>
      (return (m.executions.filter (·.status == status)).mergeSort Execution.upTo, m)
  | .requestStop id => m.requestStop id
  | .listPhases id =>
      (return (m.phases.filter (·.executionId == id)).mergeSort PhaseRecord.upTo, m)
  | .getPhase id => ((m.phase? id).elim (throw (.noPhase id)) pure, m)
  | .updatePhase p => m.updatePhase p
  | .setPhaseStatuses id source target =>
      let (count, m) := m.setPhaseStatuses id source target
      (return count, m)
  | .appendLogs id entries =>
      if (m.phase? id).isSome then
        (return (), { m with logs := m.logs ++ entries.map fun entry => (id, entry) })
      else (throw (.noPhase id), m)
  | .listLogs id => (return m.logsOf id, m)

instance : Store Memory where
  empty := empty
  answer := answer

end Memory

end Harvest

import Harvest.Service.Basic

/-! What the service tells of executions and phases. -/

namespace Harvest

/-- An execution with its phases in plan order. -/
structure ExecutionReport where
  execution : Execution
  phases : List PhaseRecord

/-- A report as a value. -/
def ExecutionReport.toJson (report : ExecutionReport) : Json :=
  .object [("execution", report.execution.toJson),
    ("phases", .array (report.phases.map PhaseRecord.toJson))]

/-- A phase with its log. -/
structure PhaseDetails where
  phase : PhaseRecord
  logs : List LogEntry

namespace PhaseDetails

/-- The identifier in the text of the node, if it can be read. -/
def nodeId? (details : PhaseDetails) : Option String := do
  (← (← Json.parse? details.phase.node).member? "id").asString?

/-- The value that a text stands for, `null` when there is none. -/
def readBack (text : Option String) : Json := Json.orNull id (text.bind Json.parse?)

/-- The details of a phase as a value. -/
def toJson (details : PhaseDetails) : Json :=
  .object [("phase", details.phase.toJson),
    ("node_id", Json.orNull .string details.nodeId?),
    ("inputs", readBack details.phase.inputs), ("outputs", readBack details.phase.outputs),
    ("duration_ms", Json.orNull .whole details.phase.duration?),
    ("logs", .array (details.logs.map LogEntry.toJson))]

end PhaseDetails

namespace Service

open ServiceM

/-- The present state of an execution. -/
def report (execution : Uuid) : ExceptT ServiceError ServiceM ExecutionReport := do
  let record : Execution ← stored .store (.getExecution execution)
  let phases : List PhaseRecord ← stored .store (.listPhases execution)
  return ⟨record, phases⟩

/-- The present state of a phase. -/
def phaseDetails (phase : Uuid) : ExceptT ServiceError ServiceM PhaseDetails := do
  let record : PhaseRecord ← stored .store (.getPhase phase)
  let logs : List LogEntry ← stored .store (.listLogs phase)
  return ⟨record, logs⟩

end Service

end Harvest

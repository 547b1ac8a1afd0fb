import Harvest.Plan.Basic
import Harvest.Service.Report
import Harvest.Event.Basic

/-! What the command line prints: catalogs, plans, the course of a run and its summary. -/

namespace Harvest.Command

/-- The lines on a task type. -/
def taskLines (d : TaskDefinition) : List String :=
  ("  • " ++ d.taskType.name ++ " - " ++ d.label ++ " (" ++ toString d.credits ++ " credits"
    ++ (if d.isEntryPoint then ", entry point" else "") ++ ")")
  :: (d.inputs.map fun p =>
      "      in:  " ++ p.name ++ (if p.required then " (required)" else " (optional)"))
  ++ d.outputs.map fun p => "      out: " ++ p.name

/-- The lines on the task types of a catalog. -/
def catalogLines (catalog : Catalog) : List String :=
  "📦 Available Task Types:" :: "" :: catalog.definitions.flatMap taskLines

/-- The lines on a phase of a plan. -/
def phaseLines (catalog : Catalog) (phase : Phase) : List String :=
  ("  Phase " ++ toString phase.number ++ ":")
  :: phase.nodes.map fun node =>
      "    • " ++ node.id ++ " (" ++ node.taskType.name ++ ", "
        ++ toString (catalog.credits node.taskType) ++ " credits)"

/-- The lines on a plan. -/
def planLines (catalog : Catalog) (plan : Plan) : List String :=
  ("🔍 " ++ toString plan.nodeCount ++ " nodes in " ++ toString plan.phases.length ++ " phases")
  :: plan.phases.flatMap (phaseLines catalog)

/-- The line on an event. -/
def eventLine : Event → String
  | .executionStarted _ _ phases _ =>
      "▶️  Execution started (" ++ toString phases ++ " phases)"
  | .phaseStarted _ _ node taskType _ =>
      "  ⚡ Starting node: " ++ node ++ " (" ++ taskType.name ++ ")"
  | .phaseCompleted _ _ node credits millis _ =>
      "  ✅ Node " ++ node ++ " completed in " ++ toString millis ++ "ms ("
        ++ toString credits ++ " credits)"
  | .phaseFailed _ _ node error _ =>
      "  ❌ Node " ++ node ++ " failed: " ++ error.getD "see phase logs"
  | .executionFinished _ status _ millis _ =>
      "🏁 Execution " ++ status.name ++ " after " ++ toString millis ++ "ms"

/-- The lines on how a run ended. -/
def outcomeLines (outcome : RunOutcome) : List String :=
  ["", "📊 Execution Summary:", "   Execution ID: " ++ outcome.execution.text,
    "   Status: " ++ outcome.status.name, "   Phases run: " ++ toString outcome.phasesRun,
    "   Credits: " ++ toString outcome.credits]

/-- The lines on a phase that was run. -/
def detailLines (details : PhaseDetails) : List String :=
  ["", "   " ++ details.phase.name ++ " [" ++ details.phase.status.name ++ "] "
    ++ details.nodeId?.getD ""]
  ++ ((details.phase.outputs.bind Json.parse?).map fun outputs =>
      "     outputs: " ++ outputs.compact).toList
  ++ details.logs.map fun entry => "     " ++ entry.level.name ++ " " ++ entry.message

end Harvest.Command

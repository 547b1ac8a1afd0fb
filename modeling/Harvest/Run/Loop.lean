import Harvest.Flow.Format
import Harvest.Run.Basic

/-! The loop of a run. Phases run strictly one after another in one environment; before each of
them the run looks whether it was asked to stop, and the first phase that fails ends it. What
happens is stored before it is told.
-/

namespace Harvest.Run

open Time RunM

/-- A part of the loop: it shares an environment and may lose its store. -/
abbrev LoopM := ExceptT StoreError (StateT Environment RunM)

/-- Does a part of a run inside the loop. -/
def inLoop {α : Type} (p : RunM α) : LoopM α := ExceptT.lift (StateT.lift p)

/-- Asks the store, whose refusal ends the loop. -/
def stored (call : StoreCall) : LoopM call.Result := ExceptT.mk (StateT.lift (store call))

/-- Where the value of an input comes from: the literal of the node, else the output at the
other end of the first edge into it.
-/
def wired? (flow : Flow) (node : Node) (env : Environment) (name : String)
    : Option TaskValue :=
  match node.literal? name with
  | some value => some value
  | none => do
      let edge ← flow.incomingEdge? node.id name
      env.output? edge.source edge.sourceHandle

/-- Puts values on the declared inputs of a node; the messages name required inputs that have
none.
-/
def wireInputs (flow : Flow) (node : Node)
    : List TaskParam → Environment → List String × Environment
  | [], env => ([], env)
  | param :: params, env =>
      if param.isBrowser then wireInputs flow node params env
      else
        match wired? flow node env param.name with
        | some value => wireInputs flow node params (env.setInput node.id param.name value)
        | none =>
            let (messages, env) := wireInputs flow node params env
            (if param.required then ("input " ++ param.name ++ " has no value") :: messages
             else messages, env)

/-- Prepares a node and wires its inputs. -/
def prepareNode (catalog : Catalog) (flow : Flow) (node : Node) (env : Environment)
    : List String × Environment :=
  let env := env.prepare node.id
  match catalog.get? node.taskType with
  | none => (["unknown task type " ++ node.taskType.name], env)
  | some definition => wireInputs flow node definition.inputs env

/-- Error entries at the present time. -/
def errorEntries : List String → RunM Log
  | [] => return []
  | message :: messages => do
      let time ← now
      return ⟨.error, message, time⟩ :: (← errorEntries messages)

/-- Runs the task of a node and gives its verdict, its log and the environment it leaves. -/
def runTask (executor : Executor) (node : String) (log : Log) (env : Environment)
    : RunM (Bool × Log × Environment) := do
  let (verdict, work) ← ofTask ((ExceptT.run executor).run (env.lend node log))
  let env := env.takeBack work
  match verdict with
  | .ok success => return (success, work.log, env)
  | .error halt => return (false, work.log ++ (← errorEntries [halt.message]), env)

/-- Does the work of a phase: its node may be unreadable, or its task without an executor. -/
def perform (settings : RunSettings) (phase : PhaseRecord) (node : Json.Decoded Node)
    (log : Log) (env : Environment) : RunM (Bool × Log × Environment) := do
  match node, settings.registry phase.taskType with
  | .error _, _ => return (false, log, env)
  | .ok _, none =>
      let entries ← errorEntries ["executor not found for " ++ phase.taskType.name]
      return (false, log ++ entries, env)
  | .ok node, some executor => runTask executor node.id log env

/-- The node identifier that a phase is told by; an unreadable node has the empty one. -/
def nodeId : Json.Decoded Node → String
  | .ok node => node.id
  | .error _ => ""

/-- The texts of some values of a node; an unknown node has none. -/
def slotsText (env : Environment) (node : String) (side : Slots → Values) : String :=
  (side (env.slots node)).keptText

/-- Prepares the node of a phase; the messages name what is wrong with it. -/
def enter (catalog : Catalog) (flow : Flow) (node : Json.Decoded Node) (env : Environment)
    : List String × Environment :=
  match node with
  | .error reason => (["invalid node snapshot: " ++ reason.message], env)
  | .ok node => prepareNode catalog flow node env

/-- Runs one phase; tells whether it succeeded and what it cost. -/
def runPhase (settings : RunSettings) (flow : Flow) (phase : PhaseRecord)
    : LoopM (Bool × Nat) := do
  let start ← inLoop uptime
  let node := Node.parse phase.node
  let id := nodeId node
  let messages ← modifyGet (enter settings.catalog flow node)
  let log ← inLoop (errorEntries messages)
  let env ← get
  let running := { phase with
    status := .running
    startedAt := some (← inLoop now)
    inputs := some (slotsText env id Slots.inputs) }
  stored (.updatePhase running)
  inLoop do emit (.phaseStarted phase.executionId phase.id id phase.taskType (← now))
  let (success, log, env) ← inLoop (perform settings phase node log env)
  set env
  let credits := if success then settings.catalog.credits phase.taskType else 0
  let finished := { running with
    status := if success then .completed else .failed
    completedAt := some (← inLoop now)
    outputs := some (slotsText env id Slots.outputs)
    credits := credits }
  stored (.updatePhase finished)
  stored (.appendLogs phase.id log)
  let millis := (← inLoop uptime) - start
  inLoop do
    let time ← now
    if success then
      emit (.phaseCompleted phase.executionId phase.id id credits millis time)
    else emit (.phaseFailed phase.executionId phase.id id log.lastError? time)
  return (success, credits)

/-- How the walk over the phases ended. -/
inductive Ending where
  | finished
  | failed
  | stopped
deriving DecidableEq, Repr

/-- What the walk over the phases came to. -/
structure Summary where
  ending : Ending
  credits : Nat
  phasesRun : Nat
deriving DecidableEq, Repr

/-- The run was asked to stop, through its token or through its record. -/
def stopRequested (execution : Uuid) (token : Token) : LoopM Bool := do
  if ← inLoop (isCancelled token) then return true
  let current : Execution ← stored (.getExecution execution)
  return current.stopRequested

/-- Walks the phases in order, up to a stop or the first phase that fails. -/
def runPhases (settings : RunSettings) (execution : Execution) (flow : Flow) (token : Token)
    : (credits phasesRun : Nat) → List PhaseRecord → LoopM Summary
  | credits, phasesRun, [] => return ⟨.finished, credits, phasesRun⟩
  | credits, phasesRun, phase :: phases => do
      if ← stopRequested execution.id token then return ⟨.stopped, credits, phasesRun⟩
      let (success, cost) ← runPhase settings flow phase
      let credits := addCredits credits cost
      if !success then return ⟨.failed, credits, phasesRun + 1⟩
      stored (.updateExecution { execution with status := .running, credits := credits })
      runPhases settings execution flow token credits (phasesRun + 1) phases

/-- Copies the status of a run to its workflow. A workflow that has run again since keeps its
own, and a store that fails here is passed over.
-/
def noteLastRun (execution : Execution) (status : ExecutionStatus) : RunM Unit := do
  let _ ← store (.recordLastRunStatus execution.workflowId execution.id status)

/-- Closes a page and a browser that a run left open, whatever becomes of it. -/
def release (env : Environment) : RunM Unit := do
  let browser (call : BrowserCall) : RunM call.Answer := ask (.task (.browser call))
  if let some page := env.page then
    let closed : Bool ← browser (.isClosed page)
    if !closed then
      let _ ← browser (.closePage page)
  if let some id := env.browser then
    let _ ← browser (.closeBrowser id)

/-- Ends an execution: its record is stored, listeners are told, its workflow follows. -/
def finalize (execution : Execution) (status : ExecutionStatus) (credits : Nat)
    (stopped : Bool) (start : Nat) : RunM (Except StoreError Execution) := do
  let finished := { execution with
    status := status
    completedAt := some (← now)
    credits := credits
    stopRequested := execution.stopRequested || stopped }
  match ← store (.updateExecution finished) with
  | .error reason => return .error reason
  | .ok () =>
      let millis := (← uptime) - start
      emit (.executionFinished execution.id status credits millis (← now))
      noteLastRun execution status
      return .ok finished

/-- Ends an execution whose loop lost the store, with what the store still knows of it. -/
def abort (execution : Execution) (reason : StoreError) (start : Nat)
    : RunM (Except SetupError RunOutcome) := do
  let current : Except StoreError Execution ← store (.getExecution execution.id)
  let (credits, stopped) := match current with
    | .ok current => (current.credits, current.stopRequested)
    | .error _ => (0, false)
  match ← finalize execution .failed credits stopped start with
  | .error later => return .error (.store later)
  | .ok _ => return .error (.store reason)

/-- Ends an execution whose loop came to an end. -/
def conclude (execution : Execution) (summary : Summary) (start : Nat)
    : RunM (Except SetupError RunOutcome) := do
  let status := if summary.ending == .finished then .completed else .failed
  match ← finalize execution status summary.credits (summary.ending == .stopped) start with
  | .error reason => return .error (.store reason)
  | .ok finished =>
      return .ok ⟨execution.id, status, summary.credits, finished.stopRequested,
        summary.phasesRun⟩

/-- The execution, its graph and its phases, when it can still run. -/
def load (id : Uuid) : ExceptT SetupError RunM (Execution × Flow × List PhaseRecord) := do
  let execution : Execution ← ExceptT.mk do
    match ← store (.getExecution id) with
    | .ok execution => return .ok execution
    | .error (.notFound _) => return .error (.executionNotFound id)
    | .error reason => return .error (.store reason)
  if execution.status.isTerminal then throw (.alreadyFinished id)
  match Flow.parse execution.definition with
  | .error reason => throw (.invalidDefinition id reason.message)
  | .ok flow =>
      let phases : List PhaseRecord ← asked (.listPhases id)
      return (execution, flow, phases)
where
  /-- Asks the store, whose refusal keeps the run from starting. -/
  asked (call : StoreCall) : ExceptT SetupError RunM call.Result :=
    ExceptT.mk ((Except.mapError SetupError.store) <$> store call)

/-- Marks an execution as running: its record first, then its phases and its workflow. -/
def markRunning (execution : Execution) : ExceptT SetupError RunM Execution := do
  let running := { execution with status := .running, startedAt := some (← now) }
  load.asked (.updateExecution running)
  let _ : Nat ← load.asked (.setPhaseStatuses execution.id .created .pending)
  noteLastRun running .running
  return running

/-- Runs an execution to its end. -/
def execute (settings : RunSettings) (id : Uuid) (token : Token)
    : RunM (Except SetupError RunOutcome) := ExceptT.run do
  let (execution, flow, phases) ← load id
  let start ← uptime
  let execution ← markRunning execution
  let (workflow, count) := (execution.workflowId, phases.length)
  emit (.executionStarted id workflow count (← now))
  let walk := runPhases settings execution flow token 0 0 phases
  let (looped, env) ← (ExceptT.run walk).run Environment.empty
  if settings.closesBrowser then release env
  ExceptT.mk (match looped with
    | .ok summary => conclude execution summary start
    | .error reason => abort execution reason start)

end Harvest.Run

import Harvest.Event.Bus
import Harvest.Rehearsal.Browser
import Harvest.Service.Supervise
import Harvest.Service.Supervisor
import Harvest.Timeline

/-! A world in which the service can be rehearsed: scripted browsers and workers, a store that
fails on chosen calls, a clock that only moves when the rehearsal says so, and a record of what
was done.
-/

namespace Harvest.Rehearsal

open Time

/-- What an outside worker does with a task in the end. -/
inductive Behavior where
  | succeed
  | fail
  | error (reason : TaskError)
  | collapse (lastWord : Option String)
  /-- Asks every running execution to stop, and succeeds. -/
  | stopAll

/-- What an outside worker does with a task. -/
structure Conduct where
  behavior : Behavior
  /-- How long that takes in milliseconds. -/
  delay : Nat
  outputs : Values
  logs : List (LogLevel × String)

/-- An outside worker: what it does usually, and on some nodes. -/
structure Worker where
  usual : Conduct
  byNode : List (String × Conduct)

namespace Conduct

/-- A conduct that does nothing and succeeds. -/
def plain : Conduct := ⟨.succeed, 0, [], []⟩

/-- The verdict of a worker. -/
def verdict (c : Conduct) : Except Halt Bool :=
  match c.behavior with
  | .succeed | .stopAll => .ok true
  | .fail => .ok false
  | .error reason => .error (.error reason)
  | .collapse lastWord => .error (.panic lastWord)

/-- What a worker reports. -/
def report (c : Conduct) : Report := ⟨c.outputs, c.logs, c.verdict⟩

end Conduct

/-- The workers by the names of the task types they take; the name `*` stands for all. -/
abbrev Workers := List (String × Worker)

namespace Workers

/-- The worker who takes the tasks of a type. -/
def worker? (workers : Workers) (t : TaskType) : Option Worker :=
  (Named.get? t.name workers).orElse fun _ => Named.get? "*" workers

/-- What is done with the task of a node. -/
def conduct (workers : Workers) (t : TaskType) (node : String) : Conduct :=
  match workers.worker? t with
  | none => .plain
  | some worker => (Named.get? node worker.byNode).getD worker.usual

/-- A registry in which the workers take their tasks, and some tasks nobody takes. -/
def registry (workers : Workers) (missing : List TaskType) (others : Registry) : Registry :=
  fun t =>
    if missing.contains t then none
    else if (workers.worker? t).isSome then some (Executor.delegated t)
    else others t

end Workers

/-- A call of the store that fails: the how-manieth of its name, and why. -/
structure Fault where
  name : String
  number : Nat
  reason : StoreError

/-- Something that was done to a browser, or by a worker. -/
inductive Action where
  | browser (call : BrowserCall)
  | work (node : String)

/-- The name of a call of the store. -/
def callName : StoreCall → String
  | .createWorkflow _ => "create_workflow"
  | .getWorkflow _ => "get_workflow"
  | .recordLastRunStart _ _ _ _ => "record_last_run_start"
  | .recordLastRunStatus _ _ _ => "record_last_run_status"
  | .createExecution _ _ => "create_execution"
  | .getExecution _ => "get_execution"
  | .updateExecution _ => "update_execution"
  | .listExecutions _ => "list_executions"
  | .listByStatus _ => "list_executions_by_status"
  | .requestStop _ => "request_stop"
  | .listPhases _ => "list_phases"
  | .getPhase _ => "get_phase"
  | .updatePhase _ => "update_phase"
  | .setPhaseStatuses _ _ _ => "set_phase_statuses"
  | .appendLogs _ _ => "append_logs"
  | .listLogs _ => "list_logs"

/-- Where exports go. -/
structure Exports where
  /-- Nothing can be written, for the directory cannot be made. -/
  isBlocked : Bool
  files : List (String × String)

namespace Exports

/-- The most bytes that a file name may have. -/
def longestName : Nat := 255

/-- Writes a file. -/
def save (exports : Exports) (name text : String) : Except FileError Unit × Exports :=
  if exports.isBlocked then (.error .notDirectory, exports)
  else if longestName < Text.byteCount name.toList then (.error .nameTooLong, exports)
  else (.ok (), { exports with files := Named.put name text exports.files })

end Exports

/-- A world with a store of some kind. -/
structure World (σ : Type) where
  settings : RunSettings
  store : σ
  /-- The calls of the store that fail. -/
  faults : List Fault
  /-- The names of the calls of the store that were made. -/
  calls : List String
  bus : Bus
  supervisor : Supervisor
  browsers : Browsers
  workers : Workers
  exports : Exports
  /-- What was done, the latest first. -/
  actions : List Action
  /-- The time from which the clock of the world counts. -/
  epoch : Instant
  /-- How often the clock was read; every reading is a nanosecond later than the one before. -/
  readings : Nat
  /-- The number of identifiers given out. -/
  issued : Nat

namespace World

variable {σ : Type}

/-- The world with one more action. -/
def record (w : World σ) (action : Action) : World σ :=
  { w with actions := action :: w.actions }

/-- Reads the clock. -/
def read (w : World σ) : Instant × World σ :=
  (w.epoch.plusNanos w.readings, { w with readings := w.readings + 1 })

/-- Gives out an identifier. -/
def freshId (w : World σ) : Uuid × World σ :=
  (Uuid.ofNat (0xf0000000000040008000000000000001 + w.issued), { w with issued := w.issued + 1 })

/-- Asks the store past the faults. -/
def askStore [Store σ] (w : World σ) (call : StoreCall) : call.Answer × World σ :=
  let (answer, store) := Store.answer call w.store
  (answer, { w with store := store })

/-- Asks the store, which may fail. -/
def tryStore [Store σ] (w : World σ) (call : StoreCall) : call.Answer × World σ :=
  let name := callName call
  let w := { w with calls := name :: w.calls }
  match w.faults.find? fun fault => fault.name == name && fault.number == w.calls.count name with
  | some fault => (.error fault.reason, w)
  | none => w.askStore call

/-- The running executions. -/
def running [Store σ] (w : World σ) : List Execution :=
  match (w.askStore (.listByStatus .running)).1 with
  | .ok executions => executions
  | .error _ => []

/-- The world after every running execution was asked to stop. -/
def stopAll [Store σ] (w : World σ) : World σ :=
  w.running.foldl (fun w execution => (w.askStore (.requestStop execution.id)).2) w

/-- What happens when a task makes a call, and how long the answer takes. -/
def startTask (w : World σ) : TaskCall → Nat × World σ
  | .browser (.isClosed _) => (0, w)
  | .browser call => (w.browsers.delay call, w.record (.browser call))
  | .pause millis => (millis, w)
  | .delegate t node => ((w.workers.conduct t node).delay, w.record (.work node))
  | .now | .save _ _ => (0, w)

/-- The answer to the call of a task. -/
def finishTask [Store σ] (w : World σ) : (call : TaskCall) → call.Answer × World σ
  | .browser call =>
      let (answer, browsers) := w.browsers.answer call
      (answer, { w with browsers := browsers })
  | .now => w.read
  | .pause _ => ((), w)
  | .save name text =>
      let (answer, exports) := w.exports.save name text
      (answer, { w with exports := exports })
  | .delegate t node =>
      let conduct := w.workers.conduct t node
      (conduct.report, if conduct.behavior matches .stopAll then w.stopAll else w)

/-- The answer to the call of a run. -/
def finishRun [Store σ] (now : Nat) (w : World σ) : (call : RunCall) → call.Answer × World σ
  | .task call => w.finishTask call
  | .store call => w.tryStore call
  | .uptime => (now, w)
  | .emit event => ((), { w with bus := w.bus.emit event })
  | .isCancelled token => (w.supervisor.isCancelled token, w)
  | .freshId => w.freshId

/-- The answer to the call of the service. -/
def finishService [Store σ] (now : Nat) (w : World σ)
    : (call : ServiceCall) → call.Answer × World σ
  | .run call => w.finishRun now call
  | .enlist execution =>
      let (token, supervisor) := w.supervisor.enlist execution
      (token, { w with supervisor := supervisor })
  | .dismiss execution => ((), { w with supervisor := w.supervisor.dismiss execution })
  | .cancel execution => ((), { w with supervisor := w.supervisor.cancel execution })
  | .spawn execution token => ((), { w with supervisor := w.supervisor.spawn execution token })

/-- What happens when the service makes a call, and how long the answer takes. -/
def startService (w : World σ) : ServiceCall → Nat × World σ
  | .run (.task call) => w.startTask call
  | _ => (0, w)

/-- The runs that begin now. -/
def spawned (w : World σ) : List (ServiceM Unit) × World σ :=
  let (waiting, supervisor) := w.supervisor.takeWaiting
  (waiting.map fun (execution, token) => Service.background w.settings execution token,
    { w with supervisor := supervisor })

/-- The world as the host of the service. -/
def host [Store σ] : Host serviceCalls (World σ) where
  start _ call w := w.startService call
  finish now call w := w.finishService now call
  spawned := spawned

/-- Carries a task to its end at once, whatever time it takes. -/
def runTask [Store σ] {α : Type} (p : Program taskCalls α) (w : World σ) : α × World σ :=
  p.run (fun (call : TaskCall) w => (w.startTask call).2.finishTask call) w

end World

end Harvest.Rehearsal

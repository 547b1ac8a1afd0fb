import Harvest.Environment
import Harvest.Task.Slot

/-! Tasks as programs over a workspace. A task reads the inputs of its node, writes its outputs,
keeps a log and may leave its verdict early; what it wrote before stays written.
-/

namespace Harvest

open Time

/-- Reasons why a file cannot be written. -/
inductive FileError where
  | notFound
  | notDirectory
  | isDirectory
  | nameTooLong
  | other (reason : String)
deriving DecidableEq, Repr

/-- The wording of a reason. -/
def FileError.message : FileError → String
  | .notFound => "No such file or directory (os error 2)"
  | .notDirectory => "Not a directory (os error 20)"
  | .isDirectory => "Is a directory (os error 21)"
  | .nameTooLong => "File name too long (os error 36)"
  | .other reason => reason

/-- Failures that a task does not expect. -/
inductive TaskError where
  | browser (reason : BrowserError)
  | file (reason : FileError)
  | serialization (reason : Json.DecodeError)
  | timeout (seconds : Nat)
  | failed (reason : String)

/-- The wording of a failure. -/
def TaskError.message : TaskError → String
  | .browser reason => "Browser error: " ++ reason.message
  | .file reason => "IO error: " ++ reason.message
  | .serialization reason => "Serialization error: " ++ reason.message
  | .timeout seconds => "Timeout after " ++ toString seconds ++ "s"
  | .failed reason => "Execution failed: " ++ reason

/-- Why a task breaks off. -/
inductive Halt where
  | error (reason : TaskError)
  /-- The worker collapsed, perhaps with a last word. -/
  | panic (lastWord : Option String)

/-- The wording of why a task breaks off. -/
def Halt.message : Halt → String
  | .error reason => reason.message
  | .panic lastWord => "executor panicked: " ++ lastWord.getD "unknown panic"

/-- What an outside worker reports of a task that was handed to it. -/
structure Report where
  outputs : Values
  logs : List (LogLevel × String)
  verdict : Except Halt Bool

/-- What a task can ask for. -/
inductive TaskCall where
  | browser (call : BrowserCall)
  | now
  /-- Lets a number of milliseconds pass. -/
  | pause (millis : Nat)
  /-- Writes a text to a file among the exports. -/
  | save (name text : String)
  /-- Hands a task to an outside worker and waits for the report. -/
  | delegate (task : TaskType) (node : String)

/-- What is answered to the call of a task. -/
def TaskCall.Answer : TaskCall → Type
  | .browser call => call.Answer
  | .now => Instant
  | .pause _ => Unit
  | .save _ _ => Except FileError Unit
  | .delegate _ _ => Report

/-- The calls of tasks. -/
abbrev taskCalls : Signature := ⟨TaskCall, TaskCall.Answer⟩

/-- A part of a task. -/
abbrev TaskM := ExceptT Halt (StateT Workspace (Program taskCalls))

/-- A task: it ends with true when it succeeded, and with false when it failed as it may. -/
abbrev Executor := TaskM Bool

/-- The executors that are there for the task types. -/
abbrev Registry := TaskType → Option Executor

namespace TaskM

/-- Makes a call. -/
def ask (call : TaskCall) : TaskM call.Answer :=
  ExceptT.lift (StateT.lift (Program.call (S := taskCalls) call))

/-- Adds a log entry at the present time. -/
def log (level : LogLevel) (message : String) : TaskM Unit := do
  let time ← ask .now
  modify fun work => work.record level message time

/-- Logs a message. -/
def info (message : String) : TaskM Unit := log .info message

/-- Logs an error. -/
def error (message : String) : TaskM Unit := log .error message

/-- Ends a task that failed as it may, with a last error in the log. -/
def refuse (message : String) : TaskM Bool := do
  error message
  return false

/-- The value on an input. -/
def input? (name : String) : TaskM (Option TaskValue) := return (← get).input? name

/-- The text on an input, unless it is empty. -/
def inputText? (name : String) : TaskM (Option String) := return (← get).inputText? name

/-- The text on an input, whose absence is logged. -/
def requireText (name : String) : TaskM (Option String) := do
  match ← inputText? name with
  | some text => return some text
  | none =>
      error ("input->" ++ name ++ " is not defined")
      return none

/-- Puts a value on an output. -/
def output (name : String) (value : TaskValue) : TaskM Unit :=
  modify fun work => work.setOutput name value

/-- Puts a text on an output. -/
def outputText (name text : String) : TaskM Unit := output name (.text text)

/-- Passes the shared browser on. -/
def passPage : TaskM Unit := output Slot.webPage .browser

/-- The page of the run, whose absence is logged. -/
def requirePage : TaskM (Option PageId) := do
  match (← get).page with
  | some page => return some page
  | none =>
      error "No browser page available"
      return none

/-- The value of an answer of the browser; a failure breaks the task off. -/
def orHalt {α : Type} (answer : Except BrowserError α) : TaskM α :=
  match answer with
  | .ok value => return value
  | .error reason => throw (.error (.browser reason))

end TaskM

/-- Does what a report tells: its outputs, its log and its verdict. -/
def Executor.ofReport (report : Report) : Executor := do
  for (name, value) in report.outputs do TaskM.output name value
  for (level, message) in report.logs do TaskM.log level message
  match report.verdict with
  | .ok success => return success
  | .error halt => throw halt

/-- Hands the task to an outside worker and does what the report tells. -/
def Executor.delegated (t : TaskType) : Executor := do
  let report ← TaskM.ask (.delegate t (← get).node)
  Executor.ofReport report

end Harvest

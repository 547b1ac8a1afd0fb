import Harvest.Event.Basic
import Harvest.Executor.Basic
import Harvest.Store.Basic

/-! What a run can ask for, and how it ends. A run that has started ends with an outcome;
errors are left for runs that could not start or lost their store.
-/

namespace Harvest

open Time

/-- The sign by which a run learns that it should stop. -/
structure Token where
  number : Nat
deriving DecidableEq, Repr, Inhabited

/-- What a run can ask for. -/
inductive RunCall where
  | task (call : TaskCall)
  | store (call : StoreCall)
  /-- The milliseconds on a clock that is never set back. -/
  | uptime
  /-- Tells the listeners. -/
  | emit (event : Event)
  /-- Whether the run of a token was asked to stop. -/
  | isCancelled (token : Token)
  /-- An identifier that was never given before. -/
  | freshId

/-- What is answered to the call of a run. -/
def RunCall.Answer : RunCall → Type
  | .task call => call.Answer
  | .store call => call.Answer
  | .uptime => Nat
  | .emit _ => Unit
  | .isCancelled _ => Bool
  | .freshId => Uuid

/-- The calls of runs. -/
abbrev runCalls : Signature := ⟨RunCall, RunCall.Answer⟩

/-- A part of a run. -/
abbrev RunM := Program runCalls

namespace RunM

/-- Makes a call. -/
def ask (call : RunCall) : RunM call.Answer := Program.call (S := runCalls) call

/-- The present time. -/
def now : RunM Instant := ask (.task .now)

/-- The milliseconds on a clock that is never set back. -/
def uptime : RunM Nat := ask .uptime

/-- Whether the run of a token was asked to stop. -/
def isCancelled (token : Token) : RunM Bool := ask (.isCancelled token)

/-- Tells the listeners. -/
def emit (event : Event) : RunM Unit := ask (.emit event)

/-- Asks the store. -/
def store (call : StoreCall) : RunM call.Answer := ask (.store call)

/-- A part of a task as a part of the run. -/
def ofTask {α : Type} (p : Program taskCalls α) : RunM α :=
  p.embed fun (call : TaskCall) => ask (.task call)

end RunM

/-- Reasons why a run does not start, or is lost. -/
inductive SetupError where
  | executionNotFound (execution : Uuid)
  | alreadyFinished (execution : Uuid)
  | invalidDefinition (execution : Uuid) (reason : String)
  | store (reason : StoreError)
deriving DecidableEq, Repr

/-- The wording of a reason. -/
def SetupError.message : SetupError → String
  | .executionNotFound id => "execution " ++ id.text ++ " not found"
  | .alreadyFinished id => "execution " ++ id.text ++ " already finished"
  | .invalidDefinition id reason =>
      "execution " ++ id.text ++ " has an invalid definition: " ++ reason
  | .store reason => "store error: " ++ reason.message

/-- How a run ended. -/
structure RunOutcome where
  execution : Uuid
  status : ExecutionStatus
  credits : Nat
  stopRequested : Bool
  /-- The number of phases that reached a terminal status. -/
  phasesRun : Nat
deriving DecidableEq, Repr

/-- What runs go by. -/
structure RunSettings where
  catalog : Catalog
  registry : Registry
  /-- Close a browser that a workflow left open. -/
  closesBrowser : Bool

/-- The sum of two credits; credits are counted in 32 bits. -/
def addCredits (a b : Nat) : Nat := (a + b) % 4294967296

end Harvest

import Harvest.Plan.Basic
import Harvest.Run.Loop

/-! What the service over all runs can ask for, and why it refuses. It keeps a list of the runs
that are under way, each with the token by which it can be stopped.
-/

namespace Harvest

/-- Reasons why no execution is made of a request. -/
inductive TriggerError where
  | workflowNotFound (workflow : Uuid)
  | unauthorized (workflow : Uuid) (user : String)
  | invalidDefinition (reason : String)
  | planning (reason : PlanError)
  | store (reason : StoreError)
deriving DecidableEq, Repr

/-- The wording of a reason. -/
def TriggerError.message : TriggerError → String
  | .workflowNotFound id => "workflow " ++ id.text ++ " not found"
  | .unauthorized workflow user =>
      "user " ++ user ++ " may not run workflow " ++ workflow.text
  | .invalidDefinition reason => "invalid workflow definition: " ++ reason
  | .planning reason => "planning failed: " ++ reason.message
  | .store reason => "store error: " ++ reason.message

/-- Reasons why the service does not do what it is asked. -/
inductive ServiceError where
  | trigger (reason : TriggerError)
  | setup (reason : SetupError)
  | store (reason : StoreError)
  | invalidDefinition (reason : String)
deriving DecidableEq, Repr

/-- The wording of a reason. -/
def ServiceError.message : ServiceError → String
  | .trigger reason => reason.message
  | .setup reason => reason.message
  | .store reason => reason.message
  | .invalidDefinition reason => "invalid workflow definition: " ++ reason

/-- What the service can ask for. -/
inductive ServiceCall where
  | run (call : RunCall)
  /-- Puts a run on the list, in place of an earlier one of the execution. -/
  | enlist (execution : Uuid)
  /-- Takes the run of an execution off the list. -/
  | dismiss (execution : Uuid)
  /-- Asks the run of an execution to stop, if one is on the list. -/
  | cancel (execution : Uuid)
  /-- Starts a run in the background. -/
  | spawn (execution : Uuid) (token : Token)

/-- What is answered to the call of the service. -/
def ServiceCall.Answer : ServiceCall → Type
  | .run call => call.Answer
  | .enlist _ => Token
  | .dismiss _ => Unit
  | .cancel _ => Unit
  | .spawn _ _ => Unit

/-- The calls of the service. -/
abbrev serviceCalls : Signature := ⟨ServiceCall, ServiceCall.Answer⟩

/-- A part of the service. -/
abbrev ServiceM := Program serviceCalls

namespace ServiceM

/-- Makes a call. -/
def ask (call : ServiceCall) : ServiceM call.Answer := Program.call (S := serviceCalls) call

/-- A part of a run as a part of the service. -/
def ofRun {α : Type} (p : RunM α) : ServiceM α :=
  p.embed fun (call : RunCall) => ask (.run call)

/-- Asks the store, whose refusal is told in the words of the caller. -/
def stored {ε : Type} (wrap : StoreError → ε) (call : StoreCall)
    : ExceptT ε ServiceM call.Result :=
  ExceptT.mk ((Except.mapError wrap) <$> ofRun (RunM.store call))

/-- Asks the store, whose refusal is part of the answer. -/
def tried {ε : Type} (call : StoreCall) : ExceptT ε ServiceM call.Answer :=
  ExceptT.lift (ofRun (RunM.store call))

/-- The present time. -/
def now : ServiceM Time.Instant := ofRun RunM.now

/-- An identifier that was never given before. -/
def freshId : ServiceM Uuid := ofRun (RunM.ask .freshId)

end ServiceM

/-- A request to run a saved workflow with a graph. -/
structure RunRequest where
  workflow : Uuid
  user : String
  definition : String
deriving DecidableEq, Repr

end Harvest

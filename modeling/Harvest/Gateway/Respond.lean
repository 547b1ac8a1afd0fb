import Harvest.Gateway.Target
import Harvest.Service.Report
import Harvest.Service.Supervise

/-! How the gateway answers. The caller is looked at first, then the path, then the body; what
belongs to one caller is closed to all others.
-/

namespace Harvest.Gateway

open ServiceM

/-- A part of an answer. Some refusals are told, others have only a status. -/
abbrev AnswerM := ExceptT (Sum Nat RequestError) ServiceM

namespace AnswerM

/-- Refuses with a reason. -/
def refuse {α : Type} (e : RequestError) : AnswerM α := throw (.inr e)

/-- Refuses with nothing but a status. -/
def reject {α : Type} (status : Nat) : AnswerM α := throw (.inl status)

/-- Does a part of the service. -/
def serve {α : Type} (p : ExceptT ServiceError ServiceM α) : AnswerM α :=
  p.adapt fun e => .inr (.service e)

/-- Asks the store. -/
def stored (call : StoreCall) : AnswerM call.Result := serve (ServiceM.stored .store call)

/-- The caller of a request. -/
def caller (request : Request) : AnswerM String :=
  match caller? request.user with
  | some user => return user
  | none => refuse .missingUser

/-- The identifier in a path. -/
def identifier (text : String) : AnswerM Uuid :=
  match pathId? text with
  | some id => return id
  | none => reject 404

end AnswerM

open AnswerM

/-- The most bytes that a body may have. -/
def longestBody : Nat := 2097152

/-- Reads a body, or gives the status of its refusal. -/
def readBody {α : Type} (decode : Json.Decoder α) (request : Request) : Except Nat α :=
  if !(request.contentType.any isJsonType) then .error 400
  else if longestBody < request.body.utf8ByteSize then .error 413
  else (Json.decodeText decode request.body).mapError fun _ => 400

/-- The body that asks for a new workflow: its name and its graph. -/
def creation : Json.Decoder (String × Json) :=
  Json.Shape.decode "struct CreateWorkflowRequest"
    (Prod.mk <$> Json.Shape.required "name" .string <*> Json.Shape.required "definition" .any)

/-- The body that may bring a graph along. -/
def override : Json.Decoder (Option Json) :=
  Json.Shape.decode "struct RunRequest"
    (Json.Shape.defaulted "definition" (.option .any) none)

/-- The text of a graph that came as its text or as a value. -/
def definitionText : Json → String
  | .string text => text
  | other => other.compact

/-- The graph that a request brings along, else the saved one. -/
def definitionOf (request : Request) (workflow : Workflow) : String :=
  match readBody override request with
  | .ok (some definition) => definitionText definition
  | _ => workflow.definition

/-- A workflow of the caller. -/
def ownedWorkflow (user : String) (id : Uuid) : AnswerM Workflow := do
  let workflow : Workflow ← stored (.getWorkflow id)
  if workflow.userId != user then refuse (.forbidden ("workflow " ++ id.text))
  return workflow

/-- An execution of the caller. -/
def ownedExecution (user : String) (id : Uuid) : AnswerM Execution := do
  let execution : Execution ← stored (.getExecution id)
  if execution.userId != user then refuse (.forbidden ("execution " ++ id.text))
  return execution

/-- How the service is, with the number of runs under way. -/
def healthJson (active : Nat) : Json :=
  .object [("status", .string "healthy"), ("version", .string "0.1.0"),
    ("service", .string "scrapeserver"), ("active_runs", .nat active)]

/-- Saves a new workflow of the caller. -/
def createWorkflow (request : Request) (user : String) : AnswerM Response := do
  match readBody creation request with
  | .error status => reject status
  | .ok (name, definition) =>
      let name := Text.trim name
      if name.isEmpty then refuse (.badRequest "workflow name is required")
      let workflow ← serve (Service.createWorkflow user name (definitionText definition))
      return .json 201 workflow.toJson

/-- Plans the graph of a workflow without running it. -/
def planWorkflow (catalog : Catalog) (request : Request) (workflow : Workflow)
    : AnswerM Response :=
  match Service.planOf catalog (definitionOf request workflow) with
  | .error reason => refuse (.service (.trigger reason))
  | .ok plan => return .json 200 plan.toJson

/-- Starts a run of a workflow in the background. -/
def runWorkflow (settings : RunSettings) (request : Request) (user : String)
    (workflow : Workflow) : AnswerM Response := do
  let wanted := ⟨workflow.id, user, definitionOf request workflow⟩
  let id ← serve ((Service.trigger settings wanted).adapt .trigger)
  return .json 202 (.object [("execution_id", id.toJson)])

/-- The details of a phase of the caller. -/
def phaseOf (user : String) (id : Uuid) : AnswerM Response := do
  let details ← serve (Service.phaseDetails id)
  let _ ← ownedExecution user details.phase.executionId
  return .json 200 details.toJson

/-- What is done for a route that names its caller. -/
def respondTo (settings : RunSettings) (request : Request) (user : String)
    : Route → AnswerM Response
  | .createWorkflow => createWorkflow request user
  | .workflow id => do
      let workflow ← ownedWorkflow user (← identifier id)
      return .json 200 workflow.toJson
  | .executions id => do
      let workflow ← ownedWorkflow user (← identifier id)
      let executions : List Execution ← stored (.listExecutions workflow.id)
      return .json 200 (.array (executions.map Execution.toJson))
  | .plan id => do
      planWorkflow settings.catalog request (← ownedWorkflow user (← identifier id))
  | .run id => do runWorkflow settings request user (← ownedWorkflow user (← identifier id))
  | .execution id => do
      let execution ← ownedExecution user (← identifier id)
      let report ← serve (Service.report execution.id)
      return .json 200 report.toJson
  | .stop id => do
      let execution ← ownedExecution user (← identifier id)
      serve (Service.stop execution.id)
      return .json 202 (.object [("message", .string "Stop requested")])
  | .phase id => do phaseOf user (← identifier id)
  | .health | .tasks | .events => reject 404

/-- What is done for a request, with the number of runs under way. -/
def answer (settings : RunSettings) (active : Nat) (request : Request) : AnswerM Response := do
  match Route.of? request.method request.target with
  | none => reject 404
  | some .health => return .json 200 (healthJson active)
  | some .tasks => return .json 200 settings.catalog.toJson
  | some .events => reject 400
  | some route => respondTo settings request (← caller request) route

/-- The response to a request. -/
def respond (settings : RunSettings) (active : Nat) (request : Request) : ServiceM Response := do
  match ← (answer settings active request).run with
  | .ok response => return response
  | .error (.inl status) => return .bare status
  | .error (.inr e) => return e.response

end Harvest.Gateway

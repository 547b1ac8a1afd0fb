import Harvest.Proofs.Gateway.Site
import Harvest.Proofs.Service.Workshop

/-! Users who share one gateway. What belongs to another user is closed, nothing is done about it,
and no response depends on what others have in their records.
-/

namespace Harvest.Gateway

open Program ServiceM AnswerM

open Site (perform)

variable {outside : Outside} {site site' left : Site} {user : String}

-----------------------------------------------------------------------------------------
-- What belongs to others
-----------------------------------------------------------------------------------------

/-- A workflow of another user is closed. -/
theorem workflowFor_of_foreign {m : Memory} {id : Uuid} {other : String}
    (owner : m.workflowOwner? id = some other) (apart : other ≠ user)
    : workflowFor m user id = .error (.inr (.forbidden ("workflow " ++ id.text))) := by
  obtain ⟨w, held, rfl⟩ := Option.map_eq_some_iff.mp owner
  simp [workflowFor, held, apart]

/-- An execution of another user is closed. -/
theorem executionFor_of_foreign {m : Memory} (tidy : m.Tidy) {id : Uuid} {other : String}
    (owner : m.executionOwner? id = some other) (apart : other ≠ user)
    : executionFor m user id = .error (.inr (.forbidden ("execution " ++ id.text))) := by
  obtain ⟨e, held, _⟩ := Option.bind_eq_some_iff.mp owner
  rw [tidy.executionOwner held, Option.some.injEq] at owner
  subst owner
  simp [executionFor, held, apart]

/-- A phase of another user is closed. -/
theorem phaseFor_of_foreign {m : Memory} (tidy : m.Tidy) {id : Uuid} {other : String}
    (owner : m.phaseOwner? id = some other) (apart : other ≠ user)
    : ∃ execution : Uuid,
        phaseFor m user id = .error (.inr (.forbidden ("execution " ++ execution.text))) := by
  obtain ⟨p, held, parent⟩ := Option.bind_eq_some_iff.mp owner
  refine ⟨p.executionId, ?_⟩
  rw [phaseFor, held]
  change Except.map _ (executionFor m user p.executionId) = _
  rw [executionFor_of_foreign tidy parent apart]
  rfl

-----------------------------------------------------------------------------------------
-- What depends on the user alone
-----------------------------------------------------------------------------------------

section Agreement

variable {m m' : Memory} (agree : m.AgreeFor user m')

include agree

theorem workflowFor_of_agree (id : Uuid) : workflowFor m user id = workflowFor m' user id := by
  have owners := agree.owners id
  unfold Memory.workflowOwner? at owners
  cases here : m.workflow? id with
  | none =>
      have there : m'.workflow? id = none := by simpa [here] using owners.symm
      rw [workflowFor, workflowFor, here, there]
  | some w =>
      obtain ⟨w', there, same⟩ : ∃ w', m'.workflow? id = some w' ∧ w'.userId = w.userId := by
        simpa [here] using owners.symm
      by_cases own : w.userId = user
      · have equal := agree.workflows id (by simp [Memory.workflowOwner?, here, own])
        rw [workflowFor, workflowFor, equal]
      · simp [workflowFor, here, there, same, own]

theorem executionFor_of_agree (tidy : m.Tidy) (tidy' : m'.Tidy) (id : Uuid)
    : executionFor m user id = executionFor m' user id := by
  have owners := agree.executionOwner id
  have parents := agree.parents id
  cases here : m.execution? id with
  | none =>
      have there : m'.execution? id = none := by simpa [here] using parents.symm
      rw [executionFor, executionFor, here, there]
  | some e =>
      obtain ⟨e', there, _⟩ : ∃ e', m'.execution? id = some e' ∧ e'.workflowId = e.workflowId := by
        simpa [here] using parents.symm
      rw [tidy.executionOwner here, tidy'.executionOwner there, Option.some.injEq] at owners
      by_cases own : e.userId = user
      · have equal := agree.executions id (own ▸ tidy.executionOwner here)
        rw [executionFor, executionFor, equal]
      · simp [executionFor, here, there, ← owners, own]

theorem phaseFor_of_agree (tidy : m.Tidy) (tidy' : m'.Tidy) (id : Uuid)
    : phaseFor m user id = phaseFor m' user id := by
  have homes := agree.homes id
  cases here : m.phase? id with
  | none =>
      have there : m'.phase? id = none := by simpa [here] using homes.symm
      rw [phaseFor, phaseFor, here, there]
  | some p =>
      obtain ⟨p', there, same⟩ : ∃ p', m'.phase? id = some p' ∧ p'.executionId = p.executionId := by
        simpa [here] using homes.symm
      simp only [phaseFor, here, there, same,
        ← executionFor_of_agree agree tidy tidy' p.executionId]
      cases got : executionFor m user p.executionId with
      | error reason => rfl
      | ok e =>
          -- the phase belongs to the user, so its record and its log are the same
          obtain ⟨held, _, own⟩ := own_of_executionFor got
          have owner : m.phaseOwner? id = some user := by
            rw [Memory.phaseOwner?, here, ← own]
            exact tidy.executionOwner held
          have equal := agree.phases id owner
          rw [here, there, Option.some.injEq] at equal
          subst equal
          rw [agree.logs id owner]

end Agreement

-----------------------------------------------------------------------------------------
-- Routes
-----------------------------------------------------------------------------------------

/-- Whom that belongs to which a route names, if it names anything that is there. -/
def Route.owner? (m : Memory) : Route → Option String
  | .workflow id | .executions id | .plan id | .run id => (pathId? id).bind m.workflowOwner?
  | .execution id | .stop id => (pathId? id).bind m.executionOwner?
  | .phase id => (pathId? id).bind m.phaseOwner?
  | .health | .tasks | .createWorkflow | .events => none

/-- The response to what an answer came to. -/
def conclude : Except (Sum Nat RequestError) Response → Response
  | .ok response => response
  | .error (.inl status) => .bare status
  | .error (.inr reason) => reason.response

theorem perform_respond {settings : RunSettings} {active : Nat} {request : Request}
    {result : Except (Sum Nat RequestError) Response}
    (answered
      : perform outside site (ExceptT.run (answer settings active request)) = (result, left))
    : perform outside site (respond settings active request) = (conclude result, left) := by
  refine (perform_then answered).trans ?_
  rcases result with (_ | _) | _ <;> rfl

/-- The identifier in a path is there or it is not, at every site. -/
theorem perform_identifier {text : String} {id : Uuid} (read : pathId? text = some id)
    : perform outside site (ExceptT.run (identifier text)) = (.ok id, site) := by
  simp only [identifier, read]
  rfl

theorem perform_identifier_none {text : String} (unread : pathId? text = none)
    : perform outside site (ExceptT.run (identifier text)) = (.error (.inl 404), site) := by
  simp only [identifier, unread]
  rfl

/-- A route that names what belongs to another user is refused, and all is left as it is. -/
theorem respondTo_foreign (tidy : site.store.Tidy) (settings : RunSettings) (request : Request)
    {route : Route} {other : String} (owner : route.owner? site.store = some other)
    (apart : other ≠ user)
    : ∃ what,
        perform outside site (ExceptT.run (respondTo settings request user route))
          = (.error (.inr (.forbidden what)), site) := by
  have closedWorkflow {id : Uuid} (owner : site.store.workflowOwner? id = some other)
      : perform outside site (ExceptT.run (ownedWorkflow user id))
        = (.error (.inr (.forbidden ("workflow " ++ id.text))), site) := by
    rw [perform_ownedWorkflow, workflowFor_of_foreign owner apart]
  have closedExecution {id : Uuid} (owner : site.store.executionOwner? id = some other)
      : perform outside site (ExceptT.run (ownedExecution user id))
        = (.error (.inr (.forbidden ("execution " ++ id.text))), site) := by
    rw [perform_ownedExecution, executionFor_of_foreign tidy owner apart]
  cases route with
  | workflow id | executions id | plan id | run id =>
      obtain ⟨named, read, owner⟩ := Option.bind_eq_some_iff.mp owner
      refine ⟨"workflow " ++ named.text, (perform_known (perform_identifier read)).trans ?_⟩
      exact perform_refused (closedWorkflow owner)
  | execution id | stop id =>
      obtain ⟨named, read, owner⟩ := Option.bind_eq_some_iff.mp owner
      refine ⟨"execution " ++ named.text, (perform_known (perform_identifier read)).trans ?_⟩
      exact perform_refused (closedExecution owner)
  | phase id =>
      obtain ⟨named, read, owner⟩ := Option.bind_eq_some_iff.mp owner
      obtain ⟨execution, closed⟩ := phaseFor_of_foreign tidy owner apart
      refine ⟨"execution " ++ execution.text, (perform_known (perform_identifier read)).trans ?_⟩
      rw [perform_phaseOf, closed]
      rfl
  | health | tasks | createWorkflow | events => cases owner

section Agreement

variable (agree : site.store.AgreeFor user site'.store) (tidy : site.store.Tidy)
  (tidy' : site'.store.Tidy) {settings : RunSettings} {request : Request}

include agree

/-- A workflow of the user is got at both sites, or it is refused at both in the same words. -/
theorem same_ofWorkflow {text : String} {next : Workflow → AnswerM Response}
    (rest
      : ∀ id w,
          workflowFor site.store user id = .ok w
          → workflowFor site'.store user id = .ok w
          → (perform outside site (ExceptT.run (next w))).1
            = (perform outside site' (ExceptT.run (next w))).1)
    : (perform outside site
        (ExceptT.run (identifier text >>= fun id => ownedWorkflow user id >>= next))).1
      = (perform outside site'
          (ExceptT.run (identifier text >>= fun id => ownedWorkflow user id >>= next))).1 := by
  cases read : pathId? text with
  | none =>
      rw [perform_refused (perform_identifier_none read),
        perform_refused (perform_identifier_none read)]
  | some id =>
      have same := workflowFor_of_agree agree id
      refine perform_same (perform_identifier read) (perform_identifier read) fun value equal => ?_
      cases equal
      refine perform_same (perform_ownedWorkflow user id) ?_ fun w got => ?_
      · rw [perform_ownedWorkflow, ← same]
      · exact rest id w got (same ▸ got)

include tidy tidy'

/-- An execution of the user is got at both sites, or it is refused at both in the same words. -/
theorem same_ofExecution {text : String} {next : Execution → AnswerM Response}
    (rest
      : ∀ id e,
          executionFor site.store user id = .ok e
          → executionFor site'.store user id = .ok e
          → (perform outside site (ExceptT.run (next e))).1
            = (perform outside site' (ExceptT.run (next e))).1)
    : (perform outside site
        (ExceptT.run (identifier text >>= fun id => ownedExecution user id >>= next))).1
      = (perform outside site'
          (ExceptT.run (identifier text >>= fun id => ownedExecution user id >>= next))).1 := by
  cases read : pathId? text with
  | none =>
      rw [perform_refused (perform_identifier_none read),
        perform_refused (perform_identifier_none read)]
  | some id =>
      have same := executionFor_of_agree agree tidy tidy' id
      refine perform_same (perform_identifier read) (perform_identifier read) fun value equal => ?_
      cases equal
      refine perform_same (perform_ownedExecution user id) ?_ fun e got => ?_
      · rw [perform_ownedExecution, ← same]
      · exact rest id e got (same ▸ got)

/-- A phase of the user is told alike at both sites. -/
theorem same_ofPhase {text : String}
    : (perform outside site (ExceptT.run (identifier text >>= phaseOf user))).1
      = (perform outside site' (ExceptT.run (identifier text >>= phaseOf user))).1 := by
  cases read : pathId? text with
  | none =>
      rw [perform_refused (perform_identifier_none read),
        perform_refused (perform_identifier_none read)]
  | some id =>
      rw [perform_known (perform_identifier read), perform_known (perform_identifier read),
        perform_phaseOf, perform_phaseOf, phaseFor_of_agree agree tidy tidy' id]

omit agree tidy tidy' in
/-- The report of an execution that is there. -/
theorem perform_report {e : Execution} (held : site.store.execution? e.id = some e)
    : perform outside site (ExceptT.run (serve (Service.report e.id)))
      = (.ok ⟨e, site.store.planned e.id⟩, site) := by
  have answered : Memory.answer (.getExecution e.id) site.store = (.ok e, site.store) := by
    simp only [Memory.answer, held]
    rfl
  exact perform_adapt (perform_known (perform_stored answered))

omit agree tidy tidy' in
/-- A stop is granted or refused by what the record of the execution says. -/
theorem perform_stop {e : Execution} (held : site.store.execution? e.id = some e)
    : (perform outside site (ExceptT.run (serve (Service.stop e.id)))).1
      = if e.status.isTerminal then .error (told (.terminal e.id.text)) else .ok () := by
  have answered : Memory.answer (.requestStop e.id) site.store
      = if e.status.isTerminal then (.error (.terminal e.id.text), site.store)
        else (.ok (), site.store.putExecution { e with stopRequested := true }) := by
    simp only [Memory.answer, Memory.requestStop, held]
    cases e.status.isTerminal <;> rfl
  cases finished : e.status.isTerminal with
  | true =>
      rw [finished] at answered
      exact congrArg Prod.fst (perform_adapt (perform_refused (perform_stored answered)))
  | false =>
      rw [finished] at answered
      exact congrArg Prod.fst (perform_adapt (perform_known (perform_stored answered)))

omit agree tidy tidy' in
/-- What is saved of a new workflow is what the request and the world outside say. -/
theorem same_createWorkflow (asked : site.asked = site'.asked)
    : (perform outside site (ExceptT.run (createWorkflow request user))).1
      = (perform outside site' (ExceptT.run (createWorkflow request user))).1 := by
  obtain ⟨store, supervisor, count⟩ := site
  obtain ⟨store', supervisor', count'⟩ := site'
  obtain rfl : count = count' := asked
  unfold createWorkflow
  cases readBody creation request with
  | error status => rfl
  | ok body =>
      obtain ⟨name, definition⟩ := body
      simp only
      cases (Text.trim name).isEmpty with
      | true => rfl
      | false =>
          refine perform_alike ?_ fun _ _ _ => rfl
          unfold Service.createWorkflow
          cases Flow.parse (definitionText definition) <;> rfl

omit agree tidy tidy' in
/-- A run of a workflow of the user begins alike. -/
theorem same_runWorkflow (asked : site.asked = site'.asked) {id : Uuid} {w : Workflow}
    (here : workflowFor site.store user id = .ok w)
    (there : workflowFor site'.store user id = .ok w)
    : (perform outside site (ExceptT.run (runWorkflow settings request user w))).1
      = (perform outside site' (ExceptT.run (runWorkflow settings request user w))).1 := by
  obtain ⟨held, rfl, own⟩ := own_of_workflowFor here
  obtain ⟨held', _, _⟩ := own_of_workflowFor there
  obtain ⟨result, made⟩ := perform_createExecution outside settings.catalog own
    (definitionOf request w) site.asked
  have same := (made site rfl held).trans (made site' asked.symm held').symm
  refine perform_alike (same_adapt (same_adapt ?_)) fun _ _ _ => rfl
  exact perform_alike same fun _ _ _ => rfl

/-- What is done for a route comes to the same at both sites, by cases on the route. -/
theorem respondTo_same (asked : site.asked = site'.asked) (route : Route)
    : (perform outside site (ExceptT.run (respondTo settings request user route))).1
      = (perform outside site' (ExceptT.run (respondTo settings request user route))).1 := by
  cases route with
  | createWorkflow => exact same_createWorkflow asked
  | workflow id => exact same_ofWorkflow agree fun _ _ _ _ => rfl
  | executions id =>
      refine same_ofWorkflow agree fun id w here there => ?_
      obtain ⟨held, rfl, own⟩ := own_of_workflowFor here
      have owner : site.store.workflowOwner? w.id = some user := by
        rw [Memory.workflowOwner?, held, ← own]
        rfl
      have listed {site : Site}
          : perform outside site (ExceptT.run (AnswerM.stored (.listExecutions w.id)))
            = (.ok (site.store.latest w.id), site) :=
        perform_storedFor rfl
      refine perform_same listed ?_ fun _ _ => rfl
      rw [agree.latest tidy tidy' owner]
      exact listed
  | plan id =>
      refine same_ofWorkflow agree fun _ w _ _ => ?_
      unfold planWorkflow
      cases Service.planOf settings.catalog (definitionOf request w) <;> rfl
  | run id => exact same_ofWorkflow agree fun _ _ => same_runWorkflow asked
  | execution id =>
      refine same_ofExecution agree tidy tidy' fun id e here there => ?_
      obtain ⟨held, rfl, own⟩ := own_of_executionFor here
      obtain ⟨held', _, _⟩ := own_of_executionFor there
      refine perform_same (perform_report held) ?_ fun _ _ => rfl
      rw [agree.planned tidy tidy' (own ▸ tidy.executionOwner held)]
      exact perform_report held'
  | stop id =>
      refine same_ofExecution agree tidy tidy' fun id e here there => ?_
      obtain ⟨held, rfl, _⟩ := own_of_executionFor here
      obtain ⟨held', _, _⟩ := own_of_executionFor there
      exact perform_alike ((perform_stop held).trans (perform_stop held').symm) fun _ _ _ => rfl
  | phase id => exact same_ofPhase agree tidy tidy'
  | health | tasks | events => rfl

end Agreement

-----------------------------------------------------------------------------------------
-- Requests
-----------------------------------------------------------------------------------------

theorem perform_caller {request : Request} (identified : caller? request.user = some user)
    : perform outside site (ExceptT.run (caller request)) = (.ok user, site) := by
  simp only [caller, identified]
  rfl

/-- A request of a user on a route that names what belongs to another one is answered with that, and
nothing is asked of the world, of the list of runs or of the store that would change it.
-/
theorem answer_foreign (tidy : site.store.Tidy) (settings : RunSettings) (active : Nat)
    {request : Request} (identified : caller? request.user = some user) {route : Route}
    (found : Route.of? request.method request.target = some route) {other : String}
    (owner : route.owner? site.store = some other) (apart : other ≠ user)
    : ∃ what,
        perform outside site (ExceptT.run (answer settings active request))
          = (.error (.inr (.forbidden what)), site) := by
  obtain ⟨what, refused⟩ := respondTo_foreign tidy settings request owner apart
  refine ⟨what, ?_⟩
  rw [← refused]
  unfold answer
  cases route with
  | health | tasks | createWorkflow | events => cases owner
  | _ =>
      rw [found]
      exact perform_known (perform_caller identified)

/-- Requests of a user are answered alike at sites that agree on what belongs to that user. -/
theorem answer_same (agree : site.store.AgreeFor user site'.store) (tidy : site.store.Tidy)
    (tidy' : site'.store.Tidy) (asked : site.asked = site'.asked) (settings : RunSettings)
    (active : Nat) {request : Request} (identified : caller? request.user = some user)
    : (perform outside site (ExceptT.run (answer settings active request))).1
      = (perform outside site' (ExceptT.run (answer settings active request))).1 := by
  have named (route : Route)
      : (perform outside site (ExceptT.run
          (caller request >>= fun user => respondTo settings request user route))).1
        = (perform outside site' (ExceptT.run
          (caller request >>= fun user => respondTo settings request user route))).1 := by
    refine perform_same (perform_caller identified) (perform_caller identified) fun value same => ?_
    cases same
    exact respondTo_same agree tidy tidy' asked route
  unfold answer
  cases Route.of? request.method request.target with
  | none => rfl
  | some route =>
      cases route with
      | health | tasks | events => rfl
      | _ => exact named _

/-- Users who share a gateway are kept apart, whatever operations have led to the store: a request
that names what belongs to another user is answered with 403, changes no record and starts and stops
no run; and stores that agree on who owns what and on the own records of a user make no difference
to the responses which that user gets.
-/
theorem tenants_apart {first second : Workshop} (reached : Workshop.Reaches .start first)
    (reached' : Workshop.Reaches .start second) (outside : Outside) (settings : RunSettings)
    (active asked : Nat) {request : Request} {user : String}
    (identified : caller? request.user = some user) (supervisor supervisor' : Supervisor)
    : (∀ route owner,
        Route.of? request.method request.target = some route
        → route.owner? first.store = some owner
        → owner ≠ user
        → ∃ response,
            response.status = 403
            ∧ perform outside ⟨first.store, supervisor, asked⟩ (respond settings active request)
              = (response, ⟨first.store, supervisor, asked⟩))
      ∧ (first.store.AgreeFor user second.store
        → (perform outside ⟨first.store, supervisor, asked⟩ (respond settings active request)).1
          = (perform outside ⟨second.store, supervisor', asked⟩
              (respond settings active request)).1) := by
  let here : Site := ⟨first.store, supervisor, asked⟩
  let there : Site := ⟨second.store, supervisor', asked⟩
  have tidy : here.store.Tidy := Workshop.tidy_of_reaches reached
  have tidy' : there.store.Tidy := Workshop.tidy_of_reaches reached'
  refine ⟨fun route owner found names apart => ?_, fun agree => ?_⟩
  · obtain ⟨what, answered⟩ : ∃ what,
        perform outside here (ExceptT.run (answer settings active request))
          = (.error (.inr (.forbidden what)), here) :=
      answer_foreign tidy settings active identified found names apart
    exact ⟨_, rfl, perform_respond answered⟩
  · have same : (perform outside here (ExceptT.run (answer settings active request))).1
        = (perform outside there (ExceptT.run (answer settings active request))).1 :=
      answer_same agree tidy tidy' rfl settings active identified
    rw [perform_respond (Prod.eta _).symm, perform_respond (Prod.eta _).symm]
    exact congrArg conclude same

/-! Two users with a workflow each, whose name the other one cannot tell. -/
namespace Pair

def definition : String := "\x7b\"nodes\":[],\"edges\":[]\x7d"

def time : Time.Instant := ⟨0, 0, 0⟩

def ours (name : String) : Workflow := .fresh (.ofNat 1) time "ann" name definition

def theirs : Workflow := .fresh (.ofNat 2) time "bob" "plain" definition

def store (name : String) : Memory := ⟨[ours name, theirs], [], [], []⟩

/-- No browser answers, the clock stands still, and identifiers are numbered. -/
def silent : Outside
  | .task (.browser (.launch)), _ => .error .closed
  | .task (.browser (.newPage _)), _ => .error .closed
  | .task (.browser (.pages _)), _ => .error .closed
  | .task (.browser (.closeBrowser _)), _ => .error .closed
  | .task (.browser (.goto _ _)), _ => .error .closed
  | .task (.browser (.content _)), _ => .error .closed
  | .task (.browser (.typeInto _ _ _)), _ => .error .closed
  | .task (.browser (.waitFor _ _ _)), _ => .error .closed
  | .task (.browser (.extractAll _ _ _)), _ => .error .closed
  | .task (.browser (.evaluate _ _ _)), _ => none
  | .task (.browser (.closePage _)), _ => .error .closed
  | .task (.browser (.isClosed _)), _ => true
  | .task .now, _ => time
  | .task (.pause _), _ => ()
  | .task (.save _ _), _ => .ok ()
  | .task (.delegate _ _), _ => ⟨[], [], .ok false⟩
  | .store _, _ => .error (.database .cannotOpen)
  | .uptime, count => count
  | .emit _, _ => ()
  | .isCancelled _, _ => false
  | .freshId, count => .ofNat (3 + count)

/-- The other user asks for the first workflow. -/
def request : Request :=
  ⟨"GET", "/api/workflows/00000000-0000-0000-0000-000000000001", some "bob", none, ""⟩

theorem parsed : ∃ flow, Flow.parse definition = .ok flow := by
  have read : (Flow.parse definition).toOption.isSome := by decide +kernel
  cases outcome : Flow.parse definition with
  | error reason =>
      rw [outcome] at read
      cases read
  | ok flow => exact ⟨flow, rfl⟩

/-- Both workflows are saved, one after the other. -/
theorem reached (name : String) : ∃ workers, Workshop.Reaches .start ⟨store name, workers⟩ := by
  obtain ⟨flow, parsed⟩ := parsed
  have vacant : Memory.empty.Vacant (.ofNat 1) := ⟨rfl, rfl, rfl⟩
  have nobody : ∀ worker ∈ ([] : List Worker), Uuid.ofNat 1 ∉ worker.given :=
    List.forall_mem_nil _
  obtain ⟨past, first⟩ :=
    Workshop.reaches_createWorkflow vacant nobody parsed time "ann" name
  have vacant' : (Memory.empty.putWorkflow (ours name)).Vacant (.ofNat 2) := ⟨rfl, rfl, rfl⟩
  have apart : ∀ worker ∈ [Worker.mk [.ofNat 1] past (.done ())], Uuid.ofNat 2 ∉ worker.given := by
    intro worker member
    obtain rfl := List.mem_singleton.mp member
    change Uuid.ofNat 2 ∉ [Uuid.ofNat 1]
    decide
  obtain ⟨past', second⟩ :=
    Workshop.reaches_createWorkflow vacant' apart parsed time "bob" "plain"
  exact ⟨_, first.trans second⟩

/-- What goes by an identifier: the first workflow, the second one, or none. -/
theorem workflow?_store (name : String) (id : Uuid)
    : (store name).workflow? id
      = if id = .ofNat 1 then some (ours name)
        else if id = .ofNat 2 then some theirs
        else none := by
  by_cases first : id = .ofNat 1
  · subst first
    rfl
  · by_cases second : id = .ofNat 2
    · subst second
      rfl
    · rw [if_neg first, if_neg second]
      refine Memory.find?_eq_none_iff.mpr ?_
      change id ∉ [Uuid.ofNat 1, Uuid.ofNat 2]
      simp [first, second]

theorem agree (name other : String) : (store name).AgreeFor "bob" (store other) where
  owners id := by
    simp only [Memory.workflowOwner?, workflow?_store]
    split <;> rfl
  parents _ := rfl
  homes _ := rfl
  workflows id own := by
    simp only [Memory.workflowOwner?, workflow?_store] at own ⊢
    by_cases first : id = .ofNat 1
    · simp [first, ours, Workflow.fresh] at own
    · rw [if_neg first, if_neg first]
  executions _ _ := rfl
  phases _ _ := rfl
  logs _ _ := rfl

end Pair

/-- One user asks for the workflow of another one, and is told the same whatever its name is. -/
theorem tenants_apart_pair
    : (∃ response,
        response.status = 403
        ∧ perform Pair.silent ⟨Pair.store "first", .empty, 0⟩
            (respond Run.Lone.settings 0 Pair.request)
          = (response, ⟨Pair.store "first", .empty, 0⟩))
      ∧ (perform Pair.silent ⟨Pair.store "first", .empty, 0⟩
            (respond Run.Lone.settings 0 Pair.request)).1
          = (perform Pair.silent ⟨Pair.store "second", .empty, 0⟩
              (respond Run.Lone.settings 0 Pair.request)).1 := by
  obtain ⟨_, first⟩ := Pair.reached "first"
  obtain ⟨_, second⟩ := Pair.reached "second"
  have identified : caller? Pair.request.user = some "bob" := by decide +kernel
  have found : Route.of? Pair.request.method Pair.request.target
      = some (.workflow "00000000-0000-0000-0000-000000000001") := by
    decide +kernel
  have owner : (Route.workflow "00000000-0000-0000-0000-000000000001").owner? (Pair.store "first")
      = some "ann" := by
    decide +kernel
  obtain ⟨closed, same⟩ := tenants_apart first second Pair.silent Run.Lone.settings 0 0 identified
    .empty .empty
  exact ⟨closed _ _ found owner (by decide), same (Pair.agree "first" "second")⟩

end Harvest.Gateway
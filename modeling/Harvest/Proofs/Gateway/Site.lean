import Harvest.Gateway.Respond
import Harvest.Proofs.Program.Realm
import Harvest.Proofs.Store.Owners
import Harvest.Service.Supervisor

/-! Where requests are answered. A request is performed at once on a store and a list of runs, and
the world outside answers whatever else is asked.
-/

namespace Harvest.Gateway

open Program ServiceM AnswerM

-----------------------------------------------------------------------------------------
-- A site for requests
-----------------------------------------------------------------------------------------

/-- Where requests are answered: a store, the list of runs, and the number of calls that the world
outside has answered.
-/
structure Site where
  store : Memory
  supervisor : Supervisor
  asked : Nat

/-- What the world outside answers, to one call after another: identifiers and clocks among it. -/
abbrev Outside := (call : RunCall) → Nat → call.Answer

namespace Site

/-- The answer to a call of the service, and the site after it. -/
def answer (outside : Outside) : (call : ServiceCall) → Site → call.Answer × Site
  | .run (.store call), site =>
      ((Memory.answer call site.store).1, { site with store := (Memory.answer call site.store).2 })
  | .run call, site => (outside call site.asked, { site with asked := site.asked + 1 })
  | .enlist id, site =>
      ((site.supervisor.enlist id).1, { site with supervisor := (site.supervisor.enlist id).2 })
  | .dismiss id, site => ((), { site with supervisor := site.supervisor.dismiss id })
  | .cancel id, site => ((), { site with supervisor := site.supervisor.cancel id })
  | .spawn id token, site => ((), { site with supervisor := site.supervisor.spawn id token })

/-- What a part of the service comes to at a site, and what it leaves. -/
def perform {α : Type} (outside : Outside) (site : Site) (part : ServiceM α) : α × Site :=
  part.run (answer outside) site

end Site

variable {outside : Outside} {site site' : Site} {user : String} {α β ε : Type}

open Site (perform)

-----------------------------------------------------------------------------------------
-- Parts that are performed
-----------------------------------------------------------------------------------------

variable {part : ExceptT ε ServiceM α} {next : α → ExceptT ε ServiceM β} {left : Site}

/-- What follows a part is performed on what the part leaves. -/
theorem perform_then {part : ServiceM α} {next : α → ServiceM β} {value : α}
    (first : perform outside site part = (value, left))
    : perform outside site (part.bind next) = perform outside left (next value) :=
  run_then first

/-- A part that may refuse does not, and what follows goes on. -/
theorem perform_known {value : α}
    (first : perform outside site (ExceptT.run part) = (.ok value, left))
    : perform outside site (ExceptT.run (part >>= next))
      = perform outside left (ExceptT.run (next value)) :=
  run_known first

/-- A refusal is the end. -/
theorem perform_refused {reason : ε}
    (first : perform outside site (ExceptT.run part) = (.error reason, left))
    : perform outside site (ExceptT.run (part >>= next)) = (.error reason, left) :=
  run_refused first

/-- Two sites at which a part leaves all as it is, with the same result, come to the same when what
follows does.
-/
theorem perform_same {result : Except ε α}
    (here : perform outside site (ExceptT.run part) = (result, site))
    (there : perform outside site' (ExceptT.run part) = (result, site'))
    (rest
      : ∀ value,
          result = .ok value
          → (perform outside site (ExceptT.run (next value))).1
            = (perform outside site' (ExceptT.run (next value))).1)
    : (perform outside site (ExceptT.run (part >>= next))).1
      = (perform outside site' (ExceptT.run (part >>= next))).1 := by
  cases result with
  | ok value =>
      rw [perform_known here, perform_known there]
      exact rest value rfl
  | error reason => rw [perform_refused here, perform_refused there]

/-- Two sites come to the same when a first part does, and what follows at any two sites. -/
theorem perform_alike
    (first
      : (perform outside site (ExceptT.run part)).1 = (perform outside site' (ExceptT.run part)).1)
    (rest
      : ∀ value left left',
          (perform outside left (ExceptT.run (next value))).1
            = (perform outside left' (ExceptT.run (next value))).1)
    : (perform outside site (ExceptT.run (part >>= next))).1
      = (perform outside site' (ExceptT.run (part >>= next))).1 := by
  cases here : perform outside site (ExceptT.run part) with
  | mk result left =>
      cases there : perform outside site' (ExceptT.run part) with
      | mk result' left' =>
          obtain rfl : result = result' := by simpa [here, there] using first
          cases result with
          | ok value =>
              rw [perform_known here, perform_known there]
              exact rest value left left'
          | error reason => rw [perform_refused here, perform_refused there]

/-- A part that never refuses goes first. -/
theorem perform_lift {part : ServiceM α} {value : α}
    (first : perform outside site part = (value, left))
    : perform outside site (ExceptT.run ((liftM part : ExceptT ε ServiceM α) >>= next))
      = perform outside left (ExceptT.run (next value)) :=
  run_lift first

/-- A part whose refusals are told in other words. -/
theorem perform_adapt {δ : Type} {wrap : ε → δ} {result : Except ε α}
    (first : perform outside site (ExceptT.run part) = (result, left))
    : perform outside site (ExceptT.run (part.adapt wrap)) = (result.mapError wrap, left) := by
  rw [except_adapt]
  exact perform_then first

/-- Two sites come to the same in other words when they do in the words of the part. -/
theorem same_adapt {δ : Type} {wrap : ε → δ}
    (first
      : (perform outside site (ExceptT.run part)).1 = (perform outside site' (ExceptT.run part)).1)
    : (perform outside site (ExceptT.run (part.adapt wrap))).1
      = (perform outside site' (ExceptT.run (part.adapt wrap))).1 := by
  rw [perform_adapt (Prod.eta _).symm, perform_adapt (Prod.eta _).symm, first]

/-- The store answers a part that asks it. -/
theorem perform_stored {wrap : StoreError → ε} {call : StoreCall} {answer : call.Answer}
    {store : Memory} (answered : Memory.answer call site.store = (answer, store))
    : perform outside site (ExceptT.run (ServiceM.stored wrap call))
      = (answer.mapError wrap, { site with store := store }) := by
  change ((Memory.answer call site.store).1.mapError wrap, _) = _
  rw [answered]

/-- What a user is told when the store refuses. -/
def told (reason : StoreError) : Sum Nat RequestError := .inr (.service (.store reason))

/-- The store answers for a user. -/
theorem perform_storedFor {call : StoreCall} {answer : call.Answer} {store : Memory}
    (answered : Memory.answer call site.store = (answer, store))
    : perform outside site (ExceptT.run (AnswerM.stored call))
      = (answer.mapError told, { site with store := store }) := by
  refine (perform_adapt (perform_stored answered)).trans ?_
  cases answer <;> rfl

-----------------------------------------------------------------------------------------
-- What a user gets
-----------------------------------------------------------------------------------------

/-- What a user gets for the identifier of a workflow. -/
def workflowFor (m : Memory) (user : String) (id : Uuid)
    : Except (Sum Nat RequestError) Workflow :=
  match m.workflow? id with
  | none => .error (told (.noWorkflow id))
  | some w =>
      if w.userId != user then .error (.inr (.forbidden ("workflow " ++ id.text))) else .ok w

/-- What a user gets for the identifier of an execution. -/
def executionFor (m : Memory) (user : String) (id : Uuid)
    : Except (Sum Nat RequestError) Execution :=
  match m.execution? id with
  | none => .error (told (.noExecution id))
  | some e =>
      if e.userId != user then .error (.inr (.forbidden ("execution " ++ id.text))) else .ok e

theorem perform_ownedWorkflow (user : String) (id : Uuid)
    : perform outside site (ExceptT.run (ownedWorkflow user id))
      = (workflowFor site.store user id, site) := by
  unfold ownedWorkflow workflowFor
  cases found : site.store.workflow? id with
  | none =>
      have answered : Memory.answer (.getWorkflow id) site.store
          = (.error (.noWorkflow id), site.store) := by
        simp only [Memory.answer, found]
        rfl
      exact perform_refused (perform_storedFor answered)
  | some w =>
      have answered : Memory.answer (.getWorkflow id) site.store = (.ok w, site.store) := by
        simp only [Memory.answer, found]
        rfl
      refine (perform_known (perform_storedFor answered)).trans ?_
      cases foreign : w.userId != user <;> simp [foreign] <;> rfl

theorem perform_ownedExecution (user : String) (id : Uuid)
    : perform outside site (ExceptT.run (ownedExecution user id))
      = (executionFor site.store user id, site) := by
  unfold ownedExecution executionFor
  cases found : site.store.execution? id with
  | none =>
      have answered : Memory.answer (.getExecution id) site.store
          = (.error (.noExecution id), site.store) := by
        simp only [Memory.answer, found]
        rfl
      exact perform_refused (perform_storedFor answered)
  | some e =>
      have answered : Memory.answer (.getExecution id) site.store = (.ok e, site.store) := by
        simp only [Memory.answer, found]
        rfl
      refine (perform_known (perform_storedFor answered)).trans ?_
      cases foreign : e.userId != user <;> simp [foreign] <;> rfl

/-- What a user gets for the identifier of a phase. -/
def phaseFor (m : Memory) (user : String) (id : Uuid)
    : Except (Sum Nat RequestError) PhaseDetails :=
  match m.phase? id with
  | none => .error (told (.noPhase id))
  | some p => (executionFor m user p.executionId).map fun _ => ⟨p, m.logsOf id⟩

/-- The details of a phase are read before it is seen whom they belong to. -/
theorem perform_phaseDetails (id : Uuid)
    : perform outside site (ExceptT.run (serve (Service.phaseDetails id)))
      = (match site.store.phase? id with
          | none => .error (told (.noPhase id))
          | some p => .ok ⟨p, site.store.logsOf id⟩,
          site) := by
  unfold Service.phaseDetails
  cases found : site.store.phase? id with
  | none =>
      have answered : Memory.answer (.getPhase id) site.store
          = (.error (.noPhase id), site.store) := by
        simp only [Memory.answer, found]
        rfl
      exact perform_adapt (perform_refused (perform_stored answered))
  | some p =>
      have answered : Memory.answer (.getPhase id) site.store = (.ok p, site.store) := by
        simp only [Memory.answer, found]
        rfl
      exact perform_adapt (perform_known (perform_stored answered))

theorem perform_phaseOf (user : String) (id : Uuid)
    : perform outside site (ExceptT.run (phaseOf user id))
      = ((phaseFor site.store user id).map fun details => .json 200 details.toJson, site) := by
  have details : perform outside site (ExceptT.run (serve (Service.phaseDetails id))) = _ :=
    perform_phaseDetails id
  unfold phaseOf phaseFor
  cases found : site.store.phase? id with
  | none =>
      rw [found] at details
      exact perform_refused details
  | some p =>
      rw [found] at details
      refine (perform_known details).trans ?_
      have owned : perform outside site (ExceptT.run (ownedExecution user p.executionId)) = _ :=
        perform_ownedExecution user p.executionId
      cases got : executionFor site.store user p.executionId with
      | error reason =>
          rw [got] at owned
          simp only [got]
          exact perform_refused owned
      | ok e =>
          rw [got] at owned
          simp only [got]
          exact perform_known owned

/-- What is got is there and belongs to the user. -/
theorem own_of_workflowFor {m : Memory} {id : Uuid} {w : Workflow}
    (got : workflowFor m user id = .ok w)
    : m.workflow? id = some w ∧ w.id = id ∧ w.userId = user := by
  unfold workflowFor at got
  cases found : m.workflow? id with
  | none => simp [found] at got
  | some stored =>
      rw [found] at got
      cases foreign : stored.userId != user with
      | true => simp [foreign] at got
      | false =>
          simp only [foreign, Bool.false_eq_true, if_false, Except.ok.injEq] at got
          subst got
          exact ⟨rfl, Memory.key_of_find? found, by simpa using foreign⟩

theorem own_of_executionFor {m : Memory} {id : Uuid} {e : Execution}
    (got : executionFor m user id = .ok e)
    : m.execution? id = some e ∧ e.id = id ∧ e.userId = user := by
  unfold executionFor at got
  cases found : m.execution? id with
  | none => simp [found] at got
  | some stored =>
      rw [found] at got
      cases foreign : stored.userId != user with
      | true => simp [foreign] at got
      | false =>
          simp only [foreign, Bool.false_eq_true, if_false, Except.ok.injEq] at got
          subst got
          exact ⟨rfl, Memory.key_of_find? found, by simpa using foreign⟩

-----------------------------------------------------------------------------------------
-- New records
-----------------------------------------------------------------------------------------

/-- Phase records are made of what the world outside answers and of nothing else, by induction over
the nodes.
-/
theorem perform_phaseRecords (outside : Outside) (catalog : Catalog) (execution : Uuid)
    (nodes : List (Nat × Node))
    (position asked : Nat)
    : ∃ (phases : List PhaseRecord) (count : Nat),
        ∀ site : Site,
          site.asked = asked
          → perform outside site (Service.phaseRecords catalog execution position nodes)
            = (phases, { site with asked := count }) := by
  induction nodes generalizing position asked with
  | nil =>
      refine ⟨[], asked, fun site same => ?_⟩
      subst same
      rfl
  | cons node nodes ih =>
      obtain ⟨number, node⟩ := node
      obtain ⟨phases, count, made⟩ := ih (position + 1) (asked + 1)
      let phase := PhaseRecord.fresh (outside .freshId asked) execution number position
        (Service.label catalog node.taskType) node.taskType node.text
      refine ⟨phase :: phases, count, fun site same => ?_⟩
      subst same
      have given : perform outside site freshId
          = (outside .freshId site.asked, { site with asked := site.asked + 1 }) :=
        rfl
      exact (perform_then given).trans (perform_then (made { site with asked := _ } rfl))

/-- What comes of a request to run a workflow of the user depends on the workflow, the request and
what the world outside answers.
-/
theorem perform_createExecution (outside : Outside) (catalog : Catalog) {w : Workflow}
    (own : w.userId = user)
    (definition : String) (asked : Nat)
    : ∃ result,
        ∀ site : Site,
          site.asked = asked
          → site.store.workflow? w.id = some w
          → (perform outside site
              (ExceptT.run (Service.createExecution catalog ⟨w.id, user, definition⟩))).1
            = result := by
  have same : (w.userId != user) = false := by simpa using own
  have read {site : Site} (held : site.store.workflow? w.id = some w)
      : Memory.answer (.getWorkflow w.id) site.store = (.ok w, site.store) := by
    simp only [Memory.answer, held]
    rfl
  cases planned : Service.planOf catalog definition with
  | error reason =>
      refine ⟨.error reason, fun site _ held => ?_⟩
      refine (congrArg Prod.fst (perform_known (perform_stored (read held)))).trans ?_
      simp only [same, Bool.false_eq_true, if_false, planned]
      rfl
  | ok plan =>
      let e := Execution.fresh (outside .freshId asked) w.id (outside (.task .now) (asked + 1)) user
        definition
      obtain ⟨phases, count, made⟩ :=
        perform_phaseRecords outside catalog e.id plan.nodes 0 (asked + 2)
      refine ⟨.ok e, fun site here held => ?_⟩
      subst here
      let last : Site := { site with asked := count }
      let filed : Site := { last with
        store := phases.foldl Memory.putPhase (site.store.putExecution e) }
      have there : filed.store.workflow? w.id = some w := by
        rw [Memory.workflow?, Memory.workflows_foldl_putPhase]
        exact held
      have created : Memory.answer (.createExecution e phases) last.store = (.ok (), filed.store) :=
        rfl
      have noted : Memory.answer (.recordLastRunStart w.id e.id .pending e.createdAt) filed.store
          = (.ok (), filed.store.putWorkflow { w with
              lastRunId := some e.id, lastRunAt := some e.createdAt,
              lastRunStatus := some .pending }) := by
        simp only [Memory.answer, Memory.recordLastRunStart, there]
        rfl
      refine (congrArg Prod.fst (perform_known (perform_stored (read held)))).trans ?_
      simp only [same, Bool.false_eq_true, if_false, planned]
      have fresh : perform outside site freshId
          = (e.id, { site with asked := site.asked + 1 }) :=
        rfl
      have timed : perform outside { site with asked := site.asked + 1 } now
          = (e.createdAt, { site with asked := site.asked + 2 }) :=
        rfl
      refine (congrArg Prod.fst (perform_known rfl)).trans ?_
      refine (congrArg Prod.fst (perform_lift fresh)).trans ?_
      refine (congrArg Prod.fst (perform_lift timed)).trans ?_
      refine (congrArg Prod.fst (perform_lift (made { site with asked := _ } rfl))).trans ?_
      refine (congrArg Prod.fst (perform_known (perform_stored created))).trans ?_
      exact congrArg Prod.fst (perform_known (perform_stored noted))

end Harvest.Gateway

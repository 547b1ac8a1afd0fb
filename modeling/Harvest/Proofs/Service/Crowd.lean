import Harvest.Proofs.Run.Errands
import Harvest.Proofs.Service.Company

/-! The service among many. Whatever its operations do at once and whichever calls of the store
fail, the store grows and stays tidy, for every call respects what is there.
-/

namespace Harvest

open Realm Program ServiceM

/-- Others let the store grow, keep it tidy and leave vacant what is reserved. -/
def crowd : Company where
  acts given before after :=
    before.Grows after
    ∧ (before.Tidy → after.Tidy)
    ∧ ∀ id ∈ given, before.Vacant id → after.Vacant id
  mayFail := True
  heeds _ _ := True
  spares acts := acts.2.2
  still _ store := ⟨.refl store, id, fun _ _ => id⟩
  further one two :=
    ⟨one.1.trans two.1, two.2.1 ∘ one.2.1, fun id member => two.2.2 id member ∘ one.2.2 id member⟩

namespace Crowd

/-- A call of the store respects what is there and takes no identifiers but those that were given
out here.
-/
def Respectful : (call : ServiceCall) → Scene → call.Answer → Scene → Prop
  | .run (.store call), before, _, _ =>
      call.Respects before.store ∧ ∀ id ∈ call.taken, id ∈ before.given
  | _, _, _, _ => True

/-- The same of the calls of a run. -/
def RunRespectful : (call : RunCall) → Scene → call.Answer → Scene → Prop
  | .store call, before, _, _ => call.Respects before.store ∧ call.taken = []
  | _, _, _, _ => True

/-- The store is tidy and has grown from an earlier one. -/
structure Since (base : Memory) (scene : Scene) : Prop where
  tidy : scene.store.Tidy
  grows : base.Grows scene.store

variable {base : Memory} {scene later : Scene} {α β ε : Type} {wanted : β → Scene → Prop}

namespace Since

theorem refl (tidy : scene.store.Tidy) : Since scene.store scene := ⟨tidy, .refl _⟩

theorem drift (since : Since base scene) (drifts : crowd.Drifts scene later) : Since base later :=
  ⟨drifts.acts.2.1 since.tidy, since.grows.trans drifts.acts.1⟩

theorem after (since : Since base scene) (call : RunCall) (answer : call.Answer)
    : Since base (scene.after call answer) :=
  ⟨since.tidy, since.grows⟩

theorem answered (since : Since base scene) {call : StoreCall}
    (respects : call.Respects scene.store)
    : Since base (scene.answered call) where
  tidy := since.tidy.answer respects
  grows := since.grows.trans ((Memory.adds_answer respects).grows respects)

end Since

theorem stable_since : crowd.serves.Stable (Since base) := fun drifts since => since.drift drifts

/-- What is wanted is only that the store is tidy and has grown. -/
theorem safe_done {value : β} (since : Since base scene)
    : crowd.serves.Safe Respectful (fun _ later => Since base later) (.done value) scene :=
  fun _ drifts => since.drift drifts

-----------------------------------------------------------------------------------------
-- Single calls
-----------------------------------------------------------------------------------------

/-- The store is asked with respect. -/
theorem safe_asked (since : Since base scene) (call : StoreCall) {next : call.Answer → ServiceM β}
    (respects
      : ∀ before,
          crowd.Drifts scene before
          → Since base before
          → call.Respects before.store ∧ ∀ id ∈ call.taken, id ∈ before.given)
    (granted
      : ∀ before result,
          crowd.Drifts scene before
          → (Memory.answer call before.store).1 = .ok result
          → Since base (before.answered call)
          → crowd.serves.Safe Respectful wanted (next (.ok result)) (before.answered call))
    (refused
      : ∀ (before : Scene) reason,
          Since base (before.after (.store call) (.error reason))
          → crowd.serves.Safe Respectful wanted (next (.error reason))
              (before.after (.store call) (.error reason)))
    : crowd.serves.Safe Respectful wanted ((ofRun (RunM.store call)).bind next) scene := by
  refine Company.safe_asked ?_ ?_ ?_
  · intro before answer later drifts _
    exact respects before drifts (since.drift drifts)
  · intro before result drifts _ told
    have here := since.drift drifts
    exact granted before result drifts told (here.answered (respects before drifts here).1)
  · intro before reason drifts _
    exact refused before reason ((since.drift drifts).after _ _)

/-- The store is asked with respect, and a refusal is the end. -/
theorem safe_stored (since : Since base scene) {wrap : StoreError → ε} (call : StoreCall)
    {next : call.Result → ExceptT ε ServiceM β} {wanted : Except ε β → Scene → Prop}
    (respects
      : ∀ before,
          crowd.Drifts scene before
          → Since base before
          → call.Respects before.store ∧ ∀ id ∈ call.taken, id ∈ before.given)
    (granted
      : ∀ before result,
          crowd.Drifts scene before
          → (Memory.answer call before.store).1 = .ok result
          → Since base (before.answered call)
          → crowd.serves.Safe Respectful wanted (ExceptT.run (next result))
              (before.answered call))
    (refused : ∀ reason later, Since base later → wanted (.error reason) later)
    : crowd.serves.Safe Respectful wanted (ExceptT.run (stored wrap call >>= next)) scene :=
  safe_asked since call respects granted fun _ _ since later drifts =>
    refused _ later (since.drift drifts)

-----------------------------------------------------------------------------------------
-- New workflows and executions
-----------------------------------------------------------------------------------------

theorem since_withFresh (since : Since base scene) (id : Uuid)
    : Since base (Company.withFresh scene id) :=
  ⟨since.tidy, since.grows⟩

/-- The time can be asked for. -/
theorem safe_now {next : Time.Instant → ServiceM β}
    (safe
      : ∀ before time,
          crowd.Drifts scene before
          → crowd.serves.Safe Respectful wanted (next time) (before.after (.task .now) time))
    : crowd.serves.Safe Respectful wanted (now.bind next) scene :=
  Company.safe_outside (.task .now) trivial (fun _ _ => trivial) safe

/-- A workflow that is read is there. -/
theorem workflow_of_answer {id : Uuid} {m : Memory} {w : Workflow}
    (told : (Memory.answer (.getWorkflow id) m).1 = .ok w)
    : m.workflow? id = some w ∧ w.id = id := by
  have held : m.workflow? id = some w := Memory.found_of_elim told
  exact ⟨held, Memory.key_of_find? held⟩

/-- A workflow that is saved is a new one. -/
theorem safe_createWorkflow (since : Since base scene) (user name definition : String)
    : crowd.serves.Safe Respectful (fun _ later => Since base later)
        (ExceptT.run (Service.createWorkflow user name definition)) scene := by
  unfold Service.createWorkflow
  cases Flow.parse definition with
  | error reason => exact safe_done since
  | ok flow =>
      change crowd.serves.Safe _ _ (ExceptT.run (liftM freshId >>= _)) _
      rw [except_lift_bind]
      refine Company.safe_freshId (.nil scene) (fun _ _ => trivial) fun before id drifts _ own => ?_
      have since := since_withFresh (since.drift drifts) id
      rw [except_lift_bind]
      refine safe_now fun before time drifts => ?_
      replace own := (own.drift drifts).after (.task .now) time
      replace since := (since.drift drifts).after (.task .now) time
      refine safe_stored since (.createWorkflow (.fresh id time user name definition)) ?_ ?_ ?_
      · intro before drifts _
        have here := own.drift drifts
        refine ⟨(here.vacant id List.mem_cons_self).workflow, fun other member => ?_⟩
        obtain rfl := List.mem_singleton.mp member
        exact here.given _ List.mem_cons_self
      · exact fun _ _ _ _ since => safe_done since
      · exact fun _ _ since => since

/-- A new execution under reserved identifiers respects what is there, when the workflow is of its
owner.
-/
theorem respects_createExecution {before : Scene} {id : Uuid} {phases : List PhaseRecord}
    (own : Company.Reserved (phases.reverse.map PhaseRecord.id ++ [id]) before) {catalog : Catalog}
    {position : Nat} {nodes : List (Nat × Node)}
    (phasesFor : Service.PhasesFor catalog id position nodes phases) {home : Workflow}
    {workflow : Uuid} (there : before.store.workflow? workflow = some home) {user : String}
    (owner : home.userId = user) (time : Time.Instant) (definition : String)
    : let call := StoreCall.createExecution (.fresh id workflow time user definition) phases
      call.Respects before.store ∧ ∀ other ∈ call.taken, other ∈ before.given := by
  have mine (p : PhaseRecord) (member : p ∈ phases)
      : p.id ∈ phases.reverse.map PhaseRecord.id ++ [id] := by
    simp [List.mem_map_of_mem member]
  refine ⟨⟨(own.vacant id (by simp)).execution, ⟨home, there, owner⟩, ?_, ?_⟩, ?_⟩
  · have reversed := (List.nodup_append.mp own.distinct).1
    rwa [List.map_reverse, List.nodup_reverse] at reversed
  · exact fun p member => ⟨(phasesFor.fresh member).1, (own.vacant _ (mine p member)).phase⟩
  · intro other taken
    refine own.given other ?_
    simpa [StoreCall.taken, StoreCall.newWorkflows, StoreCall.newExecutions, StoreCall.newPhases,
      Execution.fresh, or_comm] using taken

/-- An execution that is created is a new one, with the owner of its workflow. -/
theorem safe_createExecution (since : Since base scene) (catalog : Catalog) (request : RunRequest)
    : crowd.serves.Safe Respectful (fun _ later => Since base later)
        (ExceptT.run (Service.createExecution catalog request)) scene := by
  refine safe_stored since (.getWorkflow request.workflow) (fun _ _ _ => ⟨trivial, nofun⟩) ?_
    fun _ _ since => since
  intro known workflow _ told since
  change Workflow at workflow
  obtain ⟨held, named⟩ := workflow_of_answer told
  cases foreign : workflow.userId != request.user with
  | true => exact safe_done since
  | false =>
      have owner : workflow.userId = request.user := by simpa using foreign
      simp only [Bool.false_eq_true, if_false]
      rw [except_bind]
      cases Service.planOf catalog request.definition with
      | error reason => exact safe_done since
      | ok plan =>
          change crowd.serves.Safe _ _ (ExceptT.run (liftM freshId >>= _)) _
          rw [except_lift_bind]
          refine Company.safe_freshId (.nil _) (fun _ _ => trivial) fun before id drifts _ own => ?_
          -- the store has grown from the one in which the workflow was read too
          let both (scene : Scene) : Prop := Since base scene ∧ Since known.store scene
          have stable {before after : Scene} (drifts : crowd.Drifts before after)
              (since : both before) : both after :=
            ⟨since.1.drift drifts, since.2.drift drifts⟩
          have fresh {before : Scene} (since : both before) (id : Uuid)
              : both (Company.withFresh before id) :=
            ⟨since_withFresh since.1 id, since_withFresh since.2 id⟩
          replace since : both (Company.withFresh before id) :=
            fresh (stable drifts ⟨since, .refl since.tidy⟩) id
          rw [except_lift_bind]
          refine safe_now fun before time drifts => ?_
          replace own := (own.drift drifts).after (.task .now) time
          replace since : both (before.after (.task .now) time) :=
            ⟨(since.1.drift drifts).after .., (since.2.drift drifts).after ..⟩
          rw [except_lift_bind]
          let e := Execution.fresh id workflow.id time request.user request.definition
          refine (Company.safe_phaseRecords catalog id plan.nodes 0 own stable fresh
            (fun _ _ => trivial) since).followed ?_
          rintro phases later ⟨phasesFor, own, since, grown⟩
          refine safe_stored since (.createExecution e phases) ?_ ?_ fun _ _ since => since
          · intro before drifts _
            obtain ⟨w, there, same⟩ := (grown.drift drifts).grows.workflow? held
            have home : before.store.workflow? workflow.id = some w := named ▸ there
            have user : w.userId = request.user := (congrArg Prod.fst same).trans owner
            exact respects_createExecution (own.drift drifts) phasesFor home user time _
          · intro before _ drifts _ since
            refine safe_stored since (.recordLastRunStart workflow.id e.id .pending e.createdAt)
              (fun _ _ _ => ⟨trivial, fun _ taken => (List.not_mem_nil taken).elim⟩) ?_
              fun _ _ since => since
            exact fun _ _ _ _ since => safe_done since

-----------------------------------------------------------------------------------------
-- Runs
-----------------------------------------------------------------------------------------

/-- The store knows an execution and phases, up to what updates are for. -/
structure Known (execution : Execution) (phases : List PhaseRecord) (scene : Scene) : Prop where
  execution
    : ∃ stored,
        scene.store.execution? execution.id = some stored ∧ stored.fixed = execution.fixed
  phases
    : ∀ phase ∈ phases,
        ∃ stored, scene.store.phase? phase.id = some stored ∧ stored.fixed = phase.fixed

variable {execution : Execution} {phases : List PhaseRecord} {token : Token} {call : RunCall}

/-- What is known stays known while the store grows. -/
theorem Known.grows (known : Known execution phases scene)
    (grows : scene.store.Grows later.store)
    : Known execution phases later where
  execution := by
    obtain ⟨stored, held, same⟩ := known.execution
    obtain ⟨next, held, fixed⟩ := grows.execution? held
    exact ⟨next, held, fixed.trans same⟩
  phases phase member := by
    obtain ⟨stored, held, same⟩ := known.phases phase member
    obtain ⟨next, held, fixed⟩ := grows.phase? held
    exact ⟨next, held, fixed.trans same⟩

/-- A run errand of what is known respects what is there and takes no identifiers. -/
theorem respects_of_errand {call : StoreCall} (known : Known execution phases scene)
    (errand : Run.IsErrand execution phases token (.store call))
    : call.Respects scene.store ∧ call.taken = [] := by
  have keeps {next : Execution} (named : next.id = execution.id)
      (same : next.fixed = execution.fixed)
      : (StoreCall.updateExecution next).Respects scene.store := by
    intro stored held
    obtain ⟨other, there, fixed⟩ := known.execution
    rw [named, there, Option.some.injEq] at held
    exact same.trans (held ▸ fixed.symm)
  cases errand with
  | step step =>
      cases step with
      | quiet quiet => exact quiet.elim
      | read => exact ⟨trivial, rfl⟩
      | log => exact ⟨trivial, rfl⟩
      | count named same => exact ⟨keeps named same, rfl⟩
      | keep member named same =>
          refine ⟨fun stored held => ?_, rfl⟩
          obtain ⟨other, there, fixed⟩ := known.phases _ member
          rw [named, there, Option.some.injEq] at held
          exact same.trans (held ▸ fixed.symm)
  | move => exact ⟨trivial, rfl⟩
  | replace named same => exact ⟨keeps named same, rfl⟩
  | note => exact ⟨trivial, rfl⟩

/-- The errands of a run let the store grow, and keep it tidy. -/
theorem Since.errand (since : Since base scene) (known : Known execution phases scene)
    (errand : Run.IsErrand execution phases token call) {answer : call.Answer}
    (replies : crowd.Replies call scene answer later)
    : RunRespectful call scene answer later ∧ Since base later ∧ Known execution phases later := by
  cases replies with
  | store call scene =>
      have respects := respects_of_errand known errand
      have grown := (Memory.adds_answer respects.1).grows respects.1
      exact ⟨respects, since.answered respects.1, known.grows grown⟩
  | fault _ call reason scene =>
      have respects := respects_of_errand known errand
      exact ⟨respects, since.after _ _, known.grows (.refl _)⟩
  | fresh id scene new vacant => exact ⟨trivial, since_withFresh since id, known.grows (.refl _)⟩
  | outside call outside answer scene =>
      refine ⟨?_, since.after _ _, known.grows (.refl _)⟩
      cases call with
      | store => exact outside.elim
      | _ => trivial

/-- A run of an execution respects what is there, whatever its tasks do. -/
theorem safe_execute (since : Since base scene) (settings : RunSettings) (id : Uuid)
    (token : Token)
    : crowd.runs.Safe RunRespectful (fun _ later => Since base later)
        (Run.execute settings id token) scene := by
  rw [Run.execute_eq]
  refine Company.safe_load (Since base) (fun drifts since => since.drift drifts)
    (fun _ _ _ since => since.after _ _) ?_ ?_ (fun _ _ since => since) since
  · rintro _ _ _ _ (rfl | rfl) _ _ <;> exact ⟨trivial, rfl⟩
  · intro first execution flow last _ held _ _ drifts since
    obtain rfl : execution.id = id := Memory.key_of_find? held
    let listed := last.store.planned execution.id
    have known : Known execution listed last := by
      refine ⟨drifts.acts.1.execution? held, fun phase member => ?_⟩
      have there : phase ∈ last.store.phases :=
        (List.mem_filter.mp (List.mem_mergeSort.mp member)).1
      exact ⟨phase, Keyed.find?_of_mem since.tidy.phases there, rfl⟩
    let both (scene : Scene) : Prop := Since base scene ∧ Known execution listed scene
    have stable : crowd.runs.Stable both :=
      fun drifts kept => ⟨kept.1.drift drifts, kept.2.grows drifts.acts.1⟩
    have start : both (last.answered (.listPhases execution.id)) :=
      ⟨since.after _ _, known.grows (.refl _)⟩
    have safe := (Run.proceed_errands settings execution.id token flow).safe stable
      (fun errand replies kept => kept.1.errand kept.2 errand replies) start
    exact safe.mono id fun _ _ kept => kept.1

/-- What respects the store as a run does so as a part of the service. -/
theorem respectful_of_run {call : RunCall} {before after : Scene} {answer : call.Answer}
    (kept : RunRespectful call before answer after)
    : Respectful (.run call) before answer after := by
  cases call with
  | store call => exact ⟨kept.1, by simp [kept.2]⟩
  | _ => trivial

theorem safe_stop (since : Since base scene) (id : Uuid)
    : crowd.serves.Safe Respectful (fun _ later => Since base later)
        (ExceptT.run (Service.stop id)) scene := by
  refine safe_stored since (.requestStop id) (fun _ _ _ => ⟨trivial, nofun⟩) ?_
    fun _ _ since => since
  intro _ _ _ _ since
  exact Company.safe_own (.cancel id) trivial (fun _ _ => trivial)
    fun _ _ drifts => safe_done (since.drift drifts)

-----------------------------------------------------------------------------------------
-- Recovery
-----------------------------------------------------------------------------------------

/-- An execution that is known is failed with respect for what is there. -/
theorem safe_recoverOne (since : Since base scene) (known : Known execution [] scene)
    : crowd.serves.Safe Respectful (fun _ later => Since base later)
        (ExceptT.run (Service.recoverOne execution)) scene := by
  let both (scene : Scene) : Prop := Since base scene ∧ Known execution [] scene
  have drift {before later : Scene} (kept : both before) (drifts : crowd.Drifts before later)
      : both later :=
    ⟨kept.1.drift drifts, kept.2.grows drifts.acts.1⟩
  refine Company.safe_stored (fun _ _ _ _ _ => ⟨trivial, nofun⟩) ?_ ?_
  · intro first count drifts _ _
    have kept := drift ⟨since, known⟩ drifts
    have respects : (StoreCall.setPhaseStatuses execution.id .running .failed).Respects
        first.store :=
      trivial
    replace kept : both (first.answered (.setPhaseStatuses execution.id .running .failed)) :=
      ⟨kept.1.answered respects, kept.2.grows ((Memory.adds_answer respects).grows respects)⟩
    change crowd.serves.Safe _ _ (ExceptT.run (liftM now >>= _)) _
    rw [except_lift_bind]
    refine safe_now fun before time drifts => ?_
    replace kept : both (before.after (.task .now) time) := by
      have here := drift kept drifts
      exact ⟨here.1.after _ _, here.2.grows (.refl _)⟩
    let failed := { execution with status := .failed, completedAt := some time }
    change crowd.serves.Safe _ _
      (ExceptT.run (liftM (ofRun (RunM.store (.updateExecution failed))) >>= _)) _
    rw [except_lift_bind]
    refine safe_asked kept.1 (.updateExecution failed) ?_ ?_ ?_
    · intro before drifts _
      have errand : Run.IsErrand execution [] default (.store (.updateExecution failed)) :=
        .replace rfl rfl
      obtain ⟨respects, none⟩ := respects_of_errand (kept.2.grows drifts.acts.1) errand
      exact ⟨respects, by simp [none]⟩
    · intro _ _ _ _ since
      change crowd.serves.Safe _ _
        (ExceptT.run (liftM (ofRun (Run.noteLastRun execution .failed)) >>= _)) _
      rw [except_lift_bind]
      let note : StoreCall := .recordLastRunStatus execution.workflowId execution.id .failed
      change crowd.serves.Safe _ _
        ((ofRun (RunM.store note)).bind fun _ => ExceptT.run (pure true)) _
      exact safe_asked since note (fun _ _ _ => ⟨trivial, nofun⟩)
        (fun _ _ _ _ since => safe_done since) fun _ _ since => safe_done since
    · intro before reason since
      cases reason <;> exact safe_done since
  · intro before reason later drifts further _
    exact (((since.drift drifts).after _ _).drift further)

/-- Executions that are known are failed with respect, by induction over their list. -/
theorem safe_recoverAll {executions : List Execution} (since : Since base scene)
    (known : ∀ execution ∈ executions, Known execution [] scene)
    : crowd.serves.Safe Respectful (fun _ later => Since base later)
        (ExceptT.run (Service.recoverAll executions)) scene := by
  induction executions generalizing base scene with
  | nil => exact safe_done since
  | cons execution executions ih =>
      obtain ⟨here, others⟩ := List.forall_mem_cons.mp known
      have both : crowd.serves.Safe Respectful (fun _ later => Since scene.store later)
          (ExceptT.run (Service.recoverAll (execution :: executions))) scene := by
        refine safe_except_bind stable_since (safe_recoverOne (.refl since.tidy) here)
          fun one later further => ?_
        refine safe_except_bind stable_since (ih further fun execution member =>
          (others execution member).grows further.grows) fun _ _ => safe_done
      exact both.mono id fun _ later further => ⟨further.tidy, since.grows.trans further.grows⟩

/-- What is listed is known. -/
theorem known_of_listed {status : ExecutionStatus} {executions : List Execution}
    (tidy : scene.store.Tidy)
    (told : (Memory.answer (.listByStatus status) scene.store).1 = .ok executions)
    : ∀ execution ∈ executions, Known execution [] (scene.answered (.listByStatus status)) := by
  intro execution member
  cases told
  have there : execution ∈ scene.store.executions :=
    (List.mem_filter.mp (List.mem_mergeSort.mp member)).1
  have held : scene.store.execution? execution.id = some execution :=
    Keyed.find?_of_mem tidy.executions there
  exact ⟨⟨execution, held, rfl⟩, List.forall_mem_nil _⟩

theorem safe_recover (since : Since base scene)
    : crowd.serves.Safe Respectful (fun _ later => Since base later)
        (ExceptT.run Service.recover) scene := by
  refine safe_stored since (.listByStatus .running) (fun _ _ _ => ⟨trivial, nofun⟩) ?_
    fun _ _ since => since
  intro first running drifts told held
  have known := known_of_listed (since.drift drifts).tidy told
  refine safe_except_bind stable_since (safe_recoverAll held known) fun count later since => ?_
  refine safe_stored since (.listByStatus .pending) (fun _ _ _ => ⟨trivial, nofun⟩) ?_
    fun _ _ since => since
  intro second pending drifts told held
  have known := known_of_listed (since.drift drifts).tidy told
  exact safe_except_bind stable_since (safe_recoverAll held known) fun _ _ => safe_done

/-- The parts of operations respect what is there. -/
theorem parts (base : Memory) : crowd.Parts Respectful (Since base) where
  stable drifts since := since.drift drifts
  own {call} own _ _ := by
    cases call with
    | run => exact own.elim
    | _ => trivial
  createWorkflow user name definition since := safe_createWorkflow since user name definition
  createExecution catalog request since := safe_createExecution since catalog request
  execute settings id token since :=
    Company.safe_ofRun (safe_execute since settings id token) respectful_of_run
  stop id since := safe_stop since id
  recover := safe_recover

end Crowd

end Harvest

import Harvest.Proofs.Service.Chronicle

/-! Every workflow tells the truth about its last run. Operations are done one after another, stops
are requested at any time, and after each operation all summaries are up to date.
-/

namespace Harvest

open Realm Program ServiceM Relation

/-- Nothing is promised of single calls. -/
def Free {S : Signature} {σ : Type} (call : S.Call) (_ : σ) (_ : S.Answer call) (_ : σ) : Prop :=
  True

variable {scene later : Scene} {e execution : Execution} {phases : List PhaseRecord} {token : Token}
  {α β ε : Type}

theorem Stands.drift (stands : Stands e scene) (drifts : polite.Drifts scene later)
    : Stands e later :=
  stands.shifts drifts.acts.shifts

/-- The status of a run goes to its workflow and to no execution. -/
theorem Stands.noted (stands : Stands e scene) (workflow id : Uuid) (status : ExecutionStatus)
    : Stands e (scene.answered (.recordLastRunStatus workflow id status)) := by
  have same : (scene.answered (.recordLastRunStatus workflow id status)).store.executions
      = scene.store.executions := by
    change (scene.store.recordLastRunStatus workflow id status).2.executions = _
    rcases scene.store.recordLastRunStatus_leaves workflow id status with
      ⟨same, _⟩ | ⟨_, _, _, same⟩
      <;> rw [same]
    rfl
  rwa [Stands, Memory.execution?, same]

namespace Chronicle

-----------------------------------------------------------------------------------------
-- Runs
-----------------------------------------------------------------------------------------

/-- All workflows are up to date, and an execution is stored with a status. -/
structure With (e : Execution) (scene : Scene) : Prop where
  told : Chronicle none none scene
  stands : Stands e scene

theorem With.drift (held : With e scene) (drifts : polite.Drifts scene later) : With e later :=
  ⟨held.told.drift drifts, held.stands.drift drifts⟩

/-- A call outside the store changes nothing that is told. -/
theorem With.outside (held : With e scene) (call : RunCall) (outside : call.IsOutside)
    (answer : call.Answer)
    : With e (scene.after call answer) :=
  ⟨held.told.after call answer (made?_outside outside answer), held.stands.shifts (.of_eq rfl rfl)⟩

/-- An execution is stored with a status, which its workflow may not know yet. -/
structure Owing (e : Execution) (scene : Scene) : Prop where
  owes : Chronicle none (some e.id) scene
  stands : Stands e scene

theorem Owing.drift (held : Owing e scene) (drifts : polite.Drifts scene later) : Owing e later :=
  ⟨held.owes.drift drifts, held.stands.drift drifts⟩

theorem Owing.outside (held : Owing e scene) (call : RunCall) (outside : call.IsOutside)
    (answer : call.Answer)
    : Owing e (scene.after call answer) :=
  ⟨held.owes.after call answer (made?_outside outside answer),
    held.stands.shifts (.of_eq rfl rfl)⟩

/-- The status that was stored is told to the workflow. -/
theorem safe_note (held : Owing e scene)
    : polite.runs.Safe Free (fun _ later => With e later) (Run.noteLastRun e e.status) scene := by
  intro before drifts answer later replies
  rcases replies.store_inv with ⟨_, rfl, rfl⟩ | ⟨may, _⟩
  · have here := held.drift drifts
    have paid : With e (before.answered (.recordLastRunStatus e.workflowId e.id e.status)) :=
      ⟨here.owes.pay here.stands, here.stands.noted ..⟩
    exact ⟨trivial, fun last more => paid.drift more⟩
  · exact may.elim

/-- An execution is brought to its end, and its workflow is told. -/
theorem safe_finalize (chronicle : Chronicle none none scene) (execution : Execution)
    (status : ExecutionStatus) (credits : Nat) (stopped : Bool) (start : Nat)
    : polite.runs.Safe Free (fun _ later => Chronicle none none later)
        (Run.finalize execution status credits stopped start) scene := by
  refine Company.safe_tells (.task .now) trivial (fun _ _ _ => trivial) fun before time drifts => ?_
  have told := (chronicle.drift drifts).after (.task .now) time rfl
  let finished : Execution := { execution with
    status := status
    completedAt := some time
    credits := credits
    stopRequested := execution.stopRequested || stopped }
  refine Company.safe_asks (.updateExecution finished) (fun _ _ _ _ _ => trivial) ?_ ?_
  · intro before _ drifts respects granted
    have owing : Owing finished (before.answered (.updateExecution finished)) := by
      have updated := (told.drift drifts).update respects granted
      exact ⟨updated.1, updated.2⟩
    refine Company.safe_tells .uptime trivial (fun _ _ _ => trivial) fun _ millis drifts => ?_
    have owing := (owing.drift drifts).outside .uptime trivial millis
    refine Company.safe_tells (.task .now) trivial (fun _ _ _ => trivial) fun _ time' drifts => ?_
    have owing := (owing.drift drifts).outside (.task .now) trivial time'
    refine Company.safe_tells (.emit _) trivial (fun _ _ _ => trivial) fun _ done drifts => ?_
    have owing := (owing.drift drifts).outside (.emit _) trivial done
    exact (safe_note owing).followed fun _ before held later drifts => held.told.drift drifts
  · intro before reason drifts _ later further
    exact ((told.drift drifts).after _ _ (made?_refused _ reason)).drift further

theorem safe_conclude (chronicle : Chronicle none none scene) (execution : Execution)
    (summary : Run.Summary) (start : Nat)
    : polite.runs.Safe Free (fun _ later => Chronicle none none later)
        (Run.conclude execution summary start) scene := by
  refine (safe_finalize chronicle execution _ _ _ start).followed fun result later told => ?_
  cases result <;> exact fun _ drifts => told.drift drifts

theorem safe_abort (chronicle : Chronicle none none scene) (execution : Execution)
    (reason : StoreError) (start : Nat)
    : polite.runs.Safe Free (fun _ later => Chronicle none none later)
        (Run.abort execution reason start) scene := by
  have rest {scene : Scene} (told : Chronicle none none scene) (credits : Nat) (stopped : Bool)
      {next : Except StoreError Execution → RunM (Except SetupError RunOutcome)}
      (ends : ∀ result, ∃ value, next result = .done value)
      : polite.runs.Safe Free (fun _ later => Chronicle none none later)
          ((Run.finalize execution .failed credits stopped start).bind next) scene := by
    refine (safe_finalize told execution _ credits stopped start).followed fun result _ told => ?_
    obtain ⟨value, same⟩ := ends result
    exact same ▸ fun _ drifts => told.drift drifts
  refine Company.safe_asks (.getExecution execution.id) (fun _ _ _ _ _ => trivial) ?_ ?_
  · intro before current drifts _ _
    refine rest ((chronicle.drift drifts).after _ _ rfl) current.credits current.stopRequested ?_
    rintro (_ | _) <;> exact ⟨_, rfl⟩
  · intro before _ drifts _
    refine rest ((chronicle.drift drifts).after _ _ rfl) 0 false ?_
    rintro (_ | _) <;> exact ⟨_, rfl⟩

/-- An execution that is marked as running stands as running, and its workflow is told. -/
theorem safe_markRunning (chronicle : Chronicle none none scene)
    {next : Execution → ExceptT SetupError RunM β}
    (rest
      : ∀ time before,
          With (Run.started execution time) before
          → polite.runs.Safe Free (fun _ later => Chronicle none none later)
              (ExceptT.run (next (Run.started execution time))) before)
    : polite.runs.Safe Free (fun _ later => Chronicle none none later)
        (ExceptT.run (Run.markRunning execution >>= next)) scene := by
  have ends {value : Except SetupError β} {scene : Scene} (told : Chronicle none none scene)
      : polite.runs.Safe Free (fun _ later => Chronicle none none later) (.done value) scene :=
    fun _ drifts => told.drift drifts
  refine Company.safe_tells (.task .now) trivial (fun _ _ _ => trivial) fun before time drifts => ?_
  have told := (chronicle.drift drifts).after (.task .now) time rfl
  let running := Run.started execution time
  refine Company.safe_asks (.updateExecution running) (fun _ _ _ _ _ => trivial) ?_ ?_
  · intro before _ drifts respects granted
    have owing : Owing running (before.answered (.updateExecution running)) := by
      have updated := (told.drift drifts).update respects granted
      exact ⟨updated.1, updated.2⟩
    let move : StoreCall := .setPhaseStatuses execution.id .created .pending
    refine Company.safe_asks move (fun _ _ _ _ _ => trivial) ?_ ?_
    · intro before _ drifts respects _
      have here := owing.drift drifts
      have aside : move.IsAside := trivial
      have owing : Owing running (before.answered move) :=
        ⟨here.owes.aside aside respects, here.stands.shifts (shifts_aside aside before.store)⟩
      exact safe_lift_bind (safe_note owing) fun _ before held => rest time before held
    · intro _ _ _ told
      exact told.elim (fun refused => by cases refused) False.elim
  · intro before reason drifts _
    exact ends ((told.drift drifts).after _ _ (made?_refused _ reason))

/-- A step of a walk over phases changes nothing that is told, while the execution is running. -/
theorem With.step (held : With e scene) (running : e.status = .running)
    (named : e.id = execution.id) {call : RunCall} (step : Run.IsStep execution phases token call)
    {answer : call.Answer} (replies : polite.Replies call scene answer later)
    : With e later := by
  cases replies with
  | store call scene respects =>
      have aside (aside : call.IsAside) : With e (scene.answered call) :=
        ⟨held.told.aside aside respects, held.stands.shifts (shifts_aside aside scene.store)⟩
      cases step with
      | quiet quiet => exact quiet.elim
      | read => exact aside trivial
      | keep => exact aside trivial
      | log => exact aside trivial
      | count same _ runs =>
          have kept := held.told.keep held.stands (same.trans named.symm)
            (runs.trans running.symm) respects
          exact ⟨kept.1, kept.2⟩
  | fault may => exact may.elim
  | fresh id scene => exact ⟨held.told.withFresh id, held.stands.shifts (.of_eq rfl rfl)⟩
  | outside _ outside => exact held.outside _ outside _

/-- A run leaves every workflow up to date, whatever its tasks do. -/
theorem safe_execute (chronicle : Chronicle none none scene) (settings : RunSettings) (id : Uuid)
    (token : Token)
    : polite.runs.Safe Free (fun _ later => Chronicle none none later)
        (Run.execute settings id token) scene := by
  rw [Run.execute_eq]
  refine Company.safe_load (Chronicle none none) (fun drifts told => told.drift drifts) ?_
    (fun _ _ _ => trivial) ?_ (fun _ _ told => told) chronicle
  · rintro _ _ answer (rfl | rfl) _ told <;> exact told.after _ _ rfl
  · intro first execution flow last _ _ _ _ _ told
    let listed := last.store.planned id
    replace told : Chronicle none none (last.answered (.listPhases id)) := told.after _ _ rfl
    unfold Run.proceed
    refine Company.safe_tells .uptime trivial (fun _ _ _ => trivial) fun _ start drifts => ?_
    refine safe_markRunning ((told.drift drifts).after .uptime start rfl) ?_
    intro time before held
    let running := Run.started execution time
    have named : running.id = execution.id := rfl
    refine Company.safe_tells (.task .now) trivial (fun _ _ _ => trivial) fun _ time' drifts => ?_
    replace held := (held.drift drifts).outside (.task .now) trivial time'
    refine Company.safe_tells (.emit _) trivial (fun _ _ _ => trivial) fun _ done drifts => ?_
    replace held := (held.drift drifts).outside (.emit _) trivial done
    have safe {α : Type} {part : RunM α} {scene : Scene}
        (steps : part.Only (Run.IsStep execution listed token)) (held : With running scene)
        : polite.runs.Safe Free (fun _ later => With running later) part scene :=
      steps.safe (fun drifts held => held.drift drifts)
        (fun step replies held => ⟨trivial, held.step rfl named step replies⟩) held
    have walk : (Run.LoopM.on (Run.runPhases settings running flow token 0 0 listed) .empty).Only
        (Run.IsStep execution listed token) := by
      refine Run.runPhases_steps settings ?_ ?_ flow token (fun _ member => member) 0 0 .empty
      · rfl
      · rfl
    refine safe_lift_bind (safe walk held) ?_
    rintro ⟨looped, left⟩ later held
    have ends {scene : Scene} (told : Chronicle none none scene)
        : polite.runs.Safe Free (fun _ later => Chronicle none none later)
            (Run.windUp running start looped) scene := by
      cases looped with
      | ok summary => exact safe_conclude told running summary start
      | error reason => exact safe_abort told running reason start
    cases settings.closesBrowser with
    | false => exact ends held.told
    | true =>
        exact safe_lift_bind (safe (Run.only_quiet (Run.release_quiet left)) held)
          fun _ _ held => ends held.told

-----------------------------------------------------------------------------------------
-- New workflows and executions
-----------------------------------------------------------------------------------------

theorem stable : polite.serves.Stable (Chronicle none none) := fun drifts told => told.drift drifts

/-- What is left to do is nothing. -/
theorem safe_done (chronicle : Chronicle none none scene) {value : β}
    : polite.serves.Safe Free (fun _ later => Chronicle none none later) (.done value) scene :=
  fun _ drifts => chronicle.drift drifts

/-- The store is asked for something that it never refuses. -/
theorem safe_granted {wrap : StoreError → ε} (call : StoreCall)
    (grants : ∀ m, ∃ result, (Memory.answer call m).1 = .ok result)
    {next : call.Result → ExceptT ε ServiceM β} {wanted : Except ε β → Scene → Prop}
    (granted
      : ∀ before result,
          polite.Drifts scene before
          → call.Respects before.store
          → (Memory.answer call before.store).1 = .ok result
          → polite.serves.Safe Free wanted (ExceptT.run (next result)) (before.answered call))
    : polite.serves.Safe Free wanted (ExceptT.run (ServiceM.stored wrap call >>= next)) scene := by
  refine Company.safe_stored (fun _ _ _ _ _ => trivial) granted ?_
  intro before _ _ _ _ refused
  obtain ⟨result, grant⟩ := grants before.store
  exact absurd ((refused.resolve_right id).symm.trans grant) nofun

/-- A workflow that is saved has had no runs. -/
theorem safe_createWorkflow (chronicle : Chronicle none none scene)
    (user name definition : String)
    : polite.serves.Safe Free (fun _ later => Chronicle none none later)
        (ExceptT.run (Service.createWorkflow user name definition)) scene := by
  unfold Service.createWorkflow
  cases Flow.parse definition with
  | error reason => exact safe_done chronicle
  | ok flow =>
      refine Company.safe_freshId (.nil scene) (fun _ _ => trivial) fun _ id drifts _ _ => ?_
      have told := (chronicle.drift drifts).withFresh id
      refine Company.safe_outside (.task .now) trivial (fun _ _ => trivial) fun _ time drifts => ?_
      replace told := (told.drift drifts).after (.task .now) time rfl
      let w := Workflow.fresh id time user name definition
      refine safe_granted (.createWorkflow w) (fun _ => ⟨(), rfl⟩) fun _ _ drifts respects _ => ?_
      exact safe_done ((told.drift drifts).save respects rfl rfl rfl)

/-- An execution that is made is the last run of its workflow. -/
theorem safe_createExecution (chronicle : Chronicle none none scene) (catalog : Catalog)
    (request : RunRequest)
    : polite.serves.Safe Free (fun _ later => Chronicle none none later)
        (ExceptT.run (Service.createExecution catalog request)) scene := by
  refine Company.safe_stored (fun _ _ _ _ _ => trivial) ?_ ?_
  · intro before workflow drifts _ _
    change Workflow at workflow
    have told : Chronicle none none (before.answered (.getWorkflow request.workflow)) :=
      (chronicle.drift drifts).after _ _ rfl
    cases workflow.userId != request.user with
    | true => exact safe_done told
    | false =>
        rw [if_neg Bool.false_ne_true, except_bind]
        cases Service.planOf catalog request.definition with
        | error reason => exact safe_done told
        | ok plan =>
            refine Company.safe_freshId (.nil _) (fun _ _ => trivial) fun _ id drifts _ own => ?_
            replace told := (told.drift drifts).withFresh id
            refine Company.safe_outside (.task .now) trivial (fun _ _ => trivial)
              fun _ time drifts => ?_
            replace told := (told.drift drifts).after (.task .now) time rfl
            replace own := (own.drift drifts).after (.task .now) time
            let e := Execution.fresh id workflow.id time request.user request.definition
            refine safe_lift_bind (Company.safe_phaseRecords catalog id plan.nodes 0 own
              (fun drifts told => told.drift drifts) (fun told id => told.withFresh id)
              (fun _ _ => trivial) told) ?_
            rintro phases later ⟨_, _, told⟩
            refine safe_granted (.createExecution e phases) (fun _ => ⟨(), rfl⟩) ?_
            intro before _ drifts respects _
            obtain ⟨told, stands, latest⟩ := (told.drift drifts).create respects
            let note : StoreCall := .recordLastRunStart workflow.id id .pending time
            have started {before : Scene}
                (drifts : polite.Drifts _ before)
                : Chronicle none none (before.answered note) :=
              (told.drift drifts).start (stands.drift drifts) (drifts.past ▸ latest)
            refine Company.safe_stored (fun _ _ _ _ _ => trivial) ?_ ?_
            · exact fun _ _ drifts _ _ => safe_done (started drifts)
            · intro before reason later drifts further refused
              have same := Company.answered_of_refused (refused.resolve_right (False.elim ·))
              exact (same ▸ started drifts).drift further
  · intro before reason later drifts further _
    exact ((chronicle.drift drifts).after _ _ rfl).drift further

/-- A stop changes nothing that is told. -/
theorem safe_stop (chronicle : Chronicle none none scene) (id : Uuid)
    : polite.serves.Safe Free (fun _ later => Chronicle none none later)
        (ExceptT.run (Service.stop id)) scene := by
  refine Company.safe_stored (fun _ _ _ _ _ => trivial) ?_ ?_
  · intro before _ drifts respects _
    have told := chronicle.drift drifts
    have stopped : Memory.Stopped before.store (before.answered (.requestStop id)).store :=
      .single ⟨id, rfl⟩
    replace told : Chronicle none none (before.answered (.requestStop id)) :=
      told.still stopped.shifts (told.tidy.answer respects) (made_snoc rfl)
    exact Company.safe_own (.cancel id) trivial (fun _ _ => trivial)
      fun _ _ drifts => safe_done (told.drift drifts)
  · intro before reason later drifts further _
    exact ((chronicle.drift drifts).after _ _ rfl).drift further

-----------------------------------------------------------------------------------------
-- Recovery
-----------------------------------------------------------------------------------------

/-- An execution that is failed tells its workflow so. -/
theorem safe_recoverOne (chronicle : Chronicle none none scene) (execution : Execution)
    : polite.serves.Safe Free (fun _ later => Chronicle none none later)
        (ExceptT.run (Service.recoverOne execution)) scene := by
  let move : StoreCall := .setPhaseStatuses execution.id .running .failed
  refine safe_granted move (fun _ => ⟨_, rfl⟩) fun before _ drifts respects _ => ?_
  have told : Chronicle none none (before.answered move) :=
    (chronicle.drift drifts).aside trivial respects
  refine Company.safe_outside (.task .now) trivial (fun _ _ => trivial) fun _ time drifts => ?_
  replace told := (told.drift drifts).after (.task .now) time rfl
  let failed := { execution with status := .failed, completedAt := some time }
  change polite.serves.Safe _ _
    (ExceptT.run (liftM (ofRun (RunM.store (.updateExecution failed))) >>= _)) _
  rw [except_lift_bind]
  refine Company.safe_asked (fun _ _ _ _ _ => trivial) ?_ ?_
  · intro before _ drifts respects granted
    have owing : Owing failed (before.answered (.updateExecution failed)) := by
      have updated := (told.drift drifts).update respects granted
      exact ⟨updated.1, updated.2⟩
    refine safe_lift_bind (Company.safe_ofRun (safe_note owing) fun _ => trivial) ?_
    exact fun _ _ held => safe_done held.told
  · intro before reason drifts _
    replace told
        : Chronicle none none
            (before.after (.store (.updateExecution failed)) (.error reason)) :=
      (told.drift drifts).after _ _ rfl
    cases reason <;> exact safe_done told

/-- The workflows of several executions are told, by induction over their list. -/
theorem safe_recoverAll (chronicle : Chronicle none none scene) (executions : List Execution)
    : polite.serves.Safe Free (fun _ later => Chronicle none none later)
        (ExceptT.run (Service.recoverAll executions)) scene := by
  induction executions generalizing scene with
  | nil => exact safe_done chronicle
  | cons execution executions ih =>
      refine safe_except_bind stable (safe_recoverOne chronicle execution) fun _ _ told => ?_
      exact safe_except_bind stable (ih told) fun _ _ told => safe_done told

theorem safe_recover (chronicle : Chronicle none none scene)
    : polite.serves.Safe Free (fun _ later => Chronicle none none later)
        (ExceptT.run Service.recover) scene := by
  refine safe_granted (.listByStatus .running) (fun _ => ⟨_, rfl⟩)
    fun before running drifts _ _ => ?_
  have told : Chronicle none none (before.answered (.listByStatus .running)) :=
    (chronicle.drift drifts).after _ _ rfl
  refine safe_except_bind stable (safe_recoverAll told running) fun _ _ told => ?_
  refine safe_granted (.listByStatus .pending) (fun _ => ⟨_, rfl⟩)
    fun before pending drifts _ _ => ?_
  replace told : Chronicle none none (before.answered (.listByStatus .pending)) :=
    (told.drift drifts).after _ _ rfl
  exact safe_except_bind stable (safe_recoverAll told pending) fun _ _ told => safe_done told

/-- The parts of operations leave every workflow up to date. -/
theorem parts : polite.Parts (Free (S := serviceCalls)) (Chronicle none none) where
  stable := stable
  own _ _ _ := trivial
  createWorkflow user name definition told := safe_createWorkflow told user name definition
  createExecution catalog request told := safe_createExecution told catalog request
  execute settings id token told :=
    Company.safe_ofRun (safe_execute told settings id token) fun _ => trivial
  stop id told := safe_stop told id
  recover := safe_recover

end Chronicle

-----------------------------------------------------------------------------------------
-- Turns of other executions
-----------------------------------------------------------------------------------------

/-- The call leaves a workflow as it is. -/
def StoreCall.Leaves (w : Workflow) (call : StoreCall) : Prop :=
  ∀ m : Memory, m.workflow? w.id = some w → (Memory.answer call m).2.workflow? w.id = some w

/-- The same of the calls of a run. -/
def RunLeaves (w : Workflow) : (call : RunCall) → Scene → call.Answer → Scene → Prop
  | .store call, _, _, _ => call.Leaves w
  | _, _, _, _ => True

/-- The same of the calls of the service. -/
def ServiceLeaves (w : Workflow) : (call : ServiceCall) → Scene → call.Answer → Scene → Prop
  | .run call, before, answer, after => RunLeaves w call before answer after
  | _, _, _, _ => True

/-- A part of the service that runs or fails one execution. -/
inductive Service.IsTurn (id : Uuid) : {α : Type} → ServiceM α → Prop where
  | run (settings : RunSettings) : IsTurn id (ExceptT.run (run settings id))
  | background (settings : RunSettings) (token : Token) : IsTurn id (background settings id token)
  | recoverOne {execution : Execution} (named : execution.id = id)
      : IsTurn id (ExceptT.run (recoverOne execution))

section Turns

variable {w : Workflow} {call : StoreCall} {older : Uuid}

theorem leaves_aside (aside : call.IsAside) : call.Leaves w := by
  intro m held
  rw [Memory.workflow?, (shifts_aside aside m).workflows]
  exact held

theorem leaves_updateExecution (e : Execution) : (StoreCall.updateExecution e).Leaves w := by
  intro m held
  change (m.updateExecution e).2.workflow? w.id = some w
  rcases m.updateExecution_cases e with ⟨_, same⟩ | ⟨_, _, _, same⟩ <;> rw [same] <;> exact held

/-- The status of a run goes to no workflow whose last run is another. -/
theorem leaves_note (apart : w.lastRunId ≠ some older) (workflow : Uuid) (status : ExecutionStatus)
    : (StoreCall.recordLastRunStatus workflow older status).Leaves w := by
  intro m held
  change (m.recordLastRunStatus workflow older status).2.workflow? w.id = some w
  rcases m.recordLastRunStatus_leaves workflow older status with
    ⟨same, _⟩ | ⟨other, found, last, same⟩
  · rwa [same]
  · rw [same, Memory.workflow?_putWorkflow, if_neg]
    · exact held
    · rintro named
      obtain rfl : other.id = workflow := Memory.key_of_find? found
      have same : other = w := Option.some.inj (found.symm.trans (named ▸ held))
      exact apart (same ▸ last)

/-- The errands of a run leave a workflow whose last run is another. -/
theorem leaves_of_errand (apart : w.lastRunId ≠ some execution.id)
    (errand : Run.IsErrand execution phases token (.store call))
    : call.Leaves w := by
  cases errand with
  | step step =>
      cases step with
      | quiet quiet => exact quiet.elim
      | read => exact leaves_aside trivial
      | keep => exact leaves_aside trivial
      | log => exact leaves_aside trivial
      | count => exact leaves_updateExecution _
  | move => exact leaves_aside trivial
  | replace => exact leaves_updateExecution _
  | note status => exact leaves_note apart _ status

/-- Programs that do errands leave it. -/
theorem safe_errands (apart : w.lastRunId ≠ some execution.id) {part : RunM α}
    (errands : part.Only (Run.IsErrand execution phases token)) (scene : Scene)
    : stops.runs.Safe (RunLeaves w) (fun _ _ => True) part scene := by
  refine errands.safe (fun _ _ => trivial) (fun {call _ _ _} errand _ _ => ⟨?_, trivial⟩) trivial
  cases call with
  | store => exact leaves_of_errand apart errand
  | _ => trivial

/-- A run of another execution leaves the workflow. -/
theorem leaves_execute (apart : w.lastRunId ≠ some older) (settings : RunSettings) (token : Token)
    (scene : Scene)
    : stops.runs.Safe (RunLeaves w) (fun _ _ => True) (Run.execute settings older token) scene := by
  rw [Run.execute_eq]
  refine Company.safe_load (fun _ => True) (fun _ _ => trivial) (fun _ _ _ _ => trivial) ?_ ?_
    (fun _ _ _ => trivial) trivial
  · rintro _ _ _ _ (rfl | rfl) _ _ <;> exact leaves_aside trivial
  · intro first execution flow last _ held _ _ _ _
    obtain rfl : execution.id = older := Memory.key_of_find? held
    exact safe_errands apart (Run.proceed_errands settings execution.id token flow) _

theorem leaves_recoverOne (apart : w.lastRunId ≠ some execution.id) (scene : Scene)
    : stops.serves.Safe (ServiceLeaves w) (fun _ _ => True)
        (ExceptT.run (Service.recoverOne execution)) scene := by
  refine Company.safe_stored (fun _ _ _ _ _ => leaves_aside trivial) ?_ fun _ _ _ _ _ _ => trivial
  intro _ _ _ _ _
  refine Company.safe_outside (.task .now) trivial (fun _ _ => trivial) fun _ time _ => ?_
  let failed := { execution with status := .failed, completedAt := some time }
  change stops.serves.Safe _ _
    (ExceptT.run (liftM (ofRun (RunM.store (.updateExecution failed))) >>= _)) _
  rw [except_lift_bind]
  refine Company.safe_asked (fun _ _ _ _ _ => leaves_updateExecution _) ?_ ?_
  · intro _ _ _ _ _
    have note : (Run.noteLastRun execution .failed).Only (Run.IsErrand execution [] default) :=
      .ask (.note .failed) fun _ => .done _
    exact safe_lift_bind (Company.safe_ofRun (safe_errands apart note _) fun kept => kept)
      fun _ _ _ _ _ => trivial
  · intro _ reason _ _
    cases reason <;> exact fun _ _ => trivial

/-- A turn of another execution leaves the workflow. -/
theorem leaves_turn (apart : w.lastRunId ≠ some older) {part : ServiceM α}
    (turn : Service.IsTurn older part) (scene : Scene)
    : stops.serves.Safe (ServiceLeaves w) (fun _ _ => True) part scene := by
  have run (settings : RunSettings) (token : Token) (scene : Scene)
      : stops.serves.Safe (ServiceLeaves w) (fun _ _ => True)
          (ofRun (Run.execute settings older token)) scene :=
    Company.safe_ofRun (leaves_execute apart settings token scene) fun kept => kept
  cases turn with
  | run settings =>
      refine Company.safe_own (.enlist older) trivial (fun _ _ => trivial) fun before token _ => ?_
      refine (run settings token before).followed fun _ later _ => ?_
      exact Company.safe_own (.dismiss older) trivial (fun _ _ => trivial) fun _ _ _ _ _ => trivial
  | background settings token =>
      refine (run settings token scene).followed fun _ later _ => ?_
      exact Company.safe_own (.dismiss older) trivial (fun _ _ => trivial) fun _ _ _ _ _ => trivial
  | recoverOne named => exact leaves_recoverOne (named ▸ apart) scene

end Turns

-----------------------------------------------------------------------------------------
-- Operations one after another
-----------------------------------------------------------------------------------------

/-- What operations come to that are done one after another from an empty store. -/
inductive Operated : Scene → Prop where
  | start : Operated (.start .empty)
  | next {α : Type} {part : ServiceM α} {value : α} {before after : Scene}
      (past : Operated before) (operation : Service.IsOperation part)
      (done : stops.serves.Reaches (part, before) (.done value, after))
      : Operated after

/-- After every operation all workflows are up to date, by induction over the operations. -/
theorem Operated.chronicle (operated : Operated scene) : Chronicle none none scene := by
  induction operated with
  | start =>
      refine ⟨Memory.tidy_empty, List.forall_mem_nil _, fun id w found => ?_⟩
      cases found
  | @next _ _ _ before _ _ operation done ih =>
      have since : Crowd.Since before.store before := .refl ih.tidy
      have respectful := (Crowd.parts before.store).operation operation since
      exact (safe_of_polite respectful (Chronicle.parts.operation operation ih)).ended done

/-- After any operations, done one after another while stops are requested at any time, the last run
of every workflow is the execution that was made of it last, with its time and its status as they
are stored. Nothing that becomes of another execution changes any of it.
-/
theorem last_run_truthful (operated : Operated scene) {id : Uuid} {w : Workflow}
    (held : scene.store.workflow? id = some w)
    : (((∀ e ∈ made scene.past, e.workflowId ≠ id)
          ∧ w.lastRunId = none
          ∧ w.lastRunAt = none
          ∧ w.lastRunStatus = none)
        ∨ ∃ e stored,
            latest? scene.past id = some e
            ∧ scene.store.execution? e.id = some stored
            ∧ w.lastRunId = some e.id
            ∧ w.lastRunAt = some stored.createdAt
            ∧ w.lastRunStatus = some stored.status)
      ∧ ∀ {α : Type} {part rest : ServiceM α} {older : Uuid} {later : Scene},
          Service.IsTurn older part
          → w.lastRunId ≠ some older
          → stops.serves.Reaches (part, scene) (rest, later)
          → later.store.workflow? id = some w := by
  have told := operated.chronicle
  obtain rfl : w.id = id := Memory.key_of_find? held
  refine ⟨?_, fun turn apart reached => ?_⟩
  · cases told.noted w.id w held nofun with
    | never nothing id time status =>
        refine Or.inl ⟨fun e member same => ?_, id, time, status⟩
        have missing := List.find?_eq_none.mp nothing e (List.mem_reverse.mpr member)
        exact missing (beq_iff_eq.mpr same)
    | @last e stored latest there id time status =>
        obtain ⟨other, found, fixed⟩ := told.stored e (Chronicle.mem_made latest).1
        rw [there, Option.some.injEq] at found
        have same : stored.createdAt = e.createdAt := by
          rw [found]
          exact congrArg (·.2.2.2.1) fixed
        exact Or.inr ⟨e, stored, latest, there, id, same ▸ time, status.resolve_left nofun⟩
  · refine (leaves_turn apart turn scene).preserved
      (fun scene => scene.store.workflow? w.id = some w) ?_ ?_ held reached
    · intro before after drifts found
      rw [Memory.workflow?, drifts.acts.shifts.workflows]
      exact found
    · intro call before answer after serves leaves found
      cases serves with
      | own => exact found
      | run replies =>
          cases replies with
          | store call => exact leaves _ found
          | _ => exact found

-----------------------------------------------------------------------------------------
-- A workflow that has run again
-----------------------------------------------------------------------------------------

namespace Run.Lone

/-- The workflow with what it tells of its last run. -/
def noted (id : Uuid) : Workflow :=
  { workflow with lastRunId := some id, lastRunAt := some time, lastRunStatus := some .pending }

/-- An execution of it that has not started, and its phase. -/
def executionOf (id : Uuid) : Execution := .fresh id (.ofNat 1) time "user" flow.text

def phaseOf (id execution : Uuid) : PhaseRecord :=
  .fresh id execution 1 0 "Launch" .launchBrowser (Node.bare "a" .launchBrowser).text

/-- An execution is made of it under new identifiers. -/
theorem reaches_made {w : Workflow} (known : ∃ id time status,
      w = { workflow with lastRunId := id, lastRunAt := time, lastRunStatus := status })
    (executions : List Execution) (phases : List PhaseRecord) (given : List Uuid)
    (past : List (Happening runCalls)) (one two : Uuid) (new : one ∉ given)
    (vacant : Memory.Vacant ⟨[w], executions, phases, []⟩ one) (new' : two ∉ one :: given)
    (vacant' : Memory.Vacant ⟨[w], executions, phases, []⟩ two)
    : ∃ past',
        stops.serves.Reaches
          (ExceptT.run (Service.createExecution catalog request),
            ⟨⟨[w], executions, phases, []⟩, given, past⟩)
          (.done (.ok (executionOf one)),
            ⟨⟨[noted one], Memory.insert Execution.id (executionOf one) executions,
                Memory.insert PhaseRecord.id (phaseOf two one) phases, []⟩,
              two :: one :: given, past'⟩) := by
  obtain ⟨id, at', status, rfl⟩ := known
  apply Exists.intro
  refine .reply (.run (.store (.getWorkflow (.ofNat 1)) _ trivial)) ?_
  change stops.serves.Reaches
    (ExceptT.run (ExceptT.mk (pure (Service.planOf catalog flow.text)) >>= _), _) _
  rw [Program.except_bind, planned]
  refine .reply (.run (.fresh one _ new vacant)) ?_
  refine .reply (.run (.outside (.task .now) trivial time _)) ?_
  refine .reply (.run (.fresh two _ new' vacant')) ?_
  refine .reply (.run (.store (.createExecution (executionOf one) [phaseOf two one]) _ trivial)) ?_
  refine .reply (.run (.store (.recordLastRunStart (.ofNat 1) one .pending time) _ trivial)) ?_
  exact .refl

/-- The scene once two executions are made of it. -/
def twice (past : List (Happening runCalls)) : Scene :=
  { store :=
      { workflows := [noted (.ofNat 4)]
        executions := [executionOf (.ofNat 2), executionOf (.ofNat 4)]
        phases := [phaseOf (.ofNat 3) (.ofNat 2), phaseOf (.ofNat 5) (.ofNat 4)]
        logs := [] }
    given := [.ofNat 5, .ofNat 4, .ofNat 3, .ofNat 2, .ofNat 1]
    past := past }

/-- A workflow is saved, and two executions are made of it. -/
theorem operated : ∃ past, Operated (twice past) := by
  obtain ⟨flow', parsed, _⟩ := Service.planned_of_planOf planned
  have saved : ∃ past,
      stops.serves.Reaches
        (ExceptT.run (Service.createWorkflow "user" "lone" flow.text), .start .empty)
        (.done (.ok workflow), ⟨⟨[workflow], [], [], []⟩, [.ofNat 1], past⟩) := by
    apply Exists.intro
    simp only [Service.createWorkflow, parsed]
    refine .reply (.run (.fresh (.ofNat 1) _ List.not_mem_nil ⟨rfl, rfl, rfl⟩)) ?_
    refine .reply (.run (.outside (.task .now) trivial time _)) ?_
    exact .reply (.run (.store (.createWorkflow workflow) _ trivial)) .refl
  obtain ⟨past, saved⟩ := saved
  obtain ⟨past, once⟩ := reaches_made (w := workflow) ⟨_, _, _, rfl⟩ [] [] [.ofNat 1] past
    (.ofNat 2) (.ofNat 3) (by decide) ⟨rfl, rfl, rfl⟩ (by decide) ⟨rfl, rfl, rfl⟩
  obtain ⟨past, twice⟩ := reaches_made (w := noted (.ofNat 2)) ⟨_, _, _, rfl⟩
    [executionOf (.ofNat 2)] [phaseOf (.ofNat 3) (.ofNat 2)] [.ofNat 3, .ofNat 2, .ofNat 1] past
    (.ofNat 4) (.ofNat 5)
    (by decide) ⟨rfl, rfl, rfl⟩ (by decide) ⟨rfl, rfl, rfl⟩
  have begun : Operated _ := .next .start (.createWorkflow "user" "lone" flow.text) saved
  exact ⟨past, .next (.next begun (.createExecution catalog request) once)
    (.createExecution catalog request) twice⟩

/-- The first execution is failed as one that its process left. -/
theorem recovered (past : List (Happening runCalls))
    : ∃ later,
        stops.serves.Reaches (ExceptT.run (Service.recoverOne (executionOf (.ofNat 2))), twice past)
          (.done (.ok true), later) := by
  apply Exists.intro
  refine .reply (.run (.store (.setPhaseStatuses (.ofNat 2) .running .failed) _ trivial)) ?_
  refine .reply (.run (.outside (.task .now) trivial time _)) ?_
  refine .reply (.run (.store (.updateExecution _) _ trivial)) ?_
  refine .reply (.run (.store (.recordLastRunStatus (.ofNat 1) (.ofNat 2) .failed) _ trivial)) ?_
  exact .refl

end Run.Lone

/-- A workflow of which two executions were made tells of the second, and failing the first when its
process has died does not change that.
-/
theorem last_run_truthful_superseded
    : ∃ scene later w e,
        Operated scene
        ∧ scene.store.workflow? (.ofNat 1) = some w
        ∧ latest? scene.past (.ofNat 1) = some e
        ∧ w.lastRunId = some e.id
        ∧ e.id ≠ .ofNat 2
        ∧ stops.serves.Reaches
            (ExceptT.run (Service.recoverOne (Run.Lone.executionOf (.ofNat 2))), scene)
            (.done (.ok true), later)
        ∧ later.store.workflow? (.ofNat 1) = some w := by
  obtain ⟨past, operated⟩ := Run.Lone.operated
  obtain ⟨later, recovered⟩ := Run.Lone.recovered past
  have held : (Run.Lone.twice past).store.workflow? (.ofNat 1)
      = some (Run.Lone.noted (.ofNat 4)) :=
    rfl
  obtain ⟨tells, turns⟩ := last_run_truthful operated held
  rcases tells with ⟨_, none, _⟩ | ⟨e, _, latest, _, last, _⟩
  · cases none
  · have apart : e.id ≠ .ofNat 2 := by
      intro same
      rw [same] at last
      cases last
    exact ⟨_, later, _, e, operated, rfl, latest, last, apart, recovered,
      turns (.recoverOne rfl) (by decide) recovered⟩

end Harvest

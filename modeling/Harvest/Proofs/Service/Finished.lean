import Harvest.Proofs.Service.Opening
import Harvest.Service.Report
import Harvest.Service.Supervise

/-! What is finished stays as it is. No operation of the service reaches an execution that has come
to its end, so what is told of it is the same ever after, and no run of it starts.
-/

namespace Harvest

open Relation

namespace Arena

open Realm Program ServiceM Service

variable {σ : Type} [Ledger σ] {mine : Uuid → Prop} {arena : Arena σ} {execution finished : Uuid}

-----------------------------------------------------------------------------------------
-- New workflows and executions
-----------------------------------------------------------------------------------------

/-- A workflow is no part of an execution. -/
theorem safe_createWorkflow (finished : Uuid) (user name definition : String) (arena : Arena σ)
    : (Arena.serving mine).Safe (Preserves finished) (fun _ _ => True)
        (ExceptT.run (createWorkflow user name definition)) arena := by
  unfold createWorkflow
  cases Flow.parse definition with
  | error reason => exact fun _ _ => trivial
  | ok flow =>
      change (Arena.serving mine).Safe _ _ (ExceptT.run (liftM freshId >>= _)) _
      rw [except_lift_bind]
      have none : Reserved mine [] arena := ⟨.nil, nofun, nofun, nofun⟩
      refine safe_freshId none (preserves_of_idle trivial) fun id later _ => ?_
      rw [except_lift_bind]
      refine safe_now (preserves_of_idle trivial) fun before time _ => ?_
      refine safe_stored _ (preserves_of_spares fun _ => trivial) (fun _ _ => trivial) ?_
      exact fun _ _ _ _ _ _ => trivial

/-- An execution that is made is a new one, and starting it is no call of the store. -/
theorem safe_trigger (finished : Uuid) (settings : RunSettings) (request : RunRequest)
    (arena : Arena σ)
    : (Arena.serving mine).Safe (Preserves finished) (fun _ _ => True)
        (ExceptT.run (trigger settings request)) arena := by
  unfold trigger
  rw [except_bind]
  refine (safe_createExecution finished settings.catalog request arena).followed ?_
  intro result later _
  cases result with
  | error reason => exact fun _ _ => trivial
  | ok execution =>
      refine safe_alone (.enlist execution.id) trivial fun _ token later _ _ => ?_
      exact safe_alone (.spawn execution.id token) trivial fun _ _ _ _ _ _ _ => trivial

-----------------------------------------------------------------------------------------
-- Runs
-----------------------------------------------------------------------------------------

/-- A run keeps to its own execution, which is not finished when it writes. -/
theorem safe_execute (ours : mine execution) (finished : Uuid) (settings : RunSettings)
    (token : Token) (arena : Arena σ)
    : (Arena.serving mine).Safe (Preserves finished) (fun _ _ => True)
        (ofRun (Run.execute settings execution token)) arena := by
  obtain ⟨charge, catalog, rfl, rfl, suits⟩ :=
    Run.Charge.exists_suits settings.catalog execution token arena
  have safe := Run.Charge.safe_execute ours catalog.symm suits
  exact (safe_ofRun safe preserves_of_proper).mono id fun _ _ _ => trivial

theorem safe_run (ours : mine execution) (finished : Uuid) (settings : RunSettings)
    (arena : Arena σ)
    : (Arena.serving mine).Safe (Preserves finished) (fun _ _ => True)
        (ExceptT.run (Service.run settings execution)) arena := by
  refine safe_alone (.enlist execution) trivial fun _ token later _ _ => ?_
  refine (safe_execute ours finished settings token later).followed fun outcome later _ => ?_
  exact safe_alone (.dismiss execution) trivial fun _ _ _ _ _ _ _ => trivial

theorem safe_background (ours : mine execution) (finished : Uuid) (settings : RunSettings)
    (token : Token) (arena : Arena σ)
    : (Arena.serving mine).Safe (Preserves finished) (fun _ _ => True)
        (background settings execution token) arena := by
  refine (safe_execute ours finished settings token arena).followed fun outcome later _ => ?_
  exact safe_alone (.dismiss execution) trivial fun _ _ _ _ _ _ _ => trivial

/-- An execution that is made and run is a new one. -/
theorem safe_triggerAndWait (finished : Uuid) (settings : RunSettings) (request : RunRequest)
    (arena : Arena σ)
    : (Arena.serving mine).Safe (Preserves finished) (fun _ _ => True)
        (ExceptT.run (triggerAndWait settings request)) arena := by
  unfold triggerAndWait
  rw [except_bind, except_adapt, bind_bind]
  refine (safe_createExecution finished settings.catalog request arena).followed ?_
  intro result later made
  cases result with
  | error reason => exact fun _ _ => trivial
  | ok execution =>
      obtain ⟨_, filed⟩ := made execution rfl
      change (Arena.serving mine).Safe _ _ (ExceptT.run (ExceptT.adapt _ _)) _
      rw [except_adapt]
      exact (safe_run filed.ours finished settings later).followed fun _ _ _ _ _ => trivial

/-- A finished execution is not asked to stop. -/
theorem safe_stop (finished execution : Uuid) (arena : Arena σ)
    : (Arena.serving mine).Safe (Preserves finished) (fun _ _ => True)
        (ExceptT.run (stop execution)) arena := by
  refine safe_stored (.requestStop execution) (preserves_of_leaves ?_) (fun _ _ => trivial) ?_
  · intro before _ ended
    exact (leftAlone_requestStop before.sound execution finished).finished ended
  · intro _ _ _ _
    exact safe_alone (.cancel execution) trivial fun _ _ _ _ _ _ _ => trivial

-----------------------------------------------------------------------------------------
-- Recovery
-----------------------------------------------------------------------------------------

/-- What is listed as unfinished is not finished. -/
theorem apart_of_listed {status : ExecutionStatus} (unfinished : ¬ status.isTerminal)
    {executions : List Execution} {before later : σ}
    (effect : (StoreCall.listByStatus status).Effect executions before later)
    (ended : IsFinished finished before)
    : ∀ execution ∈ executions, execution.id ≠ finished := by
  rintro execution member rfl
  obtain ⟨standing, held, terminal⟩ := ended
  obtain ⟨same, held'⟩ := effect.2.2 execution member
  rw [held, Option.some.injEq] at held'
  rw [held'] at terminal
  exact unfinished (same ▸ terminal)

/-- An execution is failed without a part in another one. -/
theorem safe_recoverOne {execution : Execution} (apart : execution.id ≠ finished)
    (arena : Arena σ)
    : (Arena.serving mine).Safe (Preserves finished) (fun _ _ => True)
        (ExceptT.run (recoverOne execution)) arena := by
  refine safe_stored (.setPhaseStatuses execution.id .running .failed)
    (preserves_of_spares fun _ => apart) (fun _ _ => trivial) fun _ _ _ _ => ?_
  change (Arena.serving mine).Safe _ _ (ExceptT.run (liftM now >>= _)) _
  rw [except_lift_bind]
  refine safe_now (preserves_of_idle trivial) fun _ time _ => ?_
  let failed := { execution with status := .failed, completedAt := some time }
  change (Arena.serving mine).Safe _ _
    (ExceptT.run (liftM (ofRun (RunM.store (.updateExecution failed))) >>= _)) _
  rw [except_lift_bind]
  refine safe_asked (.updateExecution failed) (preserves_of_spares fun _ => apart) ?_ ?_
  · intro before _ _ _
    change (Arena.serving mine).Safe _ _
      (ExceptT.run (liftM (ofRun (Run.noteLastRun execution .failed)) >>= _)) _
    rw [except_lift_bind]
    let note : StoreCall := .recordLastRunStatus execution.workflowId execution.id .failed
    change (Arena.serving mine).Safe _ _
      ((ofRun (RunM.store note)).bind fun _ => ExceptT.run (pure true)) _
    exact safe_asked note (preserves_of_spares fun _ => trivial)
      (fun _ _ _ _ _ _ => trivial) fun _ _ _ _ _ => trivial
  · intro before reason _
    cases reason <;> exact fun _ _ => trivial

/-- Failing the executions of a list has no part in one that is not on it, by induction over the
list.
-/
theorem safe_recoverAll {executions : List Execution}
    (apart : ∀ execution ∈ executions, execution.id ≠ finished) (arena : Arena σ)
    : (Arena.serving mine).Safe (Preserves finished) (fun _ _ => True)
        (ExceptT.run (recoverAll executions)) arena := by
  induction executions generalizing arena with
  | nil => exact fun _ _ => trivial
  | cons execution executions ih =>
      obtain ⟨here, others⟩ := List.forall_mem_cons.mp apart
      unfold recoverAll
      rw [except_bind]
      refine (safe_recoverOne here arena).followed fun one later _ => ?_
      cases one with
      | error reason => exact fun _ _ => trivial
      | ok one =>
          change (Arena.serving mine).Safe _ _ (ExceptT.run (recoverAll executions >>= _)) later
          rw [except_bind]
          refine (ih others later).followed fun count last _ => ?_
          cases count <;> exact fun _ _ => trivial

/-- Recovery takes up unfinished executions only. -/
theorem safe_recover (ours : mine finished) (ended : IsFinished finished arena.store)
    : (Arena.serving mine).Safe (Preserves finished) (fun _ _ => True)
        (ExceptT.run recover) arena := by
  refine safe_stored (.listByStatus .running) (preserves_of_spares fun _ => trivial)
    (fun _ _ => trivial) fun before running drifts effect => ?_
  have still := drifts.isFinished ours ended
  have apart := apart_of_listed (by decide) effect still
  rw [except_bind]
  -- it is finished still when the pending ones are listed, so it is not among these either
  have there : IsFinished finished (before.answered (.listByStatus .running)).store :=
    effect.1.symm ▸ still
  refine (safe_finished ours (safe_recoverAll apart _) there).followed ?_
  rintro first later ⟨_, still⟩
  cases first with
  | error reason => exact fun _ _ => trivial
  | ok first =>
      refine safe_stored (.listByStatus .pending) (preserves_of_spares fun _ => trivial)
        (fun _ _ => trivial) fun before pending drifts effect => ?_
      have ended := drifts.isFinished ours still
      have apart := apart_of_listed (by decide) effect ended
      rw [except_bind]
      refine (safe_recoverAll apart _).followed fun second last _ => ?_
      cases second <;> exact fun _ _ => trivial

-----------------------------------------------------------------------------------------
-- What is told of a finished execution
-----------------------------------------------------------------------------------------

/-- The execution was finished in a store, and the arena has the same to tell of it. -/
structure Keeps (finished : Uuid) (base : σ) (arena : Arena σ) : Prop where
  ended : IsFinished finished base
  same : Unchanged finished base arena.store

theorem Keeps.drift {base : σ} {later : Arena σ} (keeps : Keeps finished base arena)
    (ours : mine finished) (drifts : Drifts mine arena later)
    : Keeps finished base later where
  ended := keeps.ended
  same := by
    have ended := keeps.ended.unchanged keeps.same
    exact keeps.same.trans ((drifts.alone finished ours).finished ended)

/-- A call that reads is granted as the store was, or it is refused. -/
theorem safe_read (ours : mine finished) {base : σ} (keeps : Keeps finished base arena)
    {α ε : Type} {wrap : StoreError → ε} (call : StoreCall)
    {next : call.Result → ExceptT ε ServiceM α} {wanted : Except ε α → Arena σ → Prop}
    (reads : ∀ {result} {before after : σ}, call.Effect result before after → after = before)
    (counted : Run.IsCounted call)
    (same
      : ∀ {store : σ}, Unchanged finished base store
        → (Store.answer call store).1 = (Store.answer call base).1)
    (granted
      : ∀ result later,
          (Store.answer call base).1 = .ok result
          → Keeps finished base later
          → (Arena.serving mine).Safe (fun _ _ _ _ => True) wanted (ExceptT.run (next result))
              later)
    (refused : ∀ reason later, Run.Faulted later.past → wanted (.error reason) later)
    : (Arena.serving mine).Safe (fun _ _ _ _ => True) wanted
        (ExceptT.run (stored wrap call >>= next)) arena := by
  intro before drifts answer later serves
  refine ⟨trivial, ?_⟩
  have kept := keeps.drift ours drifts
  have turned (reason : StoreError)
      : (Arena.serving mine).Safe (fun _ _ _ _ => True) wanted
          (.done (.error (wrap reason))) (before.after (.store call) (.error reason)) := by
    intro last drifts
    refine refused (wrap reason) last ?_
    rw [drifts.past]
    exact Run.faulted_of_refused counted reason
  cases serves with
  | run replies =>
      cases replies with
      | store =>
          have handled := Ledger.handles call before.sound
          cases answered : (Store.answer call before.store).1 with
          | error reason =>
              rw [answered_of_refused answered]
              exact turned reason
          | ok result =>
              refine granted result _ ((same kept.same).symm.trans answered) ⟨kept.ended, ?_⟩
              have left : (before.answered call).store = before.store :=
                reads (handled.effect answered)
              exact left.symm ▸ kept.same
      | fault _ reason => exact turned reason
      | quiet _ quiet => exact quiet.elim

/-- What is told is on record, unless a call of the store was refused. -/
inductive Tells {ε α : Type} (onRecord : α → Prop) (arena : Arena σ) : Except ε α → Prop where
  | told {data : α} (known : onRecord data) : Tells onRecord arena (.ok data)
  | refused {reason : ε} (faulted : Run.Faulted arena.past) : Tells onRecord arena (.error reason)

/-- The report is on record in a store. -/
def HasReport (execution : Uuid) (store : σ) (report : ExecutionReport) : Prop :=
  (Store.answer (.getExecution execution) store).1 = .ok report.execution
  ∧ (Store.answer (.listPhases execution) store).1 = .ok report.phases

/-- The details of a phase are on record in a store. -/
def HasDetails (phase : Uuid) (store : σ) (details : PhaseDetails) : Prop :=
  (Store.answer (.getPhase phase) store).1 = .ok details.phase
  ∧ (Store.answer (.listLogs phase) store).1 = .ok details.logs

theorem HasReport.eq {store : σ} {one two : ExecutionReport}
    (first : HasReport execution store one) (second : HasReport execution store two)
    : one = two := by
  cases one
  cases two
  congr 1
  · exact Except.ok.inj (first.1.symm.trans second.1)
  · exact Except.ok.inj (first.2.symm.trans second.2)

theorem HasDetails.eq {store : σ} {phase : Uuid} {one two : PhaseDetails}
    (first : HasDetails phase store one) (second : HasDetails phase store two)
    : one = two := by
  cases one
  cases two
  congr 1
  · exact Except.ok.inj (first.1.symm.trans second.1)
  · exact Except.ok.inj (first.2.symm.trans second.2)

/-- What is told of a finished execution is what was on record of it. -/
theorem safe_report (ours : mine finished) {base : σ} (keeps : Keeps finished base arena)
    : (Arena.serving mine).Safe (fun _ _ _ _ => True)
        (fun told later => Tells (HasReport finished base) later told)
        (ExceptT.run (report finished)) arena := by
  refine safe_read ours keeps (.getExecution finished) (fun effect => effect.1) trivial
    (fun same => same.execution) ?_ fun _ _ => .refused
  intro record later known keeps
  refine safe_read ours keeps (.listPhases finished) (fun effect => effect.1) trivial
    (fun same => same.phases) ?_ fun _ _ => .refused
  intro phases later known' keeps last drifts
  exact .told ⟨known, known'⟩

/-- What is told of its phases is what was on record of them. -/
theorem safe_phaseDetails (ours : mine finished) {base : σ} (keeps : Keeps finished base arena)
    {entry : Entry} (listed : entry ∈ Books.roll base finished)
    : (Arena.serving mine).Safe (fun _ _ _ _ => True)
        (fun told later => Tells (HasDetails entry.id base) later told)
        (ExceptT.run (phaseDetails entry.id)) arena := by
  refine safe_read ours keeps (.getPhase entry.id) (fun effect => effect) trivial
    (fun same => same.phase entry listed) ?_ fun _ _ => .refused
  intro record later known keeps
  refine safe_read ours keeps (.listLogs entry.id) (fun effect => effect) trivial
    (fun same => same.logs entry listed) ?_ fun _ _ => .refused
  intro logs later known' keeps last drifts
  exact .told ⟨known, known'⟩

/-- The run was refused because its execution is finished, or because the store refused to say. -/
inductive TurnedDown (execution : Uuid) (arena : Arena σ)
    : Except SetupError RunOutcome → Prop where
  | finished : TurnedDown execution arena (.error (.alreadyFinished execution))
  | refused {reason : SetupError} (faulted : Run.Faulted arena.past)
      : TurnedDown execution arena (.error reason)

/-- A run of a finished execution asks for its record, and that is all. -/
theorem safe_execute_finished (ours : mine finished) (ended : IsFinished finished arena.store)
    (settings : RunSettings) (token : Token)
    : (Arena.running mine).Safe (fun call _ _ _ => call = .store (.getExecution finished))
        (fun result later => TurnedDown finished later result)
        (Run.execute settings finished token) arena := by
  intro before drifts answer later replies
  refine ⟨rfl, ?_⟩
  have still := drifts.isFinished ours ended
  rcases Replies.store_inv replies with ⟨current, rfl, rfl, _, effect⟩ | ⟨reason, rfl, rfl⟩
  · change Execution at current
    obtain ⟨standing, held, terminal⟩ := still
    obtain ⟨_, _, held'⟩ := effect
    rw [held, Option.some.injEq] at held'
    rw [held'] at terminal
    have terminal : current.status.isTerminal = true := terminal
    simp only [pure_eq_done, Program.bind, ExceptT.bindCont, terminal]
    exact fun last drifts => .finished
  · have faulted
        : Run.Faulted (before.past ++ [⟨.store (.getExecution finished), .error reason⟩]) :=
      Run.faulted_of_refused (by trivial) reason
    cases reason <;>
      exact fun last drifts => .refused (drifts.past.symm ▸ faulted)

/-- So it is refused when it is waited for. -/
theorem safe_run_finished (ours : mine finished) (ended : IsFinished finished arena.store)
    (settings : RunSettings)
    : (Arena.serving mine).Safe
        (fun call _ _ _ => call.IsOwn ∨ call = .run (.store (.getExecution finished)))
        (fun result later => TurnedDown finished later result)
        (ExceptT.run (Service.run settings finished)) arena := by
  intro before drifts token enlisted serves
  refine ⟨Or.inl trivial, ?_⟩
  have still : IsFinished finished enlisted.store := by
    cases serves
    exact drifts.isFinished ours ended
  have asked := safe_execute_finished ours still settings token
  refine (safe_ofRun asked fun _ same => Or.inr (congrArg ServiceCall.run same)).followed ?_
  intro result later turnedDown before drifts answer dismissed serves
  refine ⟨Or.inl trivial, fun last further => ?_⟩
  have past : last.past = later.past := by
    cases serves
    exact further.past.trans drifts.past
  cases turnedDown with
  | finished => exact .finished
  | refused faulted => exact .refused (past ▸ faulted)

/-- All that a run of a finished execution ever asks the store or anyone else is for its record. -/
theorem asked_of_reaches (ours : mine finished) (ended : IsFinished finished arena.store)
    {settings : RunSettings} {rest : ServiceM (Except SetupError RunOutcome)} {later : Arena σ}
    (fresh : arena.past = [])
    (reached
      : (Arena.serving mine).Reaches (ExceptT.run (Service.run settings finished), arena)
          (rest, later))
    : ∀ happening ∈ later.past, happening.1 = .store (.getExecution finished) := by
  let modest (arena : Arena σ) : Prop :=
    ∀ happening ∈ arena.past, happening.1 = .store (.getExecution finished)
  refine (safe_run_finished ours ended settings).preserved modest ?_ ?_ (by simp [modest, fresh])
    reached
  · intro here there drifts modest happening member
    exact modest happening (drifts.past ▸ member)
  · intro call here answer there serves allowed modest
    cases serves with
    | run replies =>
        intro happening member
        rw [replies.grows.2] at member
        rcases List.mem_append.mp member with old | new
        · exact modest happening old
        · rcases allowed with own | same
          · exact own.elim
          · cases same
            rw [List.mem_singleton.mp new]
    | _ => exact modest

end Arena

-----------------------------------------------------------------------------------------
-- Any number of operations
-----------------------------------------------------------------------------------------

namespace Service

open Realm Arena

variable {σ : Type} [Ledger σ] {before after : Arena σ} {execution : Uuid}

/-- The parts of the service that are done one after another. -/
inductive IsOperation : {α : Type} → ServiceM α → Prop where
  | createWorkflow (user name definition : String)
      : IsOperation (ExceptT.run (createWorkflow user name definition))
  | createExecution (catalog : Catalog) (request : RunRequest)
      : IsOperation (ExceptT.run (createExecution catalog request))
  | run (settings : RunSettings) (execution : Uuid)
      : IsOperation (ExceptT.run (run settings execution))
  | background (settings : RunSettings) (execution : Uuid) (token : Token)
      : IsOperation (background settings execution token)
  | trigger (settings : RunSettings) (request : RunRequest)
      : IsOperation (ExceptT.run (trigger settings request))
  | triggerAndWait (settings : RunSettings) (request : RunRequest)
      : IsOperation (ExceptT.run (triggerAndWait settings request))
  | stop (execution : Uuid)
      : IsOperation (ExceptT.run (stop execution))
  | recover : IsOperation (ExceptT.run recover)

/-- What the service does at once. A part may be left at any point and never taken up again, as when
its process dies; the service may be shut, and it may start anew with the store that was left.
-/
inductive Operates : Arena σ → Arena σ → Prop where
  | part {α : Type} {part rest : ServiceM α} {before after : Arena σ} (operation : IsOperation part)
      (reached : (Arena.serving fun _ => True).Reaches (part, before) (rest, after))
      : Operates before after
  | shut (arena : Arena σ) : Operates arena { arena with supervisor := arena.supervisor.shut }
  | restart (arena : Arena σ) : Operates arena { arena with supervisor := .empty }

/-- No operation changes what is finished, by cases on the operation. -/
theorem IsOperation.safe {α : Type} {part : ServiceM α} (operation : IsOperation part)
    {arena : Arena σ} (ended : IsFinished execution arena.store)
    : (Arena.serving fun _ => True).Safe (Preserves execution) (fun _ _ => True) part arena := by
  cases operation with
  | createWorkflow user name definition =>
      exact safe_createWorkflow execution user name definition arena
  | createExecution catalog request =>
      exact (Arena.safe_createExecution execution catalog request arena).mono id
        fun _ _ _ => trivial
  | run settings other => exact safe_run trivial execution settings arena
  | background settings other token => exact safe_background trivial execution settings token arena
  | trigger settings request => exact safe_trigger execution settings request arena
  | triggerAndWait settings request => exact safe_triggerAndWait execution settings request arena
  | stop other => exact safe_stop execution other arena
  | recover => exact safe_recover trivial ended

/-- Whatever the service does at once, what is finished does not change. -/
theorem Operates.unchanged (operates : Operates before after)
    (ended : IsFinished execution before.store)
    : Unchanged execution before.store after.store := by
  cases operates with
  | part operation reached =>
      -- what is kept is said of the store at the start, for the part may be left anywhere
      let kept (arena : Arena σ) : Prop := Unchanged execution before.store arena.store
      refine (operation.safe ended).preserved kept ?_ ?_ (.refl execution before.store) reached
      · intro here there drifts same
        have still := ended.unchanged same
        exact same.trans ((drifts.alone execution trivial).finished still)
      · intro call here answer there _ preserves same
        exact same.trans (preserves (ended.unchanged same))
  | shut => exact .refl execution before.store
  | restart => exact .refl execution before.store

/-- What was told once is told again, unless the store refuses a call. -/
def Repeats {α : Type} (part : ExceptT ServiceError ServiceM α) (before after : Arena σ) : Prop :=
  ∀ {data : α} {told : Except ServiceError α} {first later : Arena σ},
    (Arena.serving fun _ => True).Reaches (ExceptT.run part, before.anew) (.done (.ok data), first)
    → (Arena.serving fun _ => True).Reaches (ExceptT.run part, after.anew) (.done told, later)
    → told = .ok data ∨ Run.Faulted later.past

/-- What is told of one record is told again of the same record. -/
theorem repeats_of_tells {α : Type} {part : ExceptT ServiceError ServiceM α} {onRecord : α → Prop}
    (tells
      : ∀ arena : Arena σ,
          Keeps execution before.store arena
          → (Arena.serving fun _ => True).Safe (fun _ _ _ _ => True)
              (fun told later => Tells onRecord later told) (ExceptT.run part) arena)
    (unique : ∀ {one two}, onRecord one → onRecord two → one = two)
    (ended : IsFinished execution before.store)
    (same : Unchanged execution before.store after.store)
    : Repeats part before after := by
  intro data told first later reached reached'
  cases (tells before.anew ⟨ended, .refl execution before.store⟩).ended reached with
  | told known =>
      cases (tells after.anew ⟨ended, same⟩).ended reached' with
      | told known' => exact Or.inl (congrArg Except.ok (unique known' known))
      | refused faulted => exact Or.inr faulted

/-- Once an execution is finished, nothing about it changes, whatever the service does and however
often: its report and the details of its phases are told as before, and a run of it is refused when
nothing but its record was asked for.
-/
theorem finished_for_good (ended : IsFinished execution before.store)
    (operations : ReflTransGen Operates before after)
    : Unchanged execution before.store after.store
      ∧ Repeats (report execution) before after
      ∧ (∀ entry ∈ Books.roll before.store execution,
          Repeats (phaseDetails entry.id) before after)
      ∧ ∀ settings rest later,
          (Arena.serving fun _ => True).Reaches
              (ExceptT.run (run settings execution), after.anew) (rest, later)
          → (∀ happening ∈ later.past, happening.1 = .store (.getExecution execution))
            ∧ ∀ result, rest = .done result → TurnedDown execution later result := by
  have same : Unchanged execution before.store after.store := by
    induction operations with
    | refl => exact .refl execution before.store
    | tail _ operates ih => exact ih.trans (operates.unchanged (ended.unchanged ih))
  refine ⟨same, ?_, ?_, ?_⟩
  · exact repeats_of_tells (fun arena keeps => safe_report trivial keeps) HasReport.eq ended same
  · intro entry listed
    exact repeats_of_tells (fun arena keeps => safe_phaseDetails trivial keeps listed)
      HasDetails.eq ended same
  · intro settings rest later reached
    have there : IsFinished execution after.anew.store := ended.unchanged same
    refine ⟨asked_of_reaches trivial there rfl reached, ?_⟩
    rintro result rfl
    exact (safe_run_finished trivial there settings).ended reached

/-- A failed execution does not change when the service recovers and is shut. -/
theorem finished_for_good_failed
    : ∃ before after : Arena Memory,
        IsFinished (.ofNat 2) before.store
        ∧ ReflTransGen Operates before after
        ∧ Unchanged (.ofNat 2) before.store after.store := by
  let failed : Execution := { Run.Lone.execution "" with status := .failed }
  let before : Arena Memory :=
    ⟨⟨[], [failed], [Run.Lone.phase], []⟩, ⟨List.nodup_singleton _, List.nodup_singleton _⟩,
      .empty, [], []⟩
  have ended : IsFinished (.ofNat 2) before.store := ⟨failed.standing, rfl, by decide⟩
  have recovered
      : ∃ middle,
          (Arena.serving fun _ => True).Reaches (ExceptT.run recover, before)
            (.done (.ok 0), middle) := by
    have listed (status : ExecutionStatus) (other : status ≠ .failed)
        : Store.answer (.listByStatus status) before.store = (.ok [], before.store) := by
      have none : [failed].filter (·.status == status) = [] := by
        cases status with
        | failed => exact absurd rfl other
        | _ => rfl
      change (Except.ok (([failed].filter (·.status == status)).mergeSort Execution.upTo), _) = _
      rw [none, List.mergeSort_nil]
      rfl
    apply Exists.intro
    refine .reply (.run (.granted (.listByStatus .running) before (listed _ nofun))) ?_
    refine .reply (.run (.granted (.listByStatus .pending) _ (by exact listed _ nofun))) ?_
    exact .refl
  obtain ⟨middle, reached⟩ := recovered
  have operations : ReflTransGen Operates before _ :=
    (ReflTransGen.single (.part .recover reached)).tail (.shut middle)
  exact ⟨before, _, ended, operations, (finished_for_good ended operations).1⟩

end Service

end Harvest

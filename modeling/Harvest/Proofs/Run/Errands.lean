import Harvest.Proofs.Run.Parts
import Harvest.Proofs.Store.Amended

/-! The errands of a run. Once a run has its execution and its phases, every call that it makes of
the store is about these, and what it writes keeps what no update is for.
-/

namespace Harvest.Run

open Program RunM

variable {execution : Execution} {phases : List PhaseRecord} {phase : PhaseRecord}
  {token : Token} {kind : RunCall → Prop} {α β : Type}

-----------------------------------------------------------------------------------------
-- Kinds of calls
-----------------------------------------------------------------------------------------

/-- The call is one that a walk over phases makes: it works, tells, looks for a stop under its
token, keeps a phase or counts what the execution has cost.
-/
inductive IsStep (execution : Execution) (phases : List PhaseRecord) (token : Token)
    : RunCall → Prop where
  | quiet {call : RunCall} (quiet : call.IsQuiet) : IsStep execution phases token call
  | emit (event : Event) : IsStep execution phases token (.emit event)
  | look : IsStep execution phases token (.isCancelled token)
  | read : IsStep execution phases token (.store (.getExecution execution.id))
  | keep {phase next : PhaseRecord} (member : phase ∈ phases) (named : next.id = phase.id)
      (same : next.fixed = phase.fixed)
      : IsStep execution phases token (.store (.updatePhase next))
  | log {phase : PhaseRecord} (member : phase ∈ phases) (entries : List LogEntry)
      : IsStep execution phases token (.store (.appendLogs phase.id entries))
  | count {next : Execution} (named : next.id = execution.id)
      (same : next.fixed = execution.fixed) (running : next.status = .running)
      : IsStep execution phases token (.store (.updateExecution next))

/-- The call is one that a run makes of what it was given: a step of its walk, or one that moves its
phases on together, replaces its execution or tells its workflow.
-/
inductive IsErrand (execution : Execution) (phases : List PhaseRecord) (token : Token)
    : RunCall → Prop where
  | step {call : RunCall} (step : IsStep execution phases token call)
      : IsErrand execution phases token call
  | move (source target : PhaseStatus)
      : IsErrand execution phases token (.store (.setPhaseStatuses execution.id source target))
  | replace {next : Execution} (named : next.id = execution.id)
      (same : next.fixed = execution.fixed)
      : IsErrand execution phases token (.store (.updateExecution next))
  | note (status : ExecutionStatus)
      : IsErrand execution phases token
          (.store (.recordLastRunStatus execution.workflowId execution.id status))

theorem only_ask {call : RunCall} (here : kind call) : (RunM.ask call).Only kind := .ask here .done

theorem only_now : RunM.now.Only (IsStep execution phases token) := only_ask (.quiet trivial)

theorem only_uptime : RunM.uptime.Only (IsStep execution phases token) := only_ask (.quiet trivial)

theorem only_tell (event : Time.Instant → Event)
    : (do emit (event (← now)) : RunM Unit).Only (IsStep execution phases token) :=
  only_now.bind fun time => only_ask (.emit (event time))

/-- What is quiet is a step of any walk. -/
theorem only_quiet {part : RunM α} (quiet : part.Only RunCall.IsQuiet)
    : part.Only (IsStep execution phases token) :=
  quiet.mono fun _ => .quiet

-----------------------------------------------------------------------------------------
-- Parts of the loop
-----------------------------------------------------------------------------------------

/-- A part of the loop keeps to a kind of calls when both its parts do. -/
theorem only_bind {part : LoopM α} {next : α → LoopM β} {env : Environment}
    (first : (LoopM.on part env).Only kind)
    (second : ∀ value left, (LoopM.on (next value) left).Only kind)
    : (LoopM.on (part >>= next) env).Only kind := by
  rw [on_bind]
  refine first.bind ?_
  rintro ⟨result, left⟩
  cases result with
  | ok value => exact second value left
  | error reason => exact .done _

theorem only_inLoop {part : RunM α} {env : Environment} (only : part.Only kind)
    : (LoopM.on (inLoop part) env).Only kind := by
  change ((part.bind _).bind _).Only kind
  rw [bind_bind]
  exact only.bind fun _ => .done _

theorem only_stored {call : StoreCall} {env : Environment} (here : kind (.store call))
    : (LoopM.on (stored call) env).Only kind :=
  only_ask here |>.bind fun _ => .done _

-----------------------------------------------------------------------------------------
-- The walk
-----------------------------------------------------------------------------------------

/-- Keeping the end of a phase is a step. -/
theorem settle_steps (settings : RunSettings) {begun : PhaseRecord} (member : phase ∈ phases)
    (named : begun.id = phase.id) (same : begun.fixed = phase.fixed) (node : String)
    (start : Nat) (success : Bool) (log : Log) (left env : Environment)
    : (LoopM.on (settle settings begun node start success log left) env).Only
        (IsStep execution phases token) := by
  unfold settle
  refine only_bind (.done _) fun _ _ => ?_
  refine only_bind (only_inLoop only_now) fun time _ => ?_
  refine only_bind (only_stored (.keep member named same)) fun _ _ => ?_
  refine only_bind (only_stored (named ▸ .log member log)) fun _ _ => ?_
  refine only_bind (only_inLoop only_uptime) fun _ _ => ?_
  refine only_bind (only_inLoop (only_now.bind fun time => ?_)) fun _ _ => .done _
  split <;> exact only_ask (.emit _)

/-- Everything that is done for a phase is a step. -/
theorem runPhase_steps (settings : RunSettings) (flow : Flow) (member : phase ∈ phases)
    (env : Environment)
    : (LoopM.on (runPhase settings flow phase) env).Only (IsStep execution phases token) := by
  rw [runPhase_eq, on_inLoop_bind]
  refine only_uptime.bind fun start => ?_
  rw [on_modifyGet_bind, on_inLoop_bind]
  refine (only_quiet (errorEntries_quiet _)).bind fun log => ?_
  rw [on_get_bind, on_inLoop_bind]
  refine only_now.bind fun time => ?_
  refine only_bind (only_stored (.keep member rfl rfl)) fun _ env => ?_
  rw [on_inLoop_bind]
  refine (only_tell fun time => _).bind fun _ => ?_
  rw [on_inLoop_bind]
  refine (only_quiet (perform_quiet ..)).bind ?_
  rintro ⟨success, log, left⟩
  change (LoopM.on (settle settings _ _ start success log left) env).Only _
  refine settle_steps settings member ?_ ?_ ..
  · rfl
  · rfl

theorem stopRequested_steps (token : Token) (env : Environment)
    : (LoopM.on (stopRequested execution.id token) env).Only (IsStep execution phases token) := by
  unfold stopRequested
  refine only_bind (only_inLoop (only_ask .look)) fun cancelled _ => ?_
  cases cancelled with
  | true => exact .done _
  | false => exact only_bind (only_stored .read) fun _ _ => .done _

/-- A walk over phases goes step by step, by induction over the phases that are left. -/
theorem runPhases_steps (settings : RunSettings) {known : Execution}
    (named : known.id = execution.id) (same : known.fixed = execution.fixed) (flow : Flow)
    (token : Token) {left : List PhaseRecord} (some' : ∀ phase ∈ left, phase ∈ phases)
    (credits phasesRun : Nat) (env : Environment)
    : (LoopM.on (runPhases settings known flow token credits phasesRun left) env).Only
        (IsStep execution phases token) := by
  induction left generalizing credits phasesRun env with
  | nil => exact .done _
  | cons phase left ih =>
      obtain ⟨member, others⟩ := List.forall_mem_cons.mp some'
      have looks (env : Environment)
          : (LoopM.on (stopRequested known.id token) env).Only (IsStep execution phases token) :=
        named ▸ stopRequested_steps token env
      unfold runPhases
      refine only_bind (looks env) fun stopped _ => ?_
      cases stopped with
      | true => exact .done _
      | false =>
          refine only_bind (runPhase_steps settings flow member _) ?_
          rintro ⟨success, cost⟩ left
          cases success with
          | false => exact .done _
          | true =>
              exact only_bind (only_stored (.count named same rfl)) fun _ _ => ih others ..

-----------------------------------------------------------------------------------------
-- The whole run
-----------------------------------------------------------------------------------------

theorem only_except_bind {ε : Type} {part : ExceptT ε RunM α} {next : α → ExceptT ε RunM β}
    (first : (ExceptT.run part).Only kind) (second : ∀ value, (ExceptT.run (next value)).Only kind)
    : (ExceptT.run (part >>= next)).Only kind := by
  rw [except_bind]
  refine first.bind fun result => ?_
  cases result with
  | ok value => exact second value
  | error reason => exact .done _

theorem only_lift_bind {ε : Type} {part : RunM α} {next : α → ExceptT ε RunM β}
    (first : part.Only kind) (second : ∀ value, (ExceptT.run (next value)).Only kind)
    : (ExceptT.run ((liftM part : ExceptT ε RunM α) >>= next)).Only kind := by
  rw [except_lift_bind]
  exact first.bind second

theorem only_asked {call : StoreCall} (here : kind (.store call))
    : (ExceptT.run (load.asked call)).Only kind :=
  (only_ask here).bind fun _ => .done _

/-- What is a step of a walk is an errand. -/
theorem only_steps {part : RunM α} (steps : part.Only (IsStep execution phases token))
    : part.Only (IsErrand execution phases token) :=
  steps.mono fun _ => .step

/-- The execution as it was loaded, but that it runs. -/
def started (execution : Execution) (time : Time.Instant) : Execution :=
  { execution with status := .running, startedAt := some time }

/-- An execution is marked as running by errands, and what follows goes on with its mark. -/
theorem markRunning_errands {next : Execution → ExceptT SetupError RunM β}
    (rest
      : ∀ time,
          (ExceptT.run (next (started execution time))).Only (IsErrand execution phases token))
    : (ExceptT.run (markRunning execution >>= next)).Only (IsErrand execution phases token) := by
  have asks : IsErrand execution phases token (.task .now) := .step (.quiet trivial)
  have marks (time : Time.Instant)
      : IsErrand execution phases token (.store (.updateExecution (started execution time))) :=
    .replace rfl rfl
  refine .ask asks fun time => ?_
  refine .ask (marks time) fun updated => ?_
  cases updated with
  | error reason => exact .done _
  | ok _ =>
      refine .ask (.move .created .pending) fun moved => ?_
      cases moved with
      | error reason => exact .done _
      | ok _ => exact .ask (.note .running) fun _ => rest time

/-- An execution is brought to its end by errands. -/
theorem finalize_errands (time : Time.Instant) (status : ExecutionStatus) (credits : Nat)
    (stopped : Bool) (start : Nat)
    : (finalize (started execution time) status credits stopped start).Only
        (IsErrand execution phases token) := by
  refine (only_steps only_now).bind fun at' => ?_
  refine (only_ask (.replace rfl rfl)).bind fun answer => ?_
  cases answer with
  | error reason => exact .done _
  | ok _ =>
      refine (only_steps only_uptime).bind fun _ => ?_
      refine (only_steps (only_tell fun _ => _)).bind fun _ => ?_
      exact (only_ask (.note status)).bind fun _ => .done _

theorem conclude_errands (time : Time.Instant) (summary : Summary) (start : Nat)
    : (conclude (started execution time) summary start).Only (IsErrand execution phases token) := by
  refine (finalize_errands time _ summary.credits _ start).bind fun result => ?_
  cases result <;> exact .done _

theorem abort_errands (time : Time.Instant) (reason : StoreError) (start : Nat)
    : (abort (started execution time) reason start).Only (IsErrand execution phases token) := by
  refine (only_ask (.step .read)).bind fun current => ?_
  refine Only.bind ?_ fun result => ?_
  · cases current <;> exact finalize_errands time ..
  · cases result <;> exact .done _

/-- All that a run does once it is loaded are errands. -/
theorem proceed_errands (settings : RunSettings) (id : Uuid) (token : Token) (flow : Flow)
    : (ExceptT.run (proceed settings id token (execution, flow, phases))).Only
        (IsErrand execution phases token) := by
  unfold proceed
  refine only_lift_bind (only_steps only_uptime) fun start => ?_
  refine markRunning_errands fun time => ?_
  refine only_lift_bind (only_steps only_now) fun _ => ?_
  refine only_lift_bind (only_steps (only_ask (.emit _))) fun _ => ?_
  have walk
      : (LoopM.on (runPhases settings (started execution time) flow token 0 0 phases) .empty).Only
          (IsStep execution phases token) := by
    refine runPhases_steps settings ?_ ?_ flow token (fun _ member => member) 0 0 .empty
    · rfl
    · rfl
  refine only_lift_bind (only_steps walk) ?_
  rintro ⟨looped, left⟩
  have released : (release left).Only (IsStep execution phases token) :=
    only_quiet (release_quiet left)
  cases looped with
  | ok summary =>
      cases settings.closesBrowser with
      | false => exact conclude_errands time summary start
      | true =>
          exact only_lift_bind (only_steps released) fun _ => conclude_errands time summary start
  | error reason =>
      cases settings.closesBrowser with
      | false => exact abort_errands time reason start
      | true =>
          exact only_lift_bind (only_steps released) fun _ => abort_errands time reason start

end Harvest.Run

import Harvest.Proofs.Program.Always
import Harvest.Proofs.Run.Errands
import Harvest.Proofs.Run.Tally
import Harvest.Proofs.Store.Guarded

/-! When executors are at work in a run. The calls of a run that are calm begin no phase, put no
executor to work, and leave what is finished.
-/

namespace Harvest

-----------------------------------------------------------------------------------------
-- Calm calls
-----------------------------------------------------------------------------------------

/-- The call begins no phase, and leaves finished phases and the statuses of executions. -/
def StoreCall.IsCalm : StoreCall → Prop
  | .createExecution _ _ => False
  | .updateExecution _ => False
  | .requestStop _ => False
  | .updatePhase record => record.status ≠ .running
  | .setPhaseStatuses _ source _ => ¬ source.isTerminal
  | _ => True

/-- The call is calm, and no executor is at work. -/
def RunCall.IsCalm : RunCall → Prop
  | .task call => call = .now
  | .store call => call.IsCalm
  | .freshId => False
  | _ => True

namespace StoreCall.IsCalm

open Run Books

variable {call : StoreCall}

theorem sparesFinished (calm : call.IsCalm) : call.SparesFinished := by
  cases call with
  | createExecution _ _ => exact calm.elim
  | setPhaseStatuses _ _ _ => exact calm
  | _ => trivial

theorem started? (calm : call.IsCalm) : Run.started? call = none := by
  cases call with
  | updatePhase record => exact if_neg calm
  | _ => rfl

/-- A calm call leaves where executions stand, by cases on the call. -/
theorem standing? {σ : Type} [Ledger σ] (calm : call.IsCalm) {store : σ} (sound : Sound store)
    (id : Uuid)
    : Books.standing? (Store.answer call store).2 id = Books.standing? store id := by
  have handled := Ledger.handles call sound
  cases answered : (Store.answer call store).1 with
  | error reason => rw [handled.refused answered]
  | ok result =>
      have effect := handled.effect answered
      cases call with
      | createExecution _ _ => exact calm.elim
      | updateExecution _ => exact calm.elim
      | requestStop _ => exact calm.elim
      | updatePhase _ => exact effect.1 id
      | setPhaseStatuses _ _ _ => exact effect.1 id
      | appendLogs _ _ => exact (effect id).1
      | _ => exact (handled.frame trivial).standing

end StoreCall.IsCalm

namespace Run

open Program RunM

-----------------------------------------------------------------------------------------
-- Executors at work
-----------------------------------------------------------------------------------------

/-- No executor is at work, and no phase begins. -/
def IsBeside : Happening runCalls → Prop
  | ⟨.task call, _⟩ => call = .now
  | ⟨.store call, answer⟩ => (∃ result, answer = .ok result) → started? call = none
  | _ => True

/-- The calls of a run so far, and the phases that the store let begin. An executor works on none
but the phase that began last; what is left open is closed without one.
-/
inductive Works (settings : RunSettings)
    : List PhaseRecord → List (Happening runCalls) → Prop where
  | none : Works settings [] []
  | beside {phases : List PhaseRecord} {calls : List (Happening runCalls)}
      {happening : Happening runCalls} (works : Works settings phases calls)
      (beside : IsBeside happening)
      : Works settings phases (calls ++ [happening])
  | begins {phases : List PhaseRecord} {calls : List (Happening runCalls)}
      (works : Works settings phases calls) (phase : PhaseRecord) (time : Time.Instant)
      (inputs : String)
      : Works settings (phases ++ [phase])
          (calls ++ [⟨.store (.updatePhase (phase.begun time inputs)), .ok ()⟩])
  | executes {phases : List PhaseRecord} {calls more : List (Happening runCalls)}
      {phase : PhaseRecord} {log : Log} {env : Environment}
      (works : Works settings (phases ++ [phase]) calls)
      (work : (perform settings phase (Node.parse phase.node) log env).Begins more)
      : Works settings (phases ++ [phase]) (calls ++ more)
  | closes {phases : List PhaseRecord} {calls more : List (Happening runCalls)}
      {env : Environment} (works : Works settings phases calls)
      (closing : (release env).Begins more)
      : Works settings phases (calls ++ more)

-----------------------------------------------------------------------------------------
-- Calm parts of a run
-----------------------------------------------------------------------------------------

/-- No executor is at work where a call is calm, by cases on the call. -/
theorem isBeside_of_calm {call : RunCall} (calm : call.IsCalm) (answer : call.Answer)
    : IsBeside ⟨call, answer⟩ := by
  cases call with
  | store call => exact fun _ => calm.started?
  | task call => exact calm
  | _ => trivial

/-- No phase is asked to begin by a calm call, by cases on the call. -/
theorem begun_calm {call : RunCall} (calm : call.IsCalm) {answer : call.Answer}
    : begun [⟨call, answer⟩] = [] := by
  cases call with
  | store call => simp [begun, calm.started?]
  | _ => rfl

theorem calm_now : RunM.now.Only RunCall.IsCalm := only_ask rfl

theorem calm_errorEntries (messages : List String)
    : (errorEntries messages).Only RunCall.IsCalm :=
  errorEntries_asks (show RunCall.IsCalm (.task .now) from rfl) messages

theorem calm_uptime : RunM.uptime.Only RunCall.IsCalm := only_ask trivial

theorem calm_emit (event : Event) : (RunM.emit event).Only RunCall.IsCalm := only_ask trivial

theorem calm_tell (event : Time.Instant → Event)
    : (do emit (event (← now)) : RunM Unit).Only RunCall.IsCalm :=
  calm_now.bind fun _ => calm_emit _

theorem calm_stopRequested (execution : Uuid) (token : Token) (env : Environment)
    : (LoopM.on (stopRequested execution token) env).Only RunCall.IsCalm := by
  unfold stopRequested
  refine only_bind (only_inLoop (only_ask trivial)) fun cancelled _ => ?_
  cases cancelled with
  | true => exact .done _
  | false => exact only_bind (only_stored trivial) fun _ _ => .done _

theorem calm_noteLastRun (execution : Execution) (status : ExecutionStatus)
    : (noteLastRun execution status).Only RunCall.IsCalm :=
  .ask trivial fun _ => .done ()

/-- How a phase ended is kept calmly: it is at work no more. -/
theorem calm_settle (settings : RunSettings) (phase : PhaseRecord) (node : String) (start : Nat)
    (success : Bool) (log : Log) (left env : Environment)
    : (LoopM.on (settle settings phase node start success log left) env).Only RunCall.IsCalm := by
  unfold settle
  refine only_bind (.done _) fun _ _ => ?_
  refine only_bind (only_inLoop calm_now) fun time _ => ?_
  refine only_bind (only_stored ?_) fun _ _ => ?_
  · cases success <;> nofun
  refine only_bind (only_stored trivial) fun _ _ => ?_
  refine only_bind (only_inLoop calm_uptime) fun _ _ => ?_
  refine only_bind (only_inLoop (calm_now.bind fun time => ?_)) fun _ _ => .done _
  split <;> exact only_ask trivial

end Run

end Harvest

import Harvest.Proofs.Program.Realm
import Harvest.Run.Loop

/-! Parts of a run. A part of the loop begins in an environment and leaves one, and the work of
tasks is quiet: it neither asks the store nor tells anyone, and it does not look for a stop.
-/

namespace Harvest

/-- The calls of tasks, and looks at the clock. -/
def RunCall.IsQuiet : RunCall → Prop
  | .task _ => True
  | .uptime => True
  | _ => False

namespace PhaseRecord

/-- The record of a phase that is at work. -/
def begun (phase : PhaseRecord) (time : Time.Instant) (inputs : String) : PhaseRecord :=
  { phase with
    status := .running
    startedAt := some time
    inputs := some inputs }

/-- The record of a phase whose work is done. -/
def ended (phase : PhaseRecord) (catalog : Catalog) (success : Bool)
    (time : Time.Instant) (outputs : String) : PhaseRecord :=
  { phase with
    status := if success then .completed else .failed
    completedAt := some time
    outputs := some outputs
    credits := if success then catalog.credits phase.taskType else 0 }

end PhaseRecord

namespace Run

open Program RunM

-----------------------------------------------------------------------------------------
-- Parts of the loop
-----------------------------------------------------------------------------------------

/-- A part of the loop that begins in an environment. -/
def LoopM.on {α : Type} (part : LoopM α) (env : Environment)
    : RunM (Except StoreError α × Environment) :=
  (ExceptT.run part).run env

section

variable {α β : Type}

/-- A part outside the loop goes first, and leaves the environment. -/
theorem on_inLoop_bind (part : RunM α) (next : α → LoopM β) (env : Environment)
    : LoopM.on (inLoop part >>= next) env = part.bind fun value => LoopM.on (next value) env := by
  change ((part.bind _).bind _).bind _ = _
  rw [bind_bind, bind_bind]
  rfl

/-- A part of the loop goes first, and its refusal ends the loop. -/
theorem on_bind (part : LoopM α) (next : α → LoopM β) (env : Environment)
    : LoopM.on (part >>= next) env
      = (LoopM.on part env).bind fun
          | (.ok value, left) => LoopM.on (next value) left
          | (.error reason, left) => .done (.error reason, left) := by
  change (LoopM.on part env).bind _ = _
  congr 1
  funext ⟨result, left⟩
  cases result <;> rfl

theorem on_set_bind (left : Environment) (next : LoopM β) (env : Environment)
    : LoopM.on (set left >>= fun _ => next) env = LoopM.on next left :=
  rfl

theorem on_get_bind (next : Environment → LoopM β) (env : Environment)
    : LoopM.on (get >>= next) env = LoopM.on (next env) env :=
  rfl

theorem on_modifyGet_bind (f : Environment → α × Environment) (next : α → LoopM β)
    (env : Environment)
    : LoopM.on (modifyGet f >>= next) env = LoopM.on (next (f env).1) (f env).2 :=
  rfl

end

-----------------------------------------------------------------------------------------
-- The two parts of a phase
-----------------------------------------------------------------------------------------

/-- The end of a phase, once its work is done: it is kept, and then told. -/
def settle (settings : RunSettings) (phase : PhaseRecord) (node : String) (start : Nat)
    (success : Bool) (log : Log) (env : Environment) : LoopM (Bool × Nat) := do
  set env
  let time ← inLoop now
  let ended := phase.ended settings.catalog success time (slotsText env node Slots.outputs)
  stored (.updatePhase ended)
  stored (.appendLogs phase.id log)
  let millis := (← inLoop uptime) - start
  inLoop do
    let time ← now
    if success then
      emit (.phaseCompleted phase.executionId phase.id node ended.credits millis time)
    else emit (.phaseFailed phase.executionId phase.id node log.lastError? time)
  return (success, ended.credits)

/-- A phase begins, is worked on, and ends. -/
theorem runPhase_eq (settings : RunSettings) (flow : Flow) (phase : PhaseRecord)
    : runPhase settings flow phase = (do
        let start ← inLoop uptime
        let node := Node.parse phase.node
        let id := nodeId node
        let log ← inLoop (errorEntries (← modifyGet (enter settings.catalog flow node)))
        let env ← get
        let begun := phase.begun (← inLoop now) (slotsText env id Slots.inputs)
        stored (.updatePhase begun)
        inLoop do emit (.phaseStarted phase.executionId phase.id id phase.taskType (← now))
        let (success, log, env) ← inLoop (perform settings phase node log env)
        settle settings begun id start success log env) :=
  rfl

-----------------------------------------------------------------------------------------
-- The whole run
-----------------------------------------------------------------------------------------

/-- What a run does once its walk is over. -/
def windUp (execution : Execution) (start : Nat)
    : Except StoreError Summary → RunM (Except SetupError RunOutcome)
  | .ok summary => conclude execution summary start
  | .error reason => abort execution reason start

/-- A run of an execution that was loaded with its graph and its phases. -/
def proceed (settings : RunSettings) (id : Uuid) (token : Token)
    (loaded : Execution × Flow × List PhaseRecord) : ExceptT SetupError RunM RunOutcome := do
  let (execution, flow, phases) := loaded
  let start ← uptime
  let execution ← markRunning execution
  let (workflow, count) := (execution.workflowId, phases.length)
  emit (.executionStarted id workflow count (← now))
  let walk := runPhases settings execution flow token 0 0 phases
  let (looped, env) ← (ExceptT.run walk).run Environment.empty
  if settings.closesBrowser then release env
  ExceptT.mk (windUp execution start looped)

/-- A run loads its execution and goes on with what it loaded. -/
theorem execute_eq (settings : RunSettings) (id : Uuid) (token : Token)
    : execute settings id token = ExceptT.run (load id >>= proceed settings id token) :=
  rfl

section

variable {execution : Execution} {flow : Flow} (unfinished : execution.status.isTerminal = false)
  (parsed : Flow.parse execution.definition = .ok flow)

include unfinished parsed

/-- An execution that may run is loaded by two calls. -/
theorem load_calls (id : Uuid)
    : ∃ first second,
        ExceptT.run (load id) = Program.ask (S := runCalls) (.store (.getExecution id)) first
        ∧ first (.ok execution) = Program.ask (S := runCalls) (.store (.listPhases id)) second
        ∧ ∀ phases : List PhaseRecord,
            second (.ok phases) = .done (.ok (execution, flow, phases)) := by
  let rest : ExceptT SetupError RunM (Execution × Flow × List PhaseRecord) := do
    return (execution, flow, ← load.asked (.listPhases id))
  refine ⟨_, _, rfl, Eq.trans (b := ExceptT.run rest) ?_ rfl, fun _ => rfl⟩
  simp only [pure_eq_done, Program.bind, ExceptT.bindCont, unfinished, parsed]
  rfl

/-- A run that finds its execution, and may run it, lists its phases and goes on with them. -/
theorem execute_calls (settings : RunSettings) (id : Uuid) (token : Token)
    : ∃ first second,
        execute settings id token = Program.ask (S := runCalls) (.store (.getExecution id)) first
        ∧ first (.ok execution) = Program.ask (S := runCalls) (.store (.listPhases id)) second
        ∧ ∀ phases : List PhaseRecord,
            second (.ok phases)
              = ExceptT.run (proceed settings id token (execution, flow, phases)) := by
  obtain ⟨first, second, loads, lists, ends⟩ := load_calls unfinished parsed id
  rw [execute_eq, except_bind, loads]
  refine ⟨_, _, rfl, congrArg (Program.bind _) lists, fun phases => ?_⟩
  exact congrArg (Program.bind _) (ends phases)

end

-----------------------------------------------------------------------------------------
-- Quiet parts
-----------------------------------------------------------------------------------------

theorem ask_quiet (call : RunCall) (quiet : call.IsQuiet) : (RunM.ask call).Only RunCall.IsQuiet :=
  .ask quiet .done

/-- Error entries ask for the time only, by induction over the messages. -/
theorem errorEntries_asks {kind : RunCall → Prop} (time : kind (.task .now))
    (messages : List String)
    : (errorEntries messages).Only kind := by
  induction messages with
  | nil => exact .done _
  | cons message messages ih => exact .ask time fun at' => ih.bind fun log => .done _

theorem errorEntries_quiet (messages : List String)
    : (errorEntries messages).Only RunCall.IsQuiet :=
  errorEntries_asks trivial messages

theorem ofTask_quiet {α : Type} (task : Program taskCalls α)
    : (ofTask task).Only RunCall.IsQuiet :=
  Only.embed (fun call => ask_quiet (.task call) trivial) task

/-- The work of a phase is quiet, whatever its task does. -/
theorem perform_quiet (settings : RunSettings) (phase : PhaseRecord) (node : Json.Decoded Node)
    (log : Log) (env : Environment)
    : (perform settings phase node log env).Only RunCall.IsQuiet := by
  unfold perform
  split
  · exact .done _
  · exact (errorEntries_quiet _).bind fun entries => .done _
  · refine (ofTask_quiet _).bind ?_
    rintro ⟨verdict, work⟩
    cases verdict with
    | ok success => exact .done _
    | error halt => exact (errorEntries_quiet _).bind fun entries => .done _

/-- Closing what a run left open asks the browser only, by cases on what that is. -/
theorem release_asks {kind : RunCall → Prop}
    (browser : ∀ call : BrowserCall, kind (.task (.browser call))) (env : Environment)
    : (release env).Only kind := by
  obtain ⟨nodes, left, page⟩ := env
  have closing : (release ⟨nodes, left, none⟩).Only kind := by
    cases left with
    | none => exact .done ()
    | some id => exact .ask (browser (.closeBrowser id)) fun _ => .done ()
  cases page with
  | none => exact closing
  | some page =>
      refine .ask (browser (.isClosed page)) fun closed => ?_
      cases closed with
      | true => exact closing
      | false => exact .ask (browser (.closePage page)) fun _ => closing

theorem release_quiet (env : Environment) : (release env).Only RunCall.IsQuiet :=
  release_asks (fun _ => trivial) env

end Run

end Harvest

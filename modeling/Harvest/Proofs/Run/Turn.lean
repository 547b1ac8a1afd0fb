import Harvest.Proofs.Executor.Contract
import Harvest.Proofs.Program.Always
import Harvest.Proofs.Run.Parts
import Harvest.Proofs.Run.Wiring

/-! What a run makes of one phase, whatever is answered to its calls. The calls of its task lie
between calls that no browser hears of, and a phase that failed is told with the last error of
its log.
-/

namespace Harvest

/-- A call that no browser hears of, and that tells of no failed phase. -/
def RunCall.IsAside : RunCall → Prop
  | .task (.browser _) => False
  | .emit (.phaseFailed ..) => False
  | _ => True

namespace Run

open Program RunM

-----------------------------------------------------------------------------------------
-- Calls of tasks among those of a run
-----------------------------------------------------------------------------------------

/-- No browser hears of the calls, and none tells of a failed phase. -/
def Aside (calls : List (Happening runCalls)) : Prop :=
  ∀ happening ∈ calls, happening.1.IsAside

/-- The calls of tasks among those of a run. -/
def tasksIn (calls : List (Happening runCalls)) : List (Happening taskCalls) :=
  calls.filterMap fun
    | ⟨.task call, answer⟩ => some ⟨call, answer⟩
    | _ => none

@[simp] theorem tasksIn_append (calls more : List (Happening runCalls))
    : tasksIn (calls ++ more) = tasksIn calls ++ tasksIn more :=
  List.filterMap_append

/-- The calls of a task are those that it has made in a run. -/
@[simp] theorem tasksIn_map_asked (calls : List (Happening taskCalls))
    : tasksIn (calls.map asked) = calls := by
  rw [tasksIn, List.filterMap_map]
  exact List.filterMap_some

@[simp] theorem aside_nil : Aside [] := by simp [Aside]

@[simp] theorem aside_append {calls more : List (Happening runCalls)}
    : Aside (calls ++ more) ↔ Aside calls ∧ Aside more :=
  List.forall_mem_append

@[simp] theorem aside_cons {happening : Happening runCalls} {calls : List (Happening runCalls)}
    : Aside (happening :: calls) ↔ happening.1.IsAside ∧ Aside calls :=
  List.forall_mem_cons

/-- Calls beside the work of a phase are no calls of a browser. -/
theorem Aside.offline {calls : List (Happening runCalls)} (aside : Aside calls)
    : ∀ happening ∈ tasksIn calls, ∀ call : BrowserCall, happening.1 ≠ .browser call := by
  intro happening member call browser
  obtain ⟨⟨other, answer⟩, here, same⟩ := List.mem_filterMap.mp member
  have away := aside _ here
  cases other with
  | task task =>
      obtain rfl := Option.some.inj same
      obtain rfl : task = .browser call := browser
      exact away
  | _ => cases same

/-- Error entries are made of messages, one for each, and no browser hears of it. -/
theorem always_errorEntries (messages : List String)
    : (errorEntries messages).Always fun calls entries =>
        Aside calls ∧ (Log.hasErrors entries = true ↔ messages ≠ []) := by
  induction messages with
  | nil => exact always_done.mpr ⟨aside_nil, by simp [Log.hasErrors]⟩
  | cons message messages ih =>
      refine always_ask.mpr fun time => ?_
      change ((errorEntries messages).bind _).Always _
      refine always_bind.mpr (ih.mono fun calls entries made => always_done.mpr ?_)
      exact ⟨by simpa [RunCall.IsAside] using made.1, by simp [Log.hasErrors]⟩

-----------------------------------------------------------------------------------------
-- The work of a phase
-----------------------------------------------------------------------------------------

/-- How the work of a phase came to its end, with its verdict, its log and the environment. -/
inductive Worked (settings : RunSettings) (phase : PhaseRecord) (node : Json.Decoded Node)
    (log : Log) (env : Environment)
    : List (Happening runCalls) → Bool × Log × Environment → Prop where
  /-- Its node could not be read. -/
  | unreadable {reason : Json.DecodeError} (unread : node = .error reason)
      : Worked settings phase node log env [] (false, log, env)
  /-- There was no executor. -/
  | unknown {calls : List (Happening runCalls)} {entries : Log} (aside : Aside calls)
      (missing : settings.registry phase.taskType = none) (errors : Log.hasErrors entries)
      : Worked settings phase node log env calls (false, log ++ entries, env)
  /-- Its task was done, or broke off. -/
  | done {parsed : Node} {executor : Executor} {inner : List (Happening taskCalls)}
      {verdict : Except Halt Bool} {work : Workspace} {calls : List (Happening runCalls)}
      {success : Bool} {entries kept : Log} (read : node = .ok parsed)
      (found : settings.registry phase.taskType = some executor)
      (ends : ((ExceptT.run executor).run (env.lend parsed.id log)).Ends inner (verdict, work))
      (aside : Aside calls) (told : success = true ↔ verdict = .ok true)
      (logged : kept = work.log ++ entries)
      (broke : Log.hasErrors entries = true ↔ ∃ halt, verdict = .error halt)
      : Worked settings phase node log env (inner.map asked ++ calls)
          (success, kept, env.takeBack work)

theorem always_perform (settings : RunSettings) (phase : PhaseRecord) (node : Json.Decoded Node)
    (log : Log) (env : Environment)
    : (perform settings phase node log env).Always (Worked settings phase node log env) := by
  unfold perform
  split
  case h_1 reason _ => exact always_done.mpr (.unreadable rfl)
  case h_2 missing =>
    refine always_bind.mpr ((always_errorEntries _).mono fun calls entries made => ?_)
    refine always_done.mpr ?_
    rw [List.append_nil]
    exact .unknown made.1 missing (made.2.mpr (by simp))
  case h_3 parsed executor found =>
    intro calls outcome ends
    obtain ⟨first, ⟨verdict, work⟩, second, worked, last, rfl⟩ := ends_of_bind ends
    obtain ⟨inner, own, rfl⟩ := ends_of_ofTask worked
    cases verdict with
    | ok success =>
        obtain ⟨rfl, rfl⟩ := ends_of_done last
        refine .done rfl found own aside_nil (by simp) (List.append_nil _).symm ?_
        simp [Log.hasErrors]
    | error halt =>
        obtain ⟨more, entries, _, told, ending, rfl⟩ := ends_of_bind last
        obtain ⟨rfl, rfl⟩ := ends_of_done ending
        obtain ⟨aside, errors⟩ := always_errorEntries _ _ _ told
        exact .done rfl found own (by simpa using aside) (by simp) rfl (by simpa using errors)

-----------------------------------------------------------------------------------------
-- The whole phase
-----------------------------------------------------------------------------------------

/-- How a phase is told to have ended. -/
def ending (phase : PhaseRecord) (success : Bool) (credits millis : Nat) (kept : Log)
    (time : Time.Instant) : Event :=
  let node := nodeId (Node.parse phase.node)
  if success then .phaseCompleted phase.executionId phase.id node credits millis time
  else .phaseFailed phase.executionId phase.id node kept.lastError? time

/-- How a phase ran. -/
inductive Ran (settings : RunSettings) (flow : Flow) (phase : PhaseRecord) (env : Environment)
    : List (Happening runCalls) → Except StoreError (Bool × Nat) × Environment → Prop where
  /-- The store did not keep that it has begun. -/
  | unbegun {calls : List (Happening runCalls)} {reason : StoreError} (aside : Aside calls)
      : Ran settings flow phase env calls
          (.error reason, prepared settings.catalog flow phase env)
  /-- The store did not keep how it ended. -/
  | lost {before work after : List (Happening runCalls)} {log kept : Log} {success : Bool}
      {left : Environment} {reason : StoreError} (first : Aside before)
      (worked
        : Worked settings phase (Node.parse phase.node) log
            (prepared settings.catalog flow phase env) work (success, kept, left))
      (last : Aside after)
      : Ran settings flow phase env (before ++ work ++ after) (.error reason, left)
  /-- It ended, and that was told. -/
  | ended {before work after : List (Happening runCalls)} {log kept : Log} {success : Bool}
      {left : Environment} {credits millis : Nat} {time : Time.Instant} (first : Aside before)
      (messages
        : Log.hasErrors log = true
          ↔ (enter settings.catalog flow (Node.parse phase.node) env).1 ≠ [])
      (worked
        : Worked settings phase (Node.parse phase.node) log
            (prepared settings.catalog flow phase env) work (success, kept, left))
      (last : Aside after)
      : Ran settings flow phase env
          (before ++ work ++ after ++ [⟨.emit (ending phase success credits millis kept time), ()⟩])
          (.ok (success, credits), left)

theorem always_inLoop_bind {α β : Type} {part : RunM α} {next : α → LoopM β} {env : Environment}
    {wanted : List (Happening runCalls) → Except StoreError β × Environment → Prop}
    : (LoopM.on (inLoop part >>= next) env).Always wanted
      ↔ part.Always fun calls value =>
          (LoopM.on (next value) env).Always fun more => wanted (calls ++ more) := by
  rw [on_inLoop_bind, always_bind]

/-- The store decides whether the loop goes on. -/
theorem always_stored_bind {β : Type} {call : StoreCall} {next : call.Result → LoopM β}
    {env : Environment}
    {wanted : List (Happening runCalls) → Except StoreError β × Environment → Prop}
    (goesOn
      : ∀ result, (LoopM.on (next result) env).Always fun more =>
          wanted (⟨.store call, .ok result⟩ :: more))
    (ends : ∀ reason, wanted [⟨.store call, .error reason⟩] (.error reason, env))
    : (LoopM.on (stored call >>= next) env).Always wanted := by
  refine always_ask.mpr fun answer => ?_
  cases answer with
  | ok result => exact goesOn result
  | error reason => exact always_done.mpr (ends reason)

/-- What the end of a phase comes to: the store did not keep it, or it was told. -/
inductive Finishes (phase : PhaseRecord) (success : Bool) (kept : Log) (left : Environment)
    : List (Happening runCalls) → Except StoreError (Bool × Nat) × Environment → Prop where
  | lost {calls : List (Happening runCalls)} {reason : StoreError} (aside : Aside calls)
      : Finishes phase success kept left calls (.error reason, left)
  | told {calls : List (Happening runCalls)} {credits : Nat} {time : Time.Instant}
      (aside : Aside calls) (millis : Nat)
      : Finishes phase success kept left
          (calls ++ [⟨.emit (ending phase success credits millis kept time), ()⟩])
          (.ok (success, credits), left)

theorem always_settle (settings : RunSettings) (phase : PhaseRecord) (time : Time.Instant)
    (inputs : String) (start : Nat) (success : Bool) (kept : Log) (left env : Environment)
    : (LoopM.on (settle settings (phase.begun time inputs) (nodeId (Node.parse phase.node)) start
        success kept left) env).Always (Finishes phase success kept left) := by
  change (LoopM.on (inLoop now >>= _) left).Always _
  refine always_inLoop_bind.mpr (always_ask.mpr fun completed => always_done.mpr ?_)
  let ended := (phase.begun time inputs).ended settings.catalog success completed
    (slotsText left (nodeId (Node.parse phase.node)) Slots.outputs)
  refine always_stored_bind (fun _ => ?_) fun reason => ?_
  · refine always_stored_bind (fun _ => ?_) fun reason => ?_
    · refine always_inLoop_bind.mpr (always_ask.mpr fun (later : Nat) => always_done.mpr ?_)
      refine always_inLoop_bind.mpr (always_ask.mpr fun told => ?_)
      let calls : List (Happening runCalls) :=
        [⟨.task .now, completed⟩, ⟨.store (.updatePhase ended), .ok ()⟩,
          ⟨.store (.appendLogs phase.id kept), .ok ()⟩, ⟨.uptime, later⟩, ⟨.task .now, told⟩]
      have aside : Aside calls := by simp [calls, RunCall.IsAside]
      cases success with
      | true =>
          refine always_ask.mpr fun _ => always_done.mpr (always_done.mpr ?_)
          exact .told aside (later - start)
      | false =>
          refine always_ask.mpr fun _ => always_done.mpr (always_done.mpr ?_)
          exact .told aside (later - start)
    · exact .lost (by simp [RunCall.IsAside])
  · exact .lost (by simp [RunCall.IsAside])

/-- Whatever is answered, a phase runs in one of these ways. -/
theorem always_runPhase (settings : RunSettings) (flow : Flow) (phase : PhaseRecord)
    (env : Environment)
    : (LoopM.on (runPhase settings flow phase) env).Always (Ran settings flow phase env) := by
  rw [runPhase_eq]
  refine always_inLoop_bind.mpr (always_ask.mpr fun start => always_done.mpr ?_)
  rw [on_modifyGet_bind]
  refine always_inLoop_bind.mpr ((always_errorEntries _).mono fun calls log made => ?_)
  rw [on_get_bind]
  refine always_inLoop_bind.mpr (always_ask.mpr fun time => always_done.mpr ?_)
  let node := Node.parse phase.node
  let begun := phase.begun time
    (slotsText (prepared settings.catalog flow phase env) (nodeId node) Slots.inputs)
  refine always_stored_bind (fun _ => ?_) fun reason => ?_
  · refine always_inLoop_bind.mpr ?_
    refine always_ask.mpr fun told => always_ask.mpr fun _ => always_done.mpr ?_
    refine always_inLoop_bind.mpr (Always.mono (always_perform _ _ _ _ _) ?_)
    rintro work ⟨success, kept, left⟩ worked
    refine Always.mono (always_settle _ phase _ _ _ _ _ _ _) fun after outcome settled => ?_
    let before : List (Happening runCalls) :=
      ⟨.uptime, start⟩ :: calls
        ++ [⟨.task .now, time⟩, ⟨.store (.updatePhase begun), .ok ()⟩, ⟨.task .now, told⟩,
          ⟨.emit (.phaseStarted phase.executionId phase.id (nodeId node) phase.taskType told), ()⟩]
    have first : Aside before := by simpa [before, RunCall.IsAside] using made.1
    have whole : Ran settings flow phase env (before ++ work ++ after) outcome := by
      cases settled with
      | lost last => exact .lost first worked last
      | told last millis =>
          rw [← List.append_assoc]
          exact .ended first made.2 worked last
    simp only [before, List.cons_append, List.append_assoc, List.nil_append] at whole
    exact whole
  · exact .unbegun (by simpa [RunCall.IsAside] using made.1)

-----------------------------------------------------------------------------------------
-- Runs that are answered at once
-----------------------------------------------------------------------------------------

/-- The answers of a driver that does what it is asked and numbers the browsers that it launches. -/
def obliging : (call : BrowserCall) → List (Happening runCalls) → call.Answer
  | .launch, past => (.ok ⟨(tasksIn past).countP isLaunch⟩ : Except BrowserError BrowserId)
  | .newPage browser, _ => (.ok ⟨browser, 0⟩ : Except BrowserError PageId)
  | .pages _, _ => (.ok [] : Except BrowserError (List PageId))
  | .closeBrowser _, _ => (.ok () : Except BrowserError Unit)
  | .goto _ _, _ => (.ok () : Except BrowserError Unit)
  | .content _, _ => (.ok "" : Except BrowserError String)
  | .typeInto _ _ _, _ => (.ok () : Except BrowserError Unit)
  | .waitFor _ _ _, _ => (.ok () : Except BrowserError Unit)
  | .extractAll _ _ _, _ => (.ok [] : Except BrowserError (List String))
  | .evaluate _ _ _, _ => (none : Option (Except BrowserError Json))
  | .closePage _, _ => (.ok () : Except BrowserError Unit)
  | .isClosed _, _ => false

/-- The answers of a browser and of a store, in a world without time that asks for no stop. -/
def answering (browse : (call : BrowserCall) → List (Happening runCalls) → call.Answer)
    (keep : (call : StoreCall) → call.Answer)
    : (call : RunCall) → List (Happening runCalls) → call.Answer
  | .task (.browser call), past => browse call past
  | .task .now, _ => (⟨0, 0, 0⟩ : Time.Instant)
  | .task (.pause _), _ => ()
  | .task (.save _ _), _ => (.ok () : Except FileError Unit)
  | .task (.delegate _ _), _ => (⟨[], [], .ok true⟩ : Report)
  | .store call, _ => keep call
  | .uptime, _ => (0 : Nat)
  | .emit _, _ => ()
  | .isCancelled _, _ => false
  | .freshId, _ => Uuid.ofNat 0

end Run

end Harvest

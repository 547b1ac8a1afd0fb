import Harvest.Proofs.Run.Conduct

/-! The account of a run from its start to its end, whatever its tasks do, whenever it is asked to
stop and whichever calls the store refuses. What is stored, told and started agrees turn by turn.
-/

namespace Harvest.Run.Charge

open Realm Program RunM Time

variable {σ : Type} [Ledger σ] {mine : Uuid → Prop} {charge : Charge}
  {earlier : List (Happening runCalls)} {tally : Tally} {arena : Arena σ}
  {settings : RunSettings} {flow : Flow} {phase : PhaseRecord} {α : Type}

-----------------------------------------------------------------------------------------
-- One phase
-----------------------------------------------------------------------------------------

/-- The tally after one more turn, which took the place of a waiting phase on the roll. -/
def afterTurn (charge : Charge) (tally : Tally) (front back : List Entry) (turn : Turn) : Tally :=
  { tally with
    roll := front ++ turn.entry charge.catalog :: back
    told := tally.told ++ turn.told charge.catalog charge.execution
    begun := tally.begun ++ [turn.phase.id] }

/-- What is told when a phase has ended is in the store, by cases on how it ended. -/
theorem announced_closing {catalog : Catalog} {execution : Uuid} (turn : Turn) {store : σ}
    (listed : turn.entry catalog ∈ Books.roll store execution)
    : Announced store (turn.closing catalog execution) := by
  obtain ⟨phase, node, startedAt, verdict, endedAt⟩ := turn
  cases verdict with
  | completed millis => exact ⟨_, listed, rfl, rfl, rfl⟩
  | failed error => exact ⟨_, listed, rfl, rfl⟩

/-- It is told of the execution. -/
theorem execution_closing (catalog : Catalog) (execution : Uuid) (turn : Turn)
    : (turn.closing catalog execution).execution = execution := by
  obtain ⟨phase, node, startedAt, verdict, endedAt⟩ := turn
  cases verdict <;> rfl

/-- A turn is over when its end is told, once the record of the end is stored. -/
theorem safe_closing (ours : mine charge.execution) (turn : Turn) {front back : List Entry}
    {entry : Entry} {closing : Instant → Event} (written : entry = turn.entry charge.catalog)
    (closes
      : ∀ time,
          closing time = { turn with endedAt := time }.closing charge.catalog charge.execution)
    (holds
      : { tally with
          roll := front ++ entry :: back
          told := tally.told
            ++ [Event.phaseStarted charge.execution turn.phase.id turn.node turn.phase.taskType
                turn.startedAt]
          begun := tally.begun ++ [turn.phase.id] }.Holds charge.execution earlier arena)
    {next : Unit → RunM α} {wanted : α → Arena σ → Prop}
    (safe
      : ∀ time later,
          (charge.afterTurn tally front back { turn with endedAt := time }).Holds
              charge.execution earlier later
          → (Arena.running mine).Safe charge.Proper wanted (next ()) later)
    : (Arena.running mine).Safe charge.Proper wanted
        ((now >>= fun time => emit (closing time)).bind next) arena := by
  subst written
  obtain rfl := funext closes
  refine safe_tell ours holds _ (fun time before here => ?_) (fun time => ?_)
    fun time later there => safe time later ?_
  · refine announced_closing { turn with endedAt := time } ?_
    rw [here.roll]
    exact List.mem_append_right _ List.mem_cons_self
  · exact execution_closing charge.catalog charge.execution _
  · simpa [afterTurn, Turn.told, Turn.entry, Turn.cost] using there

/-- The record of a phase is written in its place, or the store is lost. -/
theorem safe_updatePhase (ours : mine charge.execution)
    (holds : tally.Holds charge.execution earlier arena) (unfinished : tally.IsOpen)
    (written : PhaseRecord) {old : Entry} {front back : List Entry}
    (roll : tally.roll = front ++ old :: back) (place : old.SamePhase written.entry)
    (owned : written.executionId = charge.execution)
    (cleared
      : ∀ phase,
          started? (.updatePhase written) = some phase
          → Cleared charge.execution charge.token arena.past)
    (course : charge.Juncture arena.past tally.status (front ++ written.entry :: back))
    {rest : Unit → LoopM α} {env : Environment}
    {wanted : Except StoreError α × Environment → Arena σ → Prop}
    (safe
      : ∀ later,
          { tally with
            roll := front ++ written.entry :: back
            begun := tally.begun ++ (started? (.updatePhase written)).toList }.Holds
              charge.execution earlier later
          → (Arena.running mine).Safe charge.Proper wanted (LoopM.on (rest ()) env) later)
    (lost
      : ∀ reason later,
          (⟨.store (.updatePhase written), .error reason⟩ : Happening runCalls) ∈ later.past
          → (tally.tried (.updatePhase written)).Holds charge.execution earlier later
          → wanted (.error reason, env) later)
    : (Arena.running mine).Safe charge.Proper wanted
        (LoopM.on (stored (.updatePhase written) >>= rest) env) arena := by
  have listed : old ∈ tally.roll := roll ▸ List.mem_append_right _ List.mem_cons_self
  have granted := Tally.granted_updatePhase roll holds.distinct place.id
  refine safe_stored ours holds (.updatePhase written) ⟨owned, ⟨old, listed, place⟩, unfinished⟩
    cleared (fun _ => ?_) ?_ lost
  · rw [granted]
    exact course
  · intro _ _ later _ _ _ there
    rw [granted] at there
    exact safe later there

/-- A phase that was waiting is at work once its record says that it runs. -/
theorem entry_begun (phase : PhaseRecord) (time : Instant) (inputs : String)
    : (phase.begun time inputs).entry = atWork (waiting phase.entry) := by
  change { phase.entry with status := .running } = _
  unfold atWork waiting Entry.moved
  split <;> rfl

/-- The record of a phase at work comes to say what its turn came to, whatever is told of that. -/
theorem entry_ended {catalog : Catalog} (turn : Turn) (working : phase.entry = atWork turn.phase)
    {success : Bool} (succeeds : turn.verdict.succeeds = success) (time : Instant)
    (outputs : String)
    : (phase.ended catalog success time outputs).entry = turn.entry catalog := by
  subst succeeds
  have id : phase.id = turn.phase.id := congrArg Entry.id working
  have number : phase.number = turn.phase.number := congrArg Entry.number working
  have position : phase.position = turn.phase.position := congrArg Entry.position working
  have taskType : phase.taskType = turn.phase.taskType := congrArg Entry.taskType working
  refine Entry.SamePhase.eq ⟨id, number, position, taskType⟩ rfl ?_
  change (if turn.verdict.succeeds then catalog.credits phase.taskType else 0) = _
  rw [taskType]
  rfl

/-- What a phase that is run comes to: it takes its turn, or the store is lost. -/
def Taken (charge : Charge) (earlier : List (Happening runCalls)) (tally : Tally)
    (front back : List Entry) (entry : Entry)
    : Except StoreError (Bool × Nat) → Arena σ → Prop
  | .ok (success, cost), arena =>
      ∃ turn : Turn,
        turn.phase = entry
        ∧ turn.verdict.succeeds = success
        ∧ turn.cost charge.catalog = cost
        ∧ (afterTurn charge tally front back turn).Holds charge.execution earlier arena
  | .error reason, arena => charge.Severed front (entry :: back) tally.credits earlier reason arena

/-- How a phase ended, from what its work came to. -/
def verdictOn (success : Bool) (millis : Nat) (log : Log) : Verdict :=
  if success then .completed millis else .failed log.lastError?

@[simp] theorem succeeds_verdictOn (success : Bool) (millis : Nat) (log : Log)
    : (verdictOn success millis log).succeeds = success := by
  cases success <;> rfl

/-- The end of a phase is told once its record is stored, and its turn is over. -/
theorem safe_tellEnd (ours : mine charge.execution) {entry : Entry} {front back : List Entry}
    {node : String} {startedAt : Instant} {ended : PhaseRecord} {success : Bool} {log : Log}
    {millis : Nat}
    (written
      : ended.entry
        = (⟨entry, node, startedAt, verdictOn success millis log, startedAt⟩ : Turn).entry
            charge.catalog)
    (owned : ended.executionId = charge.execution)
    (holds
      : { tally with
          roll := front ++ ended.entry :: back
          told := tally.told
            ++ [Event.phaseStarted charge.execution entry.id node entry.taskType startedAt]
          begun := tally.begun ++ [entry.id] }.Holds charge.execution earlier arena)
    (env : Environment)
    : (Arena.running mine).Safe charge.Proper
        (fun result later => charge.Taken earlier tally front back entry result.1 later)
        ((now >>= fun time =>
            if success then
              emit (.phaseCompleted ended.executionId ended.id node ended.credits millis time)
            else emit (.phaseFailed ended.executionId ended.id node log.lastError? time)).bind
          fun _ => LoopM.on (return (success, ended.credits)) env) arena := by
  let turn : Turn := ⟨entry, node, startedAt, verdictOn success millis log, startedAt⟩
  have id : ended.id = entry.id := congrArg Entry.id written
  have cost : ended.credits = turn.cost charge.catalog := congrArg Entry.credits written
  have told
      : (now >>= fun time =>
          if success then
            emit (.phaseCompleted ended.executionId ended.id node ended.credits millis time)
          else emit (.phaseFailed ended.executionId ended.id node log.lastError? time))
        = now >>= fun time =>
          emit ({ turn with endedAt := time }.closing charge.catalog charge.execution) := by
    rw [owned, id, cost]
    cases success <;> rfl
  rw [told]
  refine safe_closing ours turn written (fun _ => rfl) holds fun time later there last drifts => ?_
  exact ⟨{ turn with endedAt := time }, rfl, succeeds_verdictOn success millis log, cost.symm,
    there.passes (Arena.Drifts.passes drifts ours)⟩

/-- A phase that is at work is brought to its end, or the store is lost. -/
theorem safe_settle (ours : mine charge.execution) (catalog : settings.catalog = charge.catalog)
    {entry : Entry} (working : phase.entry = atWork entry)
    (owned : phase.executionId = charge.execution) {front back : List Entry} {node : String}
    {startedAt : Instant} (status : tally.status = .running)
    (holds
      : { tally with
          roll := front ++ phase.entry :: back
          told := tally.told
            ++ [Event.phaseStarted charge.execution entry.id node entry.taskType startedAt]
          begun := tally.begun ++ [entry.id] }.Holds charge.execution earlier arena)
    (behind
      : ∀ past (turn : Turn),
          turn.phase = entry
          → charge.Juncture past .running (front ++ turn.entry charge.catalog :: back))
    (start : Nat) (success : Bool) (log : Log) (left env : Environment)
    : (Arena.running mine).Safe charge.Proper
        (fun result later => charge.Taken earlier tally front back entry result.1 later)
        (LoopM.on (settle settings phase node start success log left) env) arena := by
  have unfinished : tally.IsOpen := Tally.isOpen_of_running status
  rw [settle, on_set_bind, on_inLoop_bind]
  refine safe_quietly ours (ask_quiet (.task .now) trivial) fun time arena passes => ?_
  replace holds := holds.passes passes
  let ended := phase.ended settings.catalog success time (slotsText left node Slots.outputs)
  have unstarted : started? (.updatePhase ended) = none := by cases success <;> rfl
  have terminal : ended.status.isTerminal := by cases success <;> rfl
  -- the entry goes by the verdict only, so it is known before the time that is told
  let turn (millis : Nat) : Turn := ⟨entry, node, startedAt, verdictOn success millis log, startedAt⟩
  have written (millis : Nat) : ended.entry = (turn millis).entry charge.catalog := by
    rw [← catalog]
    exact entry_ended (turn millis) working (succeeds_verdictOn success millis log) time _
  have ends : charge.Severs front (.updatePhase ended) (entry :: back)
      (front ++ phase.entry :: back) := by
    rw [working]
    exact .ending terminal
  have logs : charge.Severs front (.appendLogs phase.id log) (entry :: back)
      (front ++ ended.entry :: back) := by
    rw [written 0]
    exact (Severs.logging : charge.Severs front _ ((turn 0).phase :: back) _)
  refine safe_updatePhase ours holds unfinished ended rfl ⟨rfl, rfl, rfl, rfl⟩ owned
    (by simp [unstarted]) ?_ (fun arena holds => ?_) fun reason later refused holds =>
      severed_of_refused holds ends status refused
  · rw [status, written 0]
    exact behind _ (turn 0) rfl
  rw [unstarted, Option.toList_none, List.append_nil] at holds
  refine safe_stored ours holds (.appendLogs phase.id log) ⟨?_, unfinished⟩ nofun
    (fun same => same) ?_ fun reason later refused holds =>
      severed_of_refused holds logs status refused
  · exact List.mem_map.mpr ⟨ended.entry, List.mem_append_right _ List.mem_cons_self, rfl⟩
  intro _ _ arena _ _ _ holds
  rw [on_inLoop_bind]
  refine safe_quietly ours (ask_quiet .uptime trivial) fun (ending : Nat) arena passes => ?_
  rw [on_inLoop_bind]
  exact safe_tellEnd ours (written (ending - start)) owned (holds.passes passes) left

/-- A phase that is run takes its turn, or the store is lost. -/
theorem safe_runPhase (ours : mine charge.execution) (catalog : settings.catalog = charge.catalog)
    (owned : phase.executionId = charge.execution) {front back : List Entry}
    (holds : tally.Holds charge.execution earlier arena) (status : tally.status = .running)
    (roll : tally.roll = front ++ waiting phase.entry :: back)
    (within : ∀ past, charge.Juncture past .running (front ++ atWork (waiting phase.entry) :: back))
    (behind
      : ∀ past (turn : Turn),
          turn.phase = waiting phase.entry
          → charge.Juncture past .running (front ++ turn.entry charge.catalog :: back))
    (cleared : Cleared charge.execution charge.token arena.past) (env : Environment)
    : (Arena.running mine).Safe charge.Proper
        (fun result later =>
          charge.Taken earlier tally front back (waiting phase.entry) result.1 later)
        (LoopM.on (runPhase settings flow phase) env) arena := by
  have place : (waiting phase.entry).SamePhase phase.entry :=
    Entry.samePhase_moved .created .pending phase.entry
  let opened : Environment := (enter settings.catalog flow (Node.parse phase.node) env).2
  rw [runPhase_eq, on_inLoop_bind]
  refine safe_quietly ours (ask_quiet .uptime trivial) fun (start : Nat) arena passes => ?_
  replace holds := holds.passes passes
  replace cleared := cleared.passes passes
  rw [on_modifyGet_bind, on_inLoop_bind]
  refine safe_quietly ours (errorEntries_quiet _) fun log arena passes => ?_
  replace holds := holds.passes passes
  replace cleared := cleared.passes passes
  rw [on_get_bind, on_inLoop_bind]
  refine safe_quietly ours (ask_quiet (.task .now) trivial) fun startedAt arena passes => ?_
  replace holds := holds.passes passes
  replace cleared := cleared.passes passes
  let node := nodeId (Node.parse phase.node)
  let begun := phase.begun startedAt (slotsText opened node Slots.inputs)
  have working : begun.entry = atWork (waiting phase.entry) := entry_begun phase _ _
  have opens : charge.Severs front (.updatePhase begun) (waiting phase.entry :: back)
      tally.roll := by
    rw [roll]
    exact .opening rfl
  refine safe_updatePhase ours holds (Tally.isOpen_of_running status) begun roll
    ⟨place.id, place.number, place.position, place.taskType⟩ owned (fun _ _ => cleared) ?_
    (fun arena holds => ?_) fun reason later refused holds =>
      severed_of_refused holds opens status refused
  · rw [status, working]
    exact within _
  rw [on_inLoop_bind]
  let opening : Instant → Event := .phaseStarted phase.executionId phase.id node phase.taskType
  refine safe_tell ours holds opening ?_ (fun _ => owned) fun toldAt arena holds => ?_
  · intro time before holds
    refine ⟨begun.entry, ?_, rfl, rfl, rfl⟩
    rw [owned, holds.roll]
    exact List.mem_append_right _ List.mem_cons_self
  rw [on_inLoop_bind]
  refine safe_quietly ours (perform_quiet _ _ _ _ _) ?_
  rintro ⟨success, log, left⟩ arena passes
  have told : opening toldAt
      = .phaseStarted charge.execution (waiting phase.entry).id node
          (waiting phase.entry).taskType toldAt := by
    rw [place.id, place.taskType, ← owned]
    rfl
  have began : begun.id = (waiting phase.entry).id := place.id.symm
  replace holds : { tally with
      roll := front ++ begun.entry :: back
      told := tally.told ++ [opening toldAt]
      begun := tally.begun ++ [begun.id] }.Holds charge.execution earlier arena :=
    holds.passes passes
  rw [told, began] at holds
  exact safe_settle ours catalog working owned status holds behind start success log left _

-----------------------------------------------------------------------------------------
-- The walk over the phases
-----------------------------------------------------------------------------------------

/-- The tally of a run under way, once some phases had their turn. -/
def underway (charge : Charge) (opening : List Event) (credits : Nat) (turns : List Turn)
    (rest : List Entry) : Tally where
  status := .running
  credits := credits
  roll := turns.map (Turn.entry charge.catalog) ++ rest
  told := opening ++ turns.flatMap (Turn.told charge.catalog charge.execution)
  begun := turns.map fun turn => turn.phase.id

/-- What a walk over the phases came to. -/
def Arrived (charge : Charge) (earlier : List (Happening runCalls)) (opening : List Event)
    (summary : Summary) (arena : Arena σ) : Prop :=
  ∃ turns rest credits,
    charge.queue = turns.map Turn.phase ++ rest
    ∧ Went summary.ending turns rest
    ∧ summary.credits = earned charge.catalog turns
    ∧ summary.phasesRun = turns.length
    ∧ (charge.underway opening credits turns rest).Holds charge.execution earlier arena

theorem Severed.passes {front waits : List Entry} {credits : Nat} {reason : StoreError}
    {later : Arena σ} (severed : charge.Severed front waits credits earlier reason arena)
    (passes : Passes charge.execution arena later)
    : charge.Severed front waits credits earlier reason later := by
  obtain ⟨call, tally, severs, running, same, refused, holds⟩ := severed
  obtain ⟨quiet, past, _⟩ := passes.past
  have refused' : _ ∈ later.past := past ▸ List.mem_append_left quiet refused
  exact ⟨call, tally, severs, running, same, refused', holds.passes passes⟩

theorem Lost.passes {reason : StoreError} {later : Arena σ}
    (lost : charge.Lost earlier reason arena) (passes : Passes charge.execution arena later)
    : charge.Lost earlier reason later := by
  obtain ⟨turns, waits, order, succeed, severed⟩ := lost
  exact ⟨turns, waits, order, succeed, severed.passes passes⟩

/-- A walk has arrived, or it has lost the store. -/
def Came (charge : Charge) (earlier : List (Happening runCalls)) (opening : List Event)
    : Except StoreError Summary → Arena σ → Prop
  | .ok summary, arena => charge.Arrived earlier opening summary arena
  | .error reason, arena => charge.Lost earlier reason arena

theorem Came.passes {opening : List Event} {looped : Except StoreError Summary} {later : Arena σ}
    (came : charge.Came earlier opening looped arena)
    (passes : Passes charge.execution arena later)
    : charge.Came earlier opening looped later := by
  cases looped with
  | ok summary =>
      obtain ⟨turns, rest, credits, order, went, same, count, holds⟩ := came
      exact ⟨turns, rest, credits, order, went, same, count, holds.passes passes⟩
  | error reason => exact Lost.passes came passes

/-- A further turn takes the place of the phase that waits first. -/
theorem afterTurn_underway (charge : Charge) (opening : List Event) (credits : Nat)
    (turns : List Turn) (turn : Turn) (next : Entry) (rest : List Entry)
    : charge.afterTurn (charge.underway opening credits turns (next :: rest))
        (turns.map (Turn.entry charge.catalog)) rest turn
      = charge.underway opening credits (turns ++ [turn]) rest := by
  simp [afterTurn, underway]

/-- Once a phase had its turn, what was earned is on record. -/
theorem spent_append (charge : Charge) (turns : List Turn) (turn : Turn)
    : charge.spent (turns ++ [turn]) = earned charge.catalog (turns ++ [turn]) := by
  simp [spent]

/-- Between two phases the run is halfway. -/
theorem halfway_underway {opening : List Event} {turns : List Turn} {rest : List Entry}
    (order : charge.queue = turns.map Turn.phase ++ rest)
    (succeed : ∀ turn ∈ turns, turn.verdict.succeeds)
    (holds
      : (charge.underway opening (charge.spent turns) turns rest).Holds charge.execution earlier
          arena)
    : charge.Halfway arena.store := by
  obtain ⟨stop, definition, held⟩ := holds.standing
  exact ⟨turns, rest, order, succeed, holds.roll, _, held, rfl⟩

/-- The phase that waits first has its turn, or the store is lost. -/
theorem safe_turn (ours : mine charge.execution) (catalog : settings.catalog = charge.catalog)
    (owned : phase.executionId = charge.execution) {opening : List Event} {turns : List Turn}
    {rest : List Entry} (order : charge.queue = turns.map Turn.phase ++ waiting phase.entry :: rest)
    (succeed : ∀ turn ∈ turns, turn.verdict.succeeds)
    (holds
      : (charge.underway opening (charge.spent turns) turns (waiting phase.entry :: rest)).Holds
          charge.execution earlier arena)
    (cleared : Cleared charge.execution charge.token arena.past) {env : Environment}
    {next : Bool × Nat → LoopM α} {wanted : Except StoreError α × Environment → Arena σ → Prop}
    (safe
      : ∀ turn left later,
          turn.phase = waiting phase.entry
          → (charge.underway opening (charge.spent turns) (turns ++ [turn]) rest).Holds
              charge.execution earlier later
          → (Arena.running mine).Safe charge.Proper wanted
              (LoopM.on (next (turn.verdict.succeeds, turn.cost charge.catalog)) left) later)
    (lost
      : ∀ reason left later, charge.Lost earlier reason later → wanted (.error reason, left) later)
    : (Arena.running mine).Safe charge.Proper wanted
        (LoopM.on (runPhase settings flow phase >>= next) env) arena := by
  rw [on_bind]
  refine (safe_runPhase ours catalog owned holds rfl rfl ?_ ?_ cleared env).followed ?_
  · exact fun past => .within order succeed (Or.inl rfl)
  · intro past turn taken
    have order' : charge.queue = (turns ++ [turn]).map Turn.phase ++ rest := by
      simp [order, taken]
    obtain ⟨ending, went⟩ := exists_went_append turn rest succeed
    have between : charge.Juncture past .running
        ((turns ++ [turn]).map (Turn.entry charge.catalog) ++ rest) :=
      .between order' went (Or.inl rfl)
    simpa using between
  rintro ⟨result, left⟩ arena outcome
  cases result with
  | ok result =>
      obtain ⟨success, cost⟩ := result
      obtain ⟨turn, taken, rfl, rfl, holds⟩ := outcome
      rw [afterTurn_underway] at holds
      exact safe turn left arena taken holds
  | error reason =>
      intro later drifts
      have gone := Severed.passes outcome (Arena.Drifts.passes drifts ours)
      exact lost reason left later ⟨turns, _, order, succeed, gone⟩

/-- After a turn that succeeded, what was earned is put on record, or the store is lost. -/
theorem safe_record (ours : mine charge.execution) {opening : List Event} {turns : List Turn}
    {turn : Turn} {rest : List Entry}
    (order : charge.queue = turns.map Turn.phase ++ turn.phase :: rest)
    (succeed : ∀ turn ∈ turns, turn.verdict.succeeds) (succeeds : turn.verdict.succeeds)
    (holds
      : (charge.underway opening (charge.spent turns) (turns ++ [turn]) rest).Holds
          charge.execution earlier arena)
    {record : Execution} (named : record.id = charge.execution) (status : record.status = .running)
    (credits : record.credits = earned charge.catalog (turns ++ [turn]))
    {next : Unit → LoopM Summary} {env : Environment}
    (safe
      : ∀ later : Arena σ,
          (charge.underway opening (charge.spent (turns ++ [turn])) (turns ++ [turn]) rest).Holds
            charge.execution earlier later
          → (Arena.running mine).Safe charge.Proper
              (fun result later => charge.Came earlier opening result.1 later)
              (LoopM.on (next ()) env) later)
    : (Arena.running mine).Safe charge.Proper
        (fun result later => charge.Came earlier opening result.1 later)
        (LoopM.on (stored (.updateExecution record) >>= next) env) arena := by
  have granted
      : (charge.underway opening (charge.spent turns) (turns ++ [turn]) rest).granted
          (.updateExecution record)
        = charge.underway opening (charge.spent (turns ++ [turn])) (turns ++ [turn]) rest := by
    change { charge.underway opening (charge.spent turns) (turns ++ [turn]) rest with
      status := record.status
      credits := record.credits } = _
    rw [status, credits, spent_append]
    rfl
  refine safe_stored ours holds (.updateExecution record) named (by rintro _ ⟨⟩)
    (fun course => ?_) ?_ fun reason later refused holds => ?_
  · rw [granted]
    exact course
  · intro _ _ later _ _ _ there
    rw [granted] at there
    exact safe later there
  · have records : charge.Severs (turns.map (Turn.entry charge.catalog))
        (.updateExecution record) (turn.phase :: rest)
        ((turns ++ [turn]).map (Turn.entry charge.catalog) ++ rest) := by
      simpa using Severs.recording succeeds status
    exact ⟨turns, _, order, succeed, severed_of_refused holds records rfl refused⟩

/-- The walk gives each phase its turn until it arrives or loses the store, by induction over the
phases that are left.
-/
theorem safe_runPhases (ours : mine charge.execution)
    (catalog : settings.catalog = charge.catalog) {known : Execution}
    (named : known.id = charge.execution) {opening : List Event} {turns : List Turn}
    {phases : List PhaseRecord}
    (order : charge.queue = turns.map Turn.phase ++ phases.map fun phase => waiting phase.entry)
    (succeed : ∀ turn ∈ turns, turn.verdict.succeeds)
    (owned : ∀ phase ∈ phases, phase.executionId = charge.execution)
    (holds
      : (charge.underway opening (charge.spent turns) turns
          (phases.map fun phase => waiting phase.entry)).Holds charge.execution earlier arena)
    (env : Environment)
    : (Arena.running mine).Safe charge.Proper
        (fun result later => charge.Came earlier opening result.1 later)
        (LoopM.on (runPhases settings known flow charge.token (earned charge.catalog turns)
          turns.length phases) env) arena := by
  induction phases generalizing turns arena env with
  | nil =>
      intro later drifts
      have there := holds.passes (Arena.Drifts.passes drifts ours)
      exact ⟨turns, [], _, order, .finished succeed, rfl, rfl, there⟩
  | cons phase phases ih =>
      let rest := phases.map fun phase => waiting phase.entry
      unfold runPhases
      rw [on_bind, named]
      refine (safe_stopRequested ours holds rfl rfl (fun before here => ?_) env).followed ?_
      · exact halfway_underway order succeed here
      rintro ⟨result, left⟩ arena (⟨stop, same, holds, cleared⟩ | ⟨reason, same, severed⟩)
      · cases same
        cases stop with
        | true =>
            intro later drifts
            have there := holds.passes (Arena.Drifts.passes drifts ours)
            refine ⟨turns, waiting phase.entry :: rest, _, order, ?_, rfl, rfl, there⟩
            exact .stopped succeed (List.cons_ne_nil _ _)
        | false =>
            have ownedHere : phase.executionId = charge.execution := owned phase List.mem_cons_self
            refine safe_turn ours catalog ownedHere order succeed holds (cleared rfl)
              (fun turn left arena taken holds => ?_) fun _ _ _ lost => lost
            have order' : charge.queue = (turns ++ [turn]).map Turn.phase ++ rest := by
              simp [order, taken, rest]
            have count : (turns ++ [turn]).length = turns.length + 1 := List.length_append
            cases succeeds : turn.verdict.succeeds with
            | false =>
                intro later drifts
                have there := holds.passes (Arena.Drifts.passes drifts ours)
                refine ⟨turns ++ [turn], rest, _, order', ?_, ?_, ?_, there⟩
                · exact .failed succeed succeeds
                · exact (earned_append charge.catalog turns turn).symm
                · exact count.symm
            | true =>
                refine safe_record ours (taken ▸ order) succeed succeeds holds rfl rfl
                  (earned_append charge.catalog turns turn).symm fun arena holds => ?_
                have succeed' : ∀ turn' ∈ turns ++ [turn], turn'.verdict.succeeds := by
                  intro turn' member
                  rcases List.mem_append.mp member with early | last
                  · exact succeed turn' early
                  · rw [List.mem_singleton.mp last]
                    exact succeeds
                have owned' : ∀ phase ∈ phases, phase.executionId = charge.execution :=
                  fun phase member => owned phase (List.mem_cons_of_mem _ member)
                have walked := ih order' succeed' owned' holds left
                rw [earned_append, count] at walked
                exact walked
      · cases same
        intro later drifts
        have gone := severed.passes (Arena.Drifts.passes drifts ours)
        exact ⟨turns, _, order, succeed, gone⟩

end Harvest.Run.Charge

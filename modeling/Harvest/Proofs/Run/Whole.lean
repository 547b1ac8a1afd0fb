import Harvest.Proofs.Run.Account

/-! A whole run, from what it is given to what it comes to. It is refused before anything happens,
it loses its store on the way, or it concludes; what concludes is stored, told and returned alike.
-/

namespace Harvest

namespace Run

open Realm Program RunM Time

-----------------------------------------------------------------------------------------
-- What a run comes to
-----------------------------------------------------------------------------------------

/-- Why a run does not start, by where its execution stands. -/
inductive Refuses (execution : Uuid) (standing : Standing) : SetupError → Prop where
  | finished (terminal : standing.status.isTerminal)
      : Refuses execution standing (.alreadyFinished execution)
  | unreadable {reason : Json.DecodeError}
      (unparsed : Flow.parse standing.definition = .error reason)
      : Refuses execution standing (.invalidDefinition execution reason.message)

theorem Refuses.flagged {execution : Uuid} {standing : Standing} {reason : SetupError}
    (refuses : Refuses execution standing reason) (stop : Bool)
    : Refuses execution { standing with stopRequested := stop } reason := by
  cases refuses with
  | finished terminal => exact .finished terminal
  | unreadable unparsed => exact .unreadable unparsed

/-- The record of an execution was stored. -/
def Marks (record : Execution) : Happening runCalls := ⟨.store (.updateExecution record), .ok ()⟩

theorem marks_ne_refused (record : Execution) {call : StoreCall} (reason : StoreError)
    : Marks record ≠ ⟨.store call, .error reason⟩ := by
  intro same
  cases same

/-- Since an earlier past no record of an execution was stored. -/
def Unmarked (earlier past : List (Happening runCalls)) : Prop :=
  ∃ made, past = earlier ++ made ∧ ∀ record, Marks record ∉ made

theorem Unmarked.refl (past : List (Happening runCalls)) : Unmarked past past :=
  ⟨[], by simp, nofun⟩

theorem Unmarked.snoc {earlier past : List (Happening runCalls)} (unmarked : Unmarked earlier past)
    {happening : Happening runCalls} (other : ∀ record, Marks record ≠ happening)
    : Unmarked earlier (past ++ [happening]) := by
  obtain ⟨made, rfl, none⟩ := unmarked
  refine ⟨made ++ [happening], List.append_assoc _ _ _, fun record member => ?_⟩
  rcases List.mem_append.mp member with early | last
  · exact none record early
  · exact other record (List.mem_singleton.mp last)

theorem Unmarked.passes {σ : Type} [Ledger σ] {execution : Uuid} {before later : Arena σ}
    {earlier : List (Happening runCalls)} (unmarked : Unmarked earlier before.past)
    (passes : Passes execution before later)
    : Unmarked earlier later.past := by
  obtain ⟨made, past, none⟩ := unmarked
  obtain ⟨quiet, grown, each⟩ := passes.past
  refine ⟨made ++ quiet, by rw [grown, past, List.append_assoc], fun record member => ?_⟩
  rcases List.mem_append.mp member with early | late
  · exact none record early
  · exact each _ late

namespace Charge

variable {σ : Type} [Ledger σ] {mine : Uuid → Prop} {charge : Charge}
  {earlier : List (Happening runCalls)} {tally : Tally} {arena : Arena σ}
  {settings : RunSettings} {opening : List Event} {α : Type}

/-- The charge is that of a run that starts in the arena. -/
structure Suits (charge : Charge) (arena : Arena σ) : Prop where
  roll : charge.roll = Books.roll arena.store charge.execution
  standing
    : ∀ standing,
        Books.standing? arena.store charge.execution = some standing
        → standing = charge.standing

theorem Suits.queue (suits : charge.Suits arena)
    : charge.queue = (Books.roll arena.store charge.execution).map waiting :=
  congrArg (List.map waiting) suits.roll

/-- Every run has its charge. -/
theorem exists_suits (catalog : Catalog) (execution : Uuid) (token : Token) (arena : Arena σ)
    : ∃ charge : Charge,
        charge.catalog = catalog
        ∧ charge.execution = execution
        ∧ charge.token = token
        ∧ charge.Suits arena := by
  let roll := Books.roll arena.store execution
  cases held : Books.standing? arena.store execution with
  | none =>
      refine ⟨⟨catalog, execution, token, roll, ⟨.pending, 0, false, ""⟩⟩, rfl, rfl, rfl, rfl, ?_⟩
      intro standing there
      rw [held] at there
      cases there
  | some standing =>
      refine ⟨⟨catalog, execution, token, roll, standing⟩, rfl, rfl, rfl, rfl, ?_⟩
      intro other there
      rw [held, Option.some.injEq] at there
      exact there.symm

/-- The tally of a run that has ended. -/
def closed (charge : Charge) (tally : Tally) (status : ExecutionStatus) (credits millis : Nat)
    (time : Instant) : Tally where
  status := status
  credits := credits
  roll := tally.roll
  told := tally.told ++ [.executionFinished charge.execution status credits millis time]
  begun := tally.begun

/-- The run has concluded: its outcome is what the books and the last event say. -/
def Concluded (charge : Charge) (earlier : List (Happening runCalls)) (opening : List Event)
    (result : Except SetupError RunOutcome) (arena : Arena σ) : Prop :=
  ∃ ending turns rest credits stop millis time,
    charge.queue = turns.map Turn.phase ++ rest
    ∧ Went ending turns rest
    ∧ result
      = .ok ⟨charge.execution, ending.status, earned charge.catalog turns, stop, turns.length⟩
    ∧ (charge.closed (charge.underway opening credits turns rest) ending.status
        (earned charge.catalog turns) millis time).Holds charge.execution earlier arena

/-- What a run that has concluded says of stops. What it says is on record, and it says that it
was stopped when it left phases though none that it reached had failed.
-/
structure Flagged (charge : Charge) (outcome : RunOutcome) (arena : Arena σ) : Prop where
  recorded
    : ∃ record : Execution,
        Marks record ∈ arena.past ∧ record.stopRequested = outcome.stopRequested
  left
    : outcome.stopRequested = false
      → outcome.phasesRun = charge.queue.length
        ∨ ∃ entry ∈ (Books.roll arena.store charge.execution).take outcome.phasesRun,
            entry.status = .failed

/-- How a run ends that the store has failed. -/
inductive Falls (charge : Charge) (earlier : List (Happening runCalls))
    (result : Except SetupError RunOutcome) (arena : Arena σ) : Prop where
  /-- It had not marked its execution as running. -/
  | unmarked {reason : SetupError} (same : result = .error reason)
      (unmarked : Unmarked earlier arena.past)
  /-- It could not queue its phases, and that is where it is left. -/
  | unqueued {reason : StoreError} (same : result = .error (.store reason))
      (refused
        : (⟨.store (.setPhaseStatuses charge.execution .created .pending), .error reason⟩
            : Happening runCalls) ∈ arena.past)
      (holds
        : Tally.Holds charge.execution earlier
            ⟨.running, charge.standing.credits, charge.roll, [], []⟩ arena)
  /-- It could not put its end on record. -/
  | unsettled {reason : StoreError} {record : Execution} {tally : Tally}
      (same : result = .error (.store reason)) (terminal : record.status.isTerminal)
      (refused
        : (⟨.store (.updateExecution record), .error reason⟩ : Happening runCalls) ∈ arena.past)
      (running : tally.status = .running) (holds : tally.Holds charge.execution earlier arena)
  /-- Its loop lost the store, and it failed its execution with the credits that it read back. -/
  | aborted {reason : StoreError} {call : StoreCall} {turns : List Turn} {waits : List Entry}
      {early late : List (Happening runCalls)} {tally : Tally}
      (same : result = .error (.store reason))
      (past : arena.past = early ++ ⟨.store call, .error reason⟩ :: late)
      (order : charge.queue = turns.map Turn.phase ++ waits)
      (succeed : ∀ turn ∈ turns, turn.verdict.succeeds)
      (severs : charge.Severs (turns.map (Turn.entry charge.catalog)) call waits tally.roll)
      (failed : tally.status = .failed)
      (credits
        : tally.credits = charge.spent turns
          ∨ ∃ other,
              (⟨.store (.getExecution charge.execution), .error other⟩ : Happening runCalls) ∈ late)
      (holds : tally.Holds charge.execution earlier arena)

/-- What a run comes to. -/
inductive Comes (charge : Charge) (earlier : List (Happening runCalls))
    (result : Except SetupError RunOutcome) (arena : Arena σ) : Prop where
  /-- Some call was refused by the store. -/
  | faulted (faulted : Faulted arena.past) (falls : charge.Falls earlier result arena)
  /-- The run did not start. -/
  | refused {reason : SetupError} {stop : Bool} {tally : Tally}
      (refuses : Refuses charge.execution charge.standing reason) (same : result = .error reason)
      (held
        : Books.standing? arena.store charge.execution
          = some { charge.standing with stopRequested := stop })
      (told : tally.told = []) (begun : tally.begun = [])
      (holds : tally.Holds charge.execution earlier arena)
      (unmarked : Unmarked earlier arena.past)
  | concluded {workflow : Uuid} {time : Instant}
      (concluded
        : charge.Concluded earlier
            [.executionStarted charge.execution workflow charge.queue.length time] result arena)
      (flagged : ∀ outcome, result = .ok outcome → charge.Flagged outcome arena)

theorem Flagged.passes {outcome : RunOutcome} {later : Arena σ}
    (flagged : charge.Flagged outcome arena) (passes : Passes charge.execution arena later)
    : charge.Flagged outcome later where
  recorded := by
    obtain ⟨record, granted, same⟩ := flagged.recorded
    obtain ⟨quiet, past, _⟩ := passes.past
    exact ⟨record, past ▸ List.mem_append_left quiet granted, same⟩
  left unstopped := passes.alone.roll ▸ flagged.left unstopped

theorem Falls.passes {result : Except SetupError RunOutcome} {later : Arena σ}
    (falls : charge.Falls earlier result arena) (passes : Passes charge.execution arena later)
    : charge.Falls earlier result later := by
  obtain ⟨quiet, grown, _⟩ := passes.past
  cases falls with
  | unmarked same unmarked => exact .unmarked same (unmarked.passes passes)
  | unqueued same refused holds =>
      exact .unqueued same (grown ▸ List.mem_append_left quiet refused) (holds.passes passes)
  | unsettled same terminal refused running holds =>
      have refused' := List.mem_append_left quiet refused
      exact .unsettled same terminal (grown ▸ refused') running (holds.passes passes)
  | aborted same past order succeed severs failed credits holds =>
      refine .aborted same (by rw [grown, past, List.append_assoc, List.cons_append]) order succeed
        severs failed (credits.imp_right ?_) (holds.passes passes)
      exact fun ⟨other, refused⟩ => ⟨other, List.mem_append_left quiet refused⟩

theorem Comes.passes {result : Except SetupError RunOutcome} {later : Arena σ}
    (comes : charge.Comes earlier result arena) (passes : Passes charge.execution arena later)
    : charge.Comes earlier result later := by
  cases comes with
  | faulted faulted falls =>
      obtain ⟨quiet, past, _⟩ := passes.past
      exact .faulted (past ▸ faulted.append quiet) (falls.passes passes)
  | refused refuses same held told begun holds unmarked =>
      have there := holds.passes passes
      have unmarked' := unmarked.passes passes
      rcases passes.alone.standing with kept | ⟨old, held', _, raised⟩
      · exact .refused refuses same (kept.trans held) told begun there unmarked'
      · rw [held, Option.some.injEq] at held'
        subst held'
        exact .refused refuses same raised told begun there unmarked'
  | concluded concluded flagged =>
      obtain ⟨ending, turns, rest, credits, stop, millis, time, order, went, same, holds⟩ :=
        concluded
      refine .concluded ⟨ending, turns, rest, credits, stop, millis, time, order, went, same,
        holds.passes passes⟩ fun outcome returned => ?_
      exact (flagged outcome returned).passes passes

-----------------------------------------------------------------------------------------
-- The end of a run
-----------------------------------------------------------------------------------------

/-- The past only grows, by induction over the program. -/
theorem safe_past {wanted : α → Arena σ → Prop} {program : RunM α}
    (safe : (Arena.running mine).Safe charge.Proper wanted program arena)
    : (Arena.running mine).Safe charge.Proper
        (fun value later => wanted value later ∧ ∃ more, later.past = arena.past ++ more)
        program arena := by
  induction program generalizing arena with
  | done value =>
      intro later drifts
      exact ⟨safe later drifts, [], by simp [drifts.past]⟩
  | ask call next ih =>
      intro before drifts answer after replies
      obtain ⟨proper, safe⟩ := safe before drifts answer after replies
      refine ⟨proper, (ih answer safe).mono id fun value later ⟨holds, more, past⟩ => ?_⟩
      refine ⟨holds, ⟨call, answer⟩ :: more, ?_⟩
      rw [past, replies.grows.2, drifts.past, List.append_assoc, List.singleton_append]

/-- Telling a workflow of its run leaves the tally, whether or not the workflow takes note. -/
theorem safe_noteLastRun (ours : mine charge.execution)
    (holds : tally.Holds charge.execution earlier arena) (record : Execution)
    (status : ExecutionStatus) {rest : Unit → RunM α} {wanted : α → Arena σ → Prop}
    (safe
      : ∀ later,
          tally.Holds charge.execution earlier later
          → (Arena.running mine).Safe charge.Proper wanted (rest ()) later)
    : (Arena.running mine).Safe charge.Proper wanted ((noteLastRun record status).bind rest)
        arena := by
  change (Arena.running mine).Safe _ _ (((RunM.store _).bind fun _ => .done ()).bind rest) _
  rw [bind_bind]
  refine safe_store ours holds (.recordLastRunStatus _ _ _) trivial nofun (fun same => same) ?_ ?_
  · intro _ _ later _ _ _ there
    exact safe later there
  · intro _ later _ there
    simp only [Tally.tried, started?, Option.toList_none, List.append_nil] at there
    exact safe later there

/-- The end of an execution is told, once the record that says it is stored. -/
theorem safe_tellFinished (ours : mine charge.execution) {known finished : Execution}
    (named : known.id = charge.execution) {status : ExecutionStatus} {credits : Nat}
    (holds
      : { tally with status := status, credits := credits }.Holds charge.execution earlier arena)
    (start : Nat)
    : (Arena.running mine).Safe charge.Proper
        (fun result later =>
          ∃ millis time,
            result = .ok finished
            ∧ (charge.closed tally status credits millis time).Holds charge.execution earlier
                later)
        (do
          let millis := (← uptime) - start
          emit (.executionFinished known.id status credits millis (← now))
          noteLastRun known status
          return (.ok finished : Except StoreError Execution)) arena := by
  refine safe_quietly ours (ask_quiet .uptime trivial) fun (ending : Nat) arena passes => ?_
  replace holds := holds.passes passes
  let millis := ending - start
  refine safe_quietly ours (ask_quiet (.task .now) trivial) fun endedAt arena passes => ?_
  replace holds := holds.passes passes
  let closing : Event := .executionFinished known.id status credits millis endedAt
  have same : closing = .executionFinished charge.execution status credits millis endedAt :=
    congrArg (fun id => Event.executionFinished id status credits millis endedAt) named
  refine safe_emit ours holds closing (fun before holds => ?_) named fun arena holds => ?_
  · obtain ⟨stop, definition, held⟩ := holds.standing
    exact ⟨_, (congrArg (Books.standing? before.store) named).trans held, rfl, rfl⟩
  refine safe_noteLastRun ours holds known status fun arena holds later drifts => ?_
  have there := holds.passes (Arena.Drifts.passes drifts ours)
  rw [same] at there
  exact ⟨millis, endedAt, rfl, there⟩

/-- The end of a run is stored before it is told. -/
theorem safe_finalize (ours : mine charge.execution) {known : Execution}
    (named : known.id = charge.execution) (holds : tally.Holds charge.execution earlier arena)
    (status : ExecutionStatus) (credits : Nat) (stopped : Bool) (start : Nat)
    (course : charge.Juncture arena.past status tally.roll)
    : (Arena.running mine).Safe charge.Proper
        (fun result later =>
          (∃ more, later.past = arena.past ++ more)
          ∧ ((∃ finished millis time,
              result = .ok finished
              ∧ finished.stopRequested = (known.stopRequested || stopped)
              ∧ Marks finished ∈ later.past
              ∧ (charge.closed tally status credits millis time).Holds charge.execution earlier
                  later)
            ∨ ∃ reason record,
                result = .error reason
                ∧ record.status = status
                ∧ (⟨.store (.updateExecution record), .error reason⟩ : Happening runCalls)
                  ∈ later.past
                ∧ tally.Holds charge.execution earlier later))
        (finalize known status credits stopped start) arena := by
  refine (safe_past ?_).mono id fun _ _ ⟨wanted, more⟩ => ⟨more, wanted⟩
  refine safe_quietly ours (ask_quiet (.task .now) trivial) fun completedAt arena passes => ?_
  replace holds := holds.passes passes
  obtain ⟨quiet, grown, _⟩ := passes.past
  replace course := grown ▸ course.append quiet
  let finished : Execution := { known with
    status := status
    completedAt := some completedAt
    credits := credits
    stopRequested := known.stopRequested || stopped }
  refine safe_store ours holds (.updateExecution finished) named nofun (fun _ => course) ?_ ?_
  · intro _ _ stored _ _ past holds
    have granted : Marks finished ∈ stored.past :=
      past ▸ List.mem_append_right _ List.mem_cons_self
    -- the record stays in the past while the end is told
    refine (safe_past (safe_tellFinished ours named holds start)).mono id ?_
    rintro result later ⟨⟨millis, time, same, there⟩, more, past'⟩
    refine Or.inl ⟨finished, millis, time, same, rfl, ?_, there⟩
    exact past' ▸ List.mem_append_left more granted
  · intro reason arena past there later drifts
    simp only [Tally.tried, started?, Option.toList_none, List.append_nil] at there
    have refused : (⟨.store (.updateExecution finished), .error reason⟩ : Happening runCalls)
        ∈ later.past := by
      rw [drifts.past, past]
      exact List.mem_append_right _ List.mem_cons_self
    have holds := there.passes (Arena.Drifts.passes drifts ours)
    exact Or.inr ⟨reason, finished, rfl, rfl, refused, holds⟩

/-- A run that lost its store fails its execution, or the store refuses that as well. -/
theorem safe_abort (ours : mine charge.execution) {known : Execution}
    (named : known.id = charge.execution) {reason : StoreError}
    (lost : charge.Lost earlier reason arena) (start : Nat)
    : (Arena.running mine).Safe charge.Proper (charge.Comes earlier)
        (abort known reason start) arena := by
  obtain ⟨turns, waits, order, succeed, call, tally, severs, running, spent, refused, holds⟩ := lost
  obtain ⟨early, late, past⟩ := List.append_of_mem refused
  have ends {next : Except StoreError Execution → RunM (Except SetupError RunOutcome)}
      (closed : ∀ finished, next (.ok finished) = .done (.error (.store reason)))
      (unclosed : ∀ later, next (.error later) = .done (.error (.store later)))
      (credits : Nat) (stopped : Bool) {read : Except StoreError Execution}
      {reading : Arena σ}
      (grown : reading.past = arena.past ++ [⟨.store (.getExecution known.id), read⟩])
      (paid : credits = charge.spent turns ∨ ∃ other, read = .error other)
      (holds : tally.Holds charge.execution earlier reading)
      : (Arena.running mine).Safe charge.Proper (charge.Comes earlier)
          ((finalize known .failed credits stopped start).bind next) reading := by
    have course : charge.Juncture reading.past .failed tally.roll :=
      severs.juncture order succeed (grown ▸ List.mem_append_left _ refused)
    refine (safe_finalize ours named holds .failed credits stopped start course).followed ?_
    rintro _ arena ⟨⟨more, past'⟩, finished | failed⟩
    · obtain ⟨_, millis, time, rfl, _, _, there⟩ := finished
      rw [closed]
      refine fun later drifts => Comes.passes (.faulted ?_ ?_) (Arena.Drifts.passes drifts ours)
      · have still : (⟨.store call, .error reason⟩ : Happening runCalls) ∈ arena.past := by
          simp [past', grown, refused]
        exact faulted_of_mem still severs.counted
      · have split : arena.past = early ++ ⟨.store call, .error reason⟩
            :: (late ++ [⟨.store (.getExecution known.id), read⟩] ++ more) := by
          simp [past', grown, past]
        have left : charge.Severs (turns.map (Turn.entry charge.catalog)) call waits
            (charge.closed tally .failed credits millis time).roll := severs
        refine .aborted rfl split order succeed left rfl (paid.imp_right ?_) there
        rintro ⟨other, rfl⟩
        rw [← named]
        exact ⟨other, List.mem_append_left _ (List.mem_append_right _ List.mem_cons_self)⟩
    · obtain ⟨other, record, rfl, failing, refused', there⟩ := failed
      rw [unclosed]
      refine fun later drifts => Comes.passes (.faulted ?_ ?_) (Arena.Drifts.passes drifts ours)
      · exact faulted_of_mem refused' trivial
      · exact .unsettled rfl (failing ▸ rfl) refused' running there
  refine safe_store ours holds (.getExecution known.id) named nofun (fun same => same) ?_ ?_
  · intro before current later here effect grown there
    change Execution at current
    obtain ⟨_, _, held⟩ := effect
    obtain ⟨stop, definition, held'⟩ := here.standing
    rw [named, held', Option.some.injEq] at held
    have read : tally.credits = current.credits := congrArg Standing.credits held
    exact ends (fun _ => rfl) (fun _ => rfl) current.credits current.stopRequested grown
      (Or.inl (read.symm.trans spent)) there
  · intro other later grown there
    simp only [Tally.tried, started?, Option.toList_none, List.append_nil] at there
    exact ends (fun _ => rfl) (fun _ => rfl) 0 false grown (Or.inr ⟨other, rfl⟩) there

/-- What a walk arrived at is brought to its end. -/
theorem safe_conclude (ours : mine charge.execution) {known : Execution}
    (named : known.id = charge.execution) {summary : Summary} {workflow : Uuid} {time : Instant}
    (arrived
      : charge.Arrived earlier
          [.executionStarted charge.execution workflow charge.queue.length time] summary arena)
    (start : Nat)
    : (Arena.running mine).Safe charge.Proper (charge.Comes earlier)
        (conclude known summary start) arena := by
  obtain ⟨ending, credits, count⟩ := summary
  obtain ⟨turns, rest, recorded, order, went, rfl, rfl, holds⟩ := arrived
  have course : charge.Juncture arena.past ending.status
      (turns.map (Turn.entry charge.catalog) ++ rest) :=
    .between order went (Or.inr ending.isTerminal_status)
  refine (safe_finalize ours named holds ending.status _ (ending == .stopped) start
    course).followed ?_
  rintro _ arena ⟨_, finished | failed⟩
  · obtain ⟨finished, millis, endedAt, rfl, flag, marked, holds⟩ := finished
    have concluded : charge.Concluded earlier
        [.executionStarted charge.execution workflow charge.queue.length time]
        (.ok ⟨known.id, ending.status, earned charge.catalog turns, finished.stopRequested,
          turns.length⟩) arena :=
      ⟨ending, turns, rest, recorded, finished.stopRequested, millis, endedAt, order, went,
        by rw [named], holds⟩
    refine fun later drifts => Comes.passes (.concluded concluded ?_)
      (Arena.Drifts.passes drifts ours)
    · rintro outcome returned
      cases returned
      refine ⟨⟨finished, marked, rfl⟩, fun unstopped => ?_⟩
      change finished.stopRequested = false at unstopped
      cases went with
      | finished succeed => exact Or.inl (by simp [order])
      | @failed turns turn _ succeed fails =>
          refine Or.inr ⟨turn.entry charge.catalog, ?_, ?_⟩
          · rw [holds.roll]
            simp [closed, underway, List.take_append]
          · simp [Turn.entry, fails]
      | stopped succeed left =>
          rw [unstopped] at flag
          simp at flag
  · obtain ⟨reason, record, rfl, ends, refused, there⟩ := failed
    refine fun later drifts => Comes.passes (.faulted ?_ ?_) (Arena.Drifts.passes drifts ours)
    · exact faulted_of_mem refused trivial
    · exact .unsettled rfl (ends ▸ ending.isTerminal_status) refused rfl there

-----------------------------------------------------------------------------------------
-- The start of a run
-----------------------------------------------------------------------------------------

/-- The tally of a run that has read its phases and no more. -/
def idle (charge : Charge) (roll : List Entry) : Tally :=
  ⟨charge.standing.status, charge.standing.credits, roll, [], []⟩

/-- A run has read its execution and its phases. -/
structure Loaded (charge : Charge) (earlier : List (Happening runCalls)) (execution : Execution)
    (phases : List PhaseRecord) (arena : Arena σ) : Prop where
  named : execution.id = charge.execution
  credits : execution.credits = charge.standing.credits
  owned : ∀ phase ∈ phases, phase.executionId = charge.execution
  roll : charge.roll = phases.map PhaseRecord.entry
  unfinished : ¬ charge.standing.status.isTerminal
  holds : (charge.idle charge.roll).Holds charge.execution earlier arena
  unmarked : Unmarked earlier arena.past

/-- The phases that were read are those that will wait. -/
theorem Loaded.queue {execution : Execution} {phases : List PhaseRecord}
    (loaded : charge.Loaded earlier execution phases arena)
    : charge.queue = phases.map fun phase => waiting phase.entry := by
  rw [Charge.queue, loaded.roll, List.map_map]
  rfl

theorem Loaded.passes {execution : Execution} {phases : List PhaseRecord} {later : Arena σ}
    (loaded : charge.Loaded earlier execution phases arena)
    (passes : Passes charge.execution arena later)
    : charge.Loaded earlier execution phases later :=
  { loaded with
    holds := loaded.holds.passes passes
    unmarked := loaded.unmarked.passes passes }

/-- What is found on record is what the charge says, but for the stop flag. -/
theorem Suits.found (suits : charge.Suits arena) {before : Arena σ}
    (passes : Passes charge.execution arena before) {standing : Standing}
    (held : Books.standing? before.store charge.execution = some standing)
    : standing = { charge.standing with stopRequested := standing.stopRequested } := by
  rcases passes.alone.standing with same | ⟨old, held', _, raised⟩
  · rw [← suits.standing standing (same ▸ held)]
  · rw [held, Option.some.injEq] at raised
    rw [raised, ← suits.standing old held']

/-- A part of a run before its phases: it gets ready, or the run is over. -/
inductive Starts {β : Type} (charge : Charge) (earlier : List (Happening runCalls))
    (ready : β → Arena σ → Prop)
    : Except SetupError β → Arena σ → Prop where
  | ready {value : β} {arena : Arena σ} (holds : ready value arena)
      : Starts charge earlier ready (.ok value) arena
  | over {reason : SetupError} {arena : Arena σ}
      (comes : charge.Comes earlier (.error reason) arena)
      : Starts charge earlier ready (.error reason) arena

/-- A run that the store refuses before anything is marked has not marked it either. -/
theorem comes_of_refused {before : List (Happening runCalls)} (unmarked : Unmarked earlier before)
    {call : StoreCall} (counted : IsCounted call) {reason : StoreError}
    (past : arena.past = before ++ [⟨.store call, .error reason⟩]) (other : SetupError)
    : charge.Comes earlier (.error other) arena := by
  refine .faulted ?_ (.unmarked rfl ?_)
  · rw [past]
    exact faulted_of_refused counted reason
  · rw [past]
    exact unmarked.snoc fun record => marks_ne_refused record reason

/-- A run has read its execution. -/
structure Met (charge : Charge) (earlier : List (Happening runCalls)) (execution : Execution)
    (arena : Arena σ) : Prop where
  named : execution.id = charge.execution
  found : execution.standing = { charge.standing with stopRequested := execution.stopRequested }
  held : Books.standing? arena.store charge.execution = some execution.standing
  holds : (charge.idle charge.roll).Holds charge.execution earlier arena
  unmarked : Unmarked earlier arena.past

theorem Met.status {execution : Execution} (met : charge.Met earlier execution arena)
    : execution.status = charge.standing.status :=
  congrArg Standing.status met.found

theorem Met.definition {execution : Execution} (met : charge.Met earlier execution arena)
    : execution.definition = charge.standing.definition :=
  congrArg Standing.definition met.found

/-- An execution that was read from the store is met as it stands. -/
theorem Suits.met (suits : charge.Suits arena) {before later : Arena σ} {current : Execution}
    (passes : Passes charge.execution arena before) (drifted : before.past = arena.past)
    (past : later.past = before.past ++ [⟨.store (.getExecution charge.execution), .ok current⟩])
    (effect
      : StoreCall.Effect (.getExecution charge.execution) current before.store later.store)
    : charge.Met arena.past current later := by
  obtain ⟨kept, named, held⟩ := effect
  have found := suits.found passes held
  refine ⟨named, found, kept ▸ held, ⟨⟨current.stopRequested, current.definition, ?_⟩, ?_, _,
    drifted ▸ past, rfl, rfl⟩, ?_⟩
  · rw [kept, held, idle, ← congrArg Standing.status found, ← congrArg Standing.credits found]
    rfl
  · rw [kept, passes.alone.roll]
    exact suits.roll.symm
  · rw [past, drifted]
    exact (Unmarked.refl arena.past).snoc (by rintro _ ⟨⟩)

/-- A run that cannot take its execution up leaves it as it was met. -/
theorem Met.comes {execution : Execution} (met : charge.Met earlier execution arena)
    {reason : SetupError} (refuses : Refuses charge.execution charge.standing reason)
    : charge.Comes earlier (.error reason) arena :=
  .refused refuses rfl (met.held.trans (congrArg some met.found)) rfl rfl met.holds met.unmarked

/-- A run that has met its execution reads its phases, if the store lets it. -/
theorem safe_listPhases (ours : mine charge.execution) {execution : Execution}
    (met : charge.Met earlier execution arena) (unfinished : execution.status.isTerminal = false)
    (flow : Flow)
    : (Arena.running mine).Safe charge.Proper
        (charge.Starts earlier fun (execution, _, phases) later =>
          charge.Loaded earlier execution phases later)
        (ExceptT.run (load.asked (.listPhases charge.execution) >>= fun phases =>
          (pure (execution, flow, phases)
            : ExceptT SetupError RunM (Execution × Flow × List PhaseRecord)))) arena := by
  refine safe_store ours met.holds (.listPhases charge.execution) rfl (by rintro _ ⟨⟩)
    (fun same => same) ?_ ?_
  · intro middle phases later here effect past holds last drifts
    change List PhaseRecord at phases
    obtain ⟨_, listed, owned⟩ := effect
    have unmarked : Unmarked earlier later.past := by
      rw [past]
      exact met.unmarked.snoc (by rintro _ ⟨⟩)
    have loaded : charge.Loaded earlier execution phases later :=
      ⟨met.named, congrArg Standing.credits met.found, owned, here.roll.symm.trans listed.symm,
        met.status ▸ ne_true_of_eq_false unfinished, holds, unmarked⟩
    exact .ready (loaded.passes (Arena.Drifts.passes drifts ours))
  · intro reason later past _ last drifts
    have ended : charge.Comes earlier (.error (.store reason)) later :=
      comes_of_refused met.unmarked (by trivial) past _
    exact .over (ended.passes (Arena.Drifts.passes drifts ours))

/-- A run reads its execution and its phases, if it can run and the store lets it. -/
theorem safe_load (ours : mine charge.execution) (suits : charge.Suits arena)
    : (Arena.running mine).Safe charge.Proper
        (charge.Starts arena.past fun (execution, _, phases) later =>
          charge.Loaded arena.past execution phases later)
        (ExceptT.run (load charge.execution)) arena := by
  refine safe_asked ours (.getExecution charge.execution) (fun _ _ => trivial) nofun ?_ ?_ ?_
  · intro before current later _ _ _ past effect orderly
    exact orderly.grows effect.1 past
  · intro before current later passes drifted _ past effect
    change Execution at current
    have met := suits.met passes drifted past effect
    have refused {reason : SetupError} (refuses : Refuses charge.execution charge.standing reason)
        {last : Arena σ} (drifts : Arena.Drifts mine later last)
        : charge.Comes arena.past (.error reason) last :=
      (met.comes refuses).passes (Arena.Drifts.passes drifts ours)
    simp only [pure_eq_done, Program.bind, ExceptT.bindCont]
    cases terminal : current.status.isTerminal with
    | true => exact fun last drifts => .over (refused (.finished (met.status ▸ terminal)) drifts)
    | false =>
        cases parsed : Flow.parse current.definition with
        | error reason =>
            exact fun last drifts => .over (refused (.unreadable (met.definition ▸ parsed)) drifts)
        | ok flow => exact safe_listPhases ours met terminal flow
  · intro before reason passes drifted
    have ended (other : SetupError)
        : charge.Comes arena.past (.error other)
            (before.after (.store (.getExecution charge.execution)) (.error reason)) :=
      comes_of_refused (drifted ▸ Unmarked.refl _) (by trivial) rfl other
    cases reason <;>
      exact fun last drifts => .over ((ended _).passes (Arena.Drifts.passes drifts ours))

/-- A run that has read what it needs marks its execution as running and queues its phases. -/
theorem safe_markRunning (ours : mine charge.execution) {execution : Execution}
    {phases : List PhaseRecord} (loaded : charge.Loaded earlier execution phases arena)
    : (Arena.running mine).Safe charge.Proper
        (charge.Starts earlier fun known later =>
          known.id = charge.execution
          ∧ (charge.underway [] (charge.spent []) [] charge.queue).Holds charge.execution earlier
              later)
        (ExceptT.run (markRunning execution)) arena := by
  have named := loaded.named
  unfold markRunning
  rw [except_lift_bind]
  refine safe_quietly ours (ask_quiet (.task .now) trivial) fun time arena passes => ?_
  replace loaded := loaded.passes passes
  refine safe_store ours loaded.holds (.updateExecution _) named nofun
    (fun _ => .found (Or.inr rfl)) ?_ ?_
  · intro _ _ arena _ _ _ holds
    -- the phases wait from here on, as they do between two turns
    obtain ⟨ending, went⟩ : ∃ ending, Went ending [] charge.queue :=
      exists_went charge.queue (by simp)
    have queued : charge.Juncture arena.past .running
        (([] : List Turn).map (Turn.entry charge.catalog) ++ charge.queue) :=
      .between rfl went (Or.inl rfl)
    refine safe_store ours holds (.setPhaseStatuses execution.id .created .pending)
      ⟨named, (by decide : ¬ ExecutionStatus.running.isTerminal)⟩ nofun (fun _ => queued) ?_ ?_
    · intro _ _ arena _ _ _ holds
      change (Arena.running mine).Safe _ _
        (ExceptT.run (liftM (noteLastRun _ .running) >>= fun _ => pure _)) _
      rw [except_lift_bind]
      refine safe_noteLastRun ours holds _ .running fun arena holds later drifts => ?_
      have there := holds.passes (Arena.Drifts.passes drifts ours)
      refine .ready ⟨named, ?_⟩
      have same : charge.underway [] (charge.spent []) [] charge.queue
          = ⟨.running, execution.credits, charge.roll.map (Entry.moved .created .pending), [],
              []⟩ := by
        rw [loaded.credits]
        rfl
      rw [same]
      exact there
    · intro reason arena past holds
      refine fun later drifts => .over (Comes.passes (.faulted ?_ (.unqueued rfl ?_ ?_))
        (Arena.Drifts.passes drifts ours))
      · rw [past]
        exact faulted_of_refused (by trivial) reason
      · rw [past, ← named]
        exact List.mem_append_right _ List.mem_cons_self
      · rw [← loaded.credits]
        exact holds
  · intro reason arena past _ later drifts
    have ended : charge.Comes earlier (.error (.store reason)) arena :=
      comes_of_refused loaded.unmarked (by trivial) past _
    exact .over (ended.passes (Arena.Drifts.passes drifts ours))

/-- What a walk came to is brought to its end. -/
theorem safe_end (ours : mine charge.execution) {known : Execution}
    (named : known.id = charge.execution) {workflow : Uuid} {time : Instant}
    (looped : Except StoreError Summary) (start : Nat)
    : charge.Came earlier [.executionStarted charge.execution workflow charge.queue.length time]
        looped arena
      → (Arena.running mine).Safe charge.Proper (charge.Comes earlier)
          (match looped with
            | .ok summary => conclude known summary start
            | .error reason => abort known reason start) arena := by
  intro came
  cases looped with
  | ok summary => exact safe_conclude ours named came start
  | error reason => exact safe_abort ours named came start

/-- A run keeps its promise until it is over, whatever its store answers. -/
theorem safe_execute (ours : mine charge.execution) (catalog : settings.catalog = charge.catalog)
    (suits : charge.Suits arena)
    : (Arena.running mine).Safe charge.Proper (charge.Comes arena.past)
        (execute settings charge.execution charge.token) arena := by
  unfold execute
  rw [except_bind]
  refine (safe_load ours suits).followed ?_
  rintro _ loadedAt (@⟨⟨execution, flow, phases⟩, _, loaded⟩ | comes)
  · simp only
    rw [except_lift_bind]
    refine safe_quietly ours (ask_quiet .uptime trivial) fun (start : Nat) later passes => ?_
    replace loaded := loaded.passes passes
    rw [except_bind]
    refine (safe_markRunning ours loaded).followed ?_
    rintro _ later (@⟨known, _, named, holds⟩ | comes)
    · simp only
      rw [except_lift_bind]
      refine safe_quietly ours (ask_quiet (.task .now) trivial) fun time later passes => ?_
      replace holds := holds.passes passes
      rw [except_lift_bind]
      have count : charge.queue.length = phases.length := by
        rw [loaded.queue, List.length_map]
      let starting : Event :=
        .executionStarted charge.execution known.workflowId phases.length time
      refine safe_emit ours holds starting ?_ rfl fun later holds => ?_
      · intro before here
        obtain ⟨stop, definition, held⟩ := here.standing
        exact ⟨⟨_, held, rfl⟩, here.roll ▸ count⟩
      rw [except_lift_bind]
      -- the walk begins with no turns taken, and all phases wait
      have order : charge.queue
          = ([] : List Turn).map Turn.phase ++ phases.map fun phase => waiting phase.entry :=
        loaded.queue
      have walking : (charge.underway [starting] (charge.spent []) []
          (phases.map fun phase => waiting phase.entry)).Holds charge.execution arena.past
            later :=
        loaded.queue ▸ holds
      refine Safe.followed
        (safe_runPhases ours catalog named order (by simp) loaded.owned walking .empty) ?_
      rintro ⟨looped, left⟩ later came
      change charge.Came arena.past [starting] looped later at came
      simp only [starting, ← count] at came
      cases settings.closesBrowser with
      | false => exact safe_end ours named looped start came
      | true =>
          change (Arena.running mine).Safe _ _ (ExceptT.run (liftM (release left) >>= _)) _
          rw [except_lift_bind]
          refine safe_quietly ours (release_quiet left) fun _ later passes => ?_
          exact safe_end ours named looped start (came.passes passes)
    · exact fun last drifts => comes.passes (Arena.Drifts.passes drifts ours)
  · exact fun last drifts => comes.passes (Arena.Drifts.passes drifts ours)

end Charge

end Run

end Harvest

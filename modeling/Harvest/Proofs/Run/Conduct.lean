import Harvest.Proofs.Run.Tally
import Mathlib.Algebra.GroupWithZero.Nat
import Mathlib.Data.List.Induction

/-! How a run conducts itself, whatever its store answers. It writes about its own execution only,
starts no phase without having looked for a stop, and tells what the store holds already.
-/

namespace Harvest

open Time

namespace Run

open Realm Program RunM

-----------------------------------------------------------------------------------------
-- Turns
-----------------------------------------------------------------------------------------

/-- How a phase ended, as it is told. -/
inductive Verdict where
  | completed (millis : Nat)
  | failed (error : Option String)

/-- The phase was completed. -/
def Verdict.succeeds : Verdict → Bool
  | completed _ => true
  | failed _ => false

/-- A phase that was started and brought to its end, with what was told of it. -/
structure Turn where
  /-- The phase as it waited. -/
  phase : Entry
  node : String
  startedAt : Instant
  verdict : Verdict
  endedAt : Instant

namespace Turn

variable (catalog : Catalog) (execution : Uuid) (turn : Turn)

/-- What the phase cost. -/
def cost : Nat := if turn.verdict.succeeds then catalog.credits turn.phase.taskType else 0

/-- The phase on the roll afterwards. -/
def entry : Entry :=
  { turn.phase with
    status := if turn.verdict.succeeds then .completed else .failed
    credits := turn.cost catalog }

/-- What was told when the phase had ended. -/
def closing : Event :=
  match turn.verdict with
  | .completed millis =>
      .phaseCompleted execution turn.phase.id turn.node (catalog.credits turn.phase.taskType)
        millis turn.endedAt
  | .failed error => .phaseFailed execution turn.phase.id turn.node error turn.endedAt

/-- What was told of the phase. -/
def told : List Event :=
  [.phaseStarted execution turn.phase.id turn.node turn.phase.taskType turn.startedAt,
    turn.closing catalog execution]

end Turn

/-- What some phases cost together. -/
def earned (catalog : Catalog) (turns : List Turn) : Nat :=
  turns.foldl (fun sum turn => addCredits sum (turn.cost catalog)) 0

/-- A further turn adds its cost. -/
theorem earned_append (catalog : Catalog) (turns : List Turn) (turn : Turn)
    : earned catalog (turns ++ [turn]) = addCredits (earned catalog turns) (turn.cost catalog) := by
  simp [earned]

/-- What is earned is the sum of the costs in 32 bits, by induction over the turns. -/
theorem earned_eq_sum_mod (catalog : Catalog) (turns : List Turn)
    : earned catalog turns = (turns.map (Turn.cost catalog)).sum % 4294967296 := by
  induction turns using List.reverseRecOn with
  | nil => rfl
  | append_singleton turns turn ih =>
      rw [earned_append, ih, List.map_append, List.map_singleton, List.sum_append,
        List.sum_singleton, addCredits, Nat.mod_add_mod]

theorem earned_of_fits {catalog : Catalog} {turns : List Turn}
    (fits : (turns.map (Turn.cost catalog)).sum < 4294967296)
    : earned catalog turns = (turns.map (Turn.cost catalog)).sum := by
  rw [earned_eq_sum_mod, Nat.mod_eq_of_lt fits]

/-- How an execution is left by a walk over its phases. -/
def Ending.status (ending : Ending) : ExecutionStatus :=
  if ending == .finished then .completed else .failed

/-- It is left in a status that is final. -/
theorem Ending.isTerminal_status (ending : Ending) : ending.status.isTerminal := by
  cases ending <;> rfl

/-- How the turns of a walk went, and which phases it left: all were completed, or the last turn
failed, or a stop came before the next phase.
-/
inductive Went : Ending → List Turn → List Entry → Prop where
  | finished {turns : List Turn} (succeed : ∀ turn ∈ turns, turn.verdict.succeeds)
      : Went .finished turns []
  | failed {turns : List Turn} {turn : Turn} {rest : List Entry}
      (succeed : ∀ turn ∈ turns, turn.verdict.succeeds) (fails : turn.verdict.succeeds = false)
      : Went .failed (turns ++ [turn]) rest
  | stopped {turns : List Turn} {rest : List Entry}
      (succeed : ∀ turn ∈ turns, turn.verdict.succeeds) (left : rest ≠ [])
      : Went .stopped turns rest

/-- Between two phases a walk may stop, or it has finished. -/
theorem exists_went {turns : List Turn} (rest : List Entry)
    (succeed : ∀ turn ∈ turns, turn.verdict.succeeds)
    : ∃ ending, Went ending turns rest := by
  cases rest with
  | nil => exact ⟨.finished, .finished succeed⟩
  | cons next rest => exact ⟨.stopped, .stopped succeed (List.cons_ne_nil next rest)⟩

/-- After one more turn a walk has failed, or it is between two phases again. -/
theorem exists_went_append {turns : List Turn} (turn : Turn) (rest : List Entry)
    (succeed : ∀ turn ∈ turns, turn.verdict.succeeds)
    : ∃ ending, Went ending (turns ++ [turn]) rest := by
  cases succeeds : turn.verdict.succeeds with
  | false => exact ⟨.failed, .failed succeed succeeds⟩
  | true =>
      refine exists_went rest fun other member => ?_
      rcases List.mem_append.mp member with early | last
      · exact succeed other early
      · rw [List.mem_singleton.mp last]
        exact succeeds

-----------------------------------------------------------------------------------------
-- The promise of a run
-----------------------------------------------------------------------------------------

/-- What an event announces is in the store. -/
def Announced {σ : Type} [Ledger σ] (store : σ) : Event → Prop
  | .executionStarted execution _ count _ =>
      (∃ standing,
        Books.standing? store execution = some standing ∧ standing.status = .running)
      ∧ (Books.roll store execution).length = count
  | .phaseStarted execution phase _ taskType _ =>
      ∃ entry ∈ Books.roll store execution,
        entry.id = phase ∧ entry.taskType = taskType ∧ entry.status = .running
  | .phaseCompleted execution phase _ credits _ _ =>
      ∃ entry ∈ Books.roll store execution,
        entry.id = phase ∧ entry.credits = credits ∧ entry.status = .completed
  | .phaseFailed execution phase _ _ _ =>
      ∃ entry ∈ Books.roll store execution, entry.id = phase ∧ entry.status = .failed
  | .executionFinished execution status credits _ _ =>
      ∃ standing,
        Books.standing? store execution = some standing
        ∧ standing.status = status
        ∧ standing.credits = credits

/-- The store did not keep how a phase ended. -/
def Unended (past : List (Happening runCalls)) : Prop :=
  ∃ phase reason,
    phase.status.isTerminal
    ∧ (⟨.store (.updatePhase phase), .error reason⟩ : Happening runCalls) ∈ past

theorem Unended.append {past : List (Happening runCalls)} (unended : Unended past)
    (more : List (Happening runCalls))
    : Unended (past ++ more) := by
  obtain ⟨phase, reason, ended, refused⟩ := unended
  exact ⟨phase, reason, ended, List.mem_append_left _ refused⟩

/-- A phase as it waits for its turn. -/
def waiting (entry : Entry) : Entry := entry.moved .created .pending

/-- A phase while it has its turn. -/
def atWork (entry : Entry) : Entry := { entry with status := .running }

/-- What a run is given: the costs of tasks, its execution and its token, the phases as they are
found in plan order, and where the execution stands.
-/
structure Charge where
  catalog : Catalog
  execution : Uuid
  token : Token
  roll : List Entry
  standing : Standing

namespace Charge

variable (charge : Charge)

/-- The phases as they will wait. -/
def queue : List Entry := charge.roll.map waiting

/-- What is on record once some phases were completed: the record follows from the first one on. -/
def spent (turns : List Turn) : Nat :=
  if turns.isEmpty then charge.standing.credits else earned charge.catalog turns

section

variable {σ : Type} [Ledger σ]

/-- Between two phases: some are completed, the others wait, and the record counts the credits. -/
def Halfway (store : σ) : Prop :=
  ∃ turns rest,
    charge.queue = turns.map Turn.phase ++ rest
    ∧ (∀ turn ∈ turns, turn.verdict.succeeds)
    ∧ Books.roll store charge.execution = turns.map (Turn.entry charge.catalog) ++ rest
    ∧ ∃ standing,
        Books.standing? store charge.execution = some standing
        ∧ standing.credits = charge.spent turns

/-- Where an execution and its phases can stand while a run goes on. The phases are as they were
found, some had their turn and the others wait, or one has its turn; it is left so by a run that
ends only when the store does not keep how it ended.
-/
inductive Juncture (charge : Charge) (past : List (Happening runCalls))
    : ExecutionStatus → List Entry → Prop where
  | found {status : ExecutionStatus} (begun : status = charge.standing.status ∨ status = .running)
      : Juncture charge past status charge.roll
  | between {ending : Ending} {turns : List Turn} {rest : List Entry} {status : ExecutionStatus}
      (order : charge.queue = turns.map Turn.phase ++ rest) (went : Went ending turns rest)
      (begun : status = .running ∨ status.isTerminal)
      : Juncture charge past status (turns.map (Turn.entry charge.catalog) ++ rest)
  | within {turns : List Turn} {phase : Entry} {rest : List Entry} {status : ExecutionStatus}
      (order : charge.queue = turns.map Turn.phase ++ phase :: rest)
      (succeed : ∀ turn ∈ turns, turn.verdict.succeeds)
      (begun : status = .running ∨ status = .failed ∧ Unended past)
      : Juncture charge past status
          (turns.map (Turn.entry charge.catalog) ++ atWork phase :: rest)

/-- The books of the execution are as a run can leave them. -/
def Orderly (arena : Arena σ) : Prop :=
  ∃ standing,
    Books.standing? arena.store charge.execution = some standing
    ∧ charge.Juncture arena.past standing.status (Books.roll arena.store charge.execution)

/-- What a run promises at each of its calls. -/
def Proper (call : RunCall) (before : Arena σ) (_ : call.Answer) (later : Arena σ) : Prop :=
  match call with
  | .store call =>
      call.Concerns charge.execution before.store
      ∧ (∀ phase, started? call = some phase → Cleared charge.execution charge.token before.past)
      ∧ (charge.Orderly before → charge.Orderly later)
  | .emit event => Announced before.store event ∧ event.execution = charge.execution
  | .isCancelled token => token = charge.token ∧ charge.Halfway before.store
  | .freshId => False
  | _ => True

/-- The calls at which a loop can lose its store, by the phases that are still to have their turn
and the roll that is left: it looks for a stop, a phase starts or ends, its log is kept, or what
was earned is recorded.
-/
inductive Severs (charge : Charge) (front : List Entry)
    : StoreCall → (waits roll : List Entry) → Prop where
  | looking {waits : List Entry}
      : Severs charge front (.getExecution charge.execution) waits (front ++ waits)
  | opening {record : PhaseRecord} {waits : List Entry} (starts : record.status = .running)
      : Severs charge front (.updatePhase record) waits (front ++ waits)
  | ending {record : PhaseRecord} {next : Entry} {rest : List Entry}
      (ends : record.status.isTerminal)
      : Severs charge front (.updatePhase record) (next :: rest) (front ++ atWork next :: rest)
  | logging {turn : Turn} {phase : Uuid} {log : Log} {rest : List Entry}
      : Severs charge front (.appendLogs phase log) (turn.phase :: rest)
          (front ++ turn.entry charge.catalog :: rest)
  | recording {turn : Turn} {record : Execution} {rest : List Entry}
      (succeeds : turn.verdict.succeeds) (unfinished : record.status = .running)
      : Severs charge front (.updateExecution record) (turn.phase :: rest)
          (front ++ turn.entry charge.catalog :: rest)

/-- A loop has lost its store at a call; some credits were on record by then. -/
def Severed (front waits : List Entry) (credits : Nat) (earlier : List (Happening runCalls))
    (reason : StoreError) (arena : Arena σ) : Prop :=
  ∃ (call : StoreCall) (tally : Tally),
    charge.Severs front call waits tally.roll
    ∧ tally.status = .running
    ∧ tally.credits = credits
    ∧ (⟨.store call, .error reason⟩ : Happening runCalls) ∈ arena.past
    ∧ tally.Holds charge.execution earlier arena

/-- The store has failed the run after some turns. -/
def Lost (earlier : List (Happening runCalls)) (reason : StoreError) (arena : Arena σ) : Prop :=
  ∃ turns waits,
    charge.queue = turns.map Turn.phase ++ waits
    ∧ (∀ turn ∈ turns, turn.verdict.succeeds)
    ∧ charge.Severed (turns.map (Turn.entry charge.catalog)) waits (charge.spent turns) earlier
        reason arena

end

-----------------------------------------------------------------------------------------
-- The course of a run
-----------------------------------------------------------------------------------------

section

variable {σ : Type} [Ledger σ] {charge : Charge} {earlier past : List (Happening runCalls)}
  {tally : Tally} {before later arena : Arena σ} {status : ExecutionStatus} {roll : List Entry}

/-- A juncture does not pass with time. -/
theorem Juncture.append (juncture : charge.Juncture past status roll)
    (more : List (Happening runCalls))
    : charge.Juncture (past ++ more) status roll := by
  cases juncture with
  | found begun => exact .found begun
  | between order went begun => exact .between order went begun
  | within order succeed begun =>
      exact .within order succeed (begun.imp_right fun left => ⟨left.1, left.2.append more⟩)

/-- The books are in order when the tally is at a juncture. -/
theorem Orderly.of_holds (holds : tally.Holds charge.execution earlier arena)
    (juncture : charge.Juncture arena.past tally.status tally.roll)
    : charge.Orderly arena := by
  obtain ⟨stop, definition, held⟩ := holds.standing
  exact ⟨_, held, holds.roll.symm ▸ juncture⟩

theorem Orderly.juncture (orderly : charge.Orderly arena)
    (holds : tally.Holds charge.execution earlier arena)
    : charge.Juncture arena.past tally.status tally.roll := by
  obtain ⟨standing, held, juncture⟩ := orderly
  obtain ⟨stop, definition, held'⟩ := holds.standing
  rw [held, Option.some.injEq] at held'
  rwa [held', holds.roll] at juncture

/-- Where the store stays, so does the order of the books. -/
theorem Orderly.grows (orderly : charge.Orderly before) (same : later.store = before.store)
    {more : List (Happening runCalls)} (past : later.past = before.past ++ more)
    : charge.Orderly later := by
  obtain ⟨standing, held, juncture⟩ := orderly
  refine ⟨standing, same ▸ held, ?_⟩
  rw [same, past]
  exact juncture.append more

/-- Others leave the books in order: all they may do is to raise the stop flag. -/
theorem Orderly.drift {mine : Uuid → Prop} (orderly : charge.Orderly before)
    (ours : mine charge.execution) (drifts : Arena.Drifts mine before later)
    : charge.Orderly later := by
  obtain ⟨standing, held, juncture⟩ := orderly
  have alone := drifts.alone charge.execution ours
  rw [← drifts.past, ← alone.roll] at juncture
  rcases alone.standing with same | ⟨old, held', _, raised⟩
  · exact ⟨standing, same.trans held, juncture⟩
  · rw [held, Option.some.injEq] at held'
    subst held'
    exact ⟨_, raised, juncture⟩

/-- Where a loop lost its store is a juncture, and the run that fails there leaves a phase at work
only when the store did not keep how it ended, by cases on the call.
-/
theorem Severs.juncture {turns : List Turn} {waits : List Entry} {call : StoreCall}
    {reason : StoreError}
    (severs : charge.Severs (turns.map (Turn.entry charge.catalog)) call waits roll)
    (order : charge.queue = turns.map Turn.phase ++ waits)
    (succeed : ∀ turn ∈ turns, turn.verdict.succeeds)
    (refused : (⟨.store call, .error reason⟩ : Happening runCalls) ∈ past)
    : charge.Juncture past .failed roll := by
  have visited {turn : Turn} {rest : List Entry}
      (order : charge.queue = turns.map Turn.phase ++ turn.phase :: rest)
      : charge.Juncture past .failed
          (turns.map (Turn.entry charge.catalog) ++ turn.entry charge.catalog :: rest) := by
    obtain ⟨ending, went⟩ := exists_went_append turn rest succeed
    have order' : charge.queue = (turns ++ [turn]).map Turn.phase ++ rest := by simp [order]
    have between : charge.Juncture past .failed
        ((turns ++ [turn]).map (Turn.entry charge.catalog) ++ rest) :=
      .between order' went (Or.inr (by decide))
    simpa using between
  cases severs with
  | looking =>
      obtain ⟨ending, went⟩ := exists_went waits succeed
      exact .between order went (Or.inr (by decide))
  | opening =>
      obtain ⟨ending, went⟩ := exists_went waits succeed
      exact .between order went (Or.inr (by decide))
  | ending ends => exact .within order succeed (Or.inr ⟨rfl, _, _, ends, refused⟩)
  | logging => exact visited order
  | recording => exact visited order

/-- The loop has lost its store when the call is refused. -/
theorem severed_of_refused {call : StoreCall} {reason : StoreError}
    (holds : (tally.tried call).Holds charge.execution earlier arena) {front waits : List Entry}
    (severs : charge.Severs front call waits tally.roll) (running : tally.status = .running)
    (refused : (⟨.store call, .error reason⟩ : Happening runCalls) ∈ arena.past)
    : charge.Severed front waits tally.credits earlier reason arena :=
  ⟨call, tally.tried call, severs, running, rfl, refused, holds⟩

/-- A run counts on each of these calls. -/
theorem Severs.counted {front waits : List Entry} {call : StoreCall}
    (severs : charge.Severs front call waits roll)
    : IsCounted call := by
  cases severs <;> trivial

end

-----------------------------------------------------------------------------------------
-- Steps of a run
-----------------------------------------------------------------------------------------

section

variable {σ : Type} [Ledger σ] {mine : Uuid → Prop} {charge : Charge}
  {earlier : List (Happening runCalls)} {tally : Tally} {arena : Arena σ} {α β : Type}
  {wanted : β → Arena σ → Prop}

/-- Quiet parts are passed over, by induction over the part. -/
theorem safe_of_quiet (ours : mine charge.execution) {part : RunM α}
    (only : part.Only RunCall.IsQuiet)
    : (Arena.running mine).Safe charge.Proper
        (fun _ later => Passes charge.execution arena later) part arena := by
  induction only generalizing arena with
  | done value => exact fun later drifts => Arena.Drifts.passes drifts ours
  | @ask call rest quiet _ ih =>
      intro before drifts answer after replies
      obtain rfl := Arena.Replies.quiet_inv quiet replies
      have proper : charge.Proper call before answer (before.after call answer) := by
        cases call with
        | task _ => trivial
        | uptime => trivial
        | _ => exact quiet.elim
      refine ⟨proper, (ih answer).mono id fun _ later passes => ?_⟩
      exact ((Arena.Drifts.passes drifts ours).after quiet answer).trans passes

/-- A quiet part may come first. -/
theorem safe_quietly (ours : mine charge.execution) {part : RunM α}
    (only : part.Only RunCall.IsQuiet) {next : α → RunM β}
    (safe
      : ∀ value later,
          Passes charge.execution arena later
          → (Arena.running mine).Safe charge.Proper wanted (next value) later)
    : (Arena.running mine).Safe charge.Proper wanted (part.bind next) arena :=
  (safe_of_quiet ours only).followed safe

/-- The store is asked something that concerns the execution; it grants or refuses. -/
theorem safe_asked (ours : mine charge.execution) (call : StoreCall) {next : call.Answer → RunM β}
    (concerns
      : ∀ before,
          Passes charge.execution arena before → call.Concerns charge.execution before.store)
    (cleared
      : ∀ phase,
          started? call = some phase → Cleared charge.execution charge.token arena.past)
    (course
      : ∀ before result later,
          Passes charge.execution arena before
          → before.past = arena.past
          → later = before.answered call
          → later.past = before.past ++ [⟨.store call, .ok result⟩]
          → call.Effect result before.store later.store
          → charge.Orderly before
          → charge.Orderly later)
    (granted
      : ∀ before result later,
          Passes charge.execution arena before
          → before.past = arena.past
          → later = before.answered call
          → later.past = before.past ++ [⟨.store call, .ok result⟩]
          → call.Effect result before.store later.store
          → (Arena.running mine).Safe charge.Proper wanted (next (.ok result)) later)
    (refused
      : ∀ before reason,
          Passes charge.execution arena before
          → before.past = arena.past
          → (Arena.running mine).Safe charge.Proper wanted (next (.error reason))
              (before.after (.store call) (.error reason)))
    : (Arena.running mine).Safe charge.Proper wanted ((RunM.store call).bind next) arena := by
  intro before drifts answer later replies
  have passes := Arena.Drifts.passes drifts ours
  have cleared' : ∀ phase,
      started? call = some phase → Cleared charge.execution charge.token before.past :=
    fun phase starts => drifts.past.symm ▸ cleared phase starts
  rcases Arena.Replies.store_inv replies with ⟨result, rfl, same, past, effect⟩ | ⟨reason, rfl, rfl⟩
  · refine ⟨⟨concerns before passes, cleared', ?_⟩, ?_⟩
    · exact course before result later passes drifts.past same past effect
    · exact granted before result later passes drifts.past same past effect
  · refine ⟨⟨concerns before passes, cleared', fun orderly => orderly.grows rfl rfl⟩, ?_⟩
    exact refused before reason passes drifts.past

/-- The store is asked something that the tally admits, in the course of the run. -/
theorem safe_store (ours : mine charge.execution)
    (holds : tally.Holds charge.execution earlier arena) (call : StoreCall)
    {next : call.Answer → RunM β} (admits : tally.Admits charge.execution call)
    (cleared
      : ∀ phase,
          started? call = some phase → Cleared charge.execution charge.token arena.past)
    (course
      : charge.Juncture arena.past tally.status tally.roll
        → charge.Juncture arena.past (tally.granted call).status (tally.granted call).roll)
    (granted
      : ∀ before result later,
          tally.Holds charge.execution earlier before
          → call.Effect result before.store later.store
          → later.past = arena.past ++ [⟨.store call, .ok result⟩]
          → (tally.granted call).Holds charge.execution earlier later
          → (Arena.running mine).Safe charge.Proper wanted (next (.ok result)) later)
    (refused
      : ∀ reason later,
          later.past = arena.past ++ [⟨.store call, .error reason⟩]
          → (tally.tried call).Holds charge.execution earlier later
          → (Arena.running mine).Safe charge.Proper wanted (next (.error reason)) later)
    : (Arena.running mine).Safe charge.Proper wanted ((RunM.store call).bind next) arena := by
  refine safe_asked ours call (fun before passes => (holds.passes passes).concerns admits) cleared
    ?_ ?_ ?_
  · intro before result later passes drifted same past effect orderly
    have here := holds.passes passes
    have juncture := orderly.juncture here
    rw [drifted] at juncture past
    refine .of_holds (here.granted admits same (drifted ▸ past) effect) ?_
    rw [past]
    exact (course juncture).append _
  · intro before result later passes drifted same past effect
    have here := holds.passes passes
    have there := here.granted admits same past effect
    exact granted before result later here effect (drifted ▸ past) there
  · intro before reason passes drifted
    exact refused reason _ (drifted ▸ rfl) ((holds.passes passes).refused rfl)

/-- The store is asked within the loop, which loses it when it refuses. -/
theorem safe_stored (ours : mine charge.execution)
    (holds : tally.Holds charge.execution earlier arena) (call : StoreCall) {env : Environment}
    {rest : call.Result → LoopM α}
    {wanted : Except StoreError α × Environment → Arena σ → Prop}
    (admits : tally.Admits charge.execution call)
    (cleared
      : ∀ phase,
          started? call = some phase → Cleared charge.execution charge.token arena.past)
    (course
      : charge.Juncture arena.past tally.status tally.roll
        → charge.Juncture arena.past (tally.granted call).status (tally.granted call).roll)
    (granted
      : ∀ before result later,
          tally.Holds charge.execution earlier before
          → call.Effect result before.store later.store
          → later.past = arena.past ++ [⟨.store call, .ok result⟩]
          → (tally.granted call).Holds charge.execution earlier later
          → (Arena.running mine).Safe charge.Proper wanted (LoopM.on (rest result) env) later)
    (lost
      : ∀ reason later,
          (⟨.store call, .error reason⟩ : Happening runCalls) ∈ later.past
          → (tally.tried call).Holds charge.execution earlier later
          → wanted (.error reason, env) later)
    : (Arena.running mine).Safe charge.Proper wanted (LoopM.on (stored call >>= rest) env)
        arena := by
  refine safe_store ours holds call admits cleared course granted fun reason later past there => ?_
  intro last drifts
  have passes := Arena.Drifts.passes drifts ours
  refine lost reason last ?_ (there.passes passes)
  rw [drifts.past, past]
  exact List.mem_append_right _ List.mem_cons_self

/-- Listeners are told what the store holds. -/
theorem safe_emit (ours : mine charge.execution)
    (holds : tally.Holds charge.execution earlier arena) (event : Event)
    (announced
      : ∀ before : Arena σ,
          tally.Holds charge.execution earlier before
          → Announced before.store event)
    (owned : event.execution = charge.execution) {next : Unit → RunM β}
    (safe
      : ∀ later,
          { tally with told := tally.told ++ [event] }.Holds charge.execution earlier later
          → (Arena.running mine).Safe charge.Proper wanted (next ()) later)
    : (Arena.running mine).Safe charge.Proper wanted ((emit event).bind next) arena := by
  intro before drifts answer later replies
  obtain rfl := Arena.Replies.emit_inv replies
  have here := holds.passes (Arena.Drifts.passes drifts ours)
  exact ⟨⟨announced before here, owned⟩, safe _ (here.told event)⟩

theorem safe_tell (ours : mine charge.execution)
    (holds : tally.Holds charge.execution earlier arena) (event : Instant → Event)
    (announced
      : ∀ time (before : Arena σ),
          tally.Holds charge.execution earlier before
          → Announced before.store (event time))
    (owned : ∀ time, (event time).execution = charge.execution) {next : Unit → RunM β}
    (safe
      : ∀ time later,
          { tally with told := tally.told ++ [event time] }.Holds charge.execution earlier later
          → (Arena.running mine).Safe charge.Proper wanted (next ()) later)
    : (Arena.running mine).Safe charge.Proper wanted
        ((now >>= fun time => emit (event time)).bind next) arena := by
  change (Arena.running mine).Safe _ _ ((now.bind fun time => emit (event time)).bind next) _
  rw [bind_bind]
  refine safe_quietly ours (ask_quiet (.task .now) trivial) fun time later passes => ?_
  exact safe_emit ours (holds.passes passes) (event time) (announced time) (owned time) (safe time)

-----------------------------------------------------------------------------------------
-- Looking for a stop
-----------------------------------------------------------------------------------------

/-- The run looks for a stop and finds that one was asked for, or that none was. -/
theorem safe_stopRequested (ours : mine charge.execution)
    (holds : tally.Holds charge.execution earlier arena) (running : tally.status = .running)
    {front waits : List Entry} (roll : tally.roll = front ++ waits)
    (halfway
      : ∀ before : Arena σ,
          tally.Holds charge.execution earlier before → charge.Halfway before.store)
    (env : Environment)
    : (Arena.running mine).Safe charge.Proper
        (fun result later =>
          (∃ stop,
            result = (.ok stop, env)
            ∧ tally.Holds charge.execution earlier later
            ∧ (stop = false → Cleared charge.execution charge.token later.past))
          ∨ ∃ reason,
              result = (.error reason, env)
              ∧ charge.Severed front waits tally.credits earlier reason later)
        (LoopM.on (stopRequested charge.execution charge.token) env) arena := by
  unfold stopRequested
  rw [on_inLoop_bind]
  intro before drifts answer later replies
  have here := holds.passes (Arena.Drifts.passes drifts ours)
  obtain ⟨_, rfl⟩ := Arena.Replies.isCancelled_inv replies
  refine ⟨⟨rfl, halfway before here⟩, ?_⟩
  have looked := here.looked charge.token answer
  cases answer with
  | true =>
      intro last drifts
      exact Or.inl ⟨true, rfl, looked.passes (Arena.Drifts.passes drifts ours), nofun⟩
  | false =>
      refine safe_stored ours looked (.getExecution charge.execution) rfl nofun id ?_ ?_
      · intro _ current later _ _ past there last drifts
        have passes := Arena.Drifts.passes drifts ours
        refine Or.inl ⟨current.stopRequested, rfl, there.passes passes, fun unstopped => ?_⟩
        refine Cleared.passes ⟨before.past, [], current, ?_, unstopped, by simp⟩ passes
        rw [past]
        simp [Arena.after]
      · intro reason last refused there
        have looking : charge.Severs front (.getExecution charge.execution) waits tally.roll :=
          roll ▸ .looking
        exact Or.inr ⟨reason, rfl, severed_of_refused there looking running refused⟩

end

end Charge

end Run

end Harvest

import Harvest.Store.Basic
import Mathlib.Data.List.Basic

/-! What every store keeps of its executions, whatever it is made of. A store tells where an
execution stands and which phases are on its roll; a granted call changes these in one way only,
a refused call changes nothing, and no call reaches an execution that it has no part in.
-/

namespace Harvest

-----------------------------------------------------------------------------------------
-- Where executions stand
-----------------------------------------------------------------------------------------

/-- Where an execution stands. Its owner and its times are left out: stores may keep times in
forms of their own.
-/
structure Standing where
  status : ExecutionStatus
  credits : Nat
  stopRequested : Bool
  definition : String
deriving DecidableEq, Repr

/-- A phase on the roll of its execution, without its times and the texts of its values. -/
structure Entry where
  id : Uuid
  number : Nat
  position : Nat
  taskType : TaskType
  status : PhaseStatus
  credits : Nat
deriving DecidableEq, Repr

/-- Where an execution stands by its record. -/
def Execution.standing (e : Execution) : Standing :=
  ⟨e.status, e.credits, e.stopRequested, e.definition⟩

def PhaseRecord.entry (p : PhaseRecord) : Entry :=
  ⟨p.id, p.number, p.position, p.taskType, p.status, p.credits⟩

/-- The first phase comes before the second in every plan that holds both. -/
def PhaseRecord.Precedes (a b : PhaseRecord) : Prop :=
  a.number < b.number ∨ a.number = b.number ∧ a.position < b.position

/-- Phases that precede one another are in plan order. -/
theorem PhaseRecord.Precedes.upTo {one two : PhaseRecord} (precedes : one.Precedes two)
    : one.upTo two := by
  unfold PhaseRecord.upTo
  rcases precedes with less | ⟨same, less⟩
  · simp [less]
  · simp [same, less]

namespace Entry

/-- The entries are of one phase, which keeps its place and its task. -/
structure SamePhase (a b : Entry) : Prop where
  id : a.id = b.id
  number : a.number = b.number
  position : a.position = b.position
  taskType : a.taskType = b.taskType

/-- Entries of one phase are equal when the phase got equally far in both. -/
theorem SamePhase.eq {a b : Entry} (same : a.SamePhase b) (status : a.status = b.status)
    (credits : a.credits = b.credits)
    : a = b := by
  obtain ⟨id, number, position, taskType⟩ := same
  cases a
  cases b
  simp_all

/-- The entry after all phases of one status have moved to another. -/
def moved (source target : PhaseStatus) (entry : Entry) : Entry :=
  if entry.status = source then { entry with status := target } else entry

theorem samePhase_moved (source target : PhaseStatus) (entry : Entry)
    : (entry.moved source target).SamePhase entry := by
  unfold moved
  split <;> exact ⟨rfl, rfl, rfl, rfl⟩

/-- The entry after that of one phase was replaced. -/
def replacedBy (next entry : Entry) : Entry := if entry.id = next.id then next else entry

end Entry

-----------------------------------------------------------------------------------------
-- Books
-----------------------------------------------------------------------------------------

/-- A store with books: where each execution stands, and the phases on its roll in plan order. -/
class Books (σ : Type) extends Store σ where
  /-- The store holds what a store can come to hold. -/
  Sound : σ → Prop
  standing? : σ → Uuid → Option Standing
  roll : σ → Uuid → List Entry
  /-- Nothing in the store goes by an identifier. -/
  Unused : σ → Uuid → Prop

section

variable {σ : Type} [Books σ]

open Books

/-- All that the store tells of an execution, of its phases and of their logs is as before. -/
structure Unchanged (id : Uuid) (before after : σ) : Prop where
  standing : standing? after id = standing? before id
  roll : roll after id = roll before id
  execution
    : (Store.answer (.getExecution id) after).1 = (Store.answer (.getExecution id) before).1
  phases : (Store.answer (.listPhases id) after).1 = (Store.answer (.listPhases id) before).1
  phase
    : ∀ entry ∈ Books.roll before id,
        (Store.answer (.getPhase entry.id) after).1 = (Store.answer (.getPhase entry.id) before).1
  logs
    : ∀ entry ∈ Books.roll before id,
        (Store.answer (.listLogs entry.id) after).1 = (Store.answer (.listLogs entry.id) before).1

namespace StoreCall

/-- What a granted call makes of the books, with the result that it gives. -/
def Effect : (call : StoreCall) → call.Result → (before after : σ) → Prop
  | .getExecution id, (execution : Execution), before, after =>
      after = before ∧ execution.id = id ∧ standing? before id = some execution.standing
  | .listPhases id, (phases : List PhaseRecord), before, after =>
      after = before
      ∧ phases.map PhaseRecord.entry = roll before id
      ∧ ∀ phase ∈ phases, phase.executionId = id
  | .listByStatus status, (executions : List Execution), before, after =>
      after = before
      ∧ (executions.map Execution.id).Nodup
      ∧ ∀ execution ∈ executions,
          execution.status = status
          ∧ standing? before execution.id = some execution.standing
  | .getWorkflow _, _, before, after => after = before
  | .listExecutions _, _, before, after => after = before
  | .getPhase _, _, before, after => after = before
  | .listLogs _, _, before, after => after = before
  | .createExecution execution phases, _, before, after =>
      Unused before execution.id
      → (∀ phase ∈ phases, phase.executionId = execution.id ∧ Unused before phase.id)
      → (phases.map PhaseRecord.id).Nodup
      → phases.Pairwise PhaseRecord.Precedes
      → standing? after execution.id = some execution.standing
        ∧ roll after execution.id = phases.map PhaseRecord.entry
  | .updateExecution execution, _, before, after =>
      (∃ old kept,
        standing? before execution.id = some old
        ∧ ¬ old.status.isTerminal
        ∧ (kept = execution.definition ∨ kept = old.definition)
        ∧ standing? after execution.id
          = some ⟨execution.status, execution.credits,
              old.stopRequested || execution.stopRequested, kept⟩)
      ∧ roll after execution.id = roll before execution.id
  | .requestStop id, _, before, after =>
      (∃ old,
        standing? before id = some old
        ∧ ¬ old.status.isTerminal
        ∧ standing? after id = some { old with stopRequested := true })
      ∧ roll after id = roll before id
      ∧ ∀ other, Unused before other → Unused after other
  | .updatePhase phase, _, before, after =>
      (∀ id, standing? after id = standing? before id)
      ∧ ∀ old ∈ roll before phase.executionId,
          old.SamePhase phase.entry
          → roll after phase.executionId
            = (roll before phase.executionId).map (Entry.replacedBy phase.entry)
  | .setPhaseStatuses id source target, _, before, after =>
      (∀ other, standing? after other = standing? before other)
      ∧ roll after id = (roll before id).map (Entry.moved source target)
  | .appendLogs _ _, _, before, after =>
      ∀ id, standing? after id = standing? before id ∧ roll after id = roll before id
  | .createWorkflow _, _, _, _ => True
  | .recordLastRunStart _ _ _ _, _, _, _ => True
  | .recordLastRunStatus _ _ _, _, _, _ => True

/-- The call has no part in an execution. -/
def Spares (id : Uuid) (store : σ) : StoreCall → Prop
  | .createExecution execution phases =>
      execution.id ≠ id ∧ ∀ phase ∈ phases, phase.executionId ≠ id ∧ Unused store phase.id
  | .updateExecution execution => execution.id ≠ id
  | .requestStop other => other ≠ id
  | .updatePhase phase => phase.executionId ≠ id ∧ phase.id ∉ (roll store id).map Entry.id
  | .setPhaseStatuses other _ _ => other ≠ id
  | .appendLogs phase _ => phase ∉ (roll store id).map Entry.id
  | _ => True

/-- The call reads, or it is about a workflow. -/
def IsIdle : StoreCall → Prop
  | .createExecution _ _ => False
  | .updateExecution _ => False
  | .requestStop _ => False
  | .updatePhase _ => False
  | .setPhaseStatuses _ _ _ => False
  | .appendLogs _ _ => False
  | _ => True

theorem IsIdle.spares {call : StoreCall} (idle : call.IsIdle)
    (id : Uuid) (store : σ)
    : call.Spares id store := by
  cases call with
  | createExecution _ _ => exact idle.elim
  | updateExecution _ => exact idle.elim
  | requestStop _ => exact idle.elim
  | updatePhase _ => exact idle.elim
  | setPhaseStatuses _ _ _ => exact idle.elim
  | appendLogs _ _ => exact idle.elim
  | _ => trivial

end StoreCall

/-- How a store in good order deals with a call: what it refuses leaves it as it is, what it grants
is what the call is for, and executions that have no part in the call stay.
-/
structure Handles (call : StoreCall) (store : σ) : Prop where
  sound : Sound (Store.answer call store).2
  refused
    : ∀ {reason}, (Store.answer call store).1 = .error reason
      → (Store.answer call store).2 = store
  effect
    : ∀ {result}, (Store.answer call store).1 = .ok result
      → call.Effect result store (Store.answer call store).2
  frame : ∀ {id}, call.Spares id store → Unchanged id store (Store.answer call store).2

end

/-- A store whose books are in order. -/
class Ledger (σ : Type) extends Books σ where
  sound_empty : Sound Store.empty
  handles : ∀ (call : StoreCall) {store : σ}, Sound store → Handles call store
  distinct : ∀ {store : σ} (id : Uuid), Sound store → ((roll store id).map Entry.id).Nodup
  /-- No phase is on two rolls. -/
  apart
    : ∀ {store : σ} {first second : Uuid} {phase : Uuid},
        Sound store
        → phase ∈ (roll store first).map Entry.id
        → phase ∈ (roll store second).map Entry.id
        → first = second
  unused : ∀ {store : σ} {id : Uuid}, Unused store id → standing? store id = none

-----------------------------------------------------------------------------------------
-- What follows for every store
-----------------------------------------------------------------------------------------

section

variable {σ : Type} [Books σ] {id : Uuid} {first middle last before after : σ}

open Books

namespace Unchanged

/-- What does not change at all is unchanged. -/
theorem refl (id : Uuid) (store : σ) : Unchanged id store store :=
  ⟨rfl, rfl, rfl, rfl, fun _ _ => rfl, fun _ _ => rfl⟩

/-- What is unchanged twice is unchanged, for the phases in between are the same. -/
theorem trans (one : Unchanged id first middle) (two : Unchanged id middle last)
    : Unchanged id first last where
  standing := two.standing.trans one.standing
  roll := two.roll.trans one.roll
  execution := two.execution.trans one.execution
  phases := two.phases.trans one.phases
  phase entry member := (two.phase entry (one.roll ▸ member)).trans (one.phase entry member)
  logs entry member := (two.logs entry (one.roll ▸ member)).trans (one.logs entry member)

end Unchanged

namespace Handles

variable {call : StoreCall} {store : σ}

/-- A call that is refused leaves the store. -/
theorem of_refused (sound : Sound store) {reason : StoreError}
    (answered : Store.answer call store = (.error reason, store))
    : Handles call store where
  sound := answered ▸ sound
  refused _ := by rw [answered]
  effect granted := by
    rw [answered] at granted
    cases granted
  frame _ := answered ▸ .refl _ store

/-- A call that is granted makes of the store what it is for. -/
theorem of_granted (result : call.Result) (answered : Store.answer call store = (.ok result, after))
    (sound : Sound after) (effect : call.Effect result store after)
    (frame : ∀ {id}, call.Spares id store → Unchanged id store after)
    : Handles call store where
  sound := answered ▸ sound
  refused refused := by
    rw [answered] at refused
    cases refused
  effect granted := by
    rw [answered] at granted ⊢
    cases granted
    exact effect
  frame spares := answered ▸ frame spares

/-- A call that only reads leaves the store. -/
theorem of_read (sound : Sound store) {answer : call.Answer}
    (answered : Store.answer call store = (answer, store))
    (effect : ∀ {result}, answer = .ok result → call.Effect result store store)
    : Handles call store where
  sound := answered ▸ sound
  refused _ := by rw [answered]
  effect granted := by
    rw [answered] at granted ⊢
    exact effect granted
  frame _ := answered ▸ .refl _ store

end Handles

/-- The execution is there and not finished. -/
def IsOpen (id : Uuid) (store : σ) : Prop :=
  ∃ standing, standing? store id = some standing ∧ ¬ standing.status.isTerminal

/-- The execution is there and finished. -/
def IsFinished (id : Uuid) (store : σ) : Prop :=
  ∃ standing, standing? store id = some standing ∧ standing.status.isTerminal

/-- The stop flag of the execution is raised. -/
def IsStopped (id : Uuid) (store : σ) : Prop :=
  ∃ standing, standing? store id = some standing ∧ standing.stopRequested = true

/-- No execution is finished and open. -/
theorem IsFinished.not_open (finished : IsFinished id before) : ¬ IsOpen id before := by
  obtain ⟨standing, held, terminal⟩ := finished
  rintro ⟨other, held', unfinished⟩
  rw [held, Option.some.injEq] at held'
  exact unfinished (held' ▸ terminal)

/-- What is finished stays finished where it is unchanged. -/
theorem IsFinished.unchanged (finished : IsFinished id before) (same : Unchanged id before after)
    : IsFinished id after := by
  obtain ⟨standing, held, terminal⟩ := finished
  exact ⟨standing, same.standing.trans held, terminal⟩

/-- An execution that stop flags may be raised of but that is otherwise left alone: the one thing
that others may do to an execution while it is open.
-/
structure LeftAlone (id : Uuid) (before after : σ) : Prop where
  standing
    : standing? after id = standing? before id
      ∨ ∃ old,
          standing? before id = some old
          ∧ ¬ old.status.isTerminal
          ∧ standing? after id = some { old with stopRequested := true }
  roll : roll after id = roll before id
  unused : Unused before id → Unused after id
  finished : IsFinished id before → Unchanged id before after

namespace LeftAlone

/-- A store that does not change leaves all executions alone. -/
theorem refl (id : Uuid) (store : σ) : LeftAlone id store store :=
  ⟨Or.inl rfl, rfl, fun unused => unused, fun _ => .refl id store⟩

/-- What is left alone twice is left alone, by cases on where the flag was raised. -/
theorem trans (one : LeftAlone id first middle) (two : LeftAlone id middle last)
    : LeftAlone id first last where
  standing := by
    rcases two.standing with same | ⟨old, held, unfinished, raised⟩
    · rw [same]
      exact one.standing
    · rcases one.standing with same | ⟨earlier, held', unfinished', raised'⟩
      · exact Or.inr ⟨old, same ▸ held, unfinished, raised⟩
      · rw [raised', Option.some.injEq] at held
        subst held
        exact Or.inr ⟨earlier, held', unfinished', raised⟩
  roll := two.roll.trans one.roll
  unused free := two.unused (one.unused free)
  finished ended := by
    have same := one.finished ended
    exact same.trans (two.finished (ended.unchanged same))

/-- Others do not lower a stop flag. -/
theorem isStopped (left : LeftAlone id before after) (stopped : IsStopped id before)
    : IsStopped id after := by
  obtain ⟨standing, held, flag⟩ := stopped
  rcases left.standing with same | ⟨old, _, _, raised⟩
  · exact ⟨standing, same.trans held, flag⟩
  · exact ⟨_, raised, rfl⟩

/-- Others do not finish an execution. -/
theorem isOpen (left : LeftAlone id before after) (isOpen : IsOpen id before)
    : IsOpen id after := by
  obtain ⟨standing, held, unfinished⟩ := isOpen
  rcases left.standing with same | ⟨old, _, unfinished', raised⟩
  · exact ⟨standing, same.trans held, unfinished⟩
  · exact ⟨_, raised, unfinished'⟩

end LeftAlone

-----------------------------------------------------------------------------------------
-- Calls about one execution
-----------------------------------------------------------------------------------------

/-- The call reads, or writes about one execution only; phases and logs are written while the
execution is open.
-/
def StoreCall.Concerns (id : Uuid) (store : σ) : StoreCall → Prop
  | .updateExecution execution => execution.id = id
  | .setPhaseStatuses other _ _ => other = id ∧ IsOpen id store
  | .updatePhase phase =>
      phase.executionId = id ∧ phase.id ∈ (roll store id).map Entry.id ∧ IsOpen id store
  | .appendLogs phase _ => phase ∈ (roll store id).map Entry.id ∧ IsOpen id store
  | .createExecution _ _ => False
  | .createWorkflow _ => False
  | .requestStop _ => False
  | .recordLastRunStart _ _ _ _ => False
  | _ => True

end

section

variable {σ : Type} [Ledger σ] {id other : Uuid} {store : σ} {call : StoreCall}

/-- What concerns one execution spares the others, for no phase is on two rolls. -/
theorem StoreCall.Concerns.spares (concerns : call.Concerns id store)
    (sound : Books.Sound store) (apart : other ≠ id)
    : call.Spares other store := by
  cases call with
  | updateExecution execution =>
      change execution.id = id at concerns
      exact fun same => apart (same.symm.trans concerns)
  | setPhaseStatuses named source target => exact fun same => apart (same.symm.trans concerns.1)
  | updatePhase phase =>
      obtain ⟨owned, listed, _⟩ := concerns
      refine ⟨fun same => apart (same.symm.trans owned), fun here => apart ?_⟩
      exact Ledger.apart sound here listed
  | appendLogs phase entries => exact fun here => apart (Ledger.apart sound here concerns.1)
  | createExecution _ _ => exact concerns.elim
  | createWorkflow _ => exact concerns.elim
  | requestStop _ => exact concerns.elim
  | recordLastRunStart _ _ _ _ => exact concerns.elim
  | _ => trivial

/-- A finished execution does not change when calls concern one execution: another one is spared,
and of its own record a store refuses the update.
-/
theorem StoreCall.Concerns.unchanged (concerns : call.Concerns id store)
    (sound : Books.Sound store) (finished : IsFinished other store)
    : Unchanged other store (Store.answer call store).2 := by
  have handled := Ledger.handles call sound
  by_cases apart : other = id
  · subst apart
    -- only the update may be asked of a finished execution, and it is refused
    cases call with
    | updateExecution execution =>
        change execution.id = other at concerns
        cases answered : (Store.answer (.updateExecution execution) store).1 with
        | error reason =>
            rw [handled.refused answered]
            exact .refl other store
        | ok result =>
            obtain ⟨⟨old, kept, held, unfinished, _⟩, _⟩ := handled.effect answered
            exact absurd ⟨old, concerns ▸ held, unfinished⟩ finished.not_open
    | setPhaseStatuses named source target => exact absurd concerns.2 finished.not_open
    | updatePhase phase => exact absurd concerns.2.2 finished.not_open
    | appendLogs phase entries => exact absurd concerns.2 finished.not_open
    | createExecution _ _ => exact concerns.elim
    | createWorkflow _ => exact concerns.elim
    | requestStop _ => exact concerns.elim
    | recordLastRunStart _ _ _ _ => exact concerns.elim
    | _ => exact handled.frame trivial
  · exact handled.frame (concerns.spares sound apart)

/-- A raised stop flag stays raised when calls concern one execution: an update keeps it, and the
other calls leave where the execution stands.
-/
theorem StoreCall.Concerns.isStopped (concerns : call.Concerns id store)
    (sound : Books.Sound store) (stopped : IsStopped other store)
    : IsStopped other (Store.answer call store).2 := by
  have handled := Ledger.handles call sound
  obtain ⟨standing, held, flag⟩ := stopped
  by_cases apart : other = id
  · subst apart
    cases answered : (Store.answer call store).1 with
    | error reason =>
        rw [handled.refused answered]
        exact ⟨standing, held, flag⟩
    | ok result =>
        have effect := handled.effect answered
        cases call with
        | updateExecution execution =>
            change execution.id = other at concerns
            obtain ⟨⟨old, kept, held', _, _, updated⟩, _⟩ := effect
            rw [concerns, held, Option.some.injEq] at held'
            subst held'
            exact ⟨_, concerns ▸ updated, by simp [flag]⟩
        | setPhaseStatuses named source target =>
            exact ⟨standing, (effect.1 other).trans held, flag⟩
        | updatePhase phase => exact ⟨standing, (effect.1 other).trans held, flag⟩
        | appendLogs phase entries => exact ⟨standing, (effect other).1.trans held, flag⟩
        | createExecution _ _ => exact concerns.elim
        | createWorkflow _ => exact concerns.elim
        | requestStop _ => exact concerns.elim
        | recordLastRunStart _ _ _ _ => exact concerns.elim
        | _ =>
            have same : Unchanged other store _ := handled.frame trivial
            exact ⟨standing, same.standing.trans held, flag⟩
  · have same := handled.frame (concerns.spares sound apart)
    exact ⟨standing, same.standing.trans held, flag⟩

end

end Harvest

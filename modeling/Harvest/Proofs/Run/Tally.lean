import Harvest.Proofs.Run.Arena

/-! What the books and the past say of one run. Others leave the tally of a run, its quiet calls do
too, and each call of the store that is granted changes it in one way.
-/

namespace Harvest

open Time

namespace Run

-----------------------------------------------------------------------------------------
-- The past of a run
-----------------------------------------------------------------------------------------

/-- The events that were told. -/
def told (past : List (Happening runCalls)) : List Event :=
  past.filterMap fun
    | ⟨.emit event, _⟩ => some event
    | _ => none

/-- The phase that a call of the store starts. -/
def started? : StoreCall → Option Uuid
  | .updatePhase phase => if phase.status = .running then some phase.id else none
  | _ => none

/-- The phases that were started. -/
def begun (past : List (Happening runCalls)) : List Uuid :=
  past.filterMap fun
    | ⟨.store call, _⟩ => started? call
    | _ => none

/-- The run counts on the call. That a workflow takes note of its run is asked for only. -/
def IsCounted : StoreCall → Prop
  | .recordLastRunStatus _ _ _ => False
  | _ => True

/-- The call was not refused by the store, if the run counts on it. -/
def IsGranted : Happening runCalls → Prop
  | ⟨.store call, answer⟩ => IsCounted call → ∃ result, answer = .ok result
  | _ => True

/-- Some call was refused by the store. -/
def Faulted (past : List (Happening runCalls)) : Prop := ∃ happening ∈ past, ¬ IsGranted happening

section

variable {past more : List (Happening runCalls)}

@[simp] theorem told_append (past more : List (Happening runCalls))
    : told (past ++ more) = told past ++ told more :=
  List.filterMap_append

@[simp] theorem begun_append (past more : List (Happening runCalls))
    : begun (past ++ more) = begun past ++ begun more :=
  List.filterMap_append

/-- A refusal is not taken back. -/
theorem Faulted.append (faulted : Faulted past) (more : List (Happening runCalls))
    : Faulted (past ++ more) := by
  obtain ⟨happening, member, refused⟩ := faulted
  exact ⟨happening, List.mem_append_left _ member, refused⟩

/-- A refusal in the past of a call that a run counts on is a fault. -/
theorem faulted_of_mem {call : StoreCall} {reason : StoreError}
    (refused : (⟨.store call, .error reason⟩ : Happening runCalls) ∈ past)
    (counted : IsCounted call)
    : Faulted past := by
  refine ⟨_, refused, fun granted => ?_⟩
  obtain ⟨result, same⟩ := granted counted
  cases same

/-- A call that a run counts on and that is refused is a fault. -/
theorem faulted_of_refused {call : StoreCall} (counted : IsCounted call) (reason : StoreError)
    : Faulted (past ++ [⟨.store call, .error reason⟩]) :=
  faulted_of_mem (List.mem_append_right _ List.mem_cons_self) counted

theorem told_quiet (quiet : ∀ happening ∈ more, happening.1.IsQuiet) : told more = [] := by
  refine List.filterMap_eq_nil_iff.mpr fun happening member => ?_
  obtain ⟨call, answer⟩ := happening
  cases call with
  | emit event => exact (quiet _ member).elim
  | _ => rfl

theorem begun_quiet (quiet : ∀ happening ∈ more, happening.1.IsQuiet) : begun more = [] := by
  refine List.filterMap_eq_nil_iff.mpr fun happening member => ?_
  obtain ⟨call, answer⟩ := happening
  cases call with
  | store call => exact (quiet _ member).elim
  | _ => rfl

end

/-- The run has looked for a stop and found none, and nothing but quiet calls came since. -/
def Cleared (execution : Uuid) (token : Token) (past : List (Happening runCalls)) : Prop :=
  ∃ early late current,
    past
      = early
        ++ [⟨.isCancelled token, false⟩, ⟨.store (.getExecution execution), .ok current⟩]
        ++ late
    ∧ current.stopRequested = false
    ∧ ∀ happening ∈ late, happening.1.IsQuiet

end Run

open Run

-----------------------------------------------------------------------------------------
-- Tallies
-----------------------------------------------------------------------------------------

/-- What the books say of an execution, and what its run has told and started. -/
structure Tally where
  status : ExecutionStatus
  credits : Nat
  roll : List Entry
  told : List Event
  begun : List Uuid

/-- What a run passes over: others act, and quiet calls are made. -/
structure Passes {σ : Type} [Ledger σ] (execution : Uuid) (before after : Arena σ) : Prop where
  alone : LeftAlone execution before.store after.store
  past : ∃ quiet, after.past = before.past ++ quiet ∧ ∀ happening ∈ quiet, happening.1.IsQuiet

section

variable {σ : Type} [Ledger σ] {mine : Uuid → Prop} {execution : Uuid} {token : Token}
  {before middle later : Arena σ}

/-- What others do to ours is passed over. -/
theorem Arena.Drifts.passes (drifts : Arena.Drifts mine before later) (ours : mine execution)
    : Passes execution before later :=
  ⟨drifts.alone execution ours, [], by simp [drifts.past], by simp⟩

theorem Passes.trans (one : Passes execution before middle)
    (two : Passes execution middle later)
    : Passes execution before later := by
  obtain ⟨first, past, quiet⟩ := one.past
  obtain ⟨second, past', quiet'⟩ := two.past
  refine ⟨one.alone.trans two.alone, first ++ second, by simp [past', past], ?_⟩
  intro happening member
  rcases List.mem_append.mp member with early | late
  · exact quiet happening early
  · exact quiet' happening late

theorem Passes.after (passes : Passes execution before middle) {call : RunCall}
    (quiet : call.IsQuiet) (answer : call.Answer)
    : Passes execution before (middle.after call answer) := by
  refine passes.trans ⟨.refl execution middle.store, [⟨call, answer⟩], rfl, ?_⟩
  intro happening member
  rw [List.mem_singleton.mp member]
  exact quiet

/-- What a run found when it looked stays found. -/
theorem Run.Cleared.passes (cleared : Cleared execution token before.past)
    (passes : Passes execution before later)
    : Cleared execution token later.past := by
  obtain ⟨early, late, current, past, unstopped, quiet⟩ := cleared
  obtain ⟨more, past', quiet'⟩ := passes.past
  refine ⟨early, late ++ more, current, by simp [past', past], unstopped, ?_⟩
  intro happening member
  rcases List.mem_append.mp member with old | new
  · exact quiet happening old
  · exact quiet' happening new

end

namespace Tally

variable {σ : Type} [Ledger σ] {execution : Uuid} {earlier : List (Happening runCalls)}
  {tally : Tally} {before later : Arena σ}

/-- The tally is that of the run that began after an earlier past. -/
structure Holds (execution : Uuid) (earlier : List (Happening runCalls)) (tally : Tally)
    (arena : Arena σ) : Prop where
  standing
    : ∃ stop definition,
        Books.standing? arena.store execution
          = some ⟨tally.status, tally.credits, stop, definition⟩
  roll : Books.roll arena.store execution = tally.roll
  past
    : ∃ made,
        arena.past = earlier ++ made
        ∧ Run.told made = tally.told
        ∧ Run.begun made = tally.begun

/-- The execution is open by its tally. -/
def IsOpen (tally : Tally) : Prop := ¬ tally.status.isTerminal

theorem isOpen_of_running (running : tally.status = .running) : tally.IsOpen := by
  rw [IsOpen, running]
  decide

/-- What a call of the store may be asked of the execution, by its tally. -/
def Admits (execution : Uuid) (tally : Tally) : StoreCall → Prop
  | .getExecution id => id = execution
  | .listPhases id => id = execution
  | .updateExecution record => record.id = execution
  | .setPhaseStatuses id _ _ => id = execution ∧ tally.IsOpen
  | .updatePhase phase =>
      phase.executionId = execution
      ∧ (∃ old ∈ tally.roll, old.SamePhase phase.entry)
      ∧ tally.IsOpen
  | .appendLogs phase _ => phase ∈ tally.roll.map Entry.id ∧ tally.IsOpen
  | .recordLastRunStatus _ _ _ => True
  | _ => False

/-- The tally once a call of the store was asked. -/
def tried (tally : Tally) (call : StoreCall) : Tally :=
  { tally with begun := tally.begun ++ (started? call).toList }

/-- The tally once a call of the store was granted. -/
def granted (tally : Tally) : StoreCall → Tally
  | .updateExecution record =>
      { tally with status := record.status, credits := record.credits }
  | .setPhaseStatuses _ source target =>
      { tally with roll := tally.roll.map (Entry.moved source target) }
  | .updatePhase phase =>
      { tally.tried (.updatePhase phase) with
        roll := tally.roll.map (Entry.replacedBy phase.entry) }
  | _ => tally

/-- The record of one phase is replaced on a roll where no phase is twice. -/
theorem granted_updatePhase {phase : PhaseRecord} {old : Entry} {front back : List Entry}
    (roll : tally.roll = front ++ old :: back) (distinct : (tally.roll.map Entry.id).Nodup)
    (same : old.id = phase.id)
    : tally.granted (.updatePhase phase)
      = { tally.tried (.updatePhase phase) with roll := front ++ phase.entry :: back } := by
  rw [roll, List.map_append, List.map_cons, List.nodup_append, List.nodup_cons] at distinct
  have others : ∀ entry ∈ front ++ back, Entry.replacedBy phase.entry entry = entry := by
    intro entry member
    refine if_neg fun equal => ?_
    change entry.id = phase.id at equal
    rw [← same] at equal
    rcases List.mem_append.mp member with early | late
    · exact distinct.2.2 _ (List.mem_map_of_mem early) _ List.mem_cons_self equal
    · exact distinct.2.1.1 (equal ▸ List.mem_map_of_mem late)
  have early : front.map (Entry.replacedBy phase.entry) = front :=
    (List.map_congr_left fun entry here => others entry (List.mem_append_left _ here)).trans
      (List.map_id _)
  have late : back.map (Entry.replacedBy phase.entry) = back :=
    (List.map_congr_left fun entry here => others entry (List.mem_append_right _ here)).trans
      (List.map_id _)
  have here : Entry.replacedBy phase.entry old = phase.entry := if_pos same
  simp only [granted, roll, List.map_append, List.map_cons, early, late, here]

namespace Holds

/-- Others leave the tally, and so do quiet calls. -/
theorem passes (holds : tally.Holds execution earlier before)
    (passes : Passes execution before later)
    : tally.Holds execution earlier later where
  standing := by
    obtain ⟨stop, definition, held⟩ := holds.standing
    rcases passes.alone.standing with same | ⟨old, held', _, raised⟩
    · exact ⟨stop, definition, same.trans held⟩
    · rw [held, Option.some.injEq] at held'
      subst held'
      exact ⟨true, definition, raised⟩
  roll := passes.alone.roll.trans holds.roll
  past := by
    obtain ⟨made, past, told, begun⟩ := holds.past
    obtain ⟨more, past', quiet⟩ := passes.past
    refine ⟨made ++ more, by simp [past', past], ?_, ?_⟩
    · rw [told_append, told, told_quiet quiet, List.append_nil]
    · rw [begun_append, begun, begun_quiet quiet, List.append_nil]

/-- No phase is twice on the roll. -/
theorem distinct (holds : tally.Holds execution earlier before)
    : (tally.roll.map Entry.id).Nodup :=
  holds.roll ▸ Ledger.distinct execution before.sound

theorem isOpen (holds : tally.Holds execution earlier before) (unfinished : tally.IsOpen)
    : Harvest.IsOpen execution before.store := by
  obtain ⟨stop, definition, held⟩ := holds.standing
  exact ⟨_, held, unfinished⟩

/-- What the tally admits concerns the execution. -/
theorem concerns (holds : tally.Holds execution earlier before) {call : StoreCall}
    (admits : tally.Admits execution call)
    : call.Concerns execution before.store := by
  cases call with
  | updateExecution record => exact admits
  | setPhaseStatuses id source target => exact ⟨admits.1, holds.isOpen admits.2⟩
  | updatePhase phase =>
      obtain ⟨owned, ⟨old, member, same⟩, unfinished⟩ := admits
      refine ⟨owned, ?_, holds.isOpen unfinished⟩
      rw [holds.roll]
      exact List.mem_map.mpr ⟨old, member, same.id⟩
  | appendLogs phase entries => exact ⟨holds.roll ▸ admits.1, holds.isOpen admits.2⟩
  | createExecution _ _ => exact admits.elim
  | createWorkflow _ => exact admits.elim
  | requestStop _ => exact admits.elim
  | recordLastRunStart _ _ _ _ => exact admits.elim
  | _ => trivial

/-- A call of the store adds to the past what it starts. -/
theorem past_asked (holds : tally.Holds execution earlier before) {call : StoreCall}
    {answer : call.Answer} (past : later.past = before.past ++ [⟨.store call, answer⟩])
    : ∃ made,
        later.past = earlier ++ made
        ∧ Run.told made = tally.told
        ∧ Run.begun made = (tally.tried call).begun := by
  obtain ⟨made, past', told, begun⟩ := holds.past
  refine ⟨made ++ [⟨.store call, answer⟩], by simp [past, past'], ?_, ?_⟩
  · rw [told_append, told]
    exact List.append_nil _
  · rw [begun_append, begun]
    cases started : started? call <;> simp [Run.begun, tried, started]

/-- A call that the store refuses is in the past, and that is all. -/
theorem refused (holds : tally.Holds execution earlier before) {call : StoreCall}
    {answer : call.Answer} (same : later = before.after (.store call) answer)
    : (tally.tried call).Holds execution earlier later := by
  subst same
  exact ⟨holds.standing, holds.roll, holds.past_asked rfl⟩

/-- A call that the store grants changes the tally, by cases on the call. -/
theorem granted (holds : tally.Holds execution earlier before) {call : StoreCall}
    (admits : tally.Admits execution call) {result : call.Result}
    (same : later = before.answered call)
    (past : later.past = before.past ++ [⟨.store call, .ok result⟩])
    (effect : call.Effect result before.store later.store)
    : (tally.granted call).Holds execution earlier later := by
  have asked := holds.past_asked past
  obtain ⟨stop, definition, held⟩ := holds.standing
  cases call with
  | updateExecution record =>
      change record.id = execution at admits
      obtain ⟨⟨old, kept, _, _, _, updated⟩, roll⟩ := effect
      rw [admits] at updated roll
      simp only [tried, started?, Option.toList_none, List.append_nil] at asked
      exact ⟨⟨_, _, updated⟩, roll.trans holds.roll, asked⟩
  | setPhaseStatuses id source target =>
      obtain ⟨rfl, _⟩ := admits
      obtain ⟨standings, roll⟩ := effect
      simp only [tried, started?, Option.toList_none, List.append_nil] at asked
      refine ⟨⟨stop, definition, (standings id).trans held⟩, ?_, asked⟩
      rw [roll, holds.roll]
      rfl
  | updatePhase phase =>
      obtain ⟨owned, ⟨old, member, place⟩, _⟩ := admits
      obtain ⟨standings, rolls⟩ := effect
      subst owned
      refine ⟨⟨stop, definition, (standings _).trans held⟩, ?_, asked⟩
      have roll := rolls old (holds.roll ▸ member) place
      rwa [holds.roll] at roll
  | appendLogs phase entries =>
      obtain ⟨standing, roll⟩ := effect execution
      simp only [tried, started?, Option.toList_none, List.append_nil] at asked
      exact ⟨⟨stop, definition, standing.trans held⟩, roll.trans holds.roll, asked⟩
  | createExecution _ _ => exact admits.elim
  | createWorkflow _ => exact admits.elim
  | requestStop _ => exact admits.elim
  | recordLastRunStart _ _ _ _ => exact admits.elim
  | _ =>
      have kept : Unchanged execution before.store later.store :=
        same ▸ (Ledger.handles _ before.sound).frame trivial
      simp only [tried, started?, Option.toList_none, List.append_nil] at asked
      exact ⟨⟨stop, definition, kept.standing.trans held⟩, kept.roll.trans holds.roll, asked⟩

/-- What is told is in the past, and that is all. -/
theorem told (holds : tally.Holds execution earlier before) (event : Event)
    : { tally with told := tally.told ++ [event] }.Holds execution earlier
        (before.after (.emit event) ()) := by
  obtain ⟨made, past, told, begun⟩ := holds.past
  refine ⟨holds.standing, holds.roll, made ++ [⟨.emit event, ()⟩], ?_, ?_, ?_⟩
  · simp [Arena.after, past]
  · rw [told_append, told]
    rfl
  · rw [begun_append, begun]
    exact List.append_nil _

theorem looked (holds : tally.Holds execution earlier before) (token : Token) (answer : Bool)
    : tally.Holds execution earlier (before.after (.isCancelled token) answer) := by
  obtain ⟨made, past, told, begun⟩ := holds.past
  refine ⟨holds.standing, holds.roll, made ++ [⟨.isCancelled token, answer⟩], ?_, ?_, ?_⟩
  · simp [Arena.after, past]
  · rw [told_append, told]
    exact List.append_nil _
  · rw [begun_append, begun]
    exact List.append_nil _

end Holds

end Tally

end Harvest

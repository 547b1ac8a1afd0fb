import Harvest.Proofs.Service.Opening

/-! What listeners are told of a run. Between the first event and the last there is a pair for each
phase that had its turn, and what an event announces is in the store already.
-/

namespace Harvest

namespace Run

open Realm

/-- The events of phases in plan order: a pair for each that was completed, and at most one more
pair for the next phase, which failed.
-/
inductive Pairs (catalog : Catalog) (execution : Uuid) : List Entry → List Event → Prop where
  | halted (phases : List Entry)
      : Pairs catalog execution phases []
  | completed {phase : Entry} {phases : List Entry} {node : String} {millis : Nat}
      {startedAt endedAt : Time.Instant} {events : List Event}
      (rest : Pairs catalog execution phases events)
      : Pairs catalog execution (phase :: phases)
          (.phaseStarted execution phase.id node phase.taskType startedAt
            :: .phaseCompleted execution phase.id node (catalog.credits phase.taskType) millis
                endedAt
            :: events)
  | failed {phase : Entry} {phases : List Entry} {node : String} {error : Option String}
      {startedAt endedAt : Time.Instant}
      : Pairs catalog execution (phase :: phases)
          [.phaseStarted execution phase.id node phase.taskType startedAt,
            .phaseFailed execution phase.id node error endedAt]

/-- The credits that an event tells of. -/
def toldCredits : Event → Nat
  | .phaseCompleted _ _ _ credits _ _ => credits
  | _ => 0

/-- The events of a whole run: the number of its phases, what became of those that had their turn,
and how the execution was left. Credits are counted in 32 bits.
-/
inductive Stream (catalog : Catalog) (execution : Uuid) (phases : List Entry)
    (status : ExecutionStatus) (credits : Nat)
    : List Event → Prop where
  | mk {workflow : Uuid} {startedAt endedAt : Time.Instant} {events : List Event} {millis : Nat}
      (pairs : Pairs catalog execution phases events)
      (sum
        : (events.map toldCredits).sum < 4294967296 → credits = (events.map toldCredits).sum)
      : Stream catalog execution phases status credits
          ([.executionStarted execution workflow phases.length startedAt]
            ++ events
            ++ [.executionFinished execution status credits millis endedAt])

variable {σ : Type} [Ledger σ] {mine : Uuid → Prop} {catalog : Catalog} {execution : Uuid}
  {phases : List Entry} {events : List Event} {turns : List Turn}

/-- A turn that succeeded was told as a completed phase. -/
theorem Turn.told_of_succeeds (catalog : Catalog) (execution : Uuid) {turn : Turn}
    (succeeds : turn.verdict.succeeds)
    : ∃ millis,
        turn.told catalog execution
          = [.phaseStarted execution turn.phase.id turn.node turn.phase.taskType turn.startedAt,
              .phaseCompleted execution turn.phase.id turn.node
                (catalog.credits turn.phase.taskType) millis turn.endedAt] := by
  obtain ⟨phase, node, startedAt, verdict, endedAt⟩ := turn
  cases verdict with
  | completed millis => exact ⟨millis, rfl⟩
  | failed error => cases succeeds

/-- A turn that failed was told as a failed phase. -/
theorem Turn.told_of_fails (catalog : Catalog) (execution : Uuid) {turn : Turn}
    (fails : turn.verdict.succeeds = false)
    : ∃ error,
        turn.told catalog execution
          = [.phaseStarted execution turn.phase.id turn.node turn.phase.taskType turn.startedAt,
              .phaseFailed execution turn.phase.id turn.node error turn.endedAt] := by
  obtain ⟨phase, node, startedAt, verdict, endedAt⟩ := turn
  cases verdict with
  | completed millis => cases fails
  | failed error => exact ⟨error, rfl⟩

/-- Completed turns come before other pairs, by induction over the turns. -/
theorem Pairs.behind (succeed : ∀ turn ∈ turns, turn.verdict.succeeds)
    (pairs : Pairs catalog execution phases events)
    : Pairs catalog execution (turns.map Turn.phase ++ phases)
        (turns.flatMap (Turn.told catalog execution) ++ events) := by
  induction turns with
  | nil => exact pairs
  | cons turn turns ih =>
      obtain ⟨millis, told⟩ :=
        Turn.told_of_succeeds catalog execution (succeed turn List.mem_cons_self)
      have later := ih fun turn member => succeed turn (List.mem_cons_of_mem _ member)
      rw [List.map_cons, List.cons_append, List.flatMap_cons, told]
      exact .completed later

/-- The turns of a walk are told in pairs, by cases on how the walk ended. -/
theorem Went.pairs {ending : Ending} (went : Went ending turns phases)
    : Pairs catalog execution (turns.map Turn.phase ++ phases)
        (turns.flatMap (Turn.told catalog execution)) := by
  cases went with
  | finished succeed =>
      rw [← List.append_nil (turns.flatMap _)]
      exact Pairs.behind succeed (.halted [])
  | @failed turns turn _ succeed fails =>
      obtain ⟨error, told⟩ := Turn.told_of_fails catalog execution fails
      rw [List.map_append, List.append_assoc, List.flatMap_append, List.flatMap_singleton, told]
      exact Pairs.behind succeed .failed
  | stopped succeed _ =>
      rw [← List.append_nil (turns.flatMap _)]
      exact Pairs.behind succeed (.halted phases)

/-- Waiting phases are told as the phases that they were, by induction over the pairs. -/
theorem Pairs.of_waiting (pairs : Pairs catalog execution (phases.map waiting) events)
    : Pairs catalog execution phases events := by
  generalize same : phases.map waiting = queue at pairs
  induction pairs generalizing phases with
  | halted _ => exact .halted phases
  | completed _ ih =>
      obtain ⟨phase, rest, rfl, rfl, others⟩ := List.map_eq_cons_iff.mp same
      have place := Entry.samePhase_moved .created .pending phase
      rw [waiting, place.id, place.taskType]
      exact .completed (ih others)
  | failed =>
      obtain ⟨phase, rest, rfl, rfl, _⟩ := List.map_eq_cons_iff.mp same
      have place := Entry.samePhase_moved .created .pending phase
      rw [waiting, place.id, place.taskType]
      exact .failed

/-- The credits that were told of some turns are what the turns cost. -/
theorem sum_toldCredits (catalog : Catalog) (execution : Uuid) (turns : List Turn)
    : ((turns.flatMap (Turn.told catalog execution)).map toldCredits).sum
      = (turns.map (Turn.cost catalog)).sum := by
  induction turns with
  | nil => rfl
  | cons turn turns ih =>
      have here : ((turn.told catalog execution).map toldCredits).sum = turn.cost catalog := by
        obtain ⟨phase, node, startedAt, verdict, endedAt⟩ := turn
        cases verdict <;> simp [Turn.told, Turn.closing, Turn.cost, Verdict.succeeds, toldCredits]
      rw [List.flatMap_cons, List.map_append, List.sum_append, ih, here, List.map_cons,
        List.sum_cons]

/-- Whatever a run tells is in the store when it is told, and what it has told in the end is one
stream of events; a run that does not start tells nothing.
-/
theorem events_tell_run {settings : RunSettings} {token : Token} {before scene : Arena σ}
    {rest : RunM (Except SetupError RunOutcome)} (ours : mine execution)
    (run
      : (Arena.running mine).Reaches (execute settings execution token, before.anew) (rest, scene))
    (granted : ∀ happening ∈ scene.past, IsGranted happening)
    : (∀ event next,
        rest = Program.ask (RunCall.emit event) next
        → event.execution = execution ∧ Announced scene.store event)
      ∧ ∀ result,
          rest = .done result
          → (∃ standing reason,
              Books.standing? scene.store execution = some standing
              ∧ Refuses execution standing reason
              ∧ result = .error reason
              ∧ told scene.past = [])
            ∨ ∃ outcome standing,
                result = .ok outcome
                ∧ Stream settings.catalog execution (Books.roll before.store execution)
                    outcome.status outcome.credits (told scene.past)
                ∧ Books.standing? scene.store execution = some standing
                ∧ standing.status = outcome.status := by
  obtain ⟨charge, catalog, rfl, rfl, suits⟩ :=
    Charge.exists_suits settings.catalog execution token before.anew
  have safe := Charge.safe_execute ours catalog.symm suits
  refine ⟨?_, ?_⟩
  · rintro event next rfl
    have proper := (safe.reaches run _ (Realm.still _ _) _ _ (.emit event scene)).1
    exact ⟨proper.2, proper.1⟩
  · rintro result rfl
    cases safe.ended run with
    | faulted faulted =>
        obtain ⟨happening, member, refused⟩ := faulted
        exact absurd (granted happening member) refused
    | @refused _ stop _ refuses same held told begun holds =>
        obtain ⟨made, past, told', _⟩ := holds.past
        refine Or.inl ⟨_, _, held, refuses.flagged stop, same, ?_⟩
        · rw [past]
          exact told'.trans told
    | @concluded workflow startedAt concluded =>
        obtain ⟨ending, turns, rest, credits, stop, millis, time, order, went, same, holds⟩ :=
          concluded
        -- the queue is the roll as it was when the run began, each phase waiting
        have roll : (Books.roll before.store charge.execution).map waiting
            = turns.map Turn.phase ++ rest := suits.queue.symm.trans order
        have count : charge.queue.length = (Books.roll before.store charge.execution).length := by
          rw [suits.queue, List.length_map]
          rfl
        have pairs : Pairs settings.catalog charge.execution
            (Books.roll before.store charge.execution)
            (turns.flatMap (Turn.told settings.catalog charge.execution)) := by
          refine Pairs.of_waiting ?_
          rw [roll]
          exact went.pairs
        obtain ⟨stop', definition, held⟩ := holds.standing
        obtain ⟨made, past, told, _⟩ := holds.past
        refine Or.inr ⟨_, _, same, ?_, held, rfl⟩
        rw [past, Arena.anew, List.nil_append, told, Charge.closed, Charge.underway, count, catalog]
        refine .mk pairs fun fits => ?_
        rw [sum_toldCredits] at fits ⊢
        exact earned_of_fits fits

/-- A run that is stopped before its only phase tells its start and its end. -/
theorem events_tell_run_halted
    : ∃ (before later : Arena Memory) (outcome : RunOutcome),
        (Arena.running fun _ => True).Reaches
            (execute Lone.settings (Lone.execution Lone.flow.text).id ⟨0⟩, before.anew)
            (.done (.ok outcome), later)
        ∧ (∀ happening ∈ later.past, IsGranted happening)
        ∧ Stream Lone.settings.catalog (Lone.execution Lone.flow.text).id
            (Books.roll before.store (Lone.execution Lone.flow.text).id)
            outcome.status outcome.credits (told later.past) := by
  obtain ⟨sound, past, _⟩ := Lone.opened
  obtain ⟨flow, parsed, _⟩ := Service.planned_of_planOf Lone.planned
  obtain ⟨outcome, later, run, granted⟩ := Lone.halted parsed sound past
  refine ⟨_, later, outcome, run, granted, ?_⟩
  obtain ⟨_, ends⟩ := events_tell_run trivial run granted
  rcases ends _ rfl with ⟨_, _, _, _, refused, _⟩ | ⟨_, _, same, stream, _⟩
  · cases refused
  · cases same
    exact stream

end Run

end Harvest

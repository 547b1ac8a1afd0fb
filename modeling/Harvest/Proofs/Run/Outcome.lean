import Harvest.Proofs.Run.Stop

/-! What a run returns, against what it leaves on record. Its status and its credits are those that
are stored and its count is that of the phases it reached; of a stop it tells only what it had seen
itself, so that a stop which comes when no phase is left to look before is on record alone.
-/

namespace Harvest

namespace Run

open Realm

variable {σ : Type} [Ledger σ] {mine : Uuid → Prop} {execution : Uuid} {token : Token}

-----------------------------------------------------------------------------------------
-- Records that were stored
-----------------------------------------------------------------------------------------

/-- What the run has stored of the end of its execution, and of a stop, is on record still. -/
def Recorded (execution : Uuid) (arena : Arena σ) : Prop :=
  ∀ record,
    Marks record ∈ arena.past
    → (record.status.isTerminal → IsFinished execution arena.store)
      ∧ (record.stopRequested = true → IsStopped execution arena.store)

section

variable {charge : Charge} {before later : Arena σ}

theorem Recorded.drift (recorded : Recorded execution before) (ours : mine execution)
    (drifts : Arena.Drifts mine before later)
    : Recorded execution later := by
  intro record stored
  rw [drifts.past] at stored
  obtain ⟨ends, stops⟩ := recorded record stored
  exact ⟨fun terminal => drifts.isFinished ours (ends terminal),
    fun flag => (drifts.alone execution ours).isStopped (stops flag)⟩

/-- One more call of the run leaves what was on record, and puts on record what it stores. -/
theorem Recorded.reply (recorded : Recorded charge.execution before) {call : RunCall}
    {answer : call.Answer} (replies : Arena.Replies mine call before answer later)
    (proper : charge.Proper call before answer later)
    : Recorded charge.execution later := by
  intro record stored
  rw [replies.grows.2] at stored
  rcases List.mem_append.mp stored with early | last
  · obtain ⟨ends, stops⟩ := recorded record early
    refine ⟨fun terminal => ?_, fun flag => ?_⟩
    · have finished := ends terminal
      exact finished.unchanged (Arena.preserves_of_proper replies proper finished)
    · have given : Sign.IsGiven charge.execution charge.token .flag before := stops flag
      exact given.reply replies proper
  · cases List.mem_singleton.mp last
    have named : record.id = charge.execution := proper.1
    rcases replies.store_inv with ⟨_, _, _, _, effect⟩ | ⟨reason, refused, _⟩
    · obtain ⟨⟨old, kept, _, _, _, updated⟩, _⟩ := effect
      rw [named] at updated
      refine ⟨fun terminal => ⟨_, updated, terminal⟩, fun flag => ⟨_, updated, ?_⟩⟩
      rw [flag, Bool.or_true]
    · cases refused

/-- Whatever a run has stored is on record at every state that it reaches, by induction over its
steps.
-/
theorem recorded_of_reaches (ours : mine charge.execution) {α : Type} {program rest : RunM α}
    {wanted : α → Arena σ → Prop}
    (safe : (Arena.running mine).Safe charge.Proper wanted program before)
    (fresh : before.past = [])
    (run : (Arena.running mine).Reaches (program, before) (rest, later))
    : Recorded charge.execution later := by
  refine safe.preserved (Recorded charge.execution) ?_ ?_ ?_ run
  · exact fun drifts recorded => recorded.drift ours drifts
  · exact fun replies proper recorded => recorded.reply replies proper
  · intro record stored
    rw [fresh] at stored
    cases stored

end

-----------------------------------------------------------------------------------------
-- What is returned
-----------------------------------------------------------------------------------------

/-- The turns of a walk leave their phases completed or failed. -/
theorem Turn.isTerminal_entry (catalog : Catalog) (turn : Turn)
    : (turn.entry catalog).status.isTerminal := by
  unfold Turn.entry
  cases turn.verdict.succeeds <;> rfl

theorem Turn.settled_entry (catalog : Catalog) (turn : Turn)
    : (turn.entry catalog).status ≠ .running := by
  intro running
  have terminal := turn.isTerminal_entry catalog
  rw [running] at terminal
  cases terminal

/-- What an outcome says of an execution is on record. The phases that were reached are brought to
their end and the others wait as they were found; a stop that is told is stored, and no stop is
told only when all phases were reached or one of them failed.
-/
structure OnRecord (execution : Uuid) (outcome : RunOutcome) (found : List Entry) (store : σ)
    (reached : List Entry) : Prop where
  standing
    : ∃ standing,
        Books.standing? store execution = some standing
        ∧ standing.status = outcome.status
        ∧ standing.credits = outcome.credits
        ∧ (outcome.stopRequested = true → standing.stopRequested = true)
  roll
    : Books.roll store execution = reached ++ (found.drop outcome.phasesRun).map waiting
  count : reached.length = outcome.phasesRun
  ended : ∀ entry ∈ reached, entry.status.isTerminal
  unstopped
    : outcome.stopRequested = false
      → outcome.phasesRun = found.length ∨ ∃ entry ∈ reached, entry.status = .failed

/-- Where no phase had ended before, the outcome counts the phases that have ended. -/
theorem OnRecord.phasesRun_eq {outcome : RunOutcome} {found reached : List Entry} {store : σ}
    (onRecord : OnRecord execution outcome found store reached)
    (unfinished : ∀ entry ∈ found, ¬ entry.status.isTerminal)
    : (Books.roll store execution).countP (fun entry => entry.status.isTerminal)
      = outcome.phasesRun := by
  have ended : reached.countP (fun entry => entry.status.isTerminal) = reached.length :=
    List.countP_eq_length.mpr onRecord.ended
  have waits : ((found.drop outcome.phasesRun).map waiting).countP
      (fun entry => entry.status.isTerminal) = 0 := by
    refine List.countP_eq_zero.mpr fun entry member => ?_
    obtain ⟨old, here, rfl⟩ := List.mem_map.mp member
    have open' := unfinished old (List.mem_of_mem_drop here)
    unfold waiting Entry.moved
    split
    · exact nofun
    · exact open'
  rw [onRecord.roll, List.countP_append, ended, waits, onRecord.count, Nat.add_zero]

/-- What a run returns is what it leaves on record when no call was refused, whenever a stop is
asked for and whatever its phases do.
-/
theorem outcome_on_record {settings : RunSettings} {before later : Arena σ} {outcome : RunOutcome}
    (ours : mine execution)
    (run
      : (Arena.running mine).Reaches (execute settings execution token, before.anew)
          (.done (.ok outcome), later))
    (granted : ∀ happening ∈ later.past, IsGranted happening)
    : (∃ reached,
        OnRecord execution outcome (Books.roll before.store execution) later.store reached)
      ∧ ((∀ entry ∈ Books.roll before.store execution, ¬ entry.status.isTerminal)
        → (Books.roll later.store execution).countP (fun entry => entry.status.isTerminal)
          = outcome.phasesRun) := by
  suffices ∃ reached,
      OnRecord execution outcome (Books.roll before.store execution) later.store reached by
    obtain ⟨reached, onRecord⟩ := this
    exact ⟨⟨reached, onRecord⟩, onRecord.phasesRun_eq⟩
  obtain ⟨charge, catalog, rfl, rfl, suits⟩ :=
    Charge.exists_suits settings.catalog execution token before.anew
  have safe := Charge.safe_execute ours catalog.symm suits
  have recorded := recorded_of_reaches ours safe rfl run
  cases safe.ended run with
  | faulted faulted =>
      obtain ⟨happening, member, refused⟩ := faulted
      exact absurd (granted happening member) refused
  | refused _ same => cases same
  | concluded concluded flagged =>
      obtain ⟨ending, turns, rest, credits, stop, millis, time, order, went, same, holds⟩ :=
        concluded
      have flagged := flagged outcome rfl
      cases same
      obtain ⟨stop', definition, held⟩ := holds.standing
      have length : (turns.map (Turn.entry charge.catalog)).length = turns.length :=
        List.length_map _
      have behind : ((Books.roll before.store charge.execution).drop turns.length).map waiting
          = rest := by
        have queue : (Books.roll before.store charge.execution).map waiting
            = turns.map Turn.phase ++ rest := suits.queue.symm.trans order
        rw [List.map_drop, queue, List.drop_left' (List.length_map _)]
      refine ⟨turns.map (Turn.entry charge.catalog), ⟨_, held, rfl, rfl, fun told => ?_⟩, ?_,
        length, ?_, fun unstopped => ?_⟩
      · obtain ⟨record, stored, flag⟩ := flagged.recorded
        obtain ⟨standing, held', stopped⟩ := (recorded record stored).2 (flag.trans told)
        rw [held, Option.some.injEq] at held'
        exact held' ▸ stopped
      · exact behind ▸ holds.roll
      · intro entry member
        obtain ⟨turn, _, rfl⟩ := List.mem_map.mp member
        exact turn.isTerminal_entry charge.catalog
      · refine (flagged.left unstopped).imp (fun all => ?_) fun ⟨entry, reached, failed⟩ => ?_
        · rw [all, suits.queue, List.length_map]
          rfl
        · rw [holds.roll] at reached
          change entry ∈ (turns.map (Turn.entry charge.catalog) ++ rest).take turns.length
            at reached
          rw [List.take_left' length] at reached
          exact ⟨entry, reached, failed⟩

/-- A run that is stopped before its only phase tells that it was stopped and that it reached no
phase, and so it is on record.
-/
theorem outcome_on_record_halted
    : ∃ (before later : Arena Memory) (outcome : RunOutcome) (reached : List Entry),
        (Arena.running fun _ => True).Reaches
            (execute Lone.settings (Lone.execution Lone.flow.text).id ⟨0⟩, before.anew)
            (.done (.ok outcome), later)
        ∧ (∀ happening ∈ later.past, IsGranted happening)
        ∧ OnRecord (Lone.execution Lone.flow.text).id outcome
            (Books.roll before.store (Lone.execution Lone.flow.text).id) later.store reached := by
  obtain ⟨sound, past, _⟩ := Lone.opened
  obtain ⟨flow, parsed, _⟩ := Service.planned_of_planOf Lone.planned
  obtain ⟨outcome, later, run, granted⟩ := Lone.halted parsed sound past
  obtain ⟨⟨reached, onRecord⟩, _⟩ := outcome_on_record trivial run granted
  exact ⟨_, later, outcome, reached, run, granted, onRecord⟩

end Run

end Harvest

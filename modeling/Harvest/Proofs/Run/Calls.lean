import Harvest.Proofs.Run.Stage

/-! What the calls of a run make of the stage it is at. Calls outside the store leave it, and so
does reading; each write of a run takes the stage to the next one.
-/

namespace Harvest.Run

open Realm Program

/-- The run has moved its phases on from their creation. -/
def HasQueued (execution : Uuid) (scene : Scene) : Prop :=
  ∃ answer,
    (⟨.store (.setPhaseStatuses execution .created .pending), answer⟩ : Happening runCalls)
    ∈ scene.past

section

variable (settings : RunSettings) (flow : Flow) (execution : Execution)
  (phases : List PhaseRecord)

/-- The scene is at a stage: the store shows its records, and the calls that it speaks of have
been made.
-/
structure Stage.Holds (stage : Stage) (scene : Scene) : Prop where
  shown : scene.Shows (stage.record settings execution) (stage.records settings phases)
  sound : stage.Sound settings flow phases
  queued : HasQueued execution.id scene ↔ stage.IsQueued
  called : ∀ visit ∈ stage.visits, visit.calls <:+: scene.past

/-- A call of a run leaves the stage or takes it to the next one. -/
def Advances (call : RunCall) (before : Scene) (_ : call.Answer) (after : Scene) : Prop :=
  ∃ stage next : Stage,
    stage.Holds settings flow execution phases before
    ∧ next.Holds settings flow execution phases after
    ∧ (next = stage ∨ stage.Next next)

/-- The store grants a call, and leaves a stage. -/
def Grants (scene : Scene) (call : StoreCall) (expected : call.Result → Prop) (next : Stage)
    : Prop :=
  ∃ result store,
    Memory.answer call scene.store = (.ok result, store)
    ∧ expected result
    ∧ next.Holds settings flow execution phases
        { scene.after (.store call) (.ok result) with store := store }

end

namespace Stage

variable {settings : RunSettings} {flow : Flow} {execution : Execution}
  {phases : List PhaseRecord} {stage next : Stage} {scene later : Scene}

/-- The identifier of the execution is the same at all stages. -/
@[simp] theorem record_id (stage : Stage)
    : (stage.record settings execution).id = execution.id := by
  cases stage <;> rfl

namespace Holds

/-- Others leave the stage. -/
theorem drift (holds : stage.Holds settings flow execution phases scene)
    (drifts : Scene.Drifts scene later)
    : stage.Holds settings flow execution phases later where
  shown := holds.shown.drift drifts
  sound := holds.sound
  queued := by
    unfold HasQueued
    rw [drifts.past]
    exact holds.queued
  called visit member := drifts.past ▸ holds.called visit member

/-- A call takes the scene to a stage whose records the store shows then, unless it is the one
that makes the phases wait.
-/
theorem move (holds : stage.Holds settings flow execution phases scene) {call : RunCall}
    {answer : call.Answer} (past : later.past = scene.past ++ [⟨call, answer⟩])
    (other : call ≠ .store (.setPhaseStatuses execution.id .created .pending))
    (shown : later.Shows (next.record settings execution) (next.records settings phases))
    (sound : next.Sound settings flow phases) (queued : next.IsQueued ↔ stage.IsQueued)
    (called : ∀ visit ∈ next.visits, visit ∈ stage.visits ∨ visit.calls <:+: scene.past)
    : next.Holds settings flow execution phases later where
  shown := shown
  sound := sound
  queued := by
    rw [queued, ← holds.queued]
    unfold HasQueued
    constructor
    · rintro ⟨result, member⟩
      rw [past, List.mem_append, List.mem_singleton] at member
      rcases member with old | new
      · exact ⟨result, old⟩
      · cases new
        exact absurd rfl other
    · rintro ⟨result, member⟩
      exact ⟨result, past ▸ List.mem_append_left _ member⟩
  called visit member := by
    have earlier : visit.calls <:+: scene.past := by
      rcases called visit member with old | new
      · exact holds.called visit old
      · exact new
    exact past ▸ earlier.trans (List.prefix_append _ _).isInfix

/-- A call leaves the stage when it keeps what the store shows. -/
theorem after (holds : stage.Holds settings flow execution phases scene) {call : RunCall}
    {answer : call.Answer} (past : later.past = scene.past ++ [⟨call, answer⟩])
    (other : call ≠ .store (.setPhaseStatuses execution.id .created .pending))
    (shown : later.Shows (stage.record settings execution) (stage.records settings phases))
    : stage.Holds settings flow execution phases later :=
  holds.move past other shown holds.sound Iff.rfl fun _ member => Or.inl member

/-- The execution is read as the store holds it. -/
theorem getExecution (holds : stage.Holds settings flow execution phases scene)
    : Grants settings flow execution phases scene (.getExecution execution.id)
        (fun read => ∃ stop, read = (stage.record settings execution).flagged stop) stage := by
  obtain ⟨stop, answered⟩ := holds.shown.stored.getExecution
  rw [record_id] at answered
  exact ⟨_, _, answered, ⟨stop, rfl⟩,
    holds.after rfl (by simp) (holds.shown.after _ _)⟩

/-- The phases are listed as they were created. -/
theorem listPhases (holds : Stage.created.Holds settings flow execution phases scene)
    (fresh : IsFresh execution phases)
    : Grants settings flow execution phases scene (.listPhases execution.id) (· = phases)
        .created :=
  ⟨_, _, holds.shown.stored.listPhases fresh.sorted, rfl,
    holds.after rfl (by simp) (holds.shown.after _ _)⟩

/-- Log entries of a phase leave the stage. -/
theorem appendLogs (holds : stage.Holds settings flow execution phases scene)
    {record : PhaseRecord} (member : record ∈ stage.records settings phases)
    (entries : List LogEntry)
    : Grants settings flow execution phases scene (.appendLogs record.id entries) (fun _ => True)
        stage := by
  obtain ⟨store, answered, shown⟩ := holds.shown.stored.appendLogs member entries
  exact ⟨_, _, answered, trivial, holds.after rfl (by simp) ⟨shown, holds.shown.ours⟩⟩

/-- A record of the execution is written that takes the run to the next stage. -/
theorem updateExecution (holds : stage.Holds settings flow execution phases scene)
    (unfinished : ¬ (stage.record settings execution).status.isTerminal) {written : Execution}
    {stop : Bool} (fits : written = (next.record settings execution).flagged stop)
    (records : next.records settings phases = stage.records settings phases)
    (sound : next.Sound settings flow phases) (queued : next.IsQueued ↔ stage.IsQueued)
    (visits : next.visits = stage.visits)
    : Grants settings flow execution phases scene (.updateExecution written) (fun _ => True)
        next := by
  subst fits
  have same : ((next.record settings execution).flagged stop).id
      = (stage.record settings execution).id := by
    simp [Execution.flagged]
  obtain ⟨store, answered, shown⟩ := holds.shown.stored.updateExecution unfinished same
  refine ⟨_, _, answered, trivial, holds.move rfl (by simp) ⟨?_, ?_⟩ sound queued ?_⟩
  · exact records ▸ shown.of_flagged
  · have ours := holds.shown.ours
    rw [record_id] at ours ⊢
    rw [records]
    exact ours
  · exact fun visit member => Or.inl (visits ▸ member)

/-- The phases wait for their turn. -/
theorem queue {time : Time.Instant}
    (holds : (Stage.marked time).Holds settings flow execution phases scene)
    (fresh : IsFresh execution phases)
    : Grants settings flow execution phases scene
        (.setPhaseStatuses execution.id .created .pending) (fun _ => True)
        (.between time [] phases) := by
  obtain ⟨count, store, answered, shown⟩ :=
    holds.shown.stored.setPhaseStatuses .pending fun phase member =>
      (fresh.created phase member).1
  refine ⟨_, _, answered, trivial, ⟨⟨?_, ?_⟩, .between .start rfl, ?_, by simp [visits]⟩⟩
  · have record : (between time [] phases).record settings execution
        = (marked time).record settings execution := by
      simp [Stage.record, record.counted, total, ← fresh.unpaid]
    rw [record]
    exact shown
  · have ours := holds.shown.ours
    simpa [Stage.records, Run.queued, Scene.after] using ours
  · exact ⟨fun _ => trivial, fun _ => ⟨.ok count, by simp [Scene.after]⟩⟩

/-- The record of a phase is written that takes the run to the next stage. -/
theorem updatePhase (holds : stage.Holds settings flow execution phases scene)
    (before after : List PhaseRecord) (old : PhaseRecord) {written : PhaseRecord}
    (here : stage.records settings phases = before ++ old :: after)
    (there : next.records settings phases = before ++ written :: after)
    (unfinished : ¬ old.status.isTerminal) (same : written.id = old.id)
    (owner : written.executionId = old.executionId)
    (record : next.record settings execution = stage.record settings execution)
    (sound : next.Sound settings flow phases) (queued : next.IsQueued ↔ stage.IsQueued)
    (called : ∀ visit ∈ next.visits, visit ∈ stage.visits ∨ visit.calls <:+: scene.past)
    : Grants settings flow execution phases scene (.updatePhase written) (fun _ => True)
        next := by
  have stored := holds.shown.stored
  rw [here] at stored
  obtain ⟨store, answered, shown⟩ := stored.updatePhase unfinished same owner
  refine ⟨_, _, answered, trivial, holds.move rfl (by simp) ⟨?_, ?_⟩ sound queued called⟩
  · rw [record, there]
    exact shown
  · have ours := holds.shown.ours
    have ids : (next.records settings phases).map (·.id)
        = (stage.records settings phases).map (·.id) := by
      simp [here, there, same]
    rw [record, ids]
    exact ours

end Holds

end Stage

-----------------------------------------------------------------------------------------
-- Parts of a run
-----------------------------------------------------------------------------------------

section

variable {settings : RunSettings} {flow : Flow} {execution : Execution}
  {phases : List PhaseRecord} {stage : Stage} {scene : Scene} {α β : Type}

/-- A part that calls nothing inside the store leaves the stage, and its calls are the last
that were made; by induction over the part.
-/
theorem safe_of_only {part : RunM α} (only : part.Only RunCall.IsOutside)
    (holds : stage.Holds settings flow execution phases scene)
    : runRealm.Safe (Advances settings flow execution phases)
        (fun value later =>
          stage.Holds settings flow execution phases later
          ∧ ∃ calls, part.Ends calls value ∧ later.past = scene.past ++ calls)
        part scene := by
  induction only generalizing scene with
  | done value =>
      intro later drifts
      exact ⟨holds.drift drifts, [], .done value, by simp [drifts.past]⟩
  | @ask call rest here _ ih =>
      intro before drifts answer after replies
      obtain rfl := replies.outside_inv here
      have kept := holds.drift drifts
      have other : call ≠ .store (.setPhaseStatuses execution.id .created .pending) := by
        rintro rfl
        exact here
      have holds' : stage.Holds settings flow execution phases (before.after call answer) :=
        kept.after rfl other (kept.shown.after call answer)
      refine ⟨⟨stage, stage, kept, holds', Or.inl rfl⟩, (ih answer holds').mono id ?_⟩
      rintro value later ⟨holds'', calls, ends, past⟩
      refine ⟨holds'', ⟨call, answer⟩ :: calls, .ask ends, ?_⟩
      simp [past, Scene.after, drifts.past]

/-- A part outside the store may come before a safe one. -/
theorem safe_outside {wanted : β → Scene → Prop} {part : RunM α}
    (only : part.Only RunCall.IsOutside)
    (holds : stage.Holds settings flow execution phases scene) {rest : α → RunM β}
    (safe
      : ∀ value calls later,
          part.Ends calls value
          → later.past = scene.past ++ calls
          → stage.Holds settings flow execution phases later
          → runRealm.Safe (Advances settings flow execution phases) wanted (rest value) later)
    : runRealm.Safe (Advances settings flow execution phases) wanted (part.bind rest) scene := by
  refine (safe_of_only only holds).followed ?_
  rintro value later ⟨holds', calls, ends, past⟩
  exact safe value calls later ends past holds'

/-- A call that the store grants may come before a safe part. -/
theorem safe_granted {wanted : β → Scene → Prop} (call : StoreCall) (next : Stage)
    (expected : call.Result → Prop)
    (holds : stage.Holds settings flow execution phases scene)
    (grants
      : ∀ before,
          before.past = scene.past
          → stage.Holds settings flow execution phases before
          → Grants settings flow execution phases before call expected next)
    (advance : next = stage ∨ stage.Next next) {rest : call.Answer → RunM β}
    (safe
      : ∀ result later,
          expected result
          → next.Holds settings flow execution phases later
          → runRealm.Safe (Advances settings flow execution phases) wanted (rest (.ok result))
              later)
    : runRealm.Safe (Advances settings flow execution phases) wanted
        ((RunM.store call).bind rest) scene := by
  intro before drifts answer after replies
  have kept := holds.drift drifts
  obtain ⟨result, store, answered, fits, holds'⟩ := grants before drifts.past kept
  obtain ⟨rfl, rfl⟩ := replies.store_inv
  rw [answered]
  exact ⟨⟨stage, next, kept, holds', advance⟩, safe result _ fits holds'⟩

end

end Harvest.Run

import Harvest.Proofs.Run.Calls
import Harvest.Proofs.Run.Parts

/-! What a run makes of one phase. The phase is started in the prepared environment, its work is
done outside the store, and it is finished with the environment that the work left.
-/

namespace Harvest

/-- A quiet call is a call outside the store. -/
theorem RunCall.IsQuiet.isOutside {call : RunCall} (quiet : call.IsQuiet) : call.IsOutside := by
  cases call with
  | task _ => trivial
  | uptime => trivial
  | _ => exact quiet.elim

namespace Run

open Realm Program RunM

-----------------------------------------------------------------------------------------
-- The work of a phase
-----------------------------------------------------------------------------------------

/-- A call outside the store is a part outside the store. -/
theorem ask_only (call : RunCall) (outside : call.IsOutside)
    : (RunM.ask call).Only RunCall.IsOutside :=
  .ask outside .done

/-- Telling something at the present time is a part outside the store. -/
theorem tell_only (event : Time.Instant → Event)
    : (now >>= fun time => emit (event time)).Only RunCall.IsOutside :=
  (ask_only (.task .now) trivial).bind fun time => ask_only (.emit (event time)) trivial

/-- Error entries are made outside the store. -/
theorem errorEntries_only (messages : List String)
    : (errorEntries messages).Only RunCall.IsOutside :=
  (errorEntries_quiet messages).mono fun _ => RunCall.IsQuiet.isOutside

/-- The work of a phase is done outside the store, whatever its task does. -/
theorem perform_only (settings : RunSettings) (phase : PhaseRecord) (node : Json.Decoded Node)
    (log : Log) (env : Environment)
    : (perform settings phase node log env).Only RunCall.IsOutside :=
  (perform_quiet settings phase node log env).mono fun _ => RunCall.IsQuiet.isOutside

/-- The store decides about an asked call within the loop; then the loop goes on. -/
theorem safe_stored {settings : RunSettings} {flow : Flow} {execution : Execution}
    {phases : List PhaseRecord} {stage : Stage} {scene : Scene} {env : Environment} {α : Type}
    {wanted : Except StoreError α × Environment → Scene → Prop} {call : StoreCall} (next : Stage)
    (expected : call.Result → Prop)
    (holds : stage.Holds settings flow execution phases scene)
    (grants
      : ∀ before,
          before.past = scene.past
          → stage.Holds settings flow execution phases before
          → Grants settings flow execution phases before call expected next)
    (advance : next = stage ∨ stage.Next next) {rest : call.Result → LoopM α}
    (safe
      : ∀ result later,
          expected result
          → next.Holds settings flow execution phases later
          → runRealm.Safe (Advances settings flow execution phases) wanted
              (LoopM.on (rest result) env) later)
    : runRealm.Safe (Advances settings flow execution phases) wanted
        (LoopM.on (stored call >>= rest) env) scene :=
  safe_granted call next expected holds grants advance safe

/-- A phase that is run is started and finished in the store, with the environments around its
work.
-/
theorem safe_runPhase {settings : RunSettings} {flow : Flow} {execution : Execution}
    {phases : List PhaseRecord} {time : Time.Instant} {visits : List Visit} {phase : PhaseRecord}
    {rest : List PhaseRecord} {env : Environment} {scene : Scene}
    (walked : Walked settings flow visits env)
    (order : phases = visits.map (·.phase) ++ phase :: rest)
    (holds
      : (Stage.between time visits (phase :: rest)).Holds settings flow execution phases scene)
    : runRealm.Safe (Advances settings flow execution phases)
        (fun result later =>
          ∃ visit : Visit,
            visit.phase = phase
            ∧ Visited settings flow env visit
            ∧ result = (.ok (visit.success, visit.cost settings.catalog), visit.left)
            ∧ (Stage.behind time visits visit rest).Holds settings flow execution phases later)
        (LoopM.on (runPhase settings flow phase) env) scene := by
  let opened := prepared settings.catalog flow phase env
  unfold runPhase
  rw [on_inLoop_bind]
  refine safe_outside (ask_only .uptime trivial) holds fun start _ scene _ _ holds => ?_
  rw [on_modifyGet_bind, on_inLoop_bind]
  refine safe_outside (errorEntries_only _) holds fun log _ scene _ _ holds => ?_
  rw [on_get_bind, on_inLoop_bind]
  refine safe_outside (ask_only (.task .now) trivial) holds fun startedAt _ scene _ _ holds => ?_
  let opening : Opening := ⟨phase, opened, startedAt⟩
  -- the record that says that the phase runs
  refine safe_stored (.within time visits opening rest) (fun _ => True) holds ?_
    (Or.inr (.start time visits opening rest)) ?_
  · intro before _ holds
    have open' : ¬ PhaseStatus.pending.isTerminal := by decide
    exact holds.updatePhase (visits.map _) (rest.map queued) (queued phase) rfl rfl open'
      rfl rfl rfl (.within walked rfl order) Iff.rfl fun visit member => Or.inl member
  intro _ scene _ holds
  rw [on_inLoop_bind]
  refine safe_outside (tell_only fun _ => _) holds fun _ _ scene _ _ holds => ?_
  rw [on_inLoop_bind]
  refine safe_outside (perform_only _ _ _ _ _) holds ?_
  rintro ⟨success, log', left⟩ calls worked performed past holds
  rw [on_bind]
  change runRealm.Safe _ _ (LoopM.on (inLoop now >>= _) left) _
  rw [on_inLoop_bind]
  refine safe_outside (ask_only (.task .now) trivial) holds
    fun completedAt last scene _ past' holds => ?_
  let visit : Visit := ⟨opening, calls, success, log', left, completedAt⟩
  have visited : Visited settings flow env visit := ⟨rfl, log, performed⟩
  have called : visit.calls <:+: scene.past := ⟨_, last, by rw [past', past]⟩
  -- the record that says how the phase ended
  refine safe_stored (.behind time visits visit rest) (fun _ => True) holds ?_
    (Or.inr (.finish time visits visit rest)) ?_
  · intro before same holds
    have open' : ¬ PhaseStatus.running.isTerminal := by decide
    refine holds.updatePhase (visits.map _) (rest.map queued) opening.running rfl rfl open'
      rfl rfl rfl (.behind walked visited order) Iff.rfl fun other member => ?_
    rcases List.mem_append.mp member with early | last
    · exact Or.inl early
    · exact Or.inr (List.mem_singleton.mp last ▸ same ▸ called)
  intro _ scene _ holds
  refine safe_stored (.behind time visits visit rest) (fun _ => True) holds ?_ (Or.inl rfl) ?_
  · intro before _ holds
    have member : visit.finished settings.catalog
        ∈ (Stage.behind time visits visit rest).records settings phases := by
      simp [Stage.records]
    exact holds.appendLogs member _
  intro _ scene _ holds
  rw [on_inLoop_bind]
  refine safe_outside (ask_only .uptime trivial) holds fun _ _ scene _ _ holds => ?_
  rw [on_inLoop_bind]
  refine safe_outside ?_ holds fun _ _ scene _ _ holds => ?_
  · refine (ask_only (.task .now) trivial).bind fun time => ?_
    cases success <;> exact ask_only (.emit _) trivial
  · refine safe_done ?_ ⟨visit, rfl, visited, rfl, holds⟩
    rintro _ _ drifts ⟨visit, same, visited, value, holds⟩
    exact ⟨visit, same, visited, value, holds.drift drifts⟩

end Run

end Harvest

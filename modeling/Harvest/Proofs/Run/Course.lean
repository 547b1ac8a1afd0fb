import Harvest.Proofs.Run.Phase

/-! The course of a whole run. Whatever its tasks do and whenever it is asked to stop, a run
passes from stage to stage until its execution has ended.
-/

namespace Harvest.Run

open Realm Program RunM

variable {settings : RunSettings} {flow : Flow} {execution : Execution}
  {phases : List PhaseRecord} {stage : Stage} {scene : Scene} {time : Time.Instant}
  {visits : List Visit} {rest : List PhaseRecord} {env : Environment} {α : Type}

/-- A further visit adds its cost. -/
theorem total_append (catalog : Catalog) (visits : List Visit) (visit : Visit)
    : total catalog (visits ++ [visit])
      = addCredits (total catalog visits) (visit.cost catalog) := by
  simp [total]

-----------------------------------------------------------------------------------------
-- The walk over the phases
-----------------------------------------------------------------------------------------

/-- Looking for a request to stop leaves the stage. -/
theorem safe_stopRequested (holds : stage.Holds settings flow execution phases scene)
    (token : Token) (env : Environment)
    : runRealm.Safe (Advances settings flow execution phases)
        (fun result later =>
          ∃ stop : Bool,
            result = (.ok stop, env) ∧ stage.Holds settings flow execution phases later)
        (LoopM.on (stopRequested execution.id token) env) scene := by
  have ended (stop : Bool) {scene : Scene}
      (holds : stage.Holds settings flow execution phases scene)
      : runRealm.Safe (Advances settings flow execution phases)
          (fun result later =>
            ∃ stop : Bool,
              result = (.ok stop, env) ∧ stage.Holds settings flow execution phases later)
          (LoopM.on (pure stop) env) scene :=
    safe_done (fun drifts ⟨stop, value, holds⟩ => ⟨stop, value, holds.drift drifts⟩)
      ⟨stop, rfl, holds⟩
  unfold stopRequested
  rw [on_inLoop_bind]
  refine safe_outside (ask_only (.isCancelled token) trivial) holds
    fun cancelled _ scene _ _ holds => ?_
  cases cancelled with
  | true => exact ended true holds
  | false =>
      refine safe_stored stage (fun _ => True) holds ?_ (Or.inl rfl) fun current scene _ holds => ?_
      · intro before _ holds
        obtain ⟨result, store, answered, _, holds⟩ := holds.getExecution
        exact ⟨result, store, answered, trivial, holds⟩
      · exact ended _ holds

/-- What a walk over the phases comes to: all are visited, the last visited one failed, or the
run was asked to stop before the next one.
-/
inductive Arrives (settings : RunSettings) (flow : Flow) (execution : Execution)
    (phases : List PhaseRecord) (time : Time.Instant)
    : Summary → Scene → Prop where
  | finished {visits : List Visit} {scene : Scene}
      (holds : (Stage.between time visits []).Holds settings flow execution phases scene)
      : Arrives settings flow execution phases time
          ⟨.finished, total settings.catalog visits, visits.length⟩ scene
  | failed {visits : List Visit} {visit : Visit} {rest : List PhaseRecord} {scene : Scene}
      (holds : (Stage.behind time visits visit rest).Holds settings flow execution phases scene)
      (fails : visit.success = false)
      : Arrives settings flow execution phases time
          ⟨.failed, total settings.catalog (visits ++ [visit]), (visits ++ [visit]).length⟩ scene
  | stopped {visits : List Visit} {rest : List PhaseRecord} {scene : Scene}
      (holds : (Stage.between time visits rest).Holds settings flow execution phases scene)
      (left : rest ≠ [])
      : Arrives settings flow execution phases time
          ⟨.stopped, total settings.catalog visits, visits.length⟩ scene

/-- Others leave what a walk came to. -/
theorem Arrives.drift {summary : Summary} {later : Scene}
    (arrives : Arrives settings flow execution phases time summary scene)
    (drifts : Scene.Drifts scene later)
    : Arrives settings flow execution phases time summary later := by
  cases arrives with
  | finished holds => exact .finished (holds.drift drifts)
  | failed holds fails => exact .failed (holds.drift drifts) fails
  | stopped holds left => exact .stopped (holds.drift drifts) left

/-- A part outside the store leaves what a walk came to. -/
theorem Arrives.outside {summary : Summary} {β : Type} {part : RunM α}
    (arrives : Arrives settings flow execution phases time summary scene)
    (only : part.Only RunCall.IsOutside) {next : α → RunM β} {wanted : β → Scene → Prop}
    (safe
      : ∀ {value} later,
          Arrives settings flow execution phases time summary later
          → runRealm.Safe (Advances settings flow execution phases) wanted (next value) later)
    : runRealm.Safe (Advances settings flow execution phases) wanted (part.bind next) scene := by
  cases arrives with
  | finished holds =>
      exact safe_outside only holds fun _ _ later _ _ holds => safe later (.finished holds)
  | failed holds fails =>
      exact safe_outside only holds fun _ _ later _ _ holds => safe later (.failed holds fails)
  | stopped holds left =>
      exact safe_outside only holds fun _ _ later _ _ holds => safe later (.stopped holds left)

/-- The walk visits the phases in order until it arrives, by induction over the phases that are
left.
-/
theorem safe_runPhases {known : Execution} {stop : Bool}
    (same : known = ((Stage.marked time).record settings execution).flagged stop) (token : Token)
    (walked : Walked settings flow visits env) (order : phases = visits.map (·.phase) ++ rest)
    (holds : (Stage.between time visits rest).Holds settings flow execution phases scene)
    : runRealm.Safe (Advances settings flow execution phases)
        (fun result later =>
          ∃ summary left,
            result = (.ok summary, left)
            ∧ Arrives settings flow execution phases time summary later)
        (LoopM.on (runPhases settings known flow token (total settings.catalog visits)
          visits.length rest) env) scene := by
  have arrived {summary : Summary} {env : Environment} {scene : Scene}
      (arrives : Arrives settings flow execution phases time summary scene)
      : runRealm.Safe (Advances settings flow execution phases)
          (fun result later =>
            ∃ summary left,
              result = (.ok summary, left)
              ∧ Arrives settings flow execution phases time summary later)
          (LoopM.on (pure summary) env) scene :=
    safe_done (fun drifts ⟨summary, left, value, arrives⟩ =>
      ⟨summary, left, value, arrives.drift drifts⟩) ⟨summary, env, rfl, arrives⟩
  induction rest generalizing visits env scene with
  | nil => exact arrived (.finished holds)
  | cons phase rest ih =>
      have asked := safe_stopRequested holds token env
      rw [show execution.id = known.id by subst same; rfl] at asked
      unfold runPhases
      rw [on_bind]
      refine asked.followed ?_
      rintro _ scene ⟨stopped, rfl, holds⟩
      cases stopped with
      | true => exact arrived (.stopped holds (by simp))
      | false =>
          change runRealm.Safe _ _ (LoopM.on (runPhase settings flow phase >>= _) env) _
          rw [on_bind]
          refine (safe_runPhase walked order holds).followed ?_
          rintro _ scene ⟨visit, rfl, visited, rfl, holds⟩
          have credits := total_append settings.catalog visits visit
          have count : (visits ++ [visit]).length = visits.length + 1 := List.length_append
          cases succeeds : visit.success with
          | false =>
              have arrives := Arrives.failed holds succeeds
              rw [credits, count] at arrives
              exact arrived arrives
          | true =>
              let next : Stage := .between time (visits ++ [visit]) rest
              have order' : phases = (visits ++ [visit]).map (·.phase) ++ rest := by simp [order]
              have walked' : Walked settings flow (visits ++ [visit]) visit.left :=
                walked.visit visited succeeds
              refine safe_stored next (fun _ => True) holds ?_
                (Or.inr (.count time visits visit rest)) fun _ scene _ holds => ?_
              · intro before _ holds
                have fits : { known with
                      status := .running
                      credits := addCredits (total settings.catalog visits)
                        (visit.cost settings.catalog) }
                    = (next.record settings execution).flagged stop := by
                  subst same
                  rw [← credits]
                  rfl
                refine holds.updateExecution ?_ fits ?_ (.between walked' order') Iff.rfl rfl
                · exact (by decide : ¬ ExecutionStatus.running.isTerminal)
                · simp [next, Stage.records]
              · have safe := ih walked' order' holds
                rw [credits, count] at safe
                exact safe

-----------------------------------------------------------------------------------------
-- The ends of a run
-----------------------------------------------------------------------------------------

/-- Telling a workflow of its run leaves the stage, whether or not the workflow takes note. -/
theorem safe_noteLastRun (holds : stage.Holds settings flow execution phases scene)
    (record : Execution) (status : ExecutionStatus) {rest : Unit → RunM α}
    {wanted : α → Scene → Prop}
    (safe
      : ∀ later,
          stage.Holds settings flow execution phases later
          → runRealm.Safe (Advances settings flow execution phases) wanted (rest ()) later)
    : runRealm.Safe (Advances settings flow execution phases) wanted
        ((noteLastRun record status).bind rest) scene := by
  intro before drifts answer after replies
  have kept := holds.drift drifts
  obtain ⟨_, rfl⟩ := replies.store_inv
  let call : StoreCall := .recordLastRunStatus record.workflowId record.id status
  have noted : stage.Holds settings flow execution phases
      { before.after (.store call) answer with store := (Memory.answer call before.store).2 } :=
    kept.after rfl (by simp [call])
      ⟨kept.shown.stored.recordLastRunStatus _ _ _, kept.shown.ours⟩
  exact ⟨⟨stage, stage, kept, noted, Or.inl rfl⟩, safe _ noted⟩

/-- Writing the end of an execution takes the run to its last stage. -/
theorem safe_finalize {known : Execution} {stop : Bool}
    (same : known = ((Stage.marked time).record settings execution).flagged stop)
    (holds : stage.Holds settings flow execution phases scene) (status : ExecutionStatus)
    (stopped : Bool) (start : Nat)
    (unfinished : ¬ (stage.record settings execution).status.isTerminal)
    (advance : ∀ at', stage.Next (.ended time visits rest ⟨status, at', stopped⟩))
    (sound
      : ∀ at', (Stage.ended time visits rest ⟨status, at', stopped⟩).Sound settings flow phases)
    (records
      : visits.map (Visit.finished settings.catalog) ++ rest.map queued
        = stage.records settings phases)
    (queued : stage.IsQueued) (visited : visits = stage.visits)
    : runRealm.Safe (Advances settings flow execution phases)
        (fun result later =>
          ∃ finished at',
            result = .ok finished
            ∧ (Stage.ended time visits rest ⟨status, at', stopped⟩).Holds settings flow execution
                phases later)
        (finalize known status (total settings.catalog visits) stopped start) scene := by
  refine safe_outside (ask_only (.task .now) trivial) holds fun at' _ scene _ _ holds => ?_
  let last : Stage := .ended time visits rest ⟨status, at', stopped⟩
  refine safe_granted _ last (fun _ => True) holds ?_ (Or.inr (advance at'))
    fun _ scene _ holds => ?_
  · intro before _ holds
    have fits : { known with
          status := status
          completedAt := some at'
          credits := total settings.catalog visits
          stopRequested := known.stopRequested || stopped }
        = (last.record settings execution).flagged stop := by
      subst same
      simp only [Execution.flagged, Stage.record, Stage.record.counted, last,
        Bool.or_right_comm execution.stopRequested stopped]
    exact holds.updateExecution unfinished fits records (sound at')
      ⟨fun _ => queued, fun _ => trivial⟩ visited
  refine safe_outside (ask_only .uptime trivial) holds fun _ _ scene _ _ holds => ?_
  refine safe_outside (tell_only fun _ => _) holds fun _ _ scene _ _ holds => ?_
  refine safe_noteLastRun holds known status fun scene holds => ?_
  refine safe_done ?_ ⟨_, at', rfl, holds⟩
  rintro _ _ drifts ⟨finished, at', value, holds⟩
  exact ⟨finished, at', value, holds.drift drifts⟩

/-- A run has ended: its outcome tells what was written into the record. -/
def Concluded (settings : RunSettings) (flow : Flow) (execution : Execution)
    (phases : List PhaseRecord) (result : Except SetupError RunOutcome) (scene : Scene) : Prop :=
  ∃ time visits rest closing stop,
    result
      = .ok ⟨execution.id, closing.status, total settings.catalog visits, stop, visits.length⟩
    ∧ (Stage.ended time visits rest closing).Holds settings flow execution phases scene

/-- A walk that has arrived is brought to its end. -/
theorem safe_conclude {known : Execution} {stop : Bool}
    (same : known = ((Stage.marked time).record settings execution).flagged stop)
    {summary : Summary} (arrives : Arrives settings flow execution phases time summary scene)
    (start : Nat)
    : runRealm.Safe (Advances settings flow execution phases)
        (Concluded settings flow execution phases) (conclude known summary start) scene := by
  have running : ¬ ExecutionStatus.running.isTerminal := by decide
  have concluded {status : ExecutionStatus} {at' : Time.Instant} {stopped : Bool}
      {visits : List Visit} {rest : List PhaseRecord} {scene : Scene} (stop : Bool)
      (holds : (Stage.ended time visits rest ⟨status, at', stopped⟩).Holds settings flow execution
        phases scene)
      : runRealm.Safe (Advances settings flow execution phases)
          (Concluded settings flow execution phases)
          (.done (.ok ⟨known.id, status, total settings.catalog visits, stop, visits.length⟩))
          scene := by
    refine safe_done ?_ ⟨time, visits, rest, _, stop, by subst same; rfl, holds⟩
    rintro before after drifts ⟨time, visits, rest, closing, stop, value, holds⟩
    exact ⟨time, visits, rest, closing, stop, value, holds.drift drifts⟩
  cases arrives with
  | @finished visits scene holds =>
      have sound := holds.sound
      cases sound with
      | between walked order =>
          rw [List.append_nil] at order
          refine (safe_finalize same holds .completed false start running (fun at' => .close ..)
            (fun at' => .completed walked order) rfl trivial rfl).followed ?_
          rintro _ scene ⟨finished, at', rfl, holds⟩
          exact concluded _ holds
  | @failed visits visit rest scene holds fails =>
      have sound := holds.sound
      cases sound with
      | behind walked visited order =>
          have records : (visits ++ [visit]).map (Visit.finished settings.catalog)
                ++ rest.map queued
              = (Stage.behind time visits visit rest).records settings phases := by
            simp [Stage.records]
          refine (safe_finalize same holds .failed false start running (fun at' => .fail ..)
            (fun at' => .failed walked visited fails order) records trivial rfl).followed ?_
          rintro _ scene ⟨finished, at', rfl, holds⟩
          exact concluded _ holds
  | @stopped visits rest scene holds left =>
      have sound := holds.sound
      cases sound with
      | between walked order =>
          refine (safe_finalize same holds .failed true start running (fun at' => .close ..)
            (fun at' => .stopped walked left order) rfl trivial rfl).followed ?_
          rintro _ scene ⟨finished, at', rfl, holds⟩
          exact concluded _ holds

-----------------------------------------------------------------------------------------
-- Whole runs
-----------------------------------------------------------------------------------------

/-- An execution that was just created can run, and is loaded with its graph and phases. -/
theorem safe_load (fresh : IsFresh execution phases)
    (parsed : Flow.parse execution.definition = .ok flow)
    (holds : Stage.created.Holds settings flow execution phases scene)
    : runRealm.Safe (Advances settings flow execution phases)
        (fun result later =>
          ∃ stop,
            result = .ok (execution.flagged stop, flow, phases)
            ∧ Stage.created.Holds settings flow execution phases later)
        (ExceptT.run (load execution.id)) scene := by
  refine safe_granted (.getExecution execution.id) .created
    (fun read => ∃ stop, read = execution.flagged stop) holds
    (fun before _ holds => holds.getExecution) (Or.inl rfl) ?_
  rintro _ scene ⟨stop, rfl⟩ holds
  have waits : (execution.flagged stop).status.isTerminal = false := by
    change execution.status.isTerminal = false
    rw [fresh.pending]
    rfl
  have parsed' : Flow.parse (execution.flagged stop).definition = .ok flow := parsed
  simp only [pure_eq_done, Program.bind, ExceptT.bindCont, waits, parsed', Bool.false_eq_true,
    if_false]
  refine safe_granted (.listPhases execution.id) .created (· = phases) holds
    (fun before _ holds => holds.listPhases fresh) (Or.inl rfl) ?_
  rintro _ scene rfl holds
  refine safe_done ?_ ⟨stop, rfl, holds⟩
  rintro _ _ drifts ⟨stop, value, holds⟩
  exact ⟨stop, value, holds.drift drifts⟩

/-- The execution is marked as running, and its phases wait. -/
theorem safe_markRunning (fresh : IsFresh execution phases) (stop : Bool)
    (holds : Stage.created.Holds settings flow execution phases scene)
    : runRealm.Safe (Advances settings flow execution phases)
        (fun result later =>
          ∃ time,
            result = .ok (((Stage.marked time).record settings execution).flagged stop)
            ∧ (Stage.between time [] phases).Holds settings flow execution phases later)
        (ExceptT.run (markRunning (execution.flagged stop))) scene := by
  unfold markRunning
  rw [except_lift_bind]
  refine safe_outside (ask_only (.task .now) trivial) holds fun time _ scene _ _ holds => ?_
  refine safe_granted (.updateExecution _) (.marked time) (fun _ => True) holds ?_
    (Or.inr (.mark time)) ?_
  · intro before _ holds
    have waits : ¬ execution.status.isTerminal := by
      rw [fresh.pending]
      decide
    exact holds.updateExecution waits rfl rfl (.marked time) Iff.rfl rfl
  intro _ scene _ holds
  refine safe_granted (.setPhaseStatuses _ _ _) (.between time [] phases) (fun _ => True) holds
    (fun before _ holds => holds.queue fresh) (Or.inr (.queue time phases)) ?_
  intro count scene _ holds
  change runRealm.Safe _ _ (ExceptT.run (liftM (noteLastRun _ .running) >>= fun _ => pure _)) _
  rw [except_lift_bind]
  refine safe_noteLastRun holds _ .running fun scene holds => ?_
  exact safe_done (fun drifts ⟨time, value, holds⟩ => ⟨time, value, holds.drift drifts⟩)
    ⟨time, rfl, holds⟩

/-- Closing what a run left open is done outside the store. -/
theorem release_only (env : Environment) : (release env).Only RunCall.IsOutside :=
  (release_quiet env).mono fun _ => RunCall.IsQuiet.isOutside

/-- Whatever its tasks do, a run of an execution that was just created passes from stage to
stage until it has ended.
-/
theorem safe_execute (fresh : IsFresh execution phases)
    (parsed : Flow.parse execution.definition = .ok flow)
    (holds : Stage.created.Holds settings flow execution phases scene) (token : Token)
    : runRealm.Safe (Advances settings flow execution phases)
        (Concluded settings flow execution phases) (execute settings execution.id token)
        scene := by
  unfold execute
  rw [except_bind]
  refine (safe_load fresh parsed holds).followed ?_
  rintro _ scene ⟨stop, rfl, holds⟩
  simp only
  rw [except_lift_bind]
  refine safe_outside (ask_only .uptime trivial) holds fun start _ scene _ _ holds => ?_
  rw [except_bind]
  refine (safe_markRunning fresh stop holds).followed ?_
  rintro _ scene ⟨time, rfl, holds⟩
  simp only
  rw [except_lift_bind]
  refine safe_outside (ask_only (.task .now) trivial) holds fun _ _ scene _ _ holds => ?_
  rw [except_lift_bind]
  refine safe_outside (ask_only (.emit _) trivial) holds fun _ _ scene _ _ holds => ?_
  rw [except_lift_bind]
  refine (safe_runPhases rfl token .start rfl holds).followed ?_
  rintro _ scene ⟨summary, left, rfl, arrives⟩
  cases settings.closesBrowser with
  | false => exact safe_conclude rfl arrives start
  | true =>
      change runRealm.Safe _ _ (ExceptT.run (liftM (release left) >>= _)) _
      rw [except_lift_bind]
      exact arrives.outside (release_only left) fun scene arrives =>
        safe_conclude rfl arrives start

end Harvest.Run

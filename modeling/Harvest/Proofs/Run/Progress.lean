import Harvest.Proofs.Run.Course
import Harvest.Proofs.Service.Creation

/-! How the phases of a run progress. At every moment they are completed ones, then at most one
that runs or has failed, then untouched ones, and each of them moves through its statuses in one
direction only.
-/

namespace Harvest

-----------------------------------------------------------------------------------------
-- Phases in plan order
-----------------------------------------------------------------------------------------

/-- The phases of an execution in the order in which a store lists them. -/
def Memory.planOrder (m : Memory) (id : Uuid) : List PhaseRecord :=
  (m.phasesOf id).mergeSort PhaseRecord.upTo

/-- How the status of a phase moves. -/
inductive PhaseStatus.Moves : PhaseStatus → PhaseStatus → Prop where
  | queue : Moves created pending
  | start : Moves pending running
  | complete : Moves running completed
  | fail : Moves running failed

namespace PhaseRecord

/-- The same phase later: its status is the same or has moved. -/
def Follows (before after : PhaseRecord) : Prop :=
  after.id = before.id ∧ (after.status = before.status ∨ before.status.Moves after.status)

/-- The phase as it was created. -/
def asCreated (phase : PhaseRecord) : PhaseRecord :=
  .fresh phase.id phase.executionId phase.number phase.position phase.name phase.taskType phase.node

/-- Every phase follows itself. -/
theorem Follows.refl (phase : PhaseRecord) : Follows phase phase := ⟨rfl, Or.inl rfl⟩

/-- Phases follow themselves when none has moved. -/
theorem forall₂_follows_refl (phases : List PhaseRecord) : List.Forall₂ Follows phases phases :=
  List.forall₂_same.mpr fun phase _ => .refl phase

/-- One phase among others moves. -/
theorem forall₂_follows_middle {before after : PhaseRecord} (follows : Follows before after)
    (early late : List PhaseRecord)
    : List.Forall₂ Follows (early ++ before :: late) (early ++ after :: late) :=
  List.rel_append (forall₂_follows_refl early) (.cons follows (forall₂_follows_refl late))

end PhaseRecord

namespace Run

variable {settings : RunSettings} {flow : Flow} {execution : Execution}
  {phases : List PhaseRecord} {stage next : Stage} {scene : Scene}

-----------------------------------------------------------------------------------------
-- What stages show
-----------------------------------------------------------------------------------------

/-- At every stage the phases are the created ones, up to what has become of them. -/
theorem Stage.Sound.asCreated (sound : stage.Sound settings flow phases)
    : (stage.records settings phases).map PhaseRecord.asCreated
      = phases.map PhaseRecord.asCreated := by
  cases sound <;> try subst_vars
  all_goals
    simp [Stage.records, PhaseRecord.asCreated, Visit.finished, Opening.running, queued,
      Function.comp_def]

/-- At every stage the phases are stored in plan order. -/
theorem Stage.Holds.planOrder (holds : stage.Holds settings flow execution phases scene)
    (fresh : IsFresh execution phases)
    : scene.store.planOrder execution.id = stage.records settings phases := by
  have listed := holds.shown.stored.listed
  rw [Stage.record_id] at listed
  have sorted : ((stage.records settings phases).map PhaseRecord.asCreated).Pairwise
      fun a b => a.upTo b := by
    rw [holds.sound.asCreated]
    exact List.pairwise_map.mpr fresh.sorted
  rw [Memory.planOrder, listed]
  exact List.mergeSort_of_pairwise (List.pairwise_map.mp sorted)

/-- One write of a run moves phases in their direction, by cases on the write. -/
theorem Stage.Next.follows (advance : stage.Next next) (sound : next.Sound settings flow phases)
    (fresh : IsFresh execution phases)
    : List.Forall₂ PhaseRecord.Follows (stage.records settings phases)
        (next.records settings phases) := by
  cases advance with
  | mark time => exact PhaseRecord.forall₂_follows_refl _
  | queue time rest =>
      cases sound with
      | between _ order =>
          have same : phases = rest := order
          subst same
          refine List.forall₂_map_right_iff.mpr (List.forall₂_same.mpr fun phase member => ?_)
          have created := (fresh.created phase member).1
          exact ⟨rfl, Or.inr (created ▸ .queue)⟩
  | start time visits opening rest =>
      have follows : (queued opening.phase).Follows opening.running := ⟨rfl, Or.inr .start⟩
      exact PhaseRecord.forall₂_follows_middle follows (visits.map _) (rest.map queued)
  | finish time visits visit rest =>
      have follows : visit.running.Follows (visit.finished settings.catalog) := by
        refine ⟨rfl, Or.inr ?_⟩
        simp only [Visit.finished, Opening.running]
        cases visit.success
        · exact .fail
        · exact .complete
      exact PhaseRecord.forall₂_follows_middle follows (visits.map _) (rest.map queued)
  | count time visits visit rest =>
      have same : (between time (visits ++ [visit]) rest).records settings phases
          = (behind time visits visit rest).records settings phases := by
        simp [Stage.records]
      exact same ▸ PhaseRecord.forall₂_follows_refl _
  | fail time visits visit rest closing =>
      have same : (ended time (visits ++ [visit]) rest closing).records settings phases
          = (behind time visits visit rest).records settings phases := by
        simp [Stage.records]
      exact same ▸ PhaseRecord.forall₂_follows_refl _
  | close time visits rest closing => exact PhaseRecord.forall₂_follows_refl _

/-- A run of an execution that was created is safe from the first stage on. -/
theorem safe_of_created {catalog : Catalog} {request : RunRequest} {before created : Scene}
    (made
      : serviceRealm.Reaches (ExceptT.run (Service.createExecution catalog request), before)
          (.done (.ok execution), created))
    (settings : RunSettings) (token : Token)
    : ∃ flow plan phases,
        Service.Created catalog request flow plan execution phases
        ∧ Stage.created.Holds settings flow execution phases created.anew
        ∧ runRealm.Safe (Advances settings flow execution phases)
            (Concluded settings flow execution phases) (execute settings execution.id token)
            created.anew := by
  obtain ⟨flow, plan, phases, creation, shown⟩ :=
    (Service.safe_createExecution catalog request before).ended made execution rfl
  have start : Stage.created.Holds settings flow execution phases created.anew :=
    ⟨⟨shown.stored, shown.ours⟩, .created, by simp [HasQueued, Scene.anew, Stage.IsQueued],
      fun visit none => by cases none⟩
  have parsed : Flow.parse execution.definition = .ok flow := creation.definition ▸ creation.parsed
  exact ⟨flow, plan, phases, creation, start, safe_execute creation.fresh parsed start token⟩

/-- Wherever a safe run has come to, it is at some stage. -/
theorem exists_stage {α : Type} {wanted : α → Scene → Prop} {program rest : RunM α} {start : Scene}
    (safe : runRealm.Safe (Advances settings flow execution phases) wanted program start)
    (first : Stage.created.Holds settings flow execution phases start)
    (run : runRealm.Reaches (program, start) (rest, scene))
    : ∃ stage : Stage, stage.Holds settings flow execution phases scene := by
  have stable : runRealm.Stable fun scene =>
      ∃ stage : Stage, stage.Holds settings flow execution phases scene :=
    fun drifts ⟨stage, holds⟩ => ⟨stage, holds.drift drifts⟩
  exact safe.invariant stable (fun ⟨_, next, _, holds, _⟩ => ⟨next, holds⟩) ⟨_, first⟩ run

end Run

-----------------------------------------------------------------------------------------
-- A run that is stopped before its only phase
-----------------------------------------------------------------------------------------

namespace Run.Lone

open Service

/-- The graph of one node that needs nothing. -/
def flow : Flow := Flow.empty.addNode (.bare "a" .launchBrowser)

def catalog : Catalog := .ofDefinitions [⟨.launchBrowser, "Launch", true, 1, [], []⟩]

def settings : RunSettings := ⟨catalog, fun _ => none, false⟩

def time : Time.Instant := ⟨0, 0, 0⟩

def workflow : Workflow := .fresh (.ofNat 1) time "user" "lone" flow.text

def request : RunRequest := ⟨.ofNat 1, "user", flow.text⟩

def execution (definition : String) : Execution :=
  .fresh (.ofNat 2) (.ofNat 1) time "user" definition

theorem unfinished (definition : String) : (execution definition).status.isTerminal = false := rfl

def phase : PhaseRecord :=
  .fresh (.ofNat 3) (.ofNat 2) 1 0 "Launch" .launchBrowser (Node.bare "a" .launchBrowser).text

/-- The store once the execution is created. -/
def store (definition : String) : Memory :=
  { workflows := [{ workflow with
      lastRunId := some (.ofNat 2)
      lastRunAt := some time
      lastRunStatus := some .pending }]
    executions := [execution definition]
    phases := [phase]
    logs := [] }

/-- The graph has a plan of one node. -/
theorem planned
    : planOf catalog flow.text = .ok ⟨[⟨1, [.bare "a" .launchBrowser]⟩]⟩ := by
  decide +kernel

/-- The execution is created, with one phase. -/
theorem created
    : ∃ past,
        serviceRealm.Reaches
          (ExceptT.run (createExecution catalog request), .start ⟨[workflow], [], [], []⟩)
          (.done (.ok (execution flow.text)), ⟨store flow.text, [.ofNat 3, .ofNat 2], past⟩) := by
  apply Exists.intro
  refine .reply (.run (.store (.getWorkflow (.ofNat 1)) _)) ?_
  change serviceRealm.Reaches
    (ExceptT.run (ExceptT.mk (pure (planOf catalog flow.text)) >>= _), _) _
  rw [Program.except_bind, planned]
  refine .reply (.run (.fresh (.ofNat 2) _ ?_ ⟨rfl, rfl, rfl⟩)) ?_
  · simp [Scene.after, Scene.start]
  refine .reply (.run (.outside (.task .now) trivial time _)) ?_
  refine .reply (.run (.fresh (.ofNat 3) _ ?_ ⟨rfl, rfl, rfl⟩)) ?_
  · simp only [Scene.after, Scene.start]
    decide
  refine .reply (.run (.store (.createExecution (execution flow.text) [phase]) _)) ?_
  refine .reply (.run (.store (.recordLastRunStart (.ofNat 1) (.ofNat 2) .pending time) _)) ?_
  exact .refl

/-- The run ends at once when its token is cancelled. The definition is a variable here, so that
no step of the run reads the graph.
-/
theorem stopped {definition : String} {flow : Flow} (parsed : Flow.parse definition = .ok flow)
    : ∃ outcome scene,
        runRealm.Reaches
          (execute settings (.ofNat 2) ⟨0⟩, ⟨store definition, [.ofNat 3, .ofNat 2], []⟩)
          (.done (.ok outcome), scene) := by
  have listed : Memory.answer (.listPhases (.ofNat 2)) (store definition)
      = (.ok [phase], store definition) := by
    change (Except.ok (List.mergeSort [phase] PhaseRecord.upTo), store definition) = _
    rw [List.mergeSort_singleton]
    rfl
  obtain ⟨first, second, loads, lists, goes⟩ :=
    execute_calls (unfinished definition) parsed settings (.ofNat 2) ⟨0⟩
  rw [loads]
  apply Exists.intro
  apply Exists.intro
  refine .reply (.stored (.getExecution (.ofNat 2)) _ rfl) ?_
  change runRealm.Reaches (first (.ok (execution definition)), _) _
  rw [lists]
  refine .reply (.stored (.listPhases (.ofNat 2)) _ listed) ?_
  rw [goes]
  refine .reply (.outside .uptime trivial (0 : Nat) _) ?_
  refine .reply (.outside (.task .now) trivial time _) ?_
  refine .reply (.stored (.updateExecution _) _ rfl) ?_
  refine .reply (.stored (.setPhaseStatuses (.ofNat 2) .created .pending) _ rfl) ?_
  refine .reply (.stored (.recordLastRunStatus _ _ .running) _ rfl) ?_
  refine .reply (.outside (.task .now) trivial time _) ?_
  refine .reply (.outside (.emit _) trivial () _) ?_
  refine .reply (.outside (.isCancelled ⟨0⟩) trivial true _) ?_
  refine .reply (.outside (.task .now) trivial time _) ?_
  refine .reply (.stored (.updateExecution _) _ rfl) ?_
  refine .reply (.outside .uptime trivial (0 : Nat) _) ?_
  refine .reply (.outside (.task .now) trivial time _) ?_
  refine .reply (.outside (.emit _) trivial () _) ?_
  refine .reply (.stored (.recordLastRunStatus _ _ .failed) _ rfl) ?_
  exact .refl

end Run.Lone

namespace Run

end Run

end Harvest

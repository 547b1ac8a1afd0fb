import Harvest.Proofs.Run.Supply

/-! The data that flows through a run. Wherever a run has come to, the phases that it started were
supplied as their graph says, whatever their tasks do with their contexts.
-/

namespace Harvest

namespace Run

variable {settings : RunSettings} {family : TaskType → Option Behaviour}

/-- The data of a run flows as its graph says: every phase that shows a start was made for a node
of the graph and is supplied with what the graph says, every visited phase has its record, and no
task changes the values of another node or the inputs of its own.
-/
structure Flows (family : TaskType → Option Behaviour) (catalog : Catalog) (flow : Flow)
    (stage : Stage) (records : List PhaseRecord) : Prop where
  started
    : ∀ record ∈ records,
        record.startedAt ≠ none
        → ∃ before opening, ∃ node ∈ flow.nodes,
            stage.Started before opening
            ∧ record.id = opening.phase.id
            ∧ record.inputs = opening.running.inputs
            ∧ record.node = node.text
            ∧ Supplied family catalog flow node before opening
  ended : ∀ visit ∈ stage.visits, visit.finished catalog ∈ records
  apart
    : ∀ visit ∈ stage.visits, ∀ other,
        (other ≠ visit.nodeId → visit.left.slots other = visit.env.slots other)
        ∧ (visit.left.slots other).inputs = (visit.env.slots other).inputs

/-- Whatever the tasks of a run do with their contexts and wherever it has come to, its data has
flowed as its graph says.
-/
theorem data_flow {execution : Execution} {request : RunRequest} {token : Token}
    {before created scene : Scene} {rest : RunM (Except SetupError RunOutcome)}
    (registry : settings.registry = behaving family)
    (made
      : serviceRealm.Reaches
          (ExceptT.run (Service.createExecution settings.catalog request), before)
          (.done (.ok execution), created))
    (run : runRealm.Reaches (execute settings execution.id token, created.anew) (rest, scene))
    : ∃ flow plan phases stage,
        Service.Created settings.catalog request flow plan execution phases
        ∧ stage.Holds settings flow execution phases scene
        ∧ Flows family settings.catalog flow stage (scene.store.planOrder execution.id) := by
  obtain ⟨flow, plan, phases, creation, start, safe⟩ := safe_of_created made settings token
  obtain ⟨stage, holds⟩ := exists_stage safe start run
  refine ⟨flow, plan, phases, stage, creation, holds, ?_⟩
  rw [holds.planOrder creation.fresh]
  constructor
  · intro record member begun
    obtain ⟨before, opening, started, id, text, inputs⟩ :=
      holds.sound.started_of_record creation.fresh member begun
    obtain ⟨node, here, _, made', _, supplied⟩ :=
      supplied_of_started creation holds.sound registry started
    exact ⟨before, opening, node, here, started, id, inputs, text.trans made', supplied⟩
  · exact fun visit member => Stage.finished_mem member
  · intro visit member other
    obtain ⟨before, after, order⟩ := List.append_of_mem member
    obtain ⟨env, _, visited⟩ := holds.sound.split order
    obtain ⟨_, _, _, _, _, _, _, parsed, _⟩ :=
      planned_of_started creation holds.sound (.visited order)
    obtain ⟨frame, own⟩ := visited.frame ⟨_, parsed⟩ (registry ▸ restores_behaving family)
    by_cases same : visit.nodeId = other
    · exact ⟨fun apart => absurd same.symm apart, same ▸ own⟩
    · have left := (frame other same).2
      exact ⟨fun _ => left, congrArg Slots.inputs left⟩

end Run

-----------------------------------------------------------------------------------------
-- Runs that come to their first phase
-----------------------------------------------------------------------------------------

namespace Run.Lone

/-- The store once an execution is created of a workflow, with some phases. -/
def storing (name kept definition : String) (phases : List PhaseRecord) : Memory :=
  { workflows := [{ Workflow.fresh (.ofNat 1) time "user" name kept with
      lastRunId := some (.ofNat 2)
      lastRunAt := some time
      lastRunStatus := some .pending }]
    executions := [execution definition]
    phases := phases
    logs := [] }

/-- The phases of the execution when they wait. -/
def waiting (phases : List PhaseRecord) : List PhaseRecord :=
  phases.map fun phase =>
    if Memory.inStatus (.ofNat 2) .created phase then queued phase else phase

/-- The first phase as it is opened. -/
def opening (settings : RunSettings) (flow : Flow) (phase : PhaseRecord) : Opening :=
  ⟨phase, prepared settings.catalog flow phase .empty, time⟩

variable {settings : RunSettings} {flow : Flow} {phase : PhaseRecord} {rest : List PhaseRecord}

/-- A phase that there is nothing to say about is kept as one that runs. -/
theorem begins {scene : Scene} {store : Memory}
    (quiet : (enter settings.catalog flow (Node.parse phase.node) .empty).1 = [])
    (kept
      : Memory.answer (.updatePhase (opening settings flow phase).running) scene.store
        = (.ok (), store))
    : ∃ next later,
        runRealm.Reaches (LoopM.on (runPhase settings flow phase) .empty, scene) (next, later)
        ∧ later.store = store := by
  apply Exists.intro
  apply Exists.intro
  refine ⟨?_, ?_⟩
  · unfold runPhase
    rw [on_inLoop_bind]
    refine .reply (.outside .uptime trivial (0 : Nat) _) ?_
    change runRealm.Reaches (LoopM.on (modifyGet _ >>= _) _, _) _
    rw [on_bind]
    change runRealm.Reaches
      (LoopM.on
        (inLoop (errorEntries (enter settings.catalog flow (Node.parse phase.node) .empty).1) >>= _)
        (opening settings flow phase).env, _) _
    rw [quiet, on_inLoop_bind]
    change runRealm.Reaches (LoopM.on (get >>= _) (opening settings flow phase).env, _) _
    rw [on_bind]
    change runRealm.Reaches
      (LoopM.on (inLoop RunM.now >>= _) (opening settings flow phase).env, _) _
    rw [on_inLoop_bind]
    refine .reply (.outside (.task .now) trivial time _) ?_
    exact .reply (.stored (.updatePhase (opening settings flow phase).running) _ kept) .refl
  · rfl

/-- A run comes to where its first phase runs. The definition and the text of the node are variables
here, so that no step of the run reads them.
-/
theorem begun {name kept definition : String} {phases : List PhaseRecord} {given : List Uuid}
    (parsed : Flow.parse definition = .ok flow)
    (listed
      : Memory.answer (.listPhases (.ofNat 2)) (storing name kept definition (phase :: rest))
        = (.ok (phase :: rest), storing name kept definition (phase :: rest)))
    (quiet : (enter settings.catalog flow (Node.parse phase.node) .empty).1 = [])
    (runs
      : ∀ store : Memory,
          store.phases = waiting (phase :: rest)
          → Memory.answer (.updatePhase (opening settings flow phase).running) store
            = (.ok (), { store with phases := phases }))
    : ∃ program scene,
        runRealm.Reaches
          (execute settings (.ofNat 2) ⟨0⟩,
            ⟨storing name kept definition (phase :: rest), given, []⟩)
          (program, scene)
        ∧ scene.store.phases = phases := by
  have waits : ∃ next scene,
      runRealm.Reaches
        (execute settings (.ofNat 2) ⟨0⟩,
          ⟨storing name kept definition (phase :: rest), given, []⟩)
        ((LoopM.on (runPhase settings flow phase) .empty).bind next, scene)
      ∧ scene.store.phases = waiting (phase :: rest) := by
    obtain ⟨first, second, loads, lists, goes⟩ :=
      execute_calls (unfinished definition) parsed settings (.ofNat 2) ⟨0⟩
    rw [loads]
    apply Exists.intro
    apply Exists.intro
    refine ⟨?_, ?_⟩
    · refine .reply (.stored (.getExecution (.ofNat 2)) _ rfl) ?_
      change runRealm.Reaches (first (.ok (execution definition)), _) _
      rw [lists]
      refine .reply (.stored (.listPhases (.ofNat 2)) _ listed) ?_
      rw [goes]
      refine .reply (.outside .uptime trivial (0 : Nat) _) ?_
      refine .reply (.outside (.task .now) trivial time _) ?_
      refine .reply (.stored (.updateExecution _) _ rfl) ?_
      refine .reply (.stored (.setPhaseStatuses (.ofNat 2) .created .pending) _ rfl) ?_
      refine .reply (.stored (.recordLastRunStatus _ _ .running) _ rfl) ?_
      refine .reply (.outside (.task .now) trivial time _) ?_
      refine .reply (.outside (.emit _) trivial () _) ?_
      refine .reply (.outside (.isCancelled ⟨0⟩) trivial false _) ?_
      refine .reply (.stored (.getExecution (.ofNat 2)) _ rfl) ?_
      change runRealm.Reaches
        (Program.bind _ (Program.bind _
          (LoopM.on (runPhase settings flow phase >>= _) .empty)), _) _
      rw [on_bind, Program.bind_bind, Program.bind_bind]
      exact .refl
    · rfl
  obtain ⟨next, scene, reached, held⟩ := waits
  obtain ⟨program, later, began, left⟩ := begins quiet (runs scene.store held)
  exact ⟨_, later, reached.trans (began.bind next), left ▸ rfl⟩

end Run.Lone

-----------------------------------------------------------------------------------------
-- A run whose literal is rounded once more
-----------------------------------------------------------------------------------------

namespace Run.Tiny

open Service

/-- A graph of one node, whose literal is read as a number that its own text misses. -/
def definition : String :=
  "\x7b\"nodes\":[\x7b\"id\":\"launch\",\"data\":\x7b\"type\":\"LAUNCH_BROWSER\",\"inputs\":"
    ++ "\x7b\"Website Url\":1e-28\x7d\x7d\x7d],\"edges\":[]\x7d"

/-- The number that is read: it is written as `1.0000000000000001e-28`. -/
def literal : Json := .number (.real ⟨false, ⟨8920298079412250, -146⟩⟩)

def node : Node := (Node.bare "launch" .launchBrowser).withInput "Website Url" literal

def flow : Flow := Flow.empty.addNode node

def param : TaskParam := ⟨"Website Url", .string, true, none, none⟩

def catalog : Catalog := .ofDefinitions [⟨.launchBrowser, "Launch", true, 1, [param], []⟩]

def family : TaskType → Option Behaviour := fun _ => some (.done (.ok true))

def settings : RunSettings := ⟨catalog, behaving family, false⟩

def workflow : Workflow := .fresh (.ofNat 1) Lone.time "user" "tiny" definition

def request : RunRequest := ⟨.ofNat 1, "user", definition⟩

def phase (snapshot : String) : PhaseRecord :=
  .fresh (.ofNat 3) (.ofNat 2) 1 0 "Launch" .launchBrowser snapshot

/-- The store once the execution is created. -/
def store (definition snapshot : String) : Memory :=
  { workflows := [{ workflow with
      lastRunId := some (.ofNat 2)
      lastRunAt := some Lone.time
      lastRunStatus := some .pending }]
    executions := [Lone.execution definition]
    phases := [phase snapshot]
    logs := [] }

/-- The environment in which the task of the phase begins, and the messages about it. -/
def entered (flow : Flow) (snapshot : String) : List String × Environment :=
  enter catalog flow (Node.parse snapshot) .empty

/-- The phase as it is stored when it runs. -/
def running (flow : Flow) (snapshot : String) : PhaseRecord :=
  { phase snapshot with
    status := .running
    startedAt := some Lone.time
    inputs := some (slotsText (entered flow snapshot).2 (nodeId (Node.parse snapshot))
      Slots.inputs) }

/-- The definition is read as the graph. -/
theorem parsed : Flow.parse definition = .ok flow := by
  have read : (Flow.parse definition).toOption = some flow := by decide +kernel
  cases outcome : Flow.parse definition with
  | error reason =>
      rw [outcome] at read
      cases read
  | ok other =>
      rw [outcome] at read
      exact congrArg _ (Option.some.inj read)

/-- The graph has a plan of one node. -/
theorem planned : planOf catalog definition = .ok ⟨[⟨1, [node]⟩]⟩ := by
  decide +kernel

/-- Nothing is wrong with the node. -/
theorem quiet : (entered flow node.text).1 = [] := by
  decide +kernel

/-- What is kept of the literal has been rounded once more. -/
theorem kept
    : storedText? (running flow node.text).inputs "Website Url" = some "9.999999999999999e-29" := by
  decide +kernel

/-- The text of the literal. -/
theorem meant : literal.compact = "1.0000000000000001e-28" := by
  decide +kernel

/-- The execution is created, with one phase. -/
theorem created
    : ∃ past,
        serviceRealm.Reaches
          (ExceptT.run (createExecution catalog request), .start ⟨[workflow], [], [], []⟩)
          (.done (.ok (Lone.execution definition)),
            ⟨store definition node.text, [.ofNat 3, .ofNat 2], past⟩) := by
  apply Exists.intro
  refine .reply (.run (.store (.getWorkflow (.ofNat 1)) _)) ?_
  change serviceRealm.Reaches
    (ExceptT.run (ExceptT.mk (pure (planOf catalog definition)) >>= _), _) _
  rw [Program.except_bind, planned]
  refine .reply (.run (.fresh (.ofNat 2) _ ?_ ⟨rfl, rfl, rfl⟩)) ?_
  · simp [Scene.after, Scene.start]
  refine .reply (.run (.outside (.task .now) trivial Lone.time _)) ?_
  refine .reply (.run (.fresh (.ofNat 3) _ ?_ ⟨rfl, rfl, rfl⟩)) ?_
  · simp only [Scene.after, Scene.start]
    decide
  refine .reply
    (.run (.store (.createExecution (Lone.execution definition) [phase node.text]) _)) ?_
  refine .reply (.run (.store (.recordLastRunStart (.ofNat 1) (.ofNat 2) .pending Lone.time) _)) ?_
  exact .refl

/-- The run comes to where the phase runs. -/
theorem started {definition snapshot : String} {flow : Flow}
    (parsed : Flow.parse definition = .ok flow)
    (quiet : (entered flow snapshot).1 = [])
    : ∃ rest scene,
        runRealm.Reaches
          (execute settings (.ofNat 2) ⟨0⟩,
            ⟨store definition snapshot, [.ofNat 3, .ofNat 2], []⟩)
          (rest, scene)
        ∧ scene.store.phases = [running flow snapshot] := by
  refine Lone.begun parsed ?_ quiet ?_
  · change (Except.ok (List.mergeSort [phase snapshot] PhaseRecord.upTo), _) = _
    rw [List.mergeSort_singleton]
    rfl
  · rintro ⟨workflows, executions, phases, logs⟩ held
    obtain rfl : phases = [queued (phase snapshot)] := held
    rfl

/-- The phase that runs is the only one. -/
theorem listed {scene : Scene} {flow : Flow} {snapshot : String}
    (held : scene.store.phases = [running flow snapshot])
    : scene.store.planOrder (.ofNat 2) = [running flow snapshot] := by
  have owned : scene.store.phasesOf (.ofNat 2) = [running flow snapshot] := by
    rw [Memory.phasesOf, held]
    rfl
  rw [Memory.planOrder, owned, List.mergeSort_singleton]

end Run.Tiny

namespace Run

/-- A run with a started phase, whose data flows. -/
theorem data_flow_tiny
    : ∃ created rest scene flow stage record,
        serviceRealm.Reaches
          (ExceptT.run (Service.createExecution Tiny.catalog Tiny.request),
            .start ⟨[Tiny.workflow], [], [], []⟩)
          (.done (.ok (Lone.execution Tiny.definition)), created)
        ∧ runRealm.Reaches (execute Tiny.settings (.ofNat 2) ⟨0⟩, created.anew) (rest, scene)
        ∧ record ∈ scene.store.planOrder (.ofNat 2)
        ∧ record.startedAt ≠ none
        ∧ Flows Tiny.family Tiny.catalog flow stage (scene.store.planOrder (.ofNat 2)) := by
  obtain ⟨past, made⟩ := Tiny.created
  obtain ⟨rest, scene, run, phases⟩ := Tiny.started Tiny.parsed Tiny.quiet
  have registry : Tiny.settings.registry = behaving Tiny.family := rfl
  obtain ⟨flow, _, _, stage, _, _, flows⟩ := data_flow registry made run
  refine ⟨_, rest, scene, flow, stage, Tiny.running Tiny.flow Tiny.node.text, made, run, ?_, ?_,
    flows⟩
  · rw [Tiny.listed phases]
    exact List.mem_singleton_self _
  · exact Option.some_ne_none _

/-- A literal need not be kept with its own text: what is kept is the text of the literal that is
read from the text of the node, and reading and writing a real number may round it.
-/
theorem literal_rounded_again
    : ∃ created rest scene record value,
        serviceRealm.Reaches
          (ExceptT.run (Service.createExecution Tiny.catalog Tiny.request),
            .start ⟨[Tiny.workflow], [], [], []⟩)
          (.done (.ok (Lone.execution Tiny.definition)), created)
        ∧ runRealm.Reaches (execute Tiny.settings (.ofNat 2) ⟨0⟩, created.anew) (rest, scene)
        ∧ Flow.parse Tiny.definition = .ok Tiny.flow
        ∧ Tiny.node ∈ Tiny.flow.nodes
        ∧ "Website Url" ∈ valueInputs (Flow.paramsOf Tiny.catalog Tiny.node)
        ∧ Tiny.node.literal? "Website Url" = some value
        ∧ record ∈ scene.store.planOrder (.ofNat 2)
        ∧ record.startedAt ≠ none
        ∧ record.node = Tiny.node.text
        ∧ storedText? record.inputs "Website Url" ≠ some value.kept := by
  obtain ⟨past, made⟩ := Tiny.created
  obtain ⟨rest, scene, run, phases⟩ := Tiny.started Tiny.parsed Tiny.quiet
  refine ⟨_, rest, scene, Tiny.running Tiny.flow Tiny.node.text, .structured Tiny.literal, made,
    run, Tiny.parsed, ?_, ?_, rfl, ?_, Option.some_ne_none _, rfl, ?_⟩
  · simp [Tiny.flow, Flow.addNode, Flow.empty]
  · decide
  · rw [Tiny.listed phases]
    exact List.mem_singleton_self _
  · rw [Tiny.kept, TaskValue.kept, Tiny.meant]
    decide

end Run

end Harvest

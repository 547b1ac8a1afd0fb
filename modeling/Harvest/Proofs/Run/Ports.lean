import Harvest.Proofs.Executor.Standard
import Harvest.Proofs.Run.DataFlow

/-! The ports of the standard tasks. A task that succeeds has filled its declared outputs, so what a
graph wires to such an output is there when it is needed, and no phase starts without an input
that its task requires.
-/

namespace Harvest

/-- The edges that feed inputs begin at declared outputs, of tasks that are no scripts. -/
def Flow.FollowsPorts (flow : Flow) (catalog : Catalog) : Prop :=
  ∀ node ∈ flow.nodes, ∀ name ∈ Run.valueInputs (paramsOf catalog node),
    node.literal? name = none
    → ∀ edge, flow.incomingEdge? node.id name = some edge
    → ∀ source ∈ flow.nodes,
        source.id = edge.source
        → source.taskType ≠ .customScript
          ∧ edge.sourceHandle ∈ catalog.outputNames source.taskType

namespace Run

section

variable {settings : RunSettings} {tasks : TaskSettings} {flow : Flow} {env : Environment}

/-- The standard executors give back the node and the inputs that they are lent. -/
theorem restores_standard (tasks : TaskSettings) : Restores (.standard tasks) :=
  fun _ _ found _ => (standard_contract found _).mono fun _ _ _ contract =>
    ⟨contract.extended.node, contract.extended.inputs⟩

/-- A standard task that succeeds, and is no script, fills its declared outputs. -/
theorem Worked.filled {phase : PhaseRecord} {node : Node} {log : Log}
    {calls : List (Happening runCalls)} {outcome : Bool × Log × Environment}
    (worked : Worked settings phase (.ok node) log env calls outcome)
    (registry : settings.registry = .standard tasks) (succeeds : outcome.1 = true)
    (other : phase.taskType ≠ .customScript)
    : ∀ name ∈ Catalog.standard.outputNames phase.taskType,
        (outcome.2.2.output? node.id name).isSome := by
  cases worked with
  | unreadable unread => cases unread
  | unknown aside missing errors => cases succeeds
  | @done _ _ _ _ work _ _ _ _ read found ends aside told logged broke =>
      cases read
      rw [registry] at found
      have contract := standard_contract found _ _ _ ends
      have same : work.node = node.id := contract.extended.node
      intro name declared
      change (Named.get? name ((env.takeBack work).slots node.id).outputs).isSome
      rw [Environment.slots_takeBack, if_pos same]
      exact contract.filled (told.mp succeeds) other name declared

/-- A phase starts with a value on every input that travels by value and that its task requires, so
that nothing is logged before its task begins.
-/
structure Furnished (settings : RunSettings) (flow : Flow) (before : List Visit)
    (opening : Opening) : Prop where
  present
    : ∃ node ∈ flow.nodes,
        opening.phase.node = node.text
        ∧ ∀ param ∈ Flow.paramsOf settings.catalog node,
            param.isBrowser = false
            → param.required = true
            → (opening.env.input? node.id param.name).isSome
  quiet
    : ∃ env,
        Walked settings flow before env
        ∧ enter settings.catalog flow (Node.parse opening.phase.node) env = ([], opening.env)

section

variable {request : RunRequest} {plan : Plan} {execution : Execution} {phases : List PhaseRecord}
  {stage : Stage} {before : List Visit} {opening : Opening}

/-- The task at the other end of an edge has filled the output where the edge begins. -/
theorem filled_of_started
    (creation : Service.Created settings.catalog request flow plan execution phases)
    (sound : stage.Sound settings flow phases) (catalog : settings.catalog = .standard)
    (registry : settings.registry = .standard tasks) (started : stage.Started before opening)
    {visit : Visit} (earlier : visit ∈ before) {port : String}
    (follows
      : ∀ source ∈ flow.nodes,
          source.id = visit.nodeId
          → source.taskType ≠ .customScript
            ∧ port ∈ settings.catalog.outputNames source.taskType)
    : (Named.get? port (visit.left.slots visit.nodeId).outputs).isSome := by
  obtain ⟨env, _, walked, _⟩ := sound.started started
  obtain ⟨first, begun⟩ := started.earlier earlier
  obtain ⟨early, number, source, late, nodes, type, text, parsed, _⟩ :=
    planned_of_started creation sound begun
  have listed : (number, source) ∈ plan.nodes := by simp [nodes]
  have member : source ∈ flow.nodes := Flow.mem_of_plan creation.planned listed
  have told : visit.nodeId = source.reread.id := Opening.nodeId_eq parsed
  obtain ⟨other, declared⟩ := follows source member told.symm
  obtain ⟨front, back, order⟩ := List.append_of_mem earlier
  obtain ⟨_, _, visited⟩ := walked.split order
  obtain ⟨_, worked⟩ := visited.worked parsed
  rw [← type] at other
  rw [catalog, ← type] at declared
  rw [told]
  exact worked.filled registry (walked.succeeds visit earlier) other port declared

/-- Every started phase of a graph that follows the ports is furnished: a required input has a
literal or an edge, and the task at the other end of the edge has filled its outputs.
-/
theorem furnished_of_started
    (creation : Service.Created settings.catalog request flow plan execution phases)
    (sound : stage.Sound settings flow phases) (catalog : settings.catalog = .standard)
    (registry : settings.registry = .standard tasks) (ports : flow.FollowsPorts settings.catalog)
    (started : stage.Started before opening)
    : Furnished settings flow before opening := by
  obtain ⟨number, node, env, listed, _, text, parsed, opened, walked, brought⟩ :=
    brought_of_started creation sound (registry ▸ restores_standard tasks) started
  have member : node ∈ flow.nodes := Flow.mem_of_plan creation.planned listed
  have known := (Flow.checked_of_plan creation.planned).1.known node member
  have present : ∀ param ∈ Flow.paramsOf settings.catalog node,
      param.isBrowser = false
      → param.required = true
      → (opening.env.input? node.id param.name).isSome := by
    intro param declared value required
    have named : param.name ∈ valueInputs (Flow.paramsOf settings.catalog node) :=
      List.mem_map_of_mem (List.mem_filter.mpr ⟨declared, by simp [value]⟩)
    cases given : node.literal? param.name with
    | some literal =>
        have input : opening.env.input? node.id param.name
            = wired? flow node.reread (env.prepare node.id) param.name := by
          rw [opened]
          exact (input?_prepared parsed env param.name).trans (if_pos named)
        rw [input, wired?, Node.literal?_reread, given]
        rfl
    | none =>
        have fed := Flow.fed_of_plan creation.planned listed param declared required
        rw [given] at fed
        obtain ⟨edge, found⟩ := Option.isSome_iff_exists.mp (fed.resolve_left (by simp))
        obtain ⟨visit, earlier, same, _, wired⟩ := brought param.name named given edge found
        rw [wired]
        refine filled_of_started creation sound catalog registry started earlier ?_
        exact fun source among told =>
          ports node member param.name named given edge found source among (told.trans same)
  refine ⟨⟨node, member, text, present⟩, env, walked, ?_⟩
  have quiet : (enter settings.catalog flow (Node.parse opening.phase.node) env).1 = [] :=
    (enter_quiet_iff parsed known env).mpr (opened ▸ present)
  rw [opened]
  exact Prod.ext quiet rfl

end

/-- Standard tasks, their catalog and the wiring agree on ports: in a run of a graph whose edges
follow the ports, every phase that is started is furnished, whatever is answered to its tasks.
-/
theorem inputs_furnished {execution : Execution} {request : RunRequest} {token : Token}
    {before created scene : Scene} {rest : RunM (Except SetupError RunOutcome)}
    (catalog : settings.catalog = .standard) (registry : settings.registry = .standard tasks)
    (made
      : serviceRealm.Reaches
          (ExceptT.run (Service.createExecution settings.catalog request), before)
          (.done (.ok execution), created))
    (parsed : Flow.parse request.definition = .ok flow) (ports : flow.FollowsPorts .standard)
    (run : runRealm.Reaches (execute settings execution.id token, created.anew) (rest, scene))
    : ∃ (plan : Plan) (phases : List PhaseRecord) (stage : Stage),
        Service.Created settings.catalog request flow plan execution phases
        ∧ stage.Holds settings flow execution phases scene
        ∧ ∀ before opening,
            stage.Started before opening
            → Furnished settings flow before opening := by
  obtain ⟨other, plan, phases, creation, start, safe⟩ := safe_of_created made settings token
  obtain rfl : other = flow := Except.ok.inj (creation.parsed.symm.trans parsed)
  obtain ⟨stage, holds⟩ := exists_stage safe start run
  refine ⟨plan, phases, stage, creation, holds, fun before opening started => ?_⟩
  exact furnished_of_started creation holds.sound catalog registry (catalog ▸ ports) started

end

-----------------------------------------------------------------------------------------
-- A document that is handed on
-----------------------------------------------------------------------------------------

namespace Relay

open Service

def launch : Node := (Node.bare "a" .launchBrowser).withInput Slot.websiteUrl (.string "/")

def page : Node := .bare "b" .pageToHtml

def text : Node := (Node.bare "c" .extractText).withInput Slot.selector (.string "p")

/-- The graph hands the document of a page on to the task that looks for a text in it. -/
def flow : Flow :=
  ⟨[launch, page, text],
    [⟨"a", Slot.webPage, "b", Slot.webPage⟩, ⟨"b", Slot.html, "c", Slot.html⟩], none⟩

def settings : RunSettings := ⟨.standard, .standard .usual, true⟩

def workflow (definition : String) : Workflow :=
  .fresh (.ofNat 1) Lone.time "user" "relay" definition

def request (definition : String) : RunRequest := ⟨.ofNat 1, "user", definition⟩

def plan : Plan := ⟨[⟨1, [launch]⟩, ⟨2, [page]⟩, ⟨3, [text]⟩]⟩

def phase (position : Nat) (node : Node) : PhaseRecord :=
  .fresh (.ofNat (position + 3)) (.ofNat 2) (position + 1) position
    (label .standard node.taskType) node.taskType node.text

def phases : List PhaseRecord := [phase 0 launch, phase 1 page, phase 2 text]

/-- The graph comes back from its text. -/
theorem parsed : Flow.parse flow.text = .ok flow := by
  have proper : flow.toJson.Proper := by
    simp [flow, Flow.toJson, Json.Proper, Json.ProperMembers, Json.ProperItems, Node.toJson,
      Edge.toJson, launch, page, text, Node.bare, Node.withInput, Named.put, TaskType.toJson,
      Slot.websiteUrl, Slot.selector]
  rw [Flow.parse_text proper]
  rfl

/-- It has a plan of three nodes in a row. -/
theorem planned : planOf .standard flow.text = .ok plan := by
  rw [planOf, parsed]
  decide +kernel

/-- The only input that an edge feeds takes a declared output. -/
theorem ports : flow.FollowsPorts .standard := by
  unfold Flow.FollowsPorts
  decide +kernel

/-- The execution is created, with three phases. The definition is a variable here, so that no step
reads it.
-/
theorem created {definition : String} (planned : planOf .standard definition = .ok plan)
    : ∃ past,
        serviceRealm.Reaches
          (ExceptT.run (createExecution settings.catalog (request definition)),
            .start ⟨[workflow definition], [], [], []⟩)
          (.done (.ok (Lone.execution definition)),
            ⟨Lone.storing "relay" definition definition phases,
              [.ofNat 5, .ofNat 4, .ofNat 3, .ofNat 2], past⟩) := by
  apply Exists.intro
  refine .reply (.run (.store (.getWorkflow (.ofNat 1)) _)) ?_
  change serviceRealm.Reaches
    (ExceptT.run (ExceptT.mk (pure (planOf .standard definition)) >>= _), _) _
  rw [Program.except_bind, planned]
  refine .reply (.run (.fresh (.ofNat 2) _ ?_ ⟨rfl, rfl, rfl⟩)) ?_
  · simp [Scene.after, Scene.start]
  refine .reply (.run (.outside (.task .now) trivial Lone.time _)) ?_
  refine .reply (.run (.fresh (.ofNat 3) _ ?_ ⟨rfl, rfl, rfl⟩)) ?_
  · simp only [Scene.after, Scene.start]
    decide
  refine .reply (.run (.fresh (.ofNat 4) _ ?_ ⟨rfl, rfl, rfl⟩)) ?_
  · simp only [Scene.after, Scene.start]
    decide
  refine .reply (.run (.fresh (.ofNat 5) _ ?_ ⟨rfl, rfl, rfl⟩)) ?_
  · simp only [Scene.after, Scene.start]
    decide
  refine .reply (.run (.store (.createExecution (Lone.execution definition) phases) _)) ?_
  refine .reply
    (.run (.store (.recordLastRunStart (.ofNat 1) (.ofNat 2) .pending Lone.time) _)) ?_
  exact .refl

/-- The first phase when it runs. -/
def running : PhaseRecord := (Lone.opening settings flow (phase 0 launch)).running

/-- The run comes to where the first phase runs. -/
theorem started
    : ∃ rest scene,
        runRealm.Reaches
          (execute settings (.ofNat 2) ⟨0⟩,
            ⟨Lone.storing "relay" flow.text flow.text phases,
              [.ofNat 5, .ofNat 4, .ofNat 3, .ofNat 2], []⟩)
          (rest, scene)
        ∧ scene.store.phases = running :: [phase 1 page, phase 2 text].map queued := by
  refine Lone.begun parsed ?_ ?_ ?_
  · change (Except.ok (List.mergeSort phases PhaseRecord.upTo), _) = _
    rw [List.mergeSort_of_pairwise]
    · rfl
    · decide
  · change (enter settings.catalog flow (Node.parse launch.text) .empty).1 = []
    rw [Node.parse_text (Flow.fits_of_parse parsed launch (by simp [flow]))]
    decide +kernel
  · rintro ⟨workflows, executions, phases, logs⟩ held
    obtain rfl : phases = [phase 0 launch, phase 1 page, phase 2 text].map queued := held
    rfl

end Relay

/-- A run whose first phase is furnished, of a graph that hands a document on. -/
theorem inputs_furnished_relay
    : ∃ created rest scene stage before opening,
        serviceRealm.Reaches
          (ExceptT.run (Service.createExecution .standard (Relay.request Relay.flow.text)),
            .start ⟨[Relay.workflow Relay.flow.text], [], [], []⟩)
          (.done (.ok (Lone.execution Relay.flow.text)), created)
        ∧ Flow.parse Relay.flow.text = .ok Relay.flow
        ∧ Relay.flow.FollowsPorts .standard
        ∧ runRealm.Reaches (execute Relay.settings (.ofNat 2) ⟨0⟩, created.anew) (rest, scene)
        ∧ Stage.Started stage before opening
        ∧ Furnished Relay.settings Relay.flow before opening := by
  obtain ⟨past, made⟩ := Relay.created Relay.planned
  obtain ⟨rest, scene, run, phases⟩ := Relay.started
  obtain ⟨plan, all, stage, creation, holds, furnished⟩ :=
    inputs_furnished rfl rfl made Relay.parsed Relay.ports run
  have listed : Relay.running ∈ scene.store.planOrder (.ofNat 2) := by
    rw [Memory.planOrder, Memory.phasesOf, phases, List.mem_mergeSort]
    exact List.mem_cons_self
  have same := holds.planOrder creation.fresh
  change scene.store.planOrder (.ofNat 2) = _ at same
  rw [same] at listed
  obtain ⟨before, opening, started, _⟩ :=
    holds.sound.started_of_record creation.fresh listed (Option.some_ne_none _)
  exact ⟨_, rest, scene, stage, before, opening, made, Relay.parsed, Relay.ports, run, started,
    furnished before opening started⟩

end Run

end Harvest

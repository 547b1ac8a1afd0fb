import Harvest.Proofs.Plan.Order
import Harvest.Proofs.Run.Progress
import Harvest.Proofs.Run.Turn

/-! What phases are supplied with. Each phase starts with the literals of its node and with what
the tasks at the other ends of its edges wrote last, and its record keeps their texts.
-/

namespace Harvest

open Json

/-- The texts in which values are kept come back from their record. -/
theorem Values.parse_keptText {values : Values} (distinct : (values.map (·.1)).Nodup)
    : parse values.keptText
      = .ok (.object (values.map fun (name, value) => (name, .string value.kept))) := by
  let members : Members := values.map fun (name, value) => (name, .string value.kept)
  have text : ∀ member ∈ members, ∃ s, member.2 = .string s := by
    intro member here
    obtain ⟨⟨name, value⟩, _, rfl⟩ := List.mem_map.mp here
    exact ⟨_, rfl⟩
  have names : (members.map (·.1)).Nodup := by
    rw [List.map_map]
    exact distinct
  have proper : (Json.object members).Proper := by
    refine ⟨names, properMembers_iff.mpr fun member here => ?_⟩
    obtain ⟨s, same⟩ := text member here
    exact same ▸ trivial
  have shallow : (Json.object members).depth ≤ depthLimit := by
    have flat : depthMembers members ≤ 0 := by
      refine depthMembers_le.mpr fun member here => ?_
      obtain ⟨s, same⟩ := text member here
      exact same ▸ Nat.le_refl 0
    rw [Json.depth]
    have : depthLimit = 127 := rfl
    omega
  have same : (Json.object members).reread = .object members := by
    rw [Json.reread, rereadMembers_eq]
    congr 1
    refine (List.map_congr_left fun member here => ?_).trans (List.map_id members)
    obtain ⟨name, value⟩ := member
    obtain ⟨s, rfl⟩ := text _ here
    rfl
  exact (parse_compact proper shallow).trans (congrArg _ same)

namespace Run

variable {settings : RunSettings} {flow : Flow} {visits : List Visit} {env : Environment}
  {family : TaskType → Option Behaviour}

-----------------------------------------------------------------------------------------
-- The work of a visit
-----------------------------------------------------------------------------------------

/-- Executors that give back the node and the inputs that they are lent. -/
def Restores (registry : Registry) : Prop :=
  ∀ t executor, registry t = some executor →
    ∀ work, executor.Always work fun _ _ left =>
      left.node = work.node ∧ left.inputs = work.inputs

/-- Executors that behave in given ways do so. -/
theorem restores_behaving (family : TaskType → Option Behaviour) : Restores (behaving family) := by
  intro t executor found work calls outcome ends
  obtain ⟨behaviour, _, rfl⟩ := Option.map_eq_some_iff.mp found
  obtain ⟨_, session, _⟩ := Behaviour.session_of_ends ends
  exact ⟨session.leaves.1, session.leaves.2.1⟩

/-- The work on a node touches no other node, and keeps the inputs that it started with. -/
theorem Worked.frame {phase : PhaseRecord} {node : Node} {log : Log}
    {calls : List (Happening runCalls)} {outcome : Bool × Log × Environment}
    (worked : Worked settings phase (.ok node) log env calls outcome)
    (restores : Restores settings.registry)
    : (∀ other, node.id ≠ other → outcome.2.2.slots other = env.slots other)
      ∧ (outcome.2.2.slots node.id).inputs = (env.slots node.id).inputs := by
  cases worked with
  | unreadable unread => cases unread
  | unknown aside missing errors => exact ⟨fun _ _ => rfl, rfl⟩
  | @done _ _ _ _ work _ _ _ _ read found ends aside told logged broke =>
      cases read
      have same : work.node = node.id := (restores _ _ found _ _ _ ends).1
      refine ⟨fun other apart => ?_, ?_⟩
      · change (env.takeBack work).slots other = _
        rw [Environment.slots_takeBack, same, if_neg apart]
      · change ((env.takeBack work).slots node.id).inputs = _
        rw [Environment.slots_takeBack, same, if_pos rfl]

/-- The task that worked on a node has gone through a session, unless there is no executor. -/
theorem Worked.session {phase : PhaseRecord} {node : Node} {log : Log}
    {calls : List (Happening runCalls)} {outcome : Bool × Log × Environment}
    (worked : Worked settings phase (.ok node) log env calls outcome)
    (registry : settings.registry = behaving family)
    : (∃ behaviour trace verdict work,
        family phase.taskType = some behaviour
        ∧ behaviour.Session (env.lend node.id log) trace verdict work
        ∧ trace.outside.map asked <+: calls
        ∧ (outcome.1 = true ↔ verdict = .ok true)
        ∧ outcome.2.2 = env.takeBack work)
      ∨ outcome.1 = false ∧ outcome.2.2 = env := by
  cases worked with
  | unreadable unread => cases unread
  | unknown aside missing errors => exact Or.inr ⟨rfl, rfl⟩
  | done read found ends aside told logged broke =>
      cases read
      rw [registry] at found
      obtain ⟨behaviour, behaves, rfl⟩ := Option.map_eq_some_iff.mp found
      obtain ⟨trace, session, rfl⟩ := Behaviour.session_of_ends ends
      exact Or.inl ⟨behaviour, trace, _, _, behaves, session, List.prefix_append _ _, told, rfl⟩

/-- A visit has worked on its node. -/
theorem Visited.worked {visit : Visit} {node : Node} (visited : Visited settings flow env visit)
    (parsed : Node.parse visit.phase.node = .ok node)
    : ∃ log,
        Worked settings visit.phase (.ok node) log visit.env visit.calls
          (visit.success, visit.log, visit.left) := by
  obtain ⟨log, ends⟩ := visited.performed
  rw [parsed] at ends
  exact ⟨log, always_perform _ _ _ _ _ _ _ ends⟩

/-- A task has gone through a session in what its node lent it: its calls to the outside were made
in the visit, its verdict is that of the visit, and what it gave back was left.
-/
def Visit.Performs (family : TaskType → Option Behaviour) (visit : Visit) (trace : Trace) : Prop :=
  ∃ behaviour log verdict work,
    family visit.phase.taskType = some behaviour
    ∧ behaviour.Session (visit.env.lend visit.nodeId log) trace verdict work
    ∧ trace.outside.map asked <+: visit.calls
    ∧ (visit.success = true ↔ verdict = .ok true)
    ∧ visit.left = visit.env.takeBack work

/-- The node of a phase is told by its identifier. -/
theorem Opening.nodeId_eq {opening : Opening} {node : Node}
    (parsed : Node.parse opening.phase.node = .ok node)
    : opening.nodeId = node.id := by
  simp [Opening.nodeId, parsed, Run.nodeId]

/-- The task of a visit has performed, unless there is no executor for it. -/
theorem Visited.performs {visit : Visit} {node : Node} (visited : Visited settings flow env visit)
    (parsed : Node.parse visit.phase.node = .ok node)
    (registry : settings.registry = behaving family)
    : (∃ trace, visit.Performs family trace)
      ∨ visit.success = false ∧ visit.left = visit.env := by
  obtain ⟨log, worked⟩ := visited.worked parsed
  rcases worked.session registry
    with ⟨behaviour, trace, verdict, work, behaves, session, rest⟩ | unknown
  · rw [← Opening.nodeId_eq parsed] at session
    exact Or.inl ⟨trace, behaviour, log, verdict, work, behaves, session, rest⟩
  · exact Or.inr unknown

/-- What a performance leaves: the other nodes and the inputs as they were, and on the outputs what
the task put there.
-/
theorem Visit.Performs.leaves {visit : Visit} {trace : Trace}
    (performs : visit.Performs family trace)
    (other : String)
    : visit.left.slots other
      = if visit.nodeId = other then
          { visit.env.slots other with
            outputs := trace.writes.foldl (fun acc (name, value) => Named.put name value acc)
              (visit.env.slots other).outputs }
        else visit.env.slots other := by
  obtain ⟨behaviour, log, verdict, work, _, session, _, _, left⟩ := performs
  obtain ⟨same, inputs, outputs⟩ := session.leaves
  rw [left, Environment.slots_takeBack, same, outputs]
  change (if visit.nodeId = other then _ else _) = _
  split_ifs with here
  · rw [← here]
    rfl
  · rfl

-----------------------------------------------------------------------------------------
-- Visits in order
-----------------------------------------------------------------------------------------

/-- The node of a phase can be read. -/
def Opening.Readable (opening : Opening) : Prop :=
  ∃ node, Node.parse opening.phase.node = .ok node

/-- Each visit of a walk comes after the walk over those before it, by induction over the walk. -/
theorem Walked.split (walked : Walked settings flow visits env) {before after : List Visit}
    {visit : Visit} (order : visits = before ++ visit :: after)
    : ∃ env, Walked settings flow before env ∧ Visited settings flow env visit := by
  induction walked generalizing after with
  | start => simp at order
  | @visit visits last env walked visited succeeds ih =>
      rcases List.eq_nil_or_concat after with rfl | ⟨front, other, rfl⟩
      · obtain ⟨rfl, same⟩ := List.append_inj' order rfl
        obtain rfl := List.singleton_inj.mp same
        exact ⟨env, walked, visited⟩
      · have order' : visits ++ [last] = (before ++ visit :: front) ++ [other] := by
          simpa using order
        obtain ⟨same, _⟩ := List.append_inj' order' rfl
        exact ih same

/-- A visit touches no node but its own, and keeps the inputs that it started with. -/
theorem Visited.frame {visit : Visit} (visited : Visited settings flow env visit)
    (readable : visit.Readable) (restores : Restores settings.registry)
    : (∀ other, visit.nodeId ≠ other →
          visit.env.slots other = env.slots other
          ∧ visit.left.slots other = visit.env.slots other)
      ∧ (visit.left.slots visit.nodeId).inputs = (visit.env.slots visit.nodeId).inputs := by
  obtain ⟨node, parsed⟩ := readable
  obtain ⟨_, worked⟩ := visited.worked parsed
  obtain ⟨frame, inputs⟩ := worked.frame restores
  rw [Opening.nodeId_eq parsed]
  refine ⟨fun other apart => ⟨?_, frame other apart⟩, inputs⟩
  rw [visited.prepared, slots_prepared parsed, if_neg apart]

/-- What a visit left of its node is there as long as the node is not visited again, by induction
over the walk.
-/
theorem Walked.kept (walked : Walked settings flow visits env)
    (restores : Restores settings.registry)
    (readable : ∀ visit ∈ visits, visit.Readable) (distinct : (visits.map (·.nodeId)).Nodup)
    : ∀ visit ∈ visits, env.slots visit.nodeId = visit.left.slots visit.nodeId := by
  induction walked with
  | start => simp
  | @visit visits last env walked visited succeeds ih =>
      rw [List.map_append, List.nodup_append] at distinct
      obtain ⟨distinct, _, apart⟩ := distinct
      intro visit member
      rcases List.mem_append.mp member with early | same
      · have other : last.nodeId ≠ visit.nodeId :=
          (apart _ (List.mem_map_of_mem early) _ (by simp)).symm
        obtain ⟨frame, _⟩ := visited.frame (readable last (by simp)) restores
        obtain ⟨opened, left⟩ := frame _ other
        rw [left, opened]
        exact ih (fun visit early => readable visit (by simp [early])) distinct visit early
      · obtain rfl := List.mem_singleton.mp same
        rfl

-----------------------------------------------------------------------------------------
-- Started phases
-----------------------------------------------------------------------------------------

namespace Stage

/-- A phase was started after some visits. -/
inductive Started : Stage → List Visit → Opening → Prop where
  | visited {stage : Stage} {before after : List Visit} {visit : Visit}
      (order : stage.visits = before ++ visit :: after)
      : Started stage before visit.toOpening
  | running (time : Time.Instant) (visits : List Visit) (opening : Opening)
      (rest : List PhaseRecord)
      : Started (.within time visits opening rest) visits opening

variable {phases : List PhaseRecord} {stage : Stage}

/-- All but the last of the visits of a stage form a walk, and so may all of them. -/
theorem Sound.walked (sound : stage.Sound settings flow phases)
    : ∃ visits env,
        Walked settings flow visits env
        ∧ (stage.visits = visits
            ∨ ∃ visit, stage.visits = visits ++ [visit] ∧ Visited settings flow env visit)
        ∧ stage.visits.map (·.phase) <+: phases := by
  cases sound with
  | created => exact ⟨[], _, .start, Or.inl rfl, List.nil_prefix⟩
  | marked time => exact ⟨[], _, .start, Or.inl rfl, List.nil_prefix⟩
  | between walked order => exact ⟨_, _, walked, Or.inl rfl, _, order.symm⟩
  | within walked opened order => exact ⟨_, _, walked, Or.inl rfl, _, order.symm⟩
  | @behind _ _ _ rest _ walked visited order =>
      exact ⟨_, _, walked, Or.inr ⟨_, rfl, visited⟩, rest, by simp [order, Stage.visits]⟩
  | completed walked order => exact ⟨_, _, walked, Or.inl rfl, [], by simp [order, Stage.visits]⟩
  | @failed _ _ _ rest _ _ walked visited fails order =>
      exact ⟨_, _, walked, Or.inr ⟨_, rfl, visited⟩, rest, by simp [order, Stage.visits]⟩
  | stopped walked left order => exact ⟨_, _, walked, Or.inl rfl, _, order.symm⟩

/-- Each visit of a stage comes after a walk over those before it. -/
theorem Sound.split (sound : stage.Sound settings flow phases) {before after : List Visit}
    {visit : Visit} (order : stage.visits = before ++ visit :: after)
    : ∃ env, Walked settings flow before env ∧ Visited settings flow env visit := by
  obtain ⟨visits, env, walked, same | ⟨last, same, visited⟩, _⟩ := sound.walked
  · exact walked.split (same.symm.trans order)
  · rcases List.eq_nil_or_concat after with rfl | ⟨front, other, rfl⟩
    · obtain ⟨rfl, same⟩ := List.append_inj' (same.symm.trans order) rfl
      obtain rfl := List.singleton_inj.mp same
      exact ⟨env, walked, visited⟩
    · have order' : visits ++ [last] = (before ++ visit :: front) ++ [other] := by
        rw [← same, order]
        simp
      obtain ⟨front, _⟩ := List.append_inj' order' rfl
      exact walked.split front

/-- A phase is started in the environment that the walk over those before it left. -/
theorem Sound.started (sound : stage.Sound settings flow phases) {before : List Visit}
    {opening : Opening} (started : stage.Started before opening)
    : ∃ env rest,
        Walked settings flow before env
        ∧ opening.env = prepared settings.catalog flow opening.phase env
        ∧ phases = before.map (·.phase) ++ opening.phase :: rest := by
  cases started with
  | @visited _ _ after visit order =>
      obtain ⟨env, walked, visited⟩ := sound.split order
      obtain ⟨_, _, _, _, rest, whole⟩ := sound.walked
      refine ⟨env, after.map (·.phase) ++ rest, walked, visited.prepared, ?_⟩
      rw [← whole, order]
      simp
  | running time visits opening rest =>
      cases sound with
      | within walked opened order => exact ⟨_, rest, walked, opened, order⟩

/-- A visit of a stage was started after those before it. -/
theorem started_of_mem {visit : Visit} (member : visit ∈ stage.visits)
    : ∃ before, stage.Started before visit.toOpening := by
  obtain ⟨before, after, order⟩ := List.append_of_mem member
  exact ⟨before, .visited order⟩

/-- What was visited before a phase was started was visited by the stage. -/
theorem Started.earlier {before : List Visit} {opening : Opening}
    (started : stage.Started before opening) {visit : Visit} (member : visit ∈ before)
    : ∃ first, stage.Started first visit.toOpening := by
  cases started with
  | visited order => exact started_of_mem (by rw [order]; exact List.mem_append_left _ member)
  | running time visits opening rest => exact started_of_mem member

/-- The record of a visit is among those of its stage. -/
theorem finished_mem {visit : Visit} (member : visit ∈ stage.visits)
    : visit.finished settings.catalog ∈ stage.records settings phases := by
  have listed (visits : List Visit) (here : visit ∈ visits)
      : visit.finished settings.catalog ∈ visits.map (Visit.finished settings.catalog) :=
    List.mem_map_of_mem here
  cases stage with
  | created => cases member
  | marked time => cases member
  | between time visits rest => exact List.mem_append_left _ (listed visits member)
  | within time visits opening rest => exact List.mem_append_left _ (listed visits member)
  | behind time visits last rest =>
      have here := listed _ member
      simp only [Stage.visits, List.map_append, List.map_cons, List.map_nil] at here
      simp only [Stage.records]
      rw [List.append_cons]
      exact List.mem_append_left _ here
  | ended time visits rest closing => exact List.mem_append_left _ (listed visits member)

/-- A record that shows a start is that of a visit or of the phase that runs, for what waits is as
it was created.
-/
theorem Sound.started_of_record (sound : stage.Sound settings flow phases) {execution : Execution}
    (fresh : IsFresh execution phases) {record : PhaseRecord}
    (member : record ∈ stage.records settings phases) (begun : record.startedAt ≠ none)
    : ∃ before opening,
        stage.Started before opening
        ∧ record.id = opening.phase.id
        ∧ record.node = opening.phase.node
        ∧ record.inputs = opening.running.inputs := by
  have ended (visits : List Visit) (rest : List PhaseRecord)
      (here : record ∈ visits.map (Visit.finished settings.catalog) ++ rest.map queued)
      (visited : ∀ visit ∈ visits, visit ∈ stage.visits) (some' : ∀ phase ∈ rest, phase ∈ phases)
      : ∃ before opening,
          stage.Started before opening
          ∧ record.id = opening.phase.id
          ∧ record.node = opening.phase.node
          ∧ record.inputs = opening.running.inputs := by
    rcases List.mem_append.mp here with done | waiting
    · obtain ⟨visit, there, rfl⟩ := List.mem_map.mp done
      obtain ⟨before, started⟩ := started_of_mem (visited visit there)
      exact ⟨before, visit.toOpening, started, rfl, rfl, rfl⟩
    · obtain ⟨phase, among, rfl⟩ := List.mem_map.mp waiting
      exact absurd (fresh.created phase (some' phase among)).2.1 begun
  cases sound with
  | created => exact absurd (fresh.created record member).2.1 begun
  | marked time => exact absurd (fresh.created record member).2.1 begun
  | between walked order => exact ended _ _ member (fun _ => id) (by simp +contextual [order])
  | @within time visits opening rest _ walked opened order =>
      simp only [records, List.mem_append, List.mem_cons] at member
      rcases member with done | rfl | waiting
      · exact ended visits [] (by simpa using done) (fun _ => id) (by simp)
      · exact ⟨visits, opening, .running time visits opening rest, rfl, rfl, rfl⟩
      · exact ended [] rest (by simpa using waiting) (by simp) (by simp +contextual [order])
  | @behind time visits visit rest _ walked visited order =>
      refine ended (visits ++ [visit]) rest ?_ (fun _ => id) (by simp +contextual [order])
      simpa [records] using member
  | completed walked order => exact ended _ _ member (fun _ => id) (by simp)
  | failed walked visited fails order =>
      exact ended _ _ member (fun _ => id) (by simp +contextual [order])
  | stopped walked left order =>
      exact ended _ _ member (fun _ => id) (by simp +contextual [order])

end Stage

-----------------------------------------------------------------------------------------
-- Supplied phases
-----------------------------------------------------------------------------------------

/-- The text under a name in a stored record of texts. -/
def storedText? (stored : Option String) (name : String) : Option String :=
  ((stored.bind parse?).bind (Json.member? name)).bind Json.asString?

/-- A record of texts that keeps values: it has their names, each with the text of its value. -/
def Keeps (stored : Option String) (values : Values) : Prop :=
  (values.map (·.1)).Nodup
  ∧ stored.bind parse?
    = some (.object (values.map fun (name, value) => (name, .string value.kept)))

/-- A phase starts with what its graph supplies: the literals of its node as they read back, and
for an input without one the value that the first edge into it brings, which was written last by
the task of an earlier phase that is completed. It has no other inputs, and its record keeps them.
-/
structure Supplied (family : TaskType → Option Behaviour) (catalog : Catalog) (flow : Flow)
    (node : Node) (before : List Visit) (opening : Opening) : Prop where
  literal
    : ∀ name ∈ valueInputs (Flow.paramsOf catalog node), ∀ value,
        node.literal? name = some value
        → opening.env.input? node.id name = some value.reread
  wired
    : ∀ name ∈ valueInputs (Flow.paramsOf catalog node),
        node.literal? name = none
        → ∀ edge, flow.incomingEdge? node.id name = some edge
        → ∃ visit ∈ before, ∃ trace,
            visit.nodeId = edge.source
            ∧ (visit.finished catalog).status = .completed
            ∧ visit.Performs family trace
            ∧ opening.env.input? node.id name = trace.lastWritten? edge.sourceHandle
            ∧ storedText? opening.running.inputs name
              = storedText? (visit.finished catalog).outputs edge.sourceHandle
  unfed
    : ∀ name ∈ valueInputs (Flow.paramsOf catalog node),
        node.literal? name = none
        → flow.incomingEdge? node.id name = none
        → opening.env.input? node.id name = none
  only
    : ∀ name,
        (opening.env.input? node.id name).isSome
        → name ∈ valueInputs (Flow.paramsOf catalog node)
  kept : Keeps opening.running.inputs (opening.env.slots node.id).inputs

/-- The text that a record keeps under a name is that of the value. -/
theorem Keeps.entry {stored : Option String} {values : Values} (keeps : Keeps stored values)
    (name : String)
    : storedText? stored name = (Named.get? name values).map TaskValue.kept := by
  rw [storedText?, keeps.2, Option.bind_some, Json.member?,
    Named.get?_map (fun value : TaskValue => Json.string value.kept)]
  cases Named.get? name values <;> rfl

/-- Values without a name twice are kept by their text. -/
theorem keeps_keptText {values : Values} (distinct : (values.map (·.1)).Nodup)
    : Keeps (some values.keptText) values := by
  refine ⟨distinct, ?_⟩
  rw [Option.bind_some, parse?, Values.parse_keptText distinct]
  rfl

/-- Phases that are made for nodes can be told apart by the nodes that they are made for, by
induction over the phases in front.
-/
theorem split_phasesFor {catalog : Catalog} {id : Uuid} {position : Nat}
    {nodes : List (Nat × Node)} {front back : List PhaseRecord} {phase : PhaseRecord}
    (phasesFor : Service.PhasesFor catalog id position nodes (front ++ phase :: back))
    : ∃ early number node late,
        nodes = early ++ (number, node) :: late
        ∧ phase.node = node.text
        ∧ phase.taskType = node.taskType
        ∧ front.map (·.node) = early.map (·.2.text) := by
  induction front generalizing position nodes with
  | nil =>
      cases phasesFor with
      | cons id number position node rest => exact ⟨[], number, node, _, rfl, rfl, rfl, rfl⟩
  | cons first front ih =>
      cases phasesFor with
      | cons id number position node rest =>
          obtain ⟨early, number', node', late, rfl, text, type, others⟩ := ih rest
          exact ⟨(number, node) :: early, number', node', late, rfl, text, type,
            congrArg (node.text :: ·) others⟩

/-- A visit that succeeds leaves exactly the last values that its task wrote. -/
theorem Visited.outputs {visit : Visit} (visited : Visited settings flow env visit)
    (readable : visit.Readable) (registry : settings.registry = behaving family)
    (succeeds : visit.success = true)
    : ∃ trace,
        visit.Performs family trace
        ∧ (visit.left.slots visit.nodeId).outputs = Named.collect trace.writes := by
  obtain ⟨node, parsed⟩ := readable
  have told := Opening.nodeId_eq parsed
  rcases visited.performs parsed registry with ⟨trace, performs⟩ | ⟨fails, _⟩
  · refine ⟨trace, performs, ?_⟩
    have opened : (visit.env.slots visit.nodeId).outputs = [] := by
      rw [visited.prepared, slots_prepared parsed, told, if_pos rfl]
    rw [performs.leaves, if_pos rfl, opened]
    rfl
  · rw [succeeds] at fails
    cases fails

/-- What a visit of a walk left is what its task wrote last, and its record keeps that. -/
theorem Walked.wrote (walked : Walked settings flow visits env)
    (registry : settings.registry = behaving family) {visit : Visit} (member : visit ∈ visits)
    (readable : visit.Readable)
    : ∃ trace,
        visit.Performs family trace
        ∧ (visit.left.slots visit.nodeId).outputs = Named.collect trace.writes
        ∧ Keeps (visit.finished settings.catalog).outputs
            (visit.left.slots visit.nodeId).outputs := by
  obtain ⟨before, after, order⟩ := List.append_of_mem member
  obtain ⟨_, _, visited⟩ := walked.split order
  obtain ⟨trace, performs, outputs⟩ :=
    visited.outputs readable registry (walked.succeeds visit member)
  refine ⟨trace, performs, outputs, ?_⟩
  have names : ((visit.left.slots visit.nodeId).outputs.map (·.1)).Nodup := by
    rw [outputs]
    exact Named.nodup_collect _
  exact keeps_keptText names

section

variable {request : RunRequest} {plan : Plan} {execution : Execution} {phases : List PhaseRecord}
  {stage : Stage} {before : List Visit} {opening : Opening}

/-- Every started phase is made for a node of the graph, and the phases before it for the nodes
that the plan has before that node.
-/
theorem planned_of_started
    (creation : Service.Created settings.catalog request flow plan execution phases)
    (sound : stage.Sound settings flow phases) (started : stage.Started before opening)
    : ∃ early number node late,
        plan.nodes = early ++ (number, node) :: late
        ∧ opening.phase.taskType = node.taskType
        ∧ opening.phase.node = node.text
        ∧ Node.parse opening.phase.node = .ok node.reread
        ∧ before.map (·.nodeId) = early.map (·.2.id)
        ∧ ∀ visit ∈ before, visit.Readable := by
  obtain ⟨env, rest, walked, opened, order⟩ := sound.started started
  have phasesFor := creation.phasesFor
  rw [order] at phasesFor
  obtain ⟨early, number, node, late, nodes, text, type, others⟩ := split_phasesFor phasesFor
  have parsed (entry : Nat × Node) (member : entry ∈ plan.nodes)
      : Node.parse entry.2.text = .ok entry.2.reread := by
    have inside : entry.2 ∈ flow.nodes := Flow.mem_of_plan creation.planned member
    exact Node.parse_text (Flow.fits_of_parse creation.parsed _ inside)
  have texts : before.map (·.phase.node) = early.map (·.2.text) := by
    rw [← others, List.map_map]
    rfl
  refine ⟨early, number, node, late, nodes, type, text, ?_, ?_, ?_⟩
  · exact text ▸ parsed (number, node) (by simp [nodes])
  · calc before.map (·.nodeId)
        = (before.map (·.phase.node)).map fun text => Run.nodeId (Node.parse text) := by
          simp [Opening.nodeId]
      _ = early.map fun entry => Run.nodeId (Node.parse entry.2.text) := by simp [texts]
      _ = early.map (·.2.id) := by
          refine List.map_congr_left fun entry member => ?_
          rw [parsed entry (by simp [nodes, member])]
          rfl
  · intro visit member
    have there : visit.phase.node ∈ before.map (·.phase.node) := List.mem_map_of_mem member
    rw [texts] at there
    obtain ⟨entry, among, same⟩ := List.mem_map.mp there
    exact ⟨_, same ▸ parsed entry (by simp [nodes, among])⟩

/-- What an edge brings to a started phase is what its source was left with: the plan runs the
source before it, and what was left there is still there.
-/
theorem brought_of_started
    (creation : Service.Created settings.catalog request flow plan execution phases)
    (sound : stage.Sound settings flow phases) (restores : Restores settings.registry)
    (started : stage.Started before opening)
    : ∃ number node env,
        (number, node) ∈ plan.nodes
        ∧ opening.phase.taskType = node.taskType
        ∧ opening.phase.node = node.text
        ∧ Node.parse opening.phase.node = .ok node.reread
        ∧ opening.env = prepared settings.catalog flow opening.phase env
        ∧ Walked settings flow before env
        ∧ ∀ name ∈ valueInputs (Flow.paramsOf settings.catalog node),
            node.literal? name = none
            → ∀ edge, flow.incomingEdge? node.id name = some edge
            → ∃ visit ∈ before,
                visit.nodeId = edge.source
                ∧ visit.Readable
                ∧ opening.env.input? node.id name
                  = Named.get? edge.sourceHandle (visit.left.slots visit.nodeId).outputs := by
  obtain ⟨env, rest, walked, opened, _⟩ := sound.started started
  obtain ⟨early, number, node, late, nodes, type, text, parsed, ids, readable⟩ :=
    planned_of_started creation sound started
  have distinct := Flow.distinct_of_plan creation.planned
  rw [nodes, List.map_append, ← ids, List.nodup_append] at distinct
  obtain ⟨distinct, _, apart⟩ := distinct
  refine ⟨number, node, env, by simp [nodes], type, text, parsed, opened, walked, ?_⟩
  intro name declared absent edge found
  obtain ⟨param, there, rfl⟩ := List.mem_map.mp declared
  have supplier : edge.source ∈ flow.suppliers settings.catalog node :=
    Flow.mem_suppliers.mpr ⟨param, List.mem_of_mem_filter there, absent, edge, found, rfl⟩
  obtain ⟨entry, among, source⟩ := Flow.supplied_before creation.planned nodes supplier
  have visited : edge.source ∈ before.map (·.nodeId) :=
    ids ▸ source ▸ List.mem_map_of_mem (f := (·.2.id)) among
  have other : node.id ≠ edge.source := (apart _ visited _ (by simp)).symm
  obtain ⟨visit, earlier, same⟩ := List.mem_map.mp visited
  refine ⟨visit, earlier, same, readable visit earlier, ?_⟩
  have wired : opening.env.input? node.id param.name
      = wired? flow node.reread (env.prepare node.id) param.name := by
    rw [opened]
    exact (input?_prepared parsed env param.name).trans (if_pos declared)
  rw [wired, wired?, Node.literal?_reread, absent,
    ← walked.kept restores readable distinct visit earlier, same]
  change ((flow.incomingEdge? node.id param.name).bind _) = _
  rw [found, Option.bind_some, Environment.output?, Environment.slots_prepare, if_neg other]

/-- Every started phase is supplied as the graph says. -/
theorem supplied_of_started
    (creation : Service.Created settings.catalog request flow plan execution phases)
    (sound : stage.Sound settings flow phases) (registry : settings.registry = behaving family)
    (started : stage.Started before opening)
    : ∃ node ∈ flow.nodes,
        opening.phase.taskType = node.taskType
        ∧ opening.phase.node = node.text
        ∧ opening.nodeId = node.id
        ∧ Supplied family settings.catalog flow node before opening := by
  obtain ⟨number, node, env, listed, type, text, parsed, opened, walked, brought⟩ :=
    brought_of_started creation sound (registry ▸ restores_behaving family) started
  have member : node ∈ flow.nodes := Flow.mem_of_plan creation.planned listed
  have told : opening.nodeId = node.reread.id := Opening.nodeId_eq parsed
  let params := Flow.paramsOf settings.catalog node
  let start := env.prepare node.id
  have input (name : String)
      : opening.env.input? node.id name
        = if name ∈ valueInputs params then wired? flow node.reread start name else none := by
    rw [opened]
    exact input?_prepared parsed env name
  have kept : Keeps opening.running.inputs (opening.env.slots node.id).inputs := by
    have slots : opening.env.slots node.id
        = ⟨Named.collect (wiredValues flow node.reread params start), []⟩ := by
      rw [opened, slots_prepared parsed]
      exact if_pos rfl
    have names : ((opening.env.slots node.id).inputs.map (·.1)).Nodup := by
      rw [slots]
      exact Named.nodup_collect _
    change Keeps (some (opening.env.slots opening.nodeId).inputs.keptText) _
    rw [told]
    exact keeps_keptText names
  refine ⟨node, member, type, text, told, ?_, ?_, ?_, ?_, kept⟩
  · intro name declared value given
    rw [input, if_pos declared, wired?, Node.literal?_reread, given]
    rfl
  · intro name declared absent edge found
    obtain ⟨visit, earlier, same, readable, fed⟩ := brought name declared absent edge found
    obtain ⟨trace, performs, outputs, stored⟩ := walked.wrote registry earlier readable
    refine ⟨visit, earlier, trace, same, ?_, performs, ?_, ?_⟩
    · simp [Visit.finished, walked.succeeds visit earlier]
    · rw [fed, outputs, Named.get?_collect]
      rfl
    · rw [kept.entry, stored.entry, ← fed]
      rfl
  · intro name declared absent free
    rw [input, if_pos declared, wired?, Node.literal?_reread, absent]
    change ((flow.incomingEdge? node.id name).bind _) = none
    rw [free]
    rfl
  · intro name held
    rw [input] at held
    by_contra undeclared
    rw [if_neg undeclared] at held
    cases held

end

end Run

end Harvest

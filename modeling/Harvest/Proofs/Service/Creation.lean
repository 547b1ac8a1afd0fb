import Harvest.Proofs.Plan.Layers
import Harvest.Proofs.Run.Scene
import Harvest.Proofs.Store.Ledger
import Harvest.Service.Create

/-! How executions come to be. What is created goes by identifiers that nothing else goes by,
with one phase for each planned node, in the order of the plan.
-/

namespace Harvest

-----------------------------------------------------------------------------------------
-- The phases of a plan
-----------------------------------------------------------------------------------------

namespace Service

/-- The records are one fresh phase for each planned node, in order from a position on. -/
inductive PhasesFor (catalog : Catalog) (execution : Uuid)
    : Nat → List (Nat × Node) → List PhaseRecord → Prop where
  | nil (position : Nat) : PhasesFor catalog execution position [] []
  | cons (id : Uuid) (number position : Nat) (node : Node) {nodes : List (Nat × Node)}
      {phases : List PhaseRecord} (rest : PhasesFor catalog execution (position + 1) nodes phases)
      : PhasesFor catalog execution position ((number, node) :: nodes)
          (.fresh id execution number position (label catalog node.taskType) node.taskType
            node.text :: phases)

namespace PhasesFor

variable {catalog : Catalog} {execution : Uuid} {position : Nat} {nodes : List (Nat × Node)}
  {phases : List PhaseRecord}

/-- Each phase belongs to the execution and has not started, by induction over the nodes. -/
theorem fresh (phasesFor : PhasesFor catalog execution position nodes phases)
    {phase : PhaseRecord} (member : phase ∈ phases)
    : phase.executionId = execution
      ∧ phase.status = .created
      ∧ phase.startedAt = none
      ∧ phase.inputs = none
      ∧ phase.outputs = none := by
  induction phasesFor with
  | nil _ => simp at member
  | cons id number position node _ ih =>
      rcases List.mem_cons.mp member with rfl | later
      · exact ⟨rfl, rfl, rfl, rfl, rfl⟩
      · exact ih later

/-- Each phase has the number of a node and a position not before the first one. -/
theorem placed (phasesFor : PhasesFor catalog execution position nodes phases)
    {phase : PhaseRecord} (member : phase ∈ phases)
    : phase.number ∈ nodes.map (·.1) ∧ position ≤ phase.position := by
  induction phasesFor with
  | nil _ => simp at member
  | cons id number position node _ ih =>
      rcases List.mem_cons.mp member with rfl | later
      · exact ⟨List.mem_cons_self, Nat.le_refl _⟩
      · obtain ⟨numbered, after⟩ := ih later
        exact ⟨List.mem_cons_of_mem _ numbered, by omega⟩

/-- The phases precede one another when the numbers of the nodes do not fall. -/
theorem precedes (phasesFor : PhasesFor catalog execution position nodes phases)
    (rising : (nodes.map (·.1)).Pairwise (· ≤ ·))
    : phases.Pairwise PhaseRecord.Precedes := by
  induction phasesFor with
  | nil _ => exact .nil
  | cons id number position node rest ih =>
      rw [List.map_cons, List.pairwise_cons] at rising
      refine List.pairwise_cons.mpr ⟨fun later member => ?_, ih rising.2⟩
      obtain ⟨numbered, after⟩ := rest.placed member
      have notBefore : number ≤ later.number := rising.1 _ numbered
      rcases Nat.lt_or_eq_of_le notBefore with less | same
      · exact Or.inl less
      · exact Or.inr ⟨same, after⟩

/-- So they are in plan order. -/
theorem sorted (phasesFor : PhasesFor catalog execution position nodes phases)
    (rising : (nodes.map (·.1)).Pairwise (· ≤ ·))
    : phases.Pairwise fun a b => a.upTo b :=
  (phasesFor.precedes rising).imp PhaseRecord.Precedes.upTo

/-- A fresh execution and the phases that are made for it are fresh. -/
theorem isFresh (phasesFor : PhasesFor catalog execution position nodes phases)
    {record : Execution} (pending : record.status = .pending) (unpaid : record.credits = 0)
    (rising : (nodes.map (·.1)).Pairwise (· ≤ ·))
    : IsFresh record phases where
  pending := pending
  unpaid := unpaid
  created _ member := (phasesFor.fresh member).2
  sorted := phasesFor.sorted rising

end PhasesFor

end Service

-----------------------------------------------------------------------------------------
-- Creating an execution
-----------------------------------------------------------------------------------------

namespace Service

open Realm Program ServiceM

variable {α β : Type}

/-- Nothing is promised of single calls. -/
def AnyCall (call : ServiceCall) (_ : Scene) (_ : call.Answer) (_ : Scene) : Prop := True

/-- The identifiers were given out here and are not used yet. -/
def Reserved (ids : List Uuid) (scene : Scene) : Prop :=
  ids.Nodup ∧ ∀ id ∈ ids, id ∈ scene.given ∧ scene.store.Unused id

/-- Others do not use what was given out here. -/
theorem Reserved.drift {ids : List Uuid} {scene later : Scene} (reserved : Reserved ids scene)
    (drifts : Scene.Drifts scene later)
    : Reserved ids later := by
  refine ⟨reserved.1, fun id member => ?_⟩
  obtain ⟨given, unused⟩ := reserved.2 id member
  have kept := drifts.kept id given
  refine ⟨drifts.given ▸ given, ?_, kept.phases.trans unused.phases, kept.phase.trans unused.phase⟩
  rcases kept.execution with same | ⟨stored, held, _, _⟩
  · exact same.trans unused.execution
  · rw [unused.execution] at held
    cases held

/-- A fresh identifier is reserved with the others. -/
theorem safe_freshId {ids : List Uuid} {scene : Scene} (reserved : Reserved ids scene)
    {next : Uuid → ServiceM β} {wanted : β → Scene → Prop}
    (safe
      : ∀ id later,
          Reserved (id :: ids) later → serviceRealm.Safe AnyCall wanted (next id) later)
    : serviceRealm.Safe AnyCall wanted (freshId.bind next) scene := by
  intro before drifts id after serves
  refine ⟨trivial, safe id after ?_⟩
  have kept := reserved.drift drifts
  cases serves with
  | run replies =>
      obtain ⟨new, unused, rfl⟩ := replies.fresh_inv
      refine ⟨List.nodup_cons.mpr ⟨fun old => new (kept.2 id old).1, kept.1⟩, ?_⟩
      intro other member
      rcases List.mem_cons.mp member with rfl | old
      · exact ⟨List.mem_cons_self, unused⟩
      · exact ⟨List.mem_cons_of_mem _ (kept.2 other old).1, (kept.2 other old).2⟩

/-- The time can be asked for without touching what is reserved. -/
theorem safe_now {ids : List Uuid} {scene : Scene} (reserved : Reserved ids scene)
    {next : Time.Instant → ServiceM β} {wanted : β → Scene → Prop}
    (safe
      : ∀ time later, Reserved ids later → serviceRealm.Safe AnyCall wanted (next time) later)
    : serviceRealm.Safe AnyCall wanted (ServiceM.now.bind next) scene := by
  intro before drifts time after serves
  refine ⟨trivial, safe time after ?_⟩
  cases serves with
  | run replies =>
      obtain rfl := Scene.Replies.outside_inv (by trivial) replies
      have kept := reserved.drift drifts
      exact ⟨kept.1, kept.2⟩

/-- The store is asked, and a refusal is the end. -/
theorem safe_stored {ε : Type} {wrap : StoreError → ε} {call : StoreCall} {scene : Scene}
    {next : call.Result → ExceptT ε ServiceM β} {wanted : Except ε β → Scene → Prop}
    (refused : ∀ reason later, wanted (.error reason) later)
    (safe
      : ∀ before result,
          Scene.Drifts scene before
          → (Memory.answer call before.store).1 = .ok result
          → serviceRealm.Safe AnyCall wanted (ExceptT.run (next result))
              { before.after (.store call) (.ok result) with
                store := (Memory.answer call before.store).2 })
    : serviceRealm.Safe AnyCall wanted (ExceptT.run (stored wrap call >>= next)) scene := by
  intro before drifts answer after serves
  refine ⟨trivial, ?_⟩
  cases serves with
  | run replies =>
      obtain ⟨answered, rfl⟩ := Scene.Replies.store_inv replies
      cases answer with
      | error reason => exact fun later _ => refused _ later
      | ok result => exact safe before result drifts answered.symm

/-- Phase records are made under reserved identifiers, by induction over the nodes. -/
theorem safe_phaseRecords (catalog : Catalog) (execution : Uuid) (nodes : List (Nat × Node))
    (position : Nat) {ids : List Uuid} {scene : Scene} (reserved : Reserved ids scene)
    : serviceRealm.Safe AnyCall
        (fun phases later =>
          PhasesFor catalog execution position nodes phases
          ∧ Reserved (phases.reverse.map (·.id) ++ ids) later)
        (phaseRecords catalog execution position nodes) scene := by
  induction nodes generalizing position ids scene with
  | nil =>
      exact safe_done (fun drifts ⟨phasesFor, reserved⟩ => ⟨phasesFor, reserved.drift drifts⟩)
        ⟨.nil position, reserved⟩
  | cons node nodes ih =>
      obtain ⟨number, node⟩ := node
      refine safe_freshId reserved fun id scene reserved => ?_
      refine (ih (position + 1) reserved).followed fun phases scene made => ?_
      refine safe_done (fun drifts ⟨phasesFor, reserved⟩ => ⟨phasesFor, reserved.drift drifts⟩) ?_
      refine ⟨.cons id number position node made.1, ?_⟩
      simpa [PhaseRecord.fresh] using made.2

/-- What was created of a request: an execution that waits, with one phase for each node of the
plan of its graph, in plan order.
-/
structure Created (catalog : Catalog) (request : RunRequest) (flow : Flow) (plan : Plan)
    (execution : Execution) (phases : List PhaseRecord) : Prop where
  parsed : Flow.parse request.definition = .ok flow
  planned : flow.plan catalog = .ok plan
  definition : execution.definition = request.definition
  fresh : IsFresh execution phases
  phasesFor : PhasesFor catalog execution.id 0 plan.nodes phases

/-- A plan of a text is the plan of the graph that the text is read as. -/
theorem planned_of_planOf {catalog : Catalog} {definition : String} {plan : Plan}
    (outcome : planOf catalog definition = .ok plan)
    : ∃ flow, Flow.parse definition = .ok flow ∧ flow.plan catalog = .ok plan := by
  unfold planOf at outcome
  cases parsed : Flow.parse definition with
  | error reason => simp [parsed, Except.mapError, Bind.bind, Except.bind] at outcome
  | ok flow =>
      cases planned : flow.plan catalog with
      | error reason => simp [parsed, planned, Except.mapError, Bind.bind, Except.bind] at outcome
      | ok other =>
          simp only [parsed, planned, Except.mapError, Bind.bind, Except.bind, Except.ok.injEq]
            at outcome
          exact ⟨flow, rfl, outcome ▸ planned⟩

/-- A text has one plan. -/
theorem plan_unique {catalog : Catalog} {definition : String} {flow : Flow} {plan other : Plan}
    (outcome : planOf catalog definition = .ok plan)
    (parsed : Flow.parse definition = .ok flow) (planned : flow.plan catalog = .ok other)
    : other = plan := by
  obtain ⟨flow', parsed', planned'⟩ := planned_of_planOf outcome
  rw [parsed, Except.ok.injEq] at parsed'
  rw [← parsed', planned, Except.ok.injEq] at planned'
  exact planned'

/-- What is created under reserved identifiers is shown by the scene. -/
theorem Reserved.shows {execution : Execution} {phases : List PhaseRecord} {scene later : Scene}
    (reserved : Reserved (phases.reverse.map (·.id) ++ [execution.id]) scene)
    (owned : ∀ phase ∈ phases, phase.executionId = execution.id)
    (given : later.given = scene.given)
    (store : later.store = (Memory.answer (.createExecution execution phases) scene.store).2)
    : later.Shows execution phases := by
  obtain ⟨distinct, free⟩ := reserved
  have known : ∀ phase ∈ phases, phase.id ∈ phases.reverse.map (·.id) ++ [execution.id] :=
    fun phase member => by simp [List.mem_map_of_mem member]
  constructor
  · rw [store]
    refine Memory.shows_createExecution (free _ (by simp)).2.phases owned ?_ ?_
    · have reversed := (List.nodup_append.mp distinct).1
      rwa [List.map_reverse, List.nodup_reverse] at reversed
    · exact fun phase member => (free _ (known phase member)).2.phase
  · intro id member
    rw [given]
    refine (free id ?_).1
    simpa [or_comm] using member

/-- An execution that is created is shown by the store, with its phases. -/
theorem safe_createExecution (catalog : Catalog) (request : RunRequest) (scene : Scene)
    : serviceRealm.Safe AnyCall
        (fun result later =>
          ∀ execution, result = .ok execution
          → ∃ flow plan phases,
              Created catalog request flow plan execution phases
              ∧ later.Shows execution phases)
        (ExceptT.run (createExecution catalog request)) scene := by
  let wanted (result : Except TriggerError Execution) (later : Scene) : Prop :=
    ∀ execution, result = .ok execution
      → ∃ flow plan phases, Created catalog request flow plan execution phases
          ∧ later.Shows execution phases
  have refused (reason : TriggerError) (later : Scene) : wanted (.error reason) later :=
    fun _ same => by cases same
  refine safe_stored refused fun before workflow _ _ => ?_
  change Workflow at workflow
  cases foreign : workflow.userId != request.user with
  | true => exact fun later _ => refused _ later
  | false =>
      simp only [Bool.false_eq_true, if_false]
      rw [except_bind]
      cases outcome : planOf catalog request.definition with
      | error reason => exact fun later _ => refused _ later
      | ok plan =>
          obtain ⟨flow, parsed, planned⟩ := planned_of_planOf outcome
          change serviceRealm.Safe _ _ (ExceptT.run (liftM freshId >>= _)) _
          rw [except_lift_bind]
          refine safe_freshId ⟨.nil, fun _ none => by cases none⟩ fun id scene reserved => ?_
          rw [except_lift_bind]
          refine safe_now reserved fun time scene reserved => ?_
          rw [except_lift_bind]
          let execution := Execution.fresh id workflow.id time request.user request.definition
          refine (safe_phaseRecords catalog id plan.nodes 0 reserved).followed ?_
          rintro phases scene ⟨phasesFor, reserved⟩
          have created : Created catalog request flow plan execution phases :=
            ⟨parsed, planned, rfl, phasesFor.isFresh rfl rfl (Flow.numbers_rising planned),
              phasesFor⟩
          refine safe_stored refused fun before _ drifts _ => ?_
          have ours := reserved.drift drifts
          have owned : ∀ phase ∈ phases, phase.executionId = execution.id :=
            fun phase member => (phasesFor.fresh member).1
          refine safe_stored refused fun later _ drifts _ => ?_
          have kept : later.Shows execution phases :=
            Scene.Shows.drift (ours.shows owned (by rfl) (by rfl)) drifts
          intro last drifts _ same
          cases same
          refine ⟨flow, plan, phases, created, Scene.Shows.drift ?_ drifts⟩
          exact ⟨kept.stored.recordLastRunStart .., kept.ours⟩

end Service

end Harvest

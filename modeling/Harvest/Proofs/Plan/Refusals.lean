import Harvest.Proofs.Plan.Checks
import Harvest.Task.Standard

/-! Why a graph that passes the checks has no plan. A stuck plan names exactly the nodes that
no round can schedule, and these wait for each other in a circle; an unsatisfiable node really
lacks the named inputs, and nothing before it is at fault.
-/

namespace Harvest.Flow

open Relation

/-- A node that some round can schedule: it is fed, and so can be all its suppliers. -/
inductive Schedulable (flow : Flow) (catalog : Catalog) : String → Prop
  | node {node} (member : node ∈ flow.nodes) (fed : flow.Fed catalog node)
    (suppliers : ∀ source ∈ flow.suppliers catalog node, Schedulable flow catalog source)
    : Schedulable flow catalog node.id

/-- An edge leads from one node to another. -/
def Joins (flow : Flow) (source target : String) : Prop :=
  ∃ edge ∈ flow.edges, edge.source = source ∧ edge.target = target

/-- The identifiers are those of the nodes that no round can schedule, in input order, and
each has a predecessor among them.
-/
structure StuckOn (flow : Flow) (catalog : Catalog) (stuck : List String) : Prop where
  nonempty : stuck ≠ []
  ordered : stuck.Sublist flow.ids
  exact : ∀ id, id ∈ stuck ↔ id ∈ flow.ids ∧ ¬ flow.Schedulable catalog id
  waits : ∀ id ∈ stuck, ∃ source ∈ stuck, flow.Joins source id
  cyclic : ∃ id ∈ stuck, TransGen (fun a b => a ∈ stuck ∧ b ∈ stuck ∧ flow.Joins a b) id id

/-- The inputs are the required ones that the node lacks, in declaration order, and all nodes
before it can be scheduled.
-/
structure LacksInputs (flow : Flow) (catalog : Catalog) (node : Node) (inputs : List String)
    : Prop where
  nonempty : inputs ≠ []
  lacking
    : inputs = ((paramsOf catalog node).filter fun param =>
        param.required && (node.literal? param.name).isNone
          && (flow.incomingEdge? node.id param.name).isNone).map (·.name)
  predecessors
    : ∀ edge ∈ flow.edges, edge.target = node.id → flow.Schedulable catalog edge.source

variable {flow : Flow} {catalog : Catalog} {entry : Node} {planned : List String}

/-- What rounds plan from the entry node on can be scheduled, by induction on the rounds. -/
theorem Planned.schedulable (opens : flow.Opens catalog entry) (fed : flow.Fed catalog entry)
    (reached : flow.Planned catalog [entry.id] planned)
    : ∀ id ∈ planned, flow.Schedulable catalog id := by
  induction reached with
  | start =>
      intro id member
      rw [List.mem_singleton.mp member]
      exact .node opens.mem fed (by simp [suppliers_eq_nil opens.free])
  | @round planned _ ih =>
      intro id member
      rcases List.mem_append.mp member with old | new
      · exact ih id old
      · obtain ⟨node, ready, rfl⟩ := List.mem_map.mp new
        obtain ⟨isNode, _, nodeFed, suppliers⟩ := mem_readyNodes.mp ready
        exact .node isNode nodeFed fun source supplier => ih source (suppliers source supplier)

/-- Where no node is ready, all that can be scheduled is planned, by induction on how it can
be scheduled.
-/
theorem Schedulable.mem_planned (idle : flow.readyNodes catalog planned = []) {id : String}
    (schedulable : flow.Schedulable catalog id)
    : id ∈ planned := by
  induction schedulable with
  | node member fed _ suppliers =>
      by_contra absent
      have ready := mem_readyNodes.mpr ⟨member, absent, fed, suppliers⟩
      simp [idle] at ready

/-- A node that is neither ready nor refused waits for a predecessor that is not planned. -/
theorem exists_unplanned_predecessor {node : Node} (member : node ∈ flow.nodes)
    (absent : node.id ∉ planned) (idle : flow.readyNodes catalog planned = [])
    (willing : ¬ flow.Refuses catalog planned node)
    : ∃ edge ∈ flow.edges, edge.target = node.id ∧ edge.source ∉ planned := by
  by_contra none
  push Not at none
  by_cases fed : flow.Fed catalog node
  · have ready : node ∈ flow.readyNodes catalog planned := by
      refine mem_readyNodes.mpr ⟨member, absent, fed, ?_⟩
      intro source supplier
      obtain ⟨edge, inside, rfl, target⟩ := edge_of_mem_suppliers supplier
      exact none edge inside target
    simp [idle] at ready
  · exact willing ⟨absent, fed, none⟩

/-- The unplanned nodes of a stuck plan are what it is stuck on. -/
theorem stuckOn_unplanned (sound : flow.WellFormed catalog) (opens : flow.Opens catalog entry)
    (fed : flow.Fed catalog entry) (reached : flow.Planned catalog [entry.id] planned)
    (waiting : flow.unplanned planned ≠ []) (idle : flow.readyNodes catalog planned = [])
    (willing : ∀ node ∈ flow.nodes, ¬ flow.Refuses catalog planned node)
    : flow.StuckOn catalog (flow.unplanned planned) := by
  have waits : ∀ id ∈ flow.unplanned planned,
      ∃ source ∈ flow.unplanned planned, flow.Joins source id := by
    intro id member
    obtain ⟨isId, absent⟩ := mem_unplanned.mp member
    obtain ⟨node, isNode, rfl⟩ := List.mem_map.mp isId
    obtain ⟨edge, inside, target, unplanned⟩ :=
      exists_unplanned_predecessor isNode absent idle (willing node isNode)
    exact ⟨edge.source, mem_unplanned.mpr ⟨(sound.closed edge inside).1, unplanned⟩,
      edge, inside, rfl, target⟩
  refine {
    nonempty := waiting
    ordered := List.filter_sublist.map _
    exact := ?_
    waits := waits
    cyclic := exists_cycle_of_forall_exists waiting waits
  }
  intro id
  rw [mem_unplanned]
  constructor
  · rintro ⟨isId, absent⟩
    exact ⟨isId, fun schedulable => absent (schedulable.mem_planned idle)⟩
  · rintro ⟨isId, never⟩
    exact ⟨isId, fun old => never (reached.schedulable opens fed id old)⟩

/-- A node that refuses lacks the inputs it is refused for. -/
theorem lacksInputs_of_refuses (opens : flow.Opens catalog entry)
    (fed : flow.Fed catalog entry) (reached : flow.Planned catalog [entry.id] planned)
    {node : Node} (refuses : flow.Refuses catalog planned node)
    : flow.LacksInputs catalog node (flow.missingInputs (paramsOf catalog node) node) where
  nonempty := fun none => refuses.unfed (missingInputs_eq_nil_iff.mp none)
  lacking := missingInputs_eq _ _ _
  predecessors := fun edge inside target =>
    reached.schedulable opens fed _ (refuses.predecessors edge inside target)

/-- A graph past the checks is refused for a true reason, either stuck on its unschedulable
nodes or for the lacking inputs of a node; without a cycle of edges it never gets stuck, and
a larger bound on the number of phases changes nothing.
-/
theorem plan_refusal_truthful (sound : flow.WellFormed catalog)
    (opens : flow.Opens catalog entry) (fed : flow.Fed catalog entry)
    : (match flow.plan catalog with
        | .ok _ => True
        | .error (.stuck stuck) => flow.StuckOn catalog stuck
        | .error (.unsatisfiableInputs id inputs) =>
            ∃ node ∈ flow.nodes, node.id = id ∧ flow.LacksInputs catalog node inputs
        | .error _ => False)
      ∧ ((∀ id, ¬ TransGen flow.Joins id id)
          → ∀ stuck, flow.plan catalog ≠ .error (.stuck stuck))
      ∧ ∀ bound,
          flow.nodes.length - 1 ≤ bound
          → flow.phasesFrom catalog bound 2 [entry.id]
            = flow.phasesFrom catalog (flow.nodes.length - 1) 2 [entry.id] := by
  have enough := length_unplanned_le opens
  have truthful : ∀ reason, flow.plan catalog = .error reason
      → (∃ stuck, reason = .stuck stuck ∧ flow.StuckOn catalog stuck)
        ∨ ∃ node ∈ flow.nodes, ∃ inputs, reason = .unsatisfiableInputs node.id inputs
            ∧ flow.LacksInputs catalog node inputs := by
    intro reason refused
    rw [plan_of_opens sound opens fed] at refused
    cases built : flow.phasesFrom catalog (flow.nodes.length - 1) 2 [entry.id] with
    | ok phases => simp [built, Except.map] at refused
    | error other =>
        rw [built] at refused
        cases refused
        obtain ⟨last, reached, failure⟩ := fails_of_phasesFrom built enough .start
        cases failure with
        | stuck waiting idle willing =>
            exact Or.inl ⟨_, rfl, stuckOn_unplanned sound opens fed reached waiting idle willing⟩
        | @refused node member refuses =>
            exact Or.inr ⟨node, member, _, rfl, lacksInputs_of_refuses opens fed reached refuses⟩
  refine ⟨?_, ?_, fun bound larger => phasesFrom_of_le enough larger⟩
  · cases outcome : flow.plan catalog with
    | ok plan => trivial
    | error reason =>
        rcases truthful reason outcome with ⟨stuck, rfl, on⟩ | ⟨node, member, inputs, rfl, lacks⟩
        · exact on
        · exact ⟨node, member, rfl, lacks⟩
  · intro acyclic stuck outcome
    rcases truthful _ outcome with ⟨_, same, on⟩ | ⟨_, _, _, same, _⟩
    · obtain ⟨id, _, loop⟩ := on.cyclic
      exact acyclic id (TransGen.mono (fun _ _ related => related.2.2) _ _ loop)
    · cases same

/-- An entry node, a node that waits for itself, and one behind it that lacks an input. -/
def circular : Flow where
  nodes :=
    [(Node.bare "a" .launchBrowser).withInput Slot.websiteUrl (.string "x"),
      Node.bare "b" .closeBrowser, Node.bare "c" .extractText]
  edges :=
    [⟨"b", Slot.webPage, "b", Slot.webPage⟩, ⟨"b", Slot.closureStatus, "c", Slot.html⟩]
  viewport := none

/-- The circular graph passes the checks and is stuck on the two nodes behind the entry. -/
theorem plan_refusal_truthful_circular
    : circular.WellFormed .standard
      ∧ circular.plan .standard = .error (.stuck ["b", "c"])
      ∧ circular.StuckOn .standard ["b", "c"] := by
  have sound : circular.WellFormed .standard := wellFormed_iff.mpr ⟨by rfl, by rfl⟩
  have opens : circular.Opens .standard
      ((Node.bare "a" .launchBrowser).withInput Slot.websiteUrl (.string "x")) :=
    ⟨by rfl, by decide⟩
  have fed : circular.Fed .standard
      ((Node.bare "a" .launchBrowser).withInput Slot.websiteUrl (.string "x")) :=
    missingInputs_eq_nil_iff.mp (by rfl)
  have outcome : circular.plan .standard = .error (.stuck ["b", "c"]) := by rfl
  have truthful := (plan_refusal_truthful sound opens fed).1
  rw [outcome] at truthful
  exact ⟨sound, outcome, truthful⟩

end Harvest.Flow

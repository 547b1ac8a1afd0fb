import Harvest.Proofs.Plan.Suppliers
import Mathlib.Data.List.Forall2

/-! Plans of like graphs. Of a node a plan needs its identifier, its task type and its literals, so
graphs whose nodes agree in these are planned alike, or refused for the same reason.
-/

namespace Harvest

-----------------------------------------------------------------------------------------
-- Outcomes
-----------------------------------------------------------------------------------------

/-- Both parts succeed with related values, or both fail for the same reason. -/
inductive EndsLike {ε α β : Type} (related : α → β → Prop) : Except ε α → Except ε β → Prop
  | ok {one two} (like : related one two) : EndsLike related (.ok one) (.ok two)
  | error (reason) : EndsLike related (.error reason) (.error reason)

variable {ε α β γ δ : Type} {related weaker : α → β → Prop} {wanted : γ → δ → Prop}

/-- Parts that end alike also do in a weaker sense. -/
theorem EndsLike.mono {one : Except ε α} {two : Except ε β} (ends : EndsLike related one two)
    (implies : ∀ value value', related value value' → weaker value value')
    : EndsLike weaker one two := by
  cases ends with
  | ok like => exact .ok (implies _ _ like)
  | error reason => exact .error reason

/-- Parts that end alike are followed by parts that end alike. -/
theorem EndsLike.bind {one : Except ε α} {two : Except ε β} {next : α → Except ε γ}
    {next' : β → Except ε δ} (first : EndsLike related one two)
    (later : ∀ value value', related value value' → EndsLike wanted (next value) (next' value'))
    : EndsLike wanted (one >>= next) (two >>= next') := by
  cases first with
  | ok like => exact later _ _ like
  | error reason => exact .error reason

/-- Equal parts end alike. -/
theorem EndsLike.refl (part : Except ε α) : EndsLike (· = ·) part part := by
  cases part with
  | ok value => exact .ok rfl
  | error reason => exact .error reason

-----------------------------------------------------------------------------------------
-- Nodes
-----------------------------------------------------------------------------------------

/-- The nodes are the same to a plan. -/
structure Node.PlansLike (one two : Node) : Prop where
  id : one.id = two.id
  taskType : one.taskType = two.taskType
  literal : ∀ name, one.literal? name = two.literal? name

variable {alike : Node → Node → Prop} (plans : ∀ one two, alike one two → one.PlansLike two)

/-- The phases have the same numbers, and their nodes are alike in order. -/
structure Phase.Like (alike : Node → Node → Prop) (one two : Phase) : Prop where
  number : one.number = two.number
  nodes : List.Forall₂ alike one.nodes two.nodes

/-- The phases of the plans are alike in order. -/
def Plan.Like (alike : Node → Node → Prop) (one two : Plan) : Prop :=
  List.Forall₂ (Phase.Like alike) one.phases two.phases

/-- Plans that are alike also are in a weaker sense. -/
theorem Plan.Like.mono {weaker : Node → Node → Prop} {one two : Plan} (like : one.Like alike two)
    (implies : ∀ node node', alike node node' → weaker node node')
    : one.Like weaker two :=
  List.Forall₂.imp (fun _ _ phase => ⟨phase.number, phase.nodes.imp implies⟩) like

namespace Flow

include plans

/-- Nodes that are alike in order have the same identifiers, by induction over the pairs. -/
theorem map_id_eq {nodes others : List Node} (like : List.Forall₂ alike nodes others)
    : nodes.map (·.id) = others.map (·.id) := by
  induction like with
  | nil => rfl
  | cons here _ ih => rw [List.map_cons, List.map_cons, (plans _ _ here).id, ih]

/-- Nodes that are alike are checked alike, by induction over the pairs. -/
theorem checkNodes_eq (catalog : Catalog) (seen : List String) {nodes others : List Node}
    (like : List.Forall₂ alike nodes others)
    : checkNodes catalog seen nodes = checkNodes catalog seen others := by
  induction like generalizing seen with
  | nil => rfl
  | cons here _ ih =>
      obtain ⟨id, taskType, _⟩ := plans _ _ here
      rw [checkNodes, checkNodes, id, taskType, ih]

/-- The first entry nodes are alike, or there is none on either side, by induction over the
pairs.
-/
theorem find?_entry (catalog : Catalog) {nodes others : List Node}
    (like : List.Forall₂ alike nodes others)
    : nodes.find? (catalog.isEntryPoint ·.taskType) = none
          ∧ others.find? (catalog.isEntryPoint ·.taskType) = none
      ∨ ∃ entry entry',
          nodes.find? (catalog.isEntryPoint ·.taskType) = some entry
          ∧ others.find? (catalog.isEntryPoint ·.taskType) = some entry'
          ∧ alike entry entry' := by
  induction like with
  | nil => exact .inl ⟨rfl, rfl⟩
  | @cons node other nodes others here _ ih =>
      rw [List.find?_cons, List.find?_cons, (plans _ _ here).taskType]
      cases catalog.isEntryPoint other.taskType with
      | false => exact ih
      | true => exact .inr ⟨node, other, rfl, rfl, here⟩

variable {flow other : Flow}

/-- The nodes that are not planned have the same identifiers. -/
theorem unplanned_eq (nodes : List.Forall₂ alike flow.nodes other.nodes) (planned : List String)
    : flow.unplanned planned = other.unplanned planned := by
  have among (graph : Flow)
      : graph.unplanned planned = (graph.nodes.map (·.id)).filter (!planned.contains ·) := by
    rw [List.filter_map]
    rfl
  rw [among, among, map_id_eq plans nodes]

variable (edges : flow.edges = other.edges)

include edges

/-- Inputs of nodes that are alike stand alike. -/
theorem supply_eq {node node' : Node} (planned : List String) (param : TaskParam)
    (like : alike node node')
    : flow.supply planned node param = other.supply planned node' param := by
  obtain ⟨id, _, literal⟩ := plans _ _ like
  rw [supply, supply, incomingEdge?, incomingEdge?, id, literal, edges]

/-- Nodes that are alike lack the same inputs. -/
theorem missingInputs_like {node node' : Node} (params : List TaskParam)
    (like : alike node node')
    : flow.missingInputs params node = other.missingInputs params node' := by
  simp only [missingInputs, supply_eq plans edges _ _ like]

/-- Nodes that are alike are ready alike. -/
theorem isReady_eq {node node' : Node} (planned : List String) (params : List TaskParam)
    (like : alike node node')
    : flow.isReady planned params node = other.isReady planned params node' := by
  simp only [isReady, supply_eq plans edges _ _ like]

/-- Entry nodes that are alike are kept from starting by the same inputs. -/
theorem entryObstacles_eq (catalog : Catalog) {node node' : Node} (like : alike node node')
    : flow.entryObstacles catalog node = other.entryObstacles catalog node' := by
  obtain ⟨id, taskType, _⟩ := plans _ _ like
  simp only [entryObstacles, paramsOf, missingInputs_like plans edges _ like, id, taskType, edges]

/-- One round plans nodes that are alike, or is refused for the same reason, by induction over the
pairs.
-/
theorem round_like (catalog : Catalog) (planned : List String) {nodes others : List Node}
    (like : List.Forall₂ alike nodes others)
    : EndsLike (List.Forall₂ alike) (flow.round catalog planned nodes)
        (other.round catalog planned others) := by
  induction like with
  | nil => exact .ok .nil
  | @cons node node' nodes others here _ ih =>
      obtain ⟨id, taskType, _⟩ := plans _ _ here
      have params : paramsOf catalog node = paramsOf catalog node' := by
        rw [paramsOf, paramsOf, taskType]
      have predecessors : flow.predecessorsPlanned planned node'.id
          = other.predecessorsPlanned planned node'.id := by
        rw [predecessorsPlanned, predecessorsPlanned, edges]
      rw [round, round, id, params]
      dsimp only
      rw [isReady_eq plans edges planned _ here, missingInputs_like plans edges _ here,
        predecessors]
      split_ifs with done ready refused
      · exact ih
      · exact ih.bind fun _ _ later => .ok (.cons here later)
      · exact .error _
      · exact ih

variable (nodes : List.Forall₂ alike flow.nodes other.nodes)

include nodes

/-- The phases from a number on are alike, or they are refused for the same reason, by induction
on the bound.
-/
theorem phasesFrom_like (catalog : Catalog) (fuel number : Nat) (planned : List String)
    : EndsLike (List.Forall₂ (Phase.Like alike)) (flow.phasesFrom catalog fuel number planned)
        (other.phasesFrom catalog fuel number planned) := by
  induction fuel generalizing number planned with
  | zero =>
      rw [phasesFrom, phasesFrom, unplanned_eq plans nodes]
      split_ifs
      · exact .ok .nil
      · exact .error _
  | succ fuel ih =>
      rw [phasesFrom, phasesFrom, unplanned_eq plans nodes]
      split_ifs
      · exact .ok .nil
      · refine (round_like plans edges catalog planned nodes).bind fun current current' like => ?_
        have idle : current.isEmpty = current'.isEmpty := by cases like <;> rfl
        rw [idle, map_id_eq plans like]
        split_ifs
        · exact .error _
        · exact (ih _ _).bind fun _ _ later => .ok (.cons ⟨rfl, like⟩ later)

/-- Graphs with the same edges, whose nodes are the same to a plan, are planned alike or refused
for the same reason.
-/
theorem plan_like (catalog : Catalog)
    : EndsLike (Plan.Like alike) (flow.plan catalog) (other.plan catalog) := by
  rw [plan, plan, checkNodes_eq plans catalog [] nodes, map_id_eq plans nodes, edges,
    nodes.length_eq]
  refine (EndsLike.refl _).bind fun _ _ _ => (EndsLike.refl _).bind fun _ _ _ => ?_
  obtain ⟨lacks, lacks'⟩ | ⟨entry, entry', found, found', like⟩ := find?_entry plans catalog nodes
  · rw [lacks, lacks']
    exact .error _
  · rw [found, found']
    dsimp only
    rw [entryObstacles_eq plans edges catalog like, (plans _ _ like).id]
    cases (other.entryObstacles catalog entry').isEmpty with
    | false => exact .error _
    | true =>
        refine (phasesFrom_like plans edges nodes catalog _ 2 [entry'.id]).bind fun _ _ later => ?_
        exact .ok (.cons ⟨rfl, .cons like .nil⟩ later)

end Flow

end Harvest

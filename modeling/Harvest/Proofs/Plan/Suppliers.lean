import Harvest.Plan.Basic
import Mathlib.Data.Set.Finite.Basic
import Mathlib.Order.WellFounded

/-! What a node waits for. The suppliers of a node are the sources of the first edges into
its inputs without a literal; a node is fed when each of its required inputs has a literal or
an edge. Readiness is being fed with all suppliers planned.
-/

namespace Harvest.Flow

open Relation

/-- The identifiers of the nodes in input order. -/
def ids (flow : Flow) : List String := flow.nodes.map (·.id)

/-- The source of the first edge into an input, unless a literal supplies the input. -/
def supplier? (flow : Flow) (node : Node) (param : TaskParam) : Option String :=
  if (node.literal? param.name).isSome then none
  else (flow.incomingEdge? node.id param.name).map (·.source)

/-- The nodes that a node waits for, one for each declared input that only an edge supplies. -/
def suppliers (flow : Flow) (catalog : Catalog) (node : Node) : List String :=
  (paramsOf catalog node).filterMap (flow.supplier? node)

/-- The node `target` waits for the node `source`. -/
def Supplies (flow : Flow) (catalog : Catalog) (source target : String) : Prop :=
  ∃ node ∈ flow.nodes, node.id = target ∧ source ∈ flow.suppliers catalog node

/-- Every required declared input of the node has a provided literal or an edge into it. -/
def Fed (flow : Flow) (catalog : Catalog) (node : Node) : Prop :=
  ∀ param ∈ paramsOf catalog node,
    param.required
    → (node.literal? param.name).isSome ∨ (flow.incomingEdge? node.id param.name).isSome

/-- What every graph with a plan has: known task types, identifiers that name one node, and
edges between nodes.
-/
structure WellFormed (flow : Flow) (catalog : Catalog) : Prop where
  known : ∀ node ∈ flow.nodes, (catalog.get? node.taskType).isSome
  distinct : flow.ids.Nodup
  closed : ∀ edge ∈ flow.edges, edge.source ∈ flow.ids ∧ edge.target ∈ flow.ids

/-- The node is the first entry point, and no edge leads into it. -/
structure Opens (flow : Flow) (catalog : Catalog) (entry : Node) : Prop where
  first : flow.nodes.find? (catalog.isEntryPoint ·.taskType) = some entry
  free : ∀ edge ∈ flow.edges, edge.target ≠ entry.id

-----------------------------------------------------------------------------------------
-- Edges and inputs
-----------------------------------------------------------------------------------------

/-- The edge that feeds an input is an edge of the graph into that input. -/
theorem incomingEdge?_spec {flow : Flow} {node input : String} {edge : Edge}
    (found : flow.incomingEdge? node input = some edge)
    : edge ∈ flow.edges ∧ edge.target = node ∧ edge.targetHandle = input := by
  have feeds := List.find?_some found
  simp only [Edge.feeds, Bool.and_eq_true, beq_iff_eq] at feeds
  exact ⟨List.mem_of_find?_eq_some found, feeds⟩

/-- Membership among the suppliers is a declared input without a literal whose first edge
comes from there.
-/
theorem mem_suppliers {flow : Flow} {catalog : Catalog} {node : Node} {source : String}
    : source ∈ flow.suppliers catalog node
      ↔ ∃ param ∈ paramsOf catalog node,
          node.literal? param.name = none
          ∧ ∃ edge, flow.incomingEdge? node.id param.name = some edge ∧ edge.source = source := by
  simp only [suppliers, List.mem_filterMap, supplier?]
  constructor
  · rintro ⟨param, member, found⟩
    split at found
    · simp at found
    · rename_i absent
      exact ⟨param, member, by simpa using absent, by simpa using found⟩
  · rintro ⟨param, member, absent, edge, found, source⟩
    exact ⟨param, member, by simp [absent, found, source]⟩

/-- A supplier stands at the start of an edge into the node. -/
theorem edge_of_mem_suppliers {flow : Flow} {catalog : Catalog} {node : Node}
    {source : String} (member : source ∈ flow.suppliers catalog node)
    : ∃ edge ∈ flow.edges, edge.source = source ∧ edge.target = node.id := by
  obtain ⟨_, _, _, edge, found, source⟩ := mem_suppliers.mp member
  obtain ⟨member, target, _⟩ := incomingEdge?_spec found
  exact ⟨edge, member, source, target⟩

/-- A node that no edge leads into waits for nothing. -/
theorem suppliers_eq_nil {flow : Flow} {catalog : Catalog} {node : Node}
    (free : ∀ edge ∈ flow.edges, edge.target ≠ node.id)
    : flow.suppliers catalog node = [] := by
  rw [List.eq_nil_iff_forall_not_mem]
  intro source member
  obtain ⟨edge, here, _, target⟩ := edge_of_mem_suppliers member
  exact free edge here target

-----------------------------------------------------------------------------------------
-- Readiness
-----------------------------------------------------------------------------------------

/-- An input is missing when it is required and neither a literal nor an edge supplies it,
whatever is planned.
-/
theorem supply_eq_missing_iff {flow : Flow} {planned : List String} {node : Node}
    {param : TaskParam}
    : flow.supply planned node param = .missing
      ↔ param.required = true ∧ node.literal? param.name = none
        ∧ flow.incomingEdge? node.id param.name = none := by
  unfold supply
  cases node.literal? param.name with
  | some value => simp
  | none =>
      cases flow.incomingEdge? node.id param.name with
      | some edge => by_cases planned.contains edge.source <;> simp_all
      | none => cases param.required <;> simp

/-- The missing inputs by what they lack, in declaration order. -/
theorem missingInputs_eq (flow : Flow) (params : List TaskParam) (node : Node)
    : flow.missingInputs params node
      = (params.filter fun param =>
          param.required && (node.literal? param.name).isNone
            && (flow.incomingEdge? node.id param.name).isNone).map (·.name) := by
  unfold missingInputs
  congr 1
  apply List.filter_congr
  intro param _
  rw [Bool.eq_iff_iff, beq_iff_eq, supply_eq_missing_iff]
  simp only [Bool.and_eq_true, Option.isNone_iff_eq_none, and_assoc]

/-- A node is fed exactly when it misses no input. -/
theorem missingInputs_eq_nil_iff {flow : Flow} {catalog : Catalog} {node : Node}
    : flow.missingInputs (paramsOf catalog node) node = [] ↔ flow.Fed catalog node := by
  rw [missingInputs_eq, List.map_eq_nil_iff, List.filter_eq_nil_iff]
  apply forall₂_congr
  intro param _
  cases param.required <;> cases node.literal? param.name <;>
    cases flow.incomingEdge? node.id param.name <;> simp

/-- An input is supplied when no edge is waited for and it is not missing. -/
theorem supply_eq_ready_iff {flow : Flow} {planned : List String} {node : Node}
    {param : TaskParam}
    : flow.supply planned node param = .ready
      ↔ (param.required
          → (node.literal? param.name).isSome
            ∨ (flow.incomingEdge? node.id param.name).isSome)
        ∧ ∀ source, flow.supplier? node param = some source → source ∈ planned := by
  unfold supply supplier?
  cases node.literal? param.name with
  | some value => simp
  | none =>
      cases flow.incomingEdge? node.id param.name with
      | some edge => simp
      | none => cases param.required <;> simp

/-- A node is ready exactly when it is fed and all its suppliers are planned. -/
theorem isReady_iff {flow : Flow} {catalog : Catalog} {planned : List String} {node : Node}
    : flow.isReady planned (paramsOf catalog node) node = true
      ↔ flow.Fed catalog node ∧ ∀ source ∈ flow.suppliers catalog node, source ∈ planned := by
  simp only [isReady, List.all_eq_true, beq_iff_eq, supply_eq_ready_iff, Fed, suppliers,
    List.mem_filterMap]
  constructor
  · intro ready
    refine ⟨fun param member => (ready param member).1, ?_⟩
    rintro source ⟨param, member, found⟩
    exact (ready param member).2 source found
  · rintro ⟨fed, planned⟩ param member
    exact ⟨fed param member, fun source found => planned source ⟨param, member, found⟩⟩

/-- All predecessors are planned when the source of every edge into the node is. -/
theorem predecessorsPlanned_iff {flow : Flow} {planned : List String} {id : String}
    : flow.predecessorsPlanned planned id = true
      ↔ ∀ edge ∈ flow.edges, edge.target = id → edge.source ∈ planned := by
  simp only [predecessorsPlanned, List.all_eq_true, Bool.or_eq_true, bne_iff_ne,
    List.contains_iff_mem]
  apply forall₂_congr
  intro edge _
  exact or_iff_not_imp_left.trans (by rw [not_not])

-----------------------------------------------------------------------------------------
-- Cycles
-----------------------------------------------------------------------------------------

/-- Some members of a list that all have a predecessor in it form a cycle: otherwise the
members would be well-founded, and a least one has no predecessor.
-/
theorem exists_cycle_of_forall_exists {α : Type} {r : α → α → Prop} {members : List α}
    (nonempty : members ≠ []) (sources : ∀ b ∈ members, ∃ a ∈ members, r a b)
    : ∃ a ∈ members, TransGen (fun a b => a ∈ members ∧ b ∈ members ∧ r a b) a a := by
  by_contra none
  let edge (a b : { a // a ∈ members }) : Prop :=
    TransGen (fun a b => a ∈ members ∧ b ∈ members ∧ r a b) a.1 b.1
  have transitive : IsTrans { a // a ∈ members } edge := ⟨fun _ _ _ => TransGen.trans⟩
  have irreflexive : Std.Irrefl edge := ⟨fun a loop => none ⟨a.1, a.2, loop⟩⟩
  have : Finite { a // a ∈ members } := List.finite_toSet members
  have founded : WellFounded edge := Finite.wellFounded_of_trans_of_irrefl edge
  obtain ⟨first, member⟩ := List.exists_mem_of_ne_nil members nonempty
  obtain ⟨least, _, minimal⟩ := founded.has_min Set.univ ⟨⟨first, member⟩, trivial⟩
  obtain ⟨source, here, related⟩ := sources least.1 least.2
  exact minimal ⟨source, here⟩ trivial (.single ⟨here, least.2, related⟩)

end Harvest.Flow

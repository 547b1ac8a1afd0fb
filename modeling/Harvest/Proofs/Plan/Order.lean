import Harvest.Proofs.Plan.Layers

/-! The order in which the nodes of a plan run. Every node runs once, and after all that it waits
for.
-/

namespace Harvest

/-- Membership among the nodes of a plan is membership in a phase of the number. -/
theorem Plan.mem_nodes_iff {plan : Plan} {number : Nat} {node : Node}
    : (number, node) ∈ plan.nodes
      ↔ ∃ phase ∈ plan.phases, phase.number = number ∧ node ∈ phase.nodes := by
  simp only [Plan.nodes, List.mem_flatMap, List.mem_map, Prod.mk.injEq]
  constructor
  · rintro ⟨phase, member, other, here, rfl, rfl⟩
    exact ⟨phase, member, rfl, here⟩
  · rintro ⟨phase, member, rfl, here⟩
    exact ⟨phase, member, node, here, rfl, rfl⟩

/-- The nodes of a plan without their numbers. -/
theorem Plan.nodes_eq (plan : Plan) : plan.nodes.map (·.2) = plan.phases.flatMap (·.nodes) := by
  simp [Plan.nodes, List.map_flatMap, Function.comp_def]

namespace Flow

variable {flow : Flow} {catalog : Catalog} {plan : Plan}

/-- The nodes of a plan are nodes of the graph. -/
theorem mem_of_plan (planned : flow.plan catalog = .ok plan) {number : Nat} {node : Node}
    (member : (number, node) ∈ plan.nodes)
    : node ∈ flow.nodes := by
  obtain ⟨sound, entry, phases, opens, _, rounds, rfl⟩ := rounds_of_plan planned
  have here : node ∈ (planBehind entry phases).nodes.map (·.2) :=
    List.mem_map_of_mem (f := (·.2)) member
  rw [Plan.nodes_eq] at here
  exact (planBehind_once sound opens rounds).mem_iff.mp here

/-- No identifier stands twice among the nodes of a plan. -/
theorem distinct_of_plan (planned : flow.plan catalog = .ok plan)
    : (plan.nodes.map (·.2.id)).Nodup := by
  obtain ⟨sound, entry, phases, opens, _, rounds, rfl⟩ := rounds_of_plan planned
  have distinct := planBehind_distinct sound opens rounds
  rw [← Plan.nodes_eq, List.map_map] at distinct
  exact distinct

/-- Every node of a plan is fed. -/
theorem fed_of_plan (planned : flow.plan catalog = .ok plan) {number : Nat} {node : Node}
    (member : (number, node) ∈ plan.nodes)
    : flow.Fed catalog node := by
  obtain ⟨_, entry, phases, _, fed, rounds, rfl⟩ := rounds_of_plan planned
  obtain ⟨phase, inside, _, here⟩ := Plan.mem_nodes_iff.mp member
  rcases List.mem_cons.mp inside with rfl | later
  · exact List.mem_singleton.mp here ▸ fed
  · exact (rounds.early later here).1

/-- What a node waits for stands before it in the plan, for it stands in an earlier phase. -/
theorem supplied_before (planned : flow.plan catalog = .ok plan) {early late : List (Nat × Node)}
    {number : Nat} {node : Node} (order : plan.nodes = early ++ (number, node) :: late)
    {source : String} (supplier : source ∈ flow.suppliers catalog node)
    : ∃ before ∈ early, before.2.id = source := by
  have rising := numbers_rising planned
  obtain ⟨sound, entry, phases, opens, _, rounds, rfl⟩ := rounds_of_plan planned
  have member : (number, node) ∈ (planBehind entry phases).nodes := by simp [order]
  obtain ⟨phase, inside, rfl, here⟩ := Plan.mem_nodes_iff.mp member
  obtain ⟨earlier, less, other, among, numbered, there⟩
      : ∃ earlier, earlier < phase.number
          ∧ PlacedAt (planBehind entry phases).phases earlier source := by
    rcases List.mem_cons.mp inside with rfl | later
    · obtain rfl := List.mem_singleton.mp here
      rw [suppliers_eq_nil opens.free] at supplier
      cases supplier
    · have lower := rounds.le_number later
      exact placed_of_early (by omega) ((rounds.early later here).2 source supplier)
  obtain ⟨first, node', same⟩ := List.mem_map.mp there
  have before : (earlier, first) ∈ (planBehind entry phases).nodes :=
    Plan.mem_nodes_iff.mpr ⟨other, among, numbered, node'⟩
  rw [order] at before rising
  rcases List.mem_append.mp before with front | back
  · exact ⟨_, front, same⟩
  · -- numbers do not fall, so nothing of an earlier phase comes later
    rw [List.map_append, List.pairwise_append, List.map_cons, List.pairwise_cons] at rising
    rcases List.mem_cons.mp back with here' | behind
    · obtain ⟨rfl, _⟩ := Prod.mk.inj here'
      exact absurd less (lt_irrefl _)
    · have := rising.2.1.1 _ (List.mem_map_of_mem (f := (·.1)) behind)
      omega

end Flow

end Harvest

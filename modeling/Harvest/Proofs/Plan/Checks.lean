import Harvest.Proofs.Plan.Rounds

/-! What the checks before the rounds let through: well-formed graphs with an entry node that
no edge leads into and no input keeps from starting. For these the plan is its first phase and
what the rounds build behind it.
-/

namespace Harvest.Flow

/-- The checks of the nodes pass when all types are known and no identifier comes again. -/
theorem checkNodes_eq_ok_iff {catalog : Catalog} {seen : List String} {nodes : List Node}
    : checkNodes catalog seen nodes = .ok ()
      ↔ (∀ node ∈ nodes, (catalog.get? node.taskType).isSome ∧ node.id ∉ seen)
        ∧ (nodes.map (·.id)).Nodup := by
  induction nodes generalizing seen with
  | nil => simp [checkNodes, pure, Except.pure]
  | cons node rest ih =>
      rw [checkNodes, List.forall_mem_cons, List.map_cons, List.nodup_cons]
      cases known : catalog.get? node.taskType with
      | none => simp [throw, throwThe, MonadExceptOf.throw]
      | some definition =>
          by_cases again : node.id ∈ seen
          · simp [again, throw, throwThe, MonadExceptOf.throw]
          simp only [Option.isNone_some, Bool.false_eq_true, if_false, List.contains_eq_mem,
            again, decide_false, ih, Option.isSome_some, not_false_eq_true, true_and]
          constructor
          · rintro ⟨checked, distinct⟩
            refine ⟨fun other member => ⟨(checked other member).1, ?_⟩, ?_, distinct⟩
            · exact (List.ne_and_not_mem_of_not_mem_cons (checked other member).2).2
            · intro repeated
              obtain ⟨other, member, same⟩ := List.mem_map.mp repeated
              exact (checked other member).2 (same ▸ List.mem_cons_self)
          · rintro ⟨checked, fresh, distinct⟩
            refine ⟨fun other member => ⟨(checked other member).1, ?_⟩, distinct⟩
            intro repeated
            rcases List.mem_cons.mp repeated with same | earlier
            · exact fresh (List.mem_map.mpr ⟨other, member, same⟩)
            · exact (checked other member).2 earlier

/-- The checks of the edges pass when both ends of each are nodes. -/
theorem checkEdges_eq_ok_iff {ids : List String} {edges : List Edge}
    : checkEdges ids edges = .ok ()
      ↔ ∀ edge ∈ edges, edge.source ∈ ids ∧ edge.target ∈ ids := by
  induction edges with
  | nil => simp [checkEdges, pure, Except.pure]
  | cons edge rest ih =>
      rw [checkEdges]
      by_cases source : edge.source ∈ ids <;> by_cases target : edge.target ∈ ids <;>
        simp [source, target, ih, throw, throwThe, MonadExceptOf.throw]

/-- A graph is well formed exactly when both structural checks pass. -/
theorem wellFormed_iff {flow : Flow} {catalog : Catalog}
    : flow.WellFormed catalog
      ↔ checkNodes catalog [] flow.nodes = .ok ()
        ∧ checkEdges (flow.nodes.map (·.id)) flow.edges = .ok () := by
  rw [checkNodes_eq_ok_iff, checkEdges_eq_ok_iff]
  constructor
  · intro sound
    exact ⟨⟨fun node member => ⟨sound.known node member, List.not_mem_nil⟩, sound.distinct⟩,
      sound.closed⟩
  · rintro ⟨⟨known, distinct⟩, closed⟩
    exact ⟨fun node member => (known node member).1, distinct, closed⟩

/-- Putting in what is not there yet leaves nothing only from nothing. -/
theorem foldl_insert_eq_nil_iff {handles : List String} {edges : List Edge}
    : edges.foldl (fun acc e =>
          if acc.contains e.targetHandle then acc else acc ++ [e.targetHandle]) handles = []
      ↔ handles = [] ∧ edges = [] := by
  induction edges generalizing handles with
  | nil => simp
  | cons edge rest ih =>
      rw [List.foldl_cons, ih]
      split
      · rename_i present
        have : handles ≠ [] := List.ne_nil_of_mem (List.contains_iff_mem.mp present)
        simp [this]
      · simp

/-- Nothing keeps an entry node from starting when it is fed and no edge leads into it. -/
theorem entryObstacles_eq_nil_iff {flow : Flow} {catalog : Catalog} {entry : Node}
    : flow.entryObstacles catalog entry = []
      ↔ flow.Fed catalog entry ∧ ∀ edge ∈ flow.edges, edge.target ≠ entry.id := by
  rw [entryObstacles, foldl_insert_eq_nil_iff, missingInputs_eq_nil_iff, List.filter_eq_nil_iff]
  simp only [beq_iff_eq]

/-- An entry node is a node of its graph. -/
theorem Opens.mem {flow : Flow} {catalog : Catalog} {entry : Node}
    (opens : flow.Opens catalog entry)
    : entry ∈ flow.nodes :=
  List.mem_of_find?_eq_some opens.first

/-- Past the checks, a plan is its first phase and what the rounds build. -/
theorem plan_of_opens {flow : Flow} {catalog : Catalog} {entry : Node}
    (sound : flow.WellFormed catalog) (opens : flow.Opens catalog entry)
    (fed : flow.Fed catalog entry)
    : flow.plan catalog
      = (flow.phasesFrom catalog (flow.nodes.length - 1) 2 [entry.id]).map
          fun rest => ⟨⟨1, [entry]⟩ :: rest⟩ := by
  obtain ⟨nodes, edges⟩ := wellFormed_iff.mp sound
  have free := entryObstacles_eq_nil_iff.mpr ⟨fed, opens.free⟩
  unfold plan
  rw [nodes, edges]
  simp only [opens.first, free, bind, Except.bind, List.isEmpty_nil, Bool.not_true,
    Bool.false_eq_true, if_false]
  cases flow.phasesFrom catalog (flow.nodes.length - 1) 2 [entry.id] <;> rfl

/-- A graph that has a plan has passed the checks. -/
theorem checked_of_plan {flow : Flow} {catalog : Catalog} {plan : Plan}
    (planned : flow.plan catalog = .ok plan)
    : flow.WellFormed catalog
      ∧ ∃ entry, flow.Opens catalog entry ∧ flow.Fed catalog entry := by
  unfold Flow.plan at planned
  cases nodes : checkNodes catalog [] flow.nodes with
  | error reason => simp [nodes, bind, Except.bind] at planned
  | ok _ =>
      cases edges : checkEdges (flow.nodes.map (·.id)) flow.edges with
      | error reason => simp [nodes, edges, bind, Except.bind] at planned
      | ok _ =>
          refine ⟨wellFormed_iff.mpr ⟨nodes, edges⟩, ?_⟩
          cases first : flow.nodes.find? (catalog.isEntryPoint ·.taskType) with
          | none => simp [nodes, edges, first, bind, Except.bind, throw, throwThe,
              MonadExceptOf.throw] at planned
          | some entry =>
              by_cases obstacles : flow.entryObstacles catalog entry = []
              · obtain ⟨fed, free⟩ := entryObstacles_eq_nil_iff.mp obstacles
                exact ⟨entry, ⟨first, free⟩, fed⟩
              · simp [nodes, edges, first, obstacles, bind, Except.bind, throw, throwThe,
                  MonadExceptOf.throw] at planned

/-- At the start all nodes but the entry node are unplanned, so the bound is large enough. -/
theorem length_unplanned_le {flow : Flow} {catalog : Catalog} {entry : Node}
    (opens : flow.Opens catalog entry)
    : (flow.unplanned [entry.id]).length ≤ flow.nodes.length - 1 := by
  have fewer : (flow.nodes.filter fun node => !([entry.id].contains node.id)).length
      < flow.nodes.length := by
    rw [List.length_filter_lt_length_iff_exists]
    exact ⟨entry, opens.mem, by simp⟩
  rw [unplanned, List.length_map]
  omega

end Harvest.Flow

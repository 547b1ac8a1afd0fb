import Harvest.Proofs.Plan.Checks

/-! Plans are layerings. A graph has a plan exactly when it is well formed, opens with an entry
node, feeds every node and has no cycle of suppliers; the plan then puts each node right behind
the last of its suppliers.
-/

namespace Harvest.Flow

open Relation

/-- The graphs that have a plan. -/
structure Plannable (flow : Flow) (catalog : Catalog) : Prop where
  wellFormed : flow.WellFormed catalog
  opens : ∃ entry, flow.Opens catalog entry
  fed : ∀ node ∈ flow.nodes, flow.Fed catalog node
  acyclic : ∀ id, ¬ TransGen (flow.Supplies catalog) id id

/-- The largest number among the phases of some nodes, zero when there is none. -/
def latest (plan : Plan) (sources : List String) : Nat :=
  (sources.filterMap plan.phaseOf?).foldr max 0

/-- The plan puts every node of the graph into one layer: the first entry node alone into the
first, and any other right behind the last of its suppliers.
-/
structure Layered (flow : Flow) (catalog : Catalog) (plan : Plan) : Prop where
  numbers : plan.phases.map (·.number) = List.range' 1 plan.phases.length
  filled : ∀ phase ∈ plan.phases, phase.nodes ≠ []
  once : (plan.phases.flatMap (·.nodes)).Perm flow.nodes
  ordered : ∀ phase ∈ plan.phases, phase.nodes.Sublist flow.nodes
  layers
    : ∃ entry,
        flow.nodes.find? (catalog.isEntryPoint ·.taskType) = some entry
        ∧ plan.phases.head? = some ⟨1, [entry]⟩
        ∧ ∀ node ∈ flow.nodes,
            node.id ≠ entry.id
            → plan.phaseOf? node.id
              = some (max 2 (1 + latest plan (flow.suppliers catalog node)))

/-- A node of that identifier stands in a phase of that number. -/
def PlacedAt (phases : List Phase) (number : Nat) (id : String) : Prop :=
  ∃ phase ∈ phases, phase.number = number ∧ id ∈ phase.nodes.map (·.id)

-----------------------------------------------------------------------------------------
-- What rounds build
-----------------------------------------------------------------------------------------

namespace Rounds

variable {flow : Flow} {catalog : Catalog} {number : Nat} {planned : List String}
  {phases : List Phase}

/-- The phases of rounds are numbered on from the first round. -/
theorem numbers (rounds : flow.Rounds catalog number planned phases)
    : phases.map (·.number) = List.range' number phases.length := by
  induction rounds with
  | complete _ => rfl
  | round _ _ ih => simp [ih, List.range'_succ]

/-- No phase has a number before that of the first round. -/
theorem le_number (rounds : flow.Rounds catalog number planned phases) {phase : Phase}
    (member : phase ∈ phases)
    : number ≤ phase.number := by
  have listed : phase.number ∈ phases.map (·.number) := List.mem_map_of_mem member
  rw [rounds.numbers, List.mem_range'_1] at listed
  exact listed.1

/-- Every phase holds some of the nodes in input order, and not none. -/
theorem ordered (rounds : flow.Rounds catalog number planned phases) {phase : Phase}
    (member : phase ∈ phases)
    : phase.nodes ≠ [] ∧ phase.nodes.Sublist flow.nodes := by
  induction rounds with
  | complete _ => simp at member
  | round progress _ ih =>
      rcases List.mem_cons.mp member with rfl | later
      · exact ⟨progress, List.filter_sublist⟩
      · exact ih later

/-- The phases hold exactly the nodes that were not planned before, each once. -/
theorem once (rounds : flow.Rounds catalog number planned phases) (distinct : flow.ids.Nodup)
    : (phases.flatMap (·.nodes)).Perm
        (flow.nodes.filter fun node => !planned.contains node.id) := by
  induction rounds with
  | @complete number planned done =>
      rw [List.map_eq_nil_iff.mp done]
      exact .nil
  | @round number planned phases progress later ih =>
      rw [List.flatMap_cons]
      let waiting := flow.nodes.filter fun node => !planned.contains node.id
      let ready (node : Node) := flow.isReady planned (paramsOf catalog node) node
      have picked : flow.readyNodes catalog planned = waiting.filter ready := by
        rw [List.filter_filter]
        exact List.filter_congr fun node _ => Bool.and_comm _ _
      have left : (flow.nodes.filter fun node =>
            !(flow.plannedNext catalog planned).contains node.id)
          = waiting.filter (fun node => !ready node) := by
        rw [List.filter_filter]
        apply List.filter_congr
        intro node member
        rw [plannedNext, picked, Bool.eq_iff_iff]
        simp only [Bool.not_eq_true', Bool.and_eq_true, List.contains_eq_mem,
          decide_eq_false_iff_not, List.mem_append, not_or, List.mem_map, List.mem_filter,
          waiting]
        constructor
        · rintro ⟨absent, unpicked⟩
          refine ⟨?_, absent⟩
          by_contra isReady
          exact unpicked ⟨node, ⟨⟨member, absent⟩, by simpa using isReady⟩, rfl⟩
        · rintro ⟨unready, absent⟩
          refine ⟨absent, ?_⟩
          rintro ⟨other, ⟨⟨otherMember, _⟩, otherReady⟩, same⟩
          have : other = node := List.inj_on_of_nodup_map distinct otherMember member same
          simp [this, unready] at otherReady
      rw [left] at ih
      rw [picked]
      exact (ih.append_left _).trans (List.filter_append_perm ready waiting)

/-- A node of a phase is fed, and each of its suppliers is planned before the rounds or
stands in an earlier phase. -/
theorem early (rounds : flow.Rounds catalog number planned phases) {phase : Phase}
    {node : Node} (member : phase ∈ phases) (here : node ∈ phase.nodes)
    : flow.Fed catalog node
      ∧ ∀ source ∈ flow.suppliers catalog node,
          source ∈ planned
          ∨ ∃ earlier, earlier < phase.number ∧ PlacedAt phases earlier source := by
  induction rounds with
  | complete _ => simp at member
  | @round number planned phases progress rounds ih =>
      rcases List.mem_cons.mp member with rfl | later
      · obtain ⟨_, _, fed, before⟩ := mem_readyNodes.mp here
        exact ⟨fed, fun source supplier => Or.inl (before source supplier)⟩
      · obtain ⟨fed, before⟩ := ih later
        refine ⟨fed, ?_⟩
        intro source supplier
        rcases before source supplier with member | ⟨earlier, less, other, member, at'⟩
        · rcases List.mem_append.mp member with old | new
          · exact Or.inl old
          · exact Or.inr ⟨number, rounds.le_number later,
              ⟨number, _⟩, List.mem_cons_self, rfl, new⟩
        · exact Or.inr ⟨earlier, less, other, List.mem_cons_of_mem _ member, at'⟩

/-- No node of a phase is planned before the rounds. -/
theorem not_planned (rounds : flow.Rounds catalog number planned phases) {phase : Phase}
    {node : Node} (member : phase ∈ phases) (here : node ∈ phase.nodes)
    : node ∈ flow.nodes ∧ node.id ∉ planned := by
  induction rounds with
  | complete _ => simp at member
  | round progress rounds ih =>
      rcases List.mem_cons.mp member with rfl | later
      · obtain ⟨isNode, absent, _⟩ := mem_readyNodes.mp here
        exact ⟨isNode, absent⟩
      · obtain ⟨isNode, absent⟩ := ih later
        exact ⟨isNode, fun old => absent (List.mem_append_left _ old)⟩

/-- A node behind the first phase waits for a node of the phase right before its own. In its
first round it was fed and not picked, so a supplier was not planned by then.
-/
theorem tight (rounds : flow.Rounds catalog number planned phases) {phase : Phase}
    {node : Node} (member : phase ∈ phases) (here : node ∈ phase.nodes)
    : phase.number = number
      ∨ ∃ before,
          before + 1 = phase.number
          ∧ ∃ source ∈ flow.suppliers catalog node, PlacedAt phases before source := by
  induction rounds with
  | complete _ => simp at member
  | @round number planned phases progress rounds ih =>
      rcases List.mem_cons.mp member with rfl | later
      · exact Or.inl rfl
      right
      rcases ih later with first | ⟨before, next, source, supplier, other, inside, at'⟩
      · obtain ⟨isNode, absent⟩ := rounds.not_planned later here
        obtain ⟨fed, early⟩ := rounds.early later here
        rw [plannedNext, List.mem_append, not_or] at absent
        have waits : ¬ ∀ source ∈ flow.suppliers catalog node, source ∈ planned := by
          intro all
          exact absent.2 (List.mem_map_of_mem (mem_readyNodes.mpr ⟨isNode, absent.1, fed, all⟩))
        push Not at waits
        obtain ⟨source, supplier, unplanned⟩ := waits
        refine ⟨number, first.symm, source, supplier, ⟨number, _⟩, List.mem_cons_self, rfl, ?_⟩
        rcases early source supplier with old | ⟨earlier, less, other, inside, at', _⟩
        · exact (List.mem_append.mp old).resolve_left unplanned
        · have := rounds.le_number inside
          omega
      · exact ⟨before, next, source, supplier, other, List.mem_cons_of_mem _ inside, at'⟩

end Rounds

-----------------------------------------------------------------------------------------
-- Phases of nodes in a plan
-----------------------------------------------------------------------------------------

/-- In a plan that holds no identifier twice, a node is found in the phase where it stands. -/
theorem phaseOf?_eq_some_iff {plan : Plan} {number : Nat} {id : String}
    (distinct : ((plan.phases.flatMap (·.nodes)).map (·.id)).Nodup)
    : plan.phaseOf? id = some number ↔ PlacedAt plan.phases number id := by
  have unique : (plan.nodes.map (·.2.id)).Nodup := by
    simpa [Plan.nodes, List.map_flatMap, Function.comp_def] using distinct
  have listed (placed : Nat × Node)
      : placed ∈ plan.nodes
        ↔ ∃ phase ∈ plan.phases, phase.number = placed.1 ∧ placed.2 ∈ phase.nodes := by
    obtain ⟨first, node⟩ := placed
    simp only [Plan.nodes, List.mem_flatMap, List.mem_map, Prod.mk.injEq]
    constructor
    · rintro ⟨phase, member, _, here, rfl, rfl⟩
      exact ⟨phase, member, rfl, here⟩
    · rintro ⟨phase, member, rfl, here⟩
      exact ⟨phase, member, node, here, rfl, rfl⟩
  rw [Plan.phaseOf?, Option.map_eq_some_iff]
  constructor
  · rintro ⟨placed, found, rfl⟩
    obtain ⟨phase, member, same, here⟩ := (listed placed).mp (List.mem_of_find?_eq_some found)
    have named : placed.2.id = id := by simpa using List.find?_some found
    exact ⟨phase, member, same, List.mem_map.mpr ⟨placed.2, here, named⟩⟩
  · rintro ⟨phase, member, rfl, here⟩
    obtain ⟨node, inside, rfl⟩ := List.mem_map.mp here
    have there := (listed (phase.number, node)).mpr ⟨phase, member, rfl, inside⟩
    cases found : plan.nodes.find? (·.2.id == node.id) with
    | none =>
        have absent := List.find?_eq_none.mp found _ there
        simp at absent
    | some placed =>
        have named : placed.2.id = node.id := by simpa using List.find?_some found
        have same : placed = (phase.number, node) :=
          List.inj_on_of_nodup_map unique (List.mem_of_find?_eq_some found) there named
        exact ⟨placed, rfl, by rw [same]⟩

/-- The largest phase of some nodes is bounded by a bound of all their phases. -/
theorem latest_le {plan : Plan} {sources : List String} {bound : Nat}
    (bounded : ∀ source ∈ sources, ∀ number,
      plan.phaseOf? source = some number → number ≤ bound)
    : latest plan sources ≤ bound := by
  induction sources with
  | nil => exact Nat.zero_le bound
  | cons source rest ih =>
      obtain ⟨first, others⟩ := List.forall_mem_cons.mp bounded
      rw [latest, List.filterMap_cons]
      cases found : plan.phaseOf? source with
      | none => exact ih others
      | some number => exact Nat.max_le.mpr ⟨first number found, ih others⟩

/-- The phase of each of some nodes is at most the largest of all. -/
theorem le_latest {plan : Plan} {sources : List String} {source : String} {number : Nat}
    (member : source ∈ sources) (found : plan.phaseOf? source = some number)
    : number ≤ latest plan sources := by
  induction sources with
  | nil => simp at member
  | cons head rest ih =>
      rw [latest, List.filterMap_cons]
      rcases List.mem_cons.mp member with rfl | later
      · rw [found]
        exact Nat.le_max_left _ _
      · cases plan.phaseOf? head with
        | none => exact ih later
        | some other => exact (ih later).trans (Nat.le_max_right _ _)

-----------------------------------------------------------------------------------------
-- From rounds to layers
-----------------------------------------------------------------------------------------

section Layering

variable {flow : Flow} {catalog : Catalog} {entry : Node} {phases : List Phase}

/-- The plan of an entry node and of the phases that rounds build behind it. -/
def planBehind (entry : Node) (phases : List Phase) : Plan := ⟨⟨1, [entry]⟩ :: phases⟩

/-- The entry node and the nodes of the rounds behind it are all nodes, each once. -/
theorem planBehind_once (sound : flow.WellFormed catalog) (opens : flow.Opens catalog entry)
    (rounds : flow.Rounds catalog 2 [entry.id] phases)
    : ((planBehind entry phases).phases.flatMap (·.nodes)).Perm flow.nodes := by
  have others := rounds.once sound.distinct
  have alone : flow.nodes.filter (fun node => [entry.id].contains node.id) = [entry] := by
    have nodup : (flow.nodes.filter fun node => [entry.id].contains node.id).Nodup :=
      (List.Nodup.of_map _ sound.distinct).filter _
    apply List.perm_singleton.mp
    apply (List.perm_ext_iff_of_nodup nodup (List.nodup_singleton entry)).mpr
    intro node
    simp only [List.mem_filter, List.contains_iff_mem, List.mem_singleton]
    constructor
    · rintro ⟨member, same⟩
      exact List.inj_on_of_nodup_map sound.distinct member opens.mem same
    · rintro rfl
      exact ⟨opens.mem, rfl⟩
  have parted := List.filter_append_perm (fun node : Node => [entry.id].contains node.id)
    flow.nodes
  rw [alone] at parted
  exact (others.append_left [entry]).trans parted

/-- No identifier stands twice in the plan. -/
theorem planBehind_distinct (sound : flow.WellFormed catalog)
    (opens : flow.Opens catalog entry) (rounds : flow.Rounds catalog 2 [entry.id] phases)
    : (((planBehind entry phases).phases.flatMap (·.nodes)).map (·.id)).Nodup :=
  ((planBehind_once sound opens rounds).map Node.id).nodup_iff.mpr sound.distinct

/-- What is planned before the rounds stands in the first phase, all else in theirs. -/
theorem placed_of_early {number : Nat} {source : String} (later : 1 < number)
    (early : source ∈ [entry.id]
      ∨ ∃ earlier, earlier < number ∧ PlacedAt phases earlier source)
    : ∃ earlier, earlier < number ∧ PlacedAt (planBehind entry phases).phases earlier source := by
  rcases early with first | ⟨earlier, less, phase, member, placed⟩
  · exact ⟨1, later, ⟨1, [entry]⟩, List.mem_cons_self, rfl, first⟩
  · exact ⟨earlier, less, phase, List.mem_cons_of_mem _ member, placed⟩

/-- A node behind the entry node stands right behind the last of its suppliers. All of them
stand in earlier phases, and past the second phase one stands in the phase just before.
-/
theorem phaseOf?_planBehind (sound : flow.WellFormed catalog)
    (opens : flow.Opens catalog entry) (rounds : flow.Rounds catalog 2 [entry.id] phases)
    {phase : Phase} {node : Node} (member : phase ∈ phases) (here : node ∈ phase.nodes)
    : (planBehind entry phases).phaseOf? node.id
      = some (max 2 (1 + latest (planBehind entry phases) (flow.suppliers catalog node))) := by
  have unique := planBehind_distinct sound opens rounds
  have lower := rounds.le_number member
  have placed : (planBehind entry phases).phaseOf? node.id = some phase.number :=
    (phaseOf?_eq_some_iff unique).mpr
      ⟨phase, List.mem_cons_of_mem _ member, rfl, List.mem_map_of_mem here⟩
  have above : latest (planBehind entry phases) (flow.suppliers catalog node)
      ≤ phase.number - 1 := by
    apply latest_le
    intro source supplier number found
    obtain ⟨earlier, less, there⟩ :=
      placed_of_early (by omega) ((rounds.early member here).2 source supplier)
    have same := (phaseOf?_eq_some_iff unique).mpr there
    rw [found, Option.some.injEq] at same
    omega
  rw [placed, Option.some.injEq]
  rcases rounds.tight member here with first | ⟨before, next, source, supplier, other, inside, at'⟩
  · omega
  · have found : (planBehind entry phases).phaseOf? source = some before :=
      (phaseOf?_eq_some_iff unique).mpr ⟨other, List.mem_cons_of_mem _ inside, at'⟩
    have := le_latest supplier found
    omega

/-- A node of a well-formed graph is the entry node or stands in a phase of the rounds. -/
theorem mem_phase_of_ne (sound : flow.WellFormed catalog)
    (rounds : flow.Rounds catalog 2 [entry.id] phases) {node : Node}
    (member : node ∈ flow.nodes) (other : node.id ≠ entry.id)
    : ∃ phase ∈ phases, node ∈ phase.nodes := by
  apply List.mem_flatMap.mp
  apply (rounds.once sound.distinct).mem_iff.mpr
  exact List.mem_filter.mpr ⟨member, by simpa using other⟩

/-- The plan behind an entry node is a layering. -/
theorem layered_planBehind (sound : flow.WellFormed catalog) (opens : flow.Opens catalog entry)
    (rounds : flow.Rounds catalog 2 [entry.id] phases)
    : flow.Layered catalog (planBehind entry phases) where
  numbers := by simp [planBehind, rounds.numbers, List.range'_succ]
  filled := List.forall_mem_cons.mpr
    ⟨List.cons_ne_nil _ _, fun _ member => (rounds.ordered member).1⟩
  once := planBehind_once sound opens rounds
  ordered := List.forall_mem_cons.mpr
    ⟨List.singleton_sublist.mpr opens.mem, fun _ member => (rounds.ordered member).2⟩
  layers := by
    refine ⟨entry, opens.first, rfl, ?_⟩
    intro node member other
    obtain ⟨phase, inside, here⟩ := mem_phase_of_ne sound rounds member other
    exact phaseOf?_planBehind sound opens rounds inside here

/-- Each node of a plan stands behind all its suppliers, so suppliers form no cycle. -/
theorem acyclic_of_rounds (sound : flow.WellFormed catalog) (opens : flow.Opens catalog entry)
    (rounds : flow.Rounds catalog 2 [entry.id] phases) (id : String)
    : ¬ TransGen (flow.Supplies catalog) id id := by
  let rank (id : String) : Nat := ((planBehind entry phases).phaseOf? id).getD 0
  have unique := planBehind_distinct sound opens rounds
  have step : ∀ source target, flow.Supplies catalog source target → rank source < rank target := by
    rintro source _ ⟨node, member, rfl, supplier⟩
    have other : node.id ≠ entry.id := by
      obtain ⟨edge, inside, _, target⟩ := edge_of_mem_suppliers supplier
      rw [← target]
      exact opens.free edge inside
    obtain ⟨phase, inside, here⟩ := mem_phase_of_ne sound rounds member other
    have lower := rounds.le_number inside
    obtain ⟨earlier, less, there⟩ :=
      placed_of_early (by omega) ((rounds.early inside here).2 source supplier)
    have target := (phaseOf?_eq_some_iff unique).mpr
      ⟨phase, List.mem_cons_of_mem _ inside, rfl, List.mem_map_of_mem here⟩
    have source := (phaseOf?_eq_some_iff unique).mpr there
    simpa only [rank, source, target, Option.getD_some] using less
  intro loop
  have grows : ∀ source target, TransGen (flow.Supplies catalog) source target
      → rank source < rank target := by
    intro source target path
    induction path with
    | single related => exact step _ _ related
    | tail _ related ih => exact ih.trans (step _ _ related)
  exact lt_irrefl _ (grows id id loop)

end Layering

-----------------------------------------------------------------------------------------
-- Progress
-----------------------------------------------------------------------------------------

/-- Some nodes that are fed and still wait all have a supplier that waits: every round of a
graph without a cycle of suppliers plans a node.
-/
theorem readyNodes_ne_nil {flow : Flow} {catalog : Catalog} {planned : List String}
    (sound : flow.WellFormed catalog) (fed : ∀ node ∈ flow.nodes, flow.Fed catalog node)
    (acyclic : ∀ id, ¬ TransGen (flow.Supplies catalog) id id)
    (waiting : flow.unplanned planned ≠ [])
    : flow.readyNodes catalog planned ≠ [] := by
  intro idle
  have sources : ∀ target ∈ flow.unplanned planned,
      ∃ source ∈ flow.unplanned planned, flow.Supplies catalog source target := by
    intro target member
    obtain ⟨isId, absent⟩ := mem_unplanned.mp member
    obtain ⟨node, isNode, rfl⟩ := List.mem_map.mp isId
    have unready : ¬ ∀ source ∈ flow.suppliers catalog node, source ∈ planned := by
      intro all
      have : node ∈ flow.readyNodes catalog planned :=
        mem_readyNodes.mpr ⟨isNode, absent, fed node isNode, all⟩
      simp [idle] at this
    push Not at unready
    obtain ⟨source, supplier, unplanned⟩ := unready
    obtain ⟨edge, inside, rfl, _⟩ := edge_of_mem_suppliers supplier
    exact ⟨edge.source, mem_unplanned.mpr ⟨(sound.closed edge inside).1, unplanned⟩,
      node, isNode, rfl, supplier⟩
  obtain ⟨id, _, loop⟩ := exists_cycle_of_forall_exists waiting sources
  exact acyclic id (TransGen.mono (fun _ _ related => related.2.2) _ _ loop)

/-- A plan has its entry node in front and was built in rounds behind it. -/
theorem rounds_of_plan {flow : Flow} {catalog : Catalog} {plan : Plan}
    (planned : flow.plan catalog = .ok plan)
    : flow.WellFormed catalog
      ∧ ∃ entry phases,
          flow.Opens catalog entry
          ∧ flow.Fed catalog entry
          ∧ flow.Rounds catalog 2 [entry.id] phases
          ∧ plan = planBehind entry phases := by
  obtain ⟨sound, entry, opens, fed⟩ := checked_of_plan planned
  rw [plan_of_opens sound opens fed] at planned
  cases built : flow.phasesFrom catalog (flow.nodes.length - 1) 2 [entry.id] with
  | error reason => simp [built, Except.map] at planned
  | ok phases =>
      rw [built] at planned
      cases planned
      exact ⟨sound, entry, phases, opens, fed, rounds_of_phasesFrom built, rfl⟩

/-- The nodes of a plan have numbers that do not fall. -/
theorem numbers_rising {flow : Flow} {catalog : Catalog} {plan : Plan}
    (planned : flow.plan catalog = .ok plan)
    : (plan.nodes.map (·.1)).Pairwise (· ≤ ·) := by
  obtain ⟨_, entry, phases, _, _, rounds, rfl⟩ := rounds_of_plan planned
  have numbers : ((planBehind entry phases).phases.map (·.number)).Pairwise (· < ·) := by
    have listed : (planBehind entry phases).phases.map (·.number)
        = List.range' 1 (phases.length + 1) := by
      simp [planBehind, rounds.numbers, List.range'_succ]
    rw [listed]
    exact List.pairwise_lt_range'
  unfold Plan.nodes
  generalize (planBehind entry phases).phases = all at numbers
  induction all with
  | nil => exact .nil
  | cons phase rest ih =>
      rw [List.map_cons, List.pairwise_cons] at numbers
      rw [List.flatMap_cons, List.map_append, List.pairwise_append]
      refine ⟨?_, ih numbers.2, ?_⟩
      · simp [List.map_map, Function.comp_def]
      · intro here member later behind
        simp only [List.map_map, Function.comp_def, List.mem_map, List.mem_flatMap] at member behind
        obtain ⟨_, _, rfl⟩ := member
        obtain ⟨_, ⟨other, inside, node, _, rfl⟩, rfl⟩ := behind
        exact (numbers.1 _ (List.mem_map_of_mem inside)).le

/-- Planning succeeds exactly on the plannable graphs, and then gives their layering: rounds
never get stuck without a cycle and are never refused by a fed node.
-/
theorem plan_eq_layering (catalog : Catalog) (flow : Flow)
    : match flow.plan catalog with
      | .ok plan => flow.Plannable catalog ∧ flow.Layered catalog plan
      | .error _ => ¬ flow.Plannable catalog := by
  cases outcome : flow.plan catalog with
  | ok plan =>
      obtain ⟨sound, entry, phases, opens, fedEntry, rounds, rfl⟩ := rounds_of_plan outcome
      refine ⟨⟨sound, ⟨entry, opens⟩, ?_, acyclic_of_rounds sound opens rounds⟩,
        layered_planBehind sound opens rounds⟩
      intro node member
      by_cases same : node.id = entry.id
      · have : node = entry := List.inj_on_of_nodup_map sound.distinct member opens.mem same
        exact this ▸ fedEntry
      · obtain ⟨phase, inside, here⟩ := mem_phase_of_ne sound rounds member same
        exact (rounds.early inside here).1
  | error reason =>
      rintro ⟨sound, ⟨entry, opens⟩, fed, acyclic⟩
      rw [plan_of_opens sound opens (fed entry opens.mem)] at outcome
      cases built : flow.phasesFrom catalog (flow.nodes.length - 1) 2 [entry.id] with
      | ok phases => simp [built, Except.map] at outcome
      | error reason =>
          obtain ⟨last, _, failure⟩ :=
            fails_of_phasesFrom built (length_unplanned_le opens) .start
          cases failure with
          | stuck waiting idle _ =>
              exact readyNodes_ne_nil sound fed acyclic waiting idle
          | refused member refuses => exact refuses.unfed (fed _ member)

end Harvest.Flow

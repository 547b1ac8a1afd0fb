import Harvest.Proofs.Plan.Suppliers

/-! What one round plans, and what all rounds together come to. A round picks the ready nodes
in input order, or is refused by a node that lacks an input although all before it is planned.
Rounds that end well are a derivation of their own, in which the bound on their number does
not occur.
-/

namespace Harvest.Flow

/-- The nodes that can be planned next, in input order. -/
def readyNodes (flow : Flow) (catalog : Catalog) (planned : List String) : List Node :=
  flow.nodes.filter fun node =>
    !planned.contains node.id && flow.isReady planned (paramsOf catalog node) node

/-- The identifiers that are planned after one more round. -/
def plannedNext (flow : Flow) (catalog : Catalog) (planned : List String) : List String :=
  planned ++ (flow.readyNodes catalog planned).map (·.id)

/-- The node will never be supplied: it lacks an input, and all before it is planned. -/
structure Refuses (flow : Flow) (catalog : Catalog) (planned : List String) (node : Node)
    : Prop where
  unplanned : node.id ∉ planned
  unfed : ¬ flow.Fed catalog node
  predecessors : ∀ edge ∈ flow.edges, edge.target = node.id → edge.source ∈ planned

/-- Rounds that plan every node, from the identifiers planned before them. -/
inductive Rounds (flow : Flow) (catalog : Catalog) : Nat → List String → List Phase → Prop
  | complete {number planned} (done : flow.unplanned planned = [])
    : Rounds flow catalog number planned []
  | round {number planned phases} (progress : flow.readyNodes catalog planned ≠ [])
    (later : Rounds flow catalog (number + 1) (flow.plannedNext catalog planned) phases)
    : Rounds flow catalog number planned
        (⟨number, flow.readyNodes catalog planned⟩ :: phases)

/-- Why no round goes on from the identifiers that are planned. -/
inductive Fails (flow : Flow) (catalog : Catalog) (planned : List String) : PlanError → Prop
  | stuck (waiting : flow.unplanned planned ≠ [])
    (idle : flow.readyNodes catalog planned = [])
    (willing : ∀ node ∈ flow.nodes, ¬ flow.Refuses catalog planned node)
    : Fails flow catalog planned (.stuck (flow.unplanned planned))
  | refused {node} (member : node ∈ flow.nodes)
    (refuses : flow.Refuses catalog planned node)
    : Fails flow catalog planned
        (.unsatisfiableInputs node.id (flow.missingInputs (paramsOf catalog node) node))

/-- The identifiers that are planned after some rounds from a start. -/
inductive Planned (flow : Flow) (catalog : Catalog) (start : List String)
    : List String → Prop
  | start : Planned flow catalog start start
  | round {planned} (before : Planned flow catalog start planned)
    : Planned flow catalog start (flow.plannedNext catalog planned)

-----------------------------------------------------------------------------------------
-- One round
-----------------------------------------------------------------------------------------

/-- A node can be planned next when it is not planned, fed and all its suppliers are planned.
-/
theorem mem_readyNodes {flow : Flow} {catalog : Catalog} {planned : List String} {node : Node}
    : node ∈ flow.readyNodes catalog planned
      ↔ node ∈ flow.nodes ∧ node.id ∉ planned ∧ flow.Fed catalog node
        ∧ ∀ source ∈ flow.suppliers catalog node, source ∈ planned := by
  simp only [readyNodes, List.mem_filter, Bool.and_eq_true, Bool.not_eq_true',
    List.contains_eq_mem, decide_eq_false_iff_not, isReady_iff]

/-- The condition under which a round breaks off at a node that is not ready. -/
theorem refuses_iff {flow : Flow} {catalog : Catalog} {planned : List String} {node : Node}
    (unplanned : node.id ∉ planned)
    : (!(flow.missingInputs (paramsOf catalog node) node).isEmpty
          && flow.predecessorsPlanned planned node.id) = true
      ↔ flow.Refuses catalog planned node := by
  rw [Bool.and_eq_true, Bool.not_eq_true', List.isEmpty_eq_false_iff, Ne,
    missingInputs_eq_nil_iff, predecessorsPlanned_iff]
  exact ⟨fun h => ⟨unplanned, h.1, h.2⟩, fun h => ⟨h.unfed, h.predecessors⟩⟩

/-- A round at a node picks it, is refused by it or passes it over. -/
theorem round_cons (flow : Flow) (catalog : Catalog) (planned : List String)
    (node : Node) (rest : List Node) [Decidable (flow.Refuses catalog planned node)]
    : flow.round catalog planned (node :: rest)
      = if !planned.contains node.id && flow.isReady planned (paramsOf catalog node) node then
          (flow.round catalog planned rest).map (node :: ·)
        else if flow.Refuses catalog planned node then
          .error (.unsatisfiableInputs node.id
            (flow.missingInputs (paramsOf catalog node) node))
        else flow.round catalog planned rest := by
  rw [round]
  by_cases member : node.id ∈ planned
  · have willing : ¬ flow.Refuses catalog planned node := fun refuses =>
      refuses.unplanned member
    simp [member, willing]
  · have absent : planned.contains node.id = false := by simpa using member
    simp only [absent, Bool.false_eq_true, if_false, Bool.not_false, Bool.true_and]
    by_cases ready : flow.isReady planned (paramsOf catalog node) node
    · simp only [ready, if_true]
      cases flow.round catalog planned rest <;> rfl
    · simp only [ready, if_false, Bool.false_eq_true]
      by_cases refuses : flow.Refuses catalog planned node
      · rw [if_pos refuses, if_pos ((refuses_iff member).mpr refuses)]
        rfl
      · rw [if_neg refuses, if_neg (mt (refuses_iff member).mp refuses)]

/-- A round over some nodes picks the ready ones, unless one of the nodes refuses; then its
refusal is the error. Witness: induction over the nodes, one case for each branch.
-/
theorem round_spec (flow : Flow) (catalog : Catalog) (planned : List String)
    (nodes : List Node)
    : match flow.round catalog planned nodes with
      | .ok picked =>
          (picked = nodes.filter fun node =>
            !planned.contains node.id && flow.isReady planned (paramsOf catalog node) node)
          ∧ ∀ node ∈ nodes, ¬ flow.Refuses catalog planned node
      | .error reason =>
          ∃ node ∈ nodes,
            flow.Refuses catalog planned node
            ∧ reason = .unsatisfiableInputs node.id
                (flow.missingInputs (paramsOf catalog node) node) := by
  classical
  induction nodes with
  | nil => exact ⟨rfl, by simp⟩
  | cons node rest ih =>
      rw [round_cons, List.filter_cons]
      by_cases ready : (!planned.contains node.id
          && flow.isReady planned (paramsOf catalog node) node) = true
      · have willing : ¬ flow.Refuses catalog planned node := fun refuses =>
          refuses.unfed (isReady_iff.mp (Bool.and_eq_true_iff.mp ready).2).1
        rw [if_pos ready, if_pos ready]
        cases outcome : flow.round catalog planned rest with
        | ok picked =>
            rw [outcome] at ih
            exact ⟨congrArg (node :: ·) ih.1, List.forall_mem_cons.mpr ⟨willing, ih.2⟩⟩
        | error reason =>
            rw [outcome] at ih
            obtain ⟨other, member, refusal⟩ := ih
            exact ⟨other, List.mem_cons_of_mem _ member, refusal⟩
      · rw [if_neg ready, if_neg ready]
        by_cases refuses : flow.Refuses catalog planned node
        · rw [if_pos refuses]
          exact ⟨node, List.mem_cons_self, refuses, rfl⟩
        · rw [if_neg refuses]
          cases outcome : flow.round catalog planned rest with
          | ok picked =>
              rw [outcome] at ih
              exact ⟨ih.1, List.forall_mem_cons.mpr ⟨refuses, ih.2⟩⟩
          | error reason =>
              rw [outcome] at ih
              obtain ⟨other, member, refusal⟩ := ih
              exact ⟨other, List.mem_cons_of_mem _ member, refusal⟩

/-- What is unplanned after more has been planned was unplanned before. -/
theorem unplanned_append (flow : Flow) (planned more : List String)
    : flow.unplanned (planned ++ more)
      = ((flow.nodes.filter fun node => !planned.contains node.id).filter fun node =>
          !more.contains node.id).map (·.id) := by
  rw [unplanned, List.filter_filter]
  congr 2
  funext node
  simp [Bool.and_comm]

/-- A round that plans something leaves fewer nodes to plan. -/
theorem unplanned_plannedNext_lt {flow : Flow} {catalog : Catalog} {planned : List String}
    (progress : flow.readyNodes catalog planned ≠ [])
    : (flow.unplanned (flow.plannedNext catalog planned)).length
      < (flow.unplanned planned).length := by
  rw [plannedNext, unplanned_append, unplanned, List.length_map, List.length_map,
    List.length_filter_lt_length_iff_exists]
  obtain ⟨node, ready⟩ := List.exists_mem_of_ne_nil _ progress
  obtain ⟨member, absent, _⟩ := mem_readyNodes.mp ready
  refine ⟨node, List.mem_filter.mpr ⟨member, by simpa using absent⟩, ?_⟩
  simpa using ⟨node, ready, rfl⟩

-----------------------------------------------------------------------------------------
-- All rounds
-----------------------------------------------------------------------------------------

/-- A node is unplanned when it is a node and not planned. -/
theorem mem_unplanned {flow : Flow} {planned : List String} {id : String}
    : id ∈ flow.unplanned planned ↔ id ∈ flow.ids ∧ id ∉ planned := by
  simp only [unplanned, ids, List.mem_map, List.mem_filter, Bool.not_eq_true',
    List.contains_eq_mem, decide_eq_false_iff_not]
  constructor
  · rintro ⟨node, ⟨member, absent⟩, rfl⟩
    exact ⟨⟨node, member, rfl⟩, absent⟩
  · rintro ⟨⟨node, member, rfl⟩, absent⟩
    exact ⟨node, ⟨member, absent⟩, rfl⟩

/-- One round of the loop, by what the round picks. -/
theorem phasesFrom_succ (flow : Flow) (catalog : Catalog) (fuel number : Nat)
    (planned : List String)
    : flow.phasesFrom catalog (fuel + 1) number planned
      = if flow.unplanned planned = [] then .ok []
        else
          match flow.round catalog planned flow.nodes with
          | .error reason => .error reason
          | .ok _ =>
              if flow.readyNodes catalog planned = [] then
                .error (.stuck (flow.unplanned planned))
              else
                (flow.phasesFrom catalog fuel (number + 1)
                    (flow.plannedNext catalog planned)).map
                  (⟨number, flow.readyNodes catalog planned⟩ :: ·) := by
  rw [phasesFrom]
  simp only [List.isEmpty_iff]
  split
  · rfl
  · have spec := flow.round_spec catalog planned flow.nodes
    cases outcome : flow.round catalog planned flow.nodes with
    | error reason => rfl
    | ok picked =>
        rw [outcome] at spec
        have same : picked = flow.readyNodes catalog planned := spec.1
        subst same
        by_cases idle : flow.readyNodes catalog planned = []
        · simp only [idle, if_true]
          rfl
        · simp only [idle, if_false, bind, Except.bind, plannedNext]
          cases flow.phasesFrom catalog fuel (number + 1) _ <;> rfl

/-- Phases that the loop builds are rounds that plan every node, by induction on the bound. -/
theorem rounds_of_phasesFrom {flow : Flow} {catalog : Catalog} {fuel number : Nat}
    {planned : List String} {phases : List Phase}
    (built : flow.phasesFrom catalog fuel number planned = .ok phases)
    : flow.Rounds catalog number planned phases := by
  induction fuel generalizing number planned phases with
  | zero =>
      rw [phasesFrom] at built
      split at built
      · rename_i done
        cases built
        exact .complete (List.isEmpty_iff.mp done)
      · cases built
  | succ fuel ih =>
      rw [phasesFrom_succ] at built
      split at built
      · rename_i done
        cases built
        exact .complete done
      split at built
      · cases built
      split at built
      · cases built
      · rename_i progress
        cases later : flow.phasesFrom catalog fuel (number + 1)
            (flow.plannedNext catalog planned) with
        | error reason =>
            rw [later] at built
            cases built
        | ok rest =>
            rw [later] at built
            cases built
            exact .round progress (ih later)

/-- A loop with as many rounds as unplanned nodes fails only where no round goes on. The
bound is never what ends it, since every round leaves fewer nodes to plan.
-/
theorem fails_of_phasesFrom {flow : Flow} {catalog : Catalog} {fuel number : Nat}
    {start planned : List String} {reason : PlanError}
    (failed : flow.phasesFrom catalog fuel number planned = .error reason)
    (enough : (flow.unplanned planned).length ≤ fuel)
    (reached : flow.Planned catalog start planned)
    : ∃ last, flow.Planned catalog start last ∧ flow.Fails catalog last reason := by
  induction fuel generalizing number planned with
  | zero =>
      have done : flow.unplanned planned = [] := List.length_eq_zero_iff.mp (by omega)
      simp [phasesFrom, done, pure, Except.pure] at failed
  | succ fuel ih =>
      have spec := flow.round_spec catalog planned flow.nodes
      rw [phasesFrom_succ] at failed
      split at failed
      · cases failed
      rename_i waiting
      split at failed
      · rename_i refusal outcome
        rw [outcome] at spec
        cases failed
        obtain ⟨node, member, refuses, rfl⟩ := spec
        exact ⟨planned, reached, .refused member refuses⟩
      rename_i picked outcome
      rw [outcome] at spec
      split at failed
      · rename_i idle
        cases failed
        exact ⟨planned, reached, .stuck waiting idle spec.2⟩
      · rename_i progress
        have fewer := unplanned_plannedNext_lt progress
        cases later : flow.phasesFrom catalog fuel (number + 1)
            (flow.plannedNext catalog planned) with
        | error other =>
            rw [later] at failed
            cases failed
            exact ih later (by omega) reached.round
        | ok rest =>
            rw [later] at failed
            cases failed

/-- A bound of more rounds than there are unplanned nodes changes nothing. -/
theorem phasesFrom_of_le {flow : Flow} {catalog : Catalog} {fuel more number : Nat}
    {planned : List String} (enough : (flow.unplanned planned).length ≤ fuel)
    (larger : fuel ≤ more)
    : flow.phasesFrom catalog more number planned
      = flow.phasesFrom catalog fuel number planned := by
  induction fuel generalizing more number planned with
  | zero =>
      have done : flow.unplanned planned = [] := List.length_eq_zero_iff.mp (by omega)
      cases more <;> simp [phasesFrom, done]
  | succ fuel ih =>
      obtain ⟨more, rfl⟩ : ∃ less, more = less + 1 := ⟨more - 1, by omega⟩
      rw [phasesFrom_succ, phasesFrom_succ]
      by_cases idle : flow.readyNodes catalog planned = []
      · simp only [idle, if_true]
      · have fewer := unplanned_plannedNext_lt idle
        rw [ih (by omega) (by omega)]

end Harvest.Flow

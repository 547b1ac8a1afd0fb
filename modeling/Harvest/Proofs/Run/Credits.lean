import Harvest.Proofs.Service.Opening
import Mathlib.Algebra.Order.BigOperators.Group.List
import Mathlib.Algebra.Order.Ring.Nat

/-! The credits of a run. What an execution costs is what its completed phases cost, whenever the
run looks for a stop and when it has ended.
-/

namespace Harvest

namespace Run

open Realm

variable {σ : Type} [Ledger σ] {mine : Uuid → Prop}

/-- The execution has cost what its phases have cost: the credits of its task for each phase that
is completed, and nothing for the others.
-/
structure Balanced (catalog : Catalog) (execution : Uuid) (store : σ) : Prop where
  sum
    : ∃ standing,
        Books.standing? store execution = some standing
        ∧ standing.credits = ((Books.roll store execution).map Entry.credits).sum
  each
    : ∀ entry ∈ Books.roll store execution,
        entry.credits = if entry.status = .completed then catalog.credits entry.taskType else 0

theorem Turn.credits_entry (catalog : Catalog) (turn : Turn)
    : (turn.entry catalog).credits
      = if (turn.entry catalog).status = .completed then catalog.credits turn.phase.taskType
        else 0 := by
  unfold Turn.entry Turn.cost
  cases turn.verdict.succeeds <;> rfl

theorem Turn.cost_le (catalog : Catalog) (turn : Turn)
    : turn.cost catalog ≤ catalog.credits turn.phase.taskType := by
  unfold Turn.cost
  split
  · exact Nat.le_refl _
  · exact Nat.zero_le _

namespace Charge

variable {charge : Charge} {flow : Flow} {plan : Plan} {turns : List Turn} {rest : List Entry}

/-- The turns of a walk cost no more than the tasks of the plan. -/
theorem IsNew.sum_cost_le (new : charge.IsNew flow plan)
    (order : charge.queue = turns.map Turn.phase ++ rest)
    : (turns.map (Turn.cost charge.catalog)).sum
      ≤ (plan.nodes.map fun node => charge.catalog.credits node.2.taskType).sum := by
  have queue : (plan.nodes.map fun node => charge.catalog.credits node.2.taskType)
      = charge.queue.map fun entry => charge.catalog.credits entry.taskType := by
    have types := congrArg (List.map charge.catalog.credits) new.taskTypes
    rw [List.map_map, List.map_map] at types
    exact types.symm
  calc (turns.map (Turn.cost charge.catalog)).sum
      ≤ (turns.map fun turn => charge.catalog.credits turn.phase.taskType).sum :=
        List.sum_le_sum fun turn _ => turn.cost_le charge.catalog
    _ ≤ (charge.queue.map fun entry => charge.catalog.credits entry.taskType).sum := by
        rw [order, List.map_append, List.map_map, List.sum_append]
        exact Nat.le_add_right _ _
    _ = (plan.nodes.map fun node => charge.catalog.credits node.2.taskType).sum := by rw [queue]

/-- The phases of a new execution have cost what was earned when some had their turn and the others
have cost nothing.
-/
theorem IsNew.sum_credits (new : charge.IsNew flow plan)
    (fits
      : (plan.nodes.map fun node => charge.catalog.credits node.2.taskType).sum < 4294967296)
    (order : charge.queue = turns.map Turn.phase ++ rest) {others : List Entry}
    (unpaid : ∀ entry ∈ others, entry.credits = 0)
    : ((turns.map (Turn.entry charge.catalog) ++ others).map Entry.credits).sum
      = earned charge.catalog turns := by
  have nothing : (others.map Entry.credits).sum = 0 :=
    List.sum_eq_zero_iff.mpr fun credits member => by
      obtain ⟨entry, here, rfl⟩ := List.mem_map.mp member
      exact unpaid entry here
  rw [earned_of_fits (Nat.lt_of_le_of_lt (new.sum_cost_le order) fits), List.map_append,
    List.sum_append, nothing, List.map_map]
  rfl

/-- The books balance when some phases had their turn, what these cost is on record and the others
have cost nothing.
-/
theorem IsNew.balanced_of_unpaid (new : charge.IsNew flow plan)
    (fits
      : (plan.nodes.map fun node => charge.catalog.credits node.2.taskType).sum < 4294967296)
    (order : charge.queue = turns.map Turn.phase ++ rest) {store : σ} {standing : Standing}
    (held : Books.standing? store charge.execution = some standing)
    (paid : standing.credits = earned charge.catalog turns) {others : List Entry}
    (roll
      : Books.roll store charge.execution = turns.map (Turn.entry charge.catalog) ++ others)
    (unpaid : ∀ entry ∈ others, entry.status ≠ .completed ∧ entry.credits = 0)
    : Balanced charge.catalog charge.execution store := by
  refine ⟨⟨standing, held, ?_⟩, ?_⟩
  · rw [paid, roll, new.sum_credits fits order fun entry member => (unpaid entry member).2]
  · intro entry member
    rw [roll] at member
    rcases List.mem_append.mp member with visited | other
    · obtain ⟨turn, _, rfl⟩ := List.mem_map.mp visited
      exact turn.credits_entry charge.catalog
    · obtain ⟨uncompleted, free⟩ := unpaid entry other
      rw [free, if_neg uncompleted]

/-- The phases that wait for their turn have cost nothing. -/
theorem IsNew.unpaid_of_waits (new : charge.IsNew flow plan)
    (order : charge.queue = turns.map Turn.phase ++ rest) {entry : Entry} (member : entry ∈ rest)
    : entry.status ≠ .completed ∧ entry.credits = 0 := by
  obtain ⟨pending, free⟩ := new.waits entry (order ▸ List.mem_append_right _ member)
  exact ⟨by simp [pending], free⟩

/-- The books balance when some phases had their turn and what these cost is on record. -/
theorem IsNew.balanced (new : charge.IsNew flow plan)
    (fits
      : (plan.nodes.map fun node => charge.catalog.credits node.2.taskType).sum < 4294967296)
    (order : charge.queue = turns.map Turn.phase ++ rest) {store : σ} {standing : Standing}
    (held : Books.standing? store charge.execution = some standing)
    (paid : standing.credits = earned charge.catalog turns)
    (roll
      : Books.roll store charge.execution = turns.map (Turn.entry charge.catalog) ++ rest)
    : Balanced charge.catalog charge.execution store :=
  new.balanced_of_unpaid fits order held paid roll fun _ => new.unpaid_of_waits order

/-- What is on record between two phases of a new execution is what was earned. -/
theorem IsNew.spent_eq (new : charge.IsNew flow plan) (turns : List Turn)
    : charge.spent turns = earned charge.catalog turns := by
  cases turns with
  | nil => exact new.unpaid
  | cons turn turns => rfl

end Charge

/-- Whenever the run of a new execution looks for a stop and when it has ended, the execution has
cost what its completed phases cost; the outcome and the last event tell the same.
-/
theorem credits_balanced {settings : RunSettings} {request : RunRequest} {token : Token}
    {execution : Execution} {plan : Plan} {before created scene : Arena σ}
    {rest : RunM (Except SetupError RunOutcome)}
    (planned : Service.planOf settings.catalog request.definition = .ok plan)
    (fits
      : (plan.nodes.map fun node => settings.catalog.credits node.2.taskType).sum < 4294967296)
    (made
      : (Arena.serving mine).Reaches
          (ExceptT.run (Service.createExecution settings.catalog request), before)
          (.done (.ok execution), created))
    (run
      : (Arena.running mine).Reaches (execute settings execution.id token, created.anew)
          (rest, scene))
    (granted : ∀ happening ∈ scene.past, IsGranted happening)
    : (∀ looked next,
        rest = Program.ask (RunCall.isCancelled looked) next
        → Balanced settings.catalog execution.id scene.store)
      ∧ ∀ result,
          rest = .done result
          → ∃ outcome standing millis time,
              result = .ok outcome
              ∧ Balanced settings.catalog execution.id scene.store
              ∧ Books.standing? scene.store execution.id = some standing
              ∧ standing.credits = outcome.credits
              ∧ (told scene.past).getLast?
                = some (.executionFinished execution.id outcome.status outcome.credits millis
                    time) := by
  obtain ⟨ours, charge, flow, plan', catalog, named, rfl, parsed, suits, new, safe⟩ :=
    Charge.exists_isNew made token
  obtain rfl : plan' = plan := by
    obtain ⟨flow', parsed', planned'⟩ := Service.planned_of_planOf planned
    rw [parsed, Except.ok.injEq] at parsed'
    rw [← parsed', ← catalog, new.planned, Except.ok.injEq] at planned'
    exact planned'
  rw [← catalog] at fits ⊢
  rw [← named]
  refine ⟨?_, ?_⟩
  · rintro looked next rfl
    have proper := (safe.reaches run _ (Realm.still _ _) _ _ (.isCancelled looked scene)).1
    obtain ⟨_, turns, waits, order, _, roll, standing, held, paid⟩ := proper
    exact new.balanced fits order held (paid.trans (new.spent_eq turns)) roll
  · rintro result rfl
    cases safe.ended run with
    | faulted faulted =>
        obtain ⟨happening, member, refused⟩ := faulted
        exact absurd (granted happening member) refused
    | refused refuses => exact absurd refuses new.not_refuses
    | concluded concluded =>
        obtain ⟨ending, turns, waits, credits, stop, millis, time, order, went, rfl, holds⟩ :=
          concluded
        obtain ⟨stop', definition, held⟩ := holds.standing
        obtain ⟨done, past, told, _⟩ := holds.past
        refine ⟨_, _, millis, time, rfl, new.balanced fits order held rfl holds.roll, held, rfl, ?_⟩
        rw [past, List.nil_append, told, Charge.closed, List.getLast?_append]
        rfl

/-- The books balance when a run is stopped before its only phase. -/
theorem credits_balanced_halted
    : ∃ (created later : Arena Memory) (outcome : RunOutcome),
        (Arena.serving fun _ => True).Reaches
            (ExceptT.run (Service.createExecution Lone.settings.catalog Lone.request), Lone.ground)
            (.done (.ok (Lone.execution Lone.flow.text)), created)
        ∧ (Arena.running fun _ => True).Reaches
            (execute Lone.settings (Lone.execution Lone.flow.text).id ⟨0⟩, created.anew)
            (.done (.ok outcome), later)
        ∧ (∀ happening ∈ later.past, IsGranted happening)
        ∧ Balanced Lone.settings.catalog (Lone.execution Lone.flow.text).id later.store := by
  obtain ⟨sound, past, made⟩ := Lone.opened
  obtain ⟨flow, parsed, _⟩ := Service.planned_of_planOf Lone.planned
  obtain ⟨outcome, later, run, granted⟩ := Lone.halted parsed sound past
  refine ⟨_, later, outcome, made, run, granted, ?_⟩
  have planned : Service.planOf Lone.settings.catalog Lone.request.definition
      = .ok ⟨[⟨1, [.bare "a" .launchBrowser]⟩]⟩ := Lone.planned
  obtain ⟨_, ends⟩ := credits_balanced planned (by decide) made run granted
  obtain ⟨_, _, _, _, _, balanced, _⟩ := ends _ rfl
  exact balanced

end Run

end Harvest

import Harvest.Proofs.Store.Amended
import Harvest.Proofs.Store.Finished

/-! How a store in memory grows. Records are added behind those that are there, and what no update
is for stays with each record for good, as long as the calls respect it.
-/

namespace Harvest

/-- What no update of a workflow is for. -/
def Workflow.fixed (w : Workflow) : String × String × String × Time.Instant :=
  (w.userId, w.name, w.definition, w.createdAt)

/-- What a workflow is for good. -/
def Workflow.core (w : Workflow) : Uuid × String × String × String × Time.Instant := (w.id, w.fixed)

/-- What an execution is for good. -/
def Execution.core (e : Execution) : Uuid × Uuid × String × Trigger × Time.Instant × String :=
  (e.id, e.fixed)

/-- What a phase is for good. -/
def PhaseRecord.core (p : PhaseRecord)
    : Uuid × Uuid × Nat × Nat × String × TaskType × String :=
  (p.id, p.fixed)

namespace Memory

-----------------------------------------------------------------------------------------
-- Lists that grow
-----------------------------------------------------------------------------------------

section Lists

variable {α φ : Type} {key : α → Uuid} {fixed : α → φ} {records later : List α} {id : Uuid}
  {old : α}

/-- What is found by an identifier has a counterpart in every list that starts alike. -/
theorem find?_of_prefix
    (grown
      : records.map (fun record => (key record, fixed record))
        <+: later.map fun record => (key record, fixed record))
    (found : find? key id records = some old)
    : ∃ new, find? key id later = some new ∧ fixed new = fixed old := by
  let core (record : α) : Uuid × φ := (key record, fixed record)
  have looked (list : List α)
      : (list.map core).find? (·.1 == id) = (find? key id list).map core := by
    rw [List.find?_map]
    rfl
  obtain ⟨more, same⟩ := grown
  have there : (later.map core).find? (·.1 == id) = some (core old) := by
    rw [← same, List.find?_append, looked, found]
    rfl
  rw [looked, Option.map_eq_some_iff] at there
  obtain ⟨new, held, equal⟩ := there
  exact ⟨new, held, congrArg Prod.snd equal⟩

end Lists

-----------------------------------------------------------------------------------------
-- Stores that grow
-----------------------------------------------------------------------------------------

/-- The phases of an execution, up to what updates are for. -/
theorem core_phasesOf (m : Memory) (id : Uuid)
    : (m.phasesOf id).map PhaseRecord.core
      = (m.phases.map PhaseRecord.core).filter (·.2.1 == id) := by
  rw [List.filter_map]
  rfl

/-- The store has all records of an earlier one, which are for good what they were, and an execution
that was there before has got no further phases.
-/
structure Grows (before after : Memory) : Prop where
  workflows : before.workflows.map Workflow.core <+: after.workflows.map Workflow.core
  executions : before.executions.map Execution.core <+: after.executions.map Execution.core
  phases : before.phases.map PhaseRecord.core <+: after.phases.map PhaseRecord.core
  rolls
    : ∀ id,
        (before.execution? id).isSome
        → (after.phasesOf id).map PhaseRecord.core = (before.phasesOf id).map PhaseRecord.core

namespace Grows

variable {before middle after : Memory} {id : Uuid}

theorem workflow? (grows : before.Grows after) {w : Workflow} (held : before.workflow? id = some w)
    : ∃ later, after.workflow? id = some later ∧ later.fixed = w.fixed :=
  find?_of_prefix grows.workflows held

theorem execution? (grows : before.Grows after) {e : Execution}
    (held : before.execution? id = some e)
    : ∃ later, after.execution? id = some later ∧ later.fixed = e.fixed :=
  find?_of_prefix grows.executions held

theorem phase? (grows : before.Grows after) {p : PhaseRecord} (held : before.phase? id = some p)
    : ∃ later, after.phase? id = some later ∧ later.fixed = p.fixed :=
  find?_of_prefix grows.phases held

theorem refl (m : Memory) : m.Grows m :=
  ⟨List.prefix_rfl, List.prefix_rfl, List.prefix_rfl, fun _ _ => rfl⟩

theorem trans (one : before.Grows middle) (two : middle.Grows after) : before.Grows after where
  workflows := one.workflows.trans two.workflows
  executions := one.executions.trans two.executions
  phases := one.phases.trans two.phases
  rolls id there := by
    obtain ⟨e, held⟩ := Option.isSome_iff_exists.mp there
    obtain ⟨later, held', _⟩ := one.execution? held
    exact (two.rolls id (Option.isSome_iff_exists.mpr ⟨later, held'⟩)).trans (one.rolls id there)

end Grows

-----------------------------------------------------------------------------------------
-- Calls that respect what is there
-----------------------------------------------------------------------------------------

end Memory

/-- The call respects what is there: what it creates is new and refers to what is there, with the
owner of its workflow, and what it updates keeps what no update is for.
-/
def StoreCall.Respects (m : Memory) : StoreCall → Prop
  | .createWorkflow w => m.workflow? w.id = none
  | .createExecution e phases =>
      m.execution? e.id = none
      ∧ (∃ w, m.workflow? e.workflowId = some w ∧ w.userId = e.userId)
      ∧ (phases.map PhaseRecord.id).Nodup
      ∧ ∀ p ∈ phases, p.executionId = e.id ∧ m.phase? p.id = none
  | .updateExecution e => ∀ stored, m.execution? e.id = some stored → e.fixed = stored.fixed
  | .updatePhase p => ∀ stored, m.phase? p.id = some stored → p.fixed = stored.fixed
  | _ => True

/-- The workflows that the call creates. -/
def StoreCall.newWorkflows : StoreCall → List Workflow
  | .createWorkflow w => [w]
  | _ => []

/-- The executions that the call creates. -/
def StoreCall.newExecutions : StoreCall → List Execution
  | .createExecution e _ => [e]
  | _ => []

/-- The phases that the call creates. -/
def StoreCall.newPhases : StoreCall → List PhaseRecord
  | .createExecution _ phases => phases
  | _ => []

/-- The identifiers that the call takes for what it creates. -/
def StoreCall.taken (call : StoreCall) : List Uuid :=
  call.newWorkflows.map Workflow.id ++ call.newExecutions.map Execution.id
    ++ call.newPhases.map PhaseRecord.id

namespace Memory

/-- A later store has what the call creates behind what was there, up to what updates are for. -/
structure Adds (call : StoreCall) (before after : Memory) : Prop where
  workflows
    : after.workflows.map Workflow.core
      = (before.workflows ++ call.newWorkflows).map Workflow.core
  executions
    : after.executions.map Execution.core
      = (before.executions ++ call.newExecutions).map Execution.core
  phases
    : after.phases.map PhaseRecord.core = (before.phases ++ call.newPhases).map PhaseRecord.core

section Answers

variable {m : Memory} {call : StoreCall}

/-- A store that shows no difference for good is a call away by any call that creates nothing. -/
theorem Adds.of_cores {later : Memory} (workflows : call.newWorkflows = [])
    (executions : call.newExecutions = []) (phases : call.newPhases = [])
    (sameWorkflows : later.workflows.map Workflow.core = m.workflows.map Workflow.core)
    (sameExecutions : later.executions.map Execution.core = m.executions.map Execution.core)
    (samePhases : later.phases.map PhaseRecord.core = m.phases.map PhaseRecord.core)
    : Adds call m later := by
  refine ⟨?_, ?_, ?_⟩
  · rw [workflows, List.append_nil, sameWorkflows]
  · rw [executions, List.append_nil, sameExecutions]
  · rw [phases, List.append_nil, samePhases]

theorem adds_putWorkflow {w old : Workflow} (held : m.workflow? w.id = some old)
    (same : w.fixed = old.fixed)
    : (m.putWorkflow w).workflows.map Workflow.core = m.workflows.map Workflow.core :=
  map_insert_of_found held (Prod.ext (key_of_find? held).symm same)

theorem adds_putExecution {e old : Execution} (held : m.execution? e.id = some old)
    (same : e.fixed = old.fixed)
    : (m.putExecution e).executions.map Execution.core = m.executions.map Execution.core :=
  map_insert_of_found held (Prod.ext (key_of_find? held).symm same)

theorem adds_putPhase {p old : PhaseRecord} (held : m.phase? p.id = some old)
    (same : p.fixed = old.fixed)
    : (m.putPhase p).phases.map PhaseRecord.core = m.phases.map PhaseRecord.core :=
  map_insert_of_found held (Prod.ext (key_of_find? held).symm same)

/-- A call that respects what is there adds what it creates and nothing else, by cases on the
call.
-/
theorem adds_answer (respects : call.Respects m) : Adds call m (answer call m).2 := by
  cases call with
  | createWorkflow w =>
      refine ⟨?_, (congrArg _ (List.append_nil _)).symm, (congrArg _ (List.append_nil _)).symm⟩
      exact congrArg _ (insert_of_find?_eq_none respects)
  | createExecution e phases =>
      obtain ⟨absent, _, distinct, fresh⟩ := respects
      have created : phases.foldl putPhase (m.putExecution e)
          = { m.putExecution e with phases := m.phases ++ phases } :=
        foldl_putPhase phases (m.putExecution e) distinct fun p member => (fresh p member).2
      change Adds _ m (phases.foldl putPhase (m.putExecution e))
      rw [created]
      refine ⟨(congrArg _ (List.append_nil _)).symm, ?_, rfl⟩
      exact congrArg _ (insert_of_find?_eq_none absent)
  | updateExecution e =>
      change Adds _ m (m.updateExecution e).2
      rcases m.updateExecution_cases e with ⟨_, same⟩ | ⟨stored, held, _, same⟩
      · exact .of_cores rfl rfl rfl (by rw [same]) (by rw [same]) (by rw [same])
      · rw [same]
        refine .of_cores rfl rfl rfl rfl ?_ rfl
        exact adds_putExecution (e := { e with stopRequested := _ }) held (respects stored held)
  | requestStop id =>
      change Adds _ m (m.requestStop id).2
      rcases m.requestStop_cases id with ⟨_, same⟩ | ⟨stored, held, _, same⟩
      · exact .of_cores rfl rfl rfl (by rw [same]) (by rw [same]) (by rw [same])
      · rw [same]
        obtain rfl : stored.id = id := key_of_find? held
        refine .of_cores rfl rfl rfl rfl ?_ rfl
        exact adds_putExecution (e := { stored with stopRequested := true }) held rfl
  | updatePhase p =>
      change Adds _ m (m.updatePhase p).2
      rcases m.updatePhase_cases p with ⟨_, same⟩ | ⟨stored, held, _, same⟩
      · exact .of_cores rfl rfl rfl (by rw [same]) (by rw [same]) (by rw [same])
      · rw [same]
        exact .of_cores rfl rfl rfl rfl rfl (adds_putPhase held (respects stored held))
  | setPhaseStatuses id source target =>
      refine .of_cores rfl rfl rfl rfl rfl ?_
      change (m.phases.map (moved id source target)).map PhaseRecord.core = _
      rw [List.map_map]
      refine List.map_congr_left fun p _ => ?_
      simp only [Function.comp_apply, moved]
      split <;> rfl
  | recordLastRunStart workflow id status time =>
      change Adds _ m (m.recordLastRunStart workflow id status time).2
      unfold recordLastRunStart
      split
      · exact .of_cores rfl rfl rfl rfl rfl rfl
      · next w held =>
          obtain rfl : w.id = workflow := key_of_find? held
          refine .of_cores rfl rfl rfl ?_ rfl rfl
          exact adds_putWorkflow (w := { w with
            lastRunId := some id, lastRunAt := some time, lastRunStatus := some status }) held rfl
  | recordLastRunStatus workflow id status =>
      change Adds _ m (m.recordLastRunStatus workflow id status).2
      unfold recordLastRunStatus
      split
      · exact .of_cores rfl rfl rfl rfl rfl rfl
      · next w held =>
          split
          · obtain rfl : w.id = workflow := key_of_find? held
            refine .of_cores rfl rfl rfl ?_ rfl rfl
            exact adds_putWorkflow (w := { w with lastRunStatus := some status }) held rfl
          · exact .of_cores rfl rfl rfl rfl rfl rfl
  | appendLogs id entries =>
      rcases m.appendLogs_cases id entries with ⟨_, same⟩ | same <;> rw [same] <;>
        exact .of_cores rfl rfl rfl rfl rfl rfl
  | _ => exact .of_cores rfl rfl rfl rfl rfl rfl

-----------------------------------------------------------------------------------------
-- Tidy stores
-----------------------------------------------------------------------------------------

/-- Records go by distinct identifiers, every execution has the owner of its workflow, and every
phase has its execution.
-/
structure Tidy (m : Memory) : Prop extends m.Sound where
  workflows : (m.workflows.map Workflow.id).Nodup
  owned : ∀ e ∈ m.executions, ∃ w, m.workflow? e.workflowId = some w ∧ w.userId = e.userId
  housed : ∀ p ∈ m.phases, (m.execution? p.executionId).isSome

theorem tidy_empty : empty.Tidy :=
  ⟨⟨.nil, .nil⟩, .nil, List.forall_mem_nil _, List.forall_mem_nil _⟩

/-- Nothing goes by the identifier. -/
structure Vacant (m : Memory) (id : Uuid) : Prop where
  workflow : m.workflow? id = none
  execution : m.execution? id = none
  phase : m.phase? id = none

/-- No record is found by an identifier when none goes by it. -/
theorem find?_eq_none_iff {α : Type} {key : α → Uuid} {id : Uuid} {records : List α}
    : find? key id records = none ↔ id ∉ records.map key := by
  simp [find?]

/-- A record of a list has a counterpart in every list that is alike for good. -/
theorem mem_of_cores {α φ : Type} {core : α → φ} {later records : List α}
    (same : later.map core = records.map core) {record : α} (member : record ∈ later)
    : ∃ old ∈ records, core old = core record := by
  have there : core record ∈ later.map core := List.mem_map_of_mem member
  rwa [same, List.mem_map] at there

namespace Adds

variable {later : Memory}

theorem workflowIds (adds : Adds call m later)
    : later.workflows.map Workflow.id = (m.workflows ++ call.newWorkflows).map Workflow.id := by
  have ids := congrArg (List.map Prod.fst) adds.workflows
  rwa [List.map_map, List.map_map] at ids

theorem executionIds (adds : Adds call m later)
    : later.executions.map Execution.id
      = (m.executions ++ call.newExecutions).map Execution.id := by
  have ids := congrArg (List.map Prod.fst) adds.executions
  rwa [List.map_map, List.map_map] at ids

theorem phaseIds (adds : Adds call m later)
    : later.phases.map PhaseRecord.id = (m.phases ++ call.newPhases).map PhaseRecord.id := by
  have ids := congrArg (List.map Prod.fst) adds.phases
  rwa [List.map_map, List.map_map] at ids

/-- What a call that respects a store adds to it makes it grow. -/
theorem grows (adds : Adds call m later) (respects : call.Respects m) : m.Grows later where
  workflows := by
    rw [adds.workflows, List.map_append]
    exact List.prefix_append _ _
  executions := by
    rw [adds.executions, List.map_append]
    exact List.prefix_append _ _
  phases := by
    rw [adds.phases, List.map_append]
    exact List.prefix_append _ _
  rolls id there := by
    have none : call.newPhases.filter (·.executionId == id) = [] := by
      cases call with
      | createExecution e phases =>
          obtain ⟨absent, _, _, fresh⟩ := respects
          refine List.filter_eq_nil_iff.mpr fun p member => ?_
          rw [(fresh p member).1, beq_iff_eq]
          rintro rfl
          rw [absent] at there
          cases there
      | _ => rfl
    have same : (m.phases ++ call.newPhases).filter (·.executionId == id) = m.phasesOf id := by
      rw [List.filter_append, none, List.append_nil]
      rfl
    rw [core_phasesOf, adds.phases, List.filter_map]
    exact congrArg (List.map PhaseRecord.core) same

/-- What is taken by nobody else stays vacant. -/
theorem vacant (adds : Adds call m later) {id : Uuid} (vacant : m.Vacant id)
    (spared : id ∉ call.taken)
    : later.Vacant id := by
  simp only [StoreCall.taken, List.mem_append, not_or] at spared
  obtain ⟨⟨noWorkflow, noExecution⟩, noPhase⟩ := spared
  refine ⟨find?_eq_none_iff.mpr ?_, find?_eq_none_iff.mpr ?_, find?_eq_none_iff.mpr ?_⟩
  · rw [adds.workflowIds, List.map_append, List.mem_append, not_or]
    exact ⟨find?_eq_none_iff.mp vacant.workflow, noWorkflow⟩
  · rw [adds.executionIds, List.map_append, List.mem_append, not_or]
    exact ⟨find?_eq_none_iff.mp vacant.execution, noExecution⟩
  · rw [adds.phaseIds, List.map_append, List.mem_append, not_or]
    exact ⟨find?_eq_none_iff.mp vacant.phase, noPhase⟩

end Adds

/-- A store stays tidy under calls that respect it. -/
theorem Tidy.answer (tidy : m.Tidy) (respects : call.Respects m)
    : (Memory.answer call m).2.Tidy := by
  have adds := adds_answer respects
  have grows := adds.grows respects
  have sound : (Memory.answer call m).2.Sound := (handles call tidy.toSound).sound
  refine ⟨sound, ?_, ?_, ?_⟩
  · rw [adds.workflowIds]
    cases call with
    | createWorkflow w =>
        rw [List.map_append, List.nodup_append]
        refine ⟨tidy.workflows, List.nodup_singleton _, ?_⟩
        rintro id member _ here rfl
        rw [List.mem_singleton.mp here] at member
        exact find?_eq_none_iff.mp respects member
    | _ => simpa [StoreCall.newWorkflows] using tidy.workflows
  · intro e member
    obtain ⟨old, there, same⟩ := mem_of_cores adds.executions member
    simp only [Execution.core, Execution.fixed, Prod.mk.injEq] at same
    obtain ⟨-, workflow, user, -⟩ := same
    have kept : ∃ w, m.workflow? old.workflowId = some w ∧ w.userId = old.userId := by
      rcases List.mem_append.mp there with earlier | new
      · exact tidy.owned old earlier
      · cases call with
        | createExecution e phases =>
            obtain rfl := List.mem_singleton.mp new
            exact respects.2.1
        | _ => cases new
    obtain ⟨w, held, owner⟩ := kept
    obtain ⟨later, held', fixed⟩ := grows.workflow? held
    refine ⟨later, workflow ▸ held', ?_⟩
    rw [← user, ← owner]
    exact congrArg Prod.fst fixed
  · intro p member
    obtain ⟨old, there, same⟩ := mem_of_cores adds.phases member
    simp only [PhaseRecord.core, PhaseRecord.fixed, Prod.mk.injEq] at same
    rw [← same.2.1]
    rcases List.mem_append.mp there with earlier | new
    · obtain ⟨e, held⟩ := Option.isSome_iff_exists.mp (tidy.housed old earlier)
      obtain ⟨later, held', _⟩ := grows.execution? held
      exact Option.isSome_iff_exists.mpr ⟨later, held'⟩
    · cases call with
      | createExecution e phases =>
          have owner : old.executionId = e.id := (respects.2.2.2 old new).1
          rw [owner, Option.isSome_iff_ne_none]
          intro absent
          refine find?_eq_none_iff.mp absent ?_
          rw [adds.executionIds]
          simp [StoreCall.newExecutions]
      | _ => cases new

end Answers

end Memory

end Harvest

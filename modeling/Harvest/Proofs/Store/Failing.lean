import Harvest.Proofs.Store.Alike

/-! Executions that are failed after the fact. Each is given the time at which it was failed; its
running phases fail with it, and so does the summary of its workflow as long as it is the last run
there. All else stays. Stores in memory and in tables are changed alike.
-/

namespace Harvest

open Time

namespace Memory

-----------------------------------------------------------------------------------------
-- What failing some executions changes
-----------------------------------------------------------------------------------------

/-- Records of all kinds go by distinct identifiers. -/
structure IsDistinct (m : Memory) : Prop where
  workflows : (m.workflows.map Workflow.id).Nodup
  sound : m.Sound

/-- An execution once those that have a time were failed. -/
def failedAt (times : Uuid → Option Instant) (e : Execution) : Execution :=
  match times e.id with
  | some time => { e with status := .failed, completedAt := some time }
  | none => e

/-- A phase once those that were running were failed with their executions. -/
def failedWith (times : Uuid → Option Instant) (p : PhaseRecord) : PhaseRecord :=
  if (times p.executionId).isSome && p.status == .running then { p with status := .failed } else p

/-- The last run of a workflow is an execution of it that has a time. -/
def lastFailed (m : Memory) (times : Uuid → Option Instant) (w : Workflow) : Bool :=
  m.executions.any fun e =>
    (times e.id).isSome && e.workflowId == w.id && w.lastRunId == some e.id

/-- A workflow once its last run was failed, if that has a time. -/
def retold (m : Memory) (times : Uuid → Option Instant) (w : Workflow) : Workflow :=
  if m.lastFailed times w then { w with lastRunStatus := some .failed } else w

/-- The store once the executions that have a time were failed. -/
def failing (times : Uuid → Option Instant) (m : Memory) : Memory where
  workflows := m.workflows.map (m.retold times)
  executions := m.executions.map (failedAt times)
  phases := m.phases.map (failedWith times)
  logs := m.logs

section

variable (times more : Uuid → Option Instant) (m : Memory)

@[simp] theorem id_failedAt (e : Execution) : (failedAt times e).id = e.id := by
  unfold failedAt
  split <;> rfl

@[simp] theorem workflowId_failedAt (e : Execution)
    : (failedAt times e).workflowId = e.workflowId := by
  unfold failedAt
  split <;> rfl

@[simp] theorem id_failedWith (p : PhaseRecord) : (failedWith times p).id = p.id := by
  unfold failedWith
  split <;> rfl

@[simp] theorem id_retold (w : Workflow) : (m.retold times w).id = w.id := by
  unfold retold
  split <;> rfl

/-- Failing an execution again gives it the later time. -/
theorem failedAt_failedAt (e : Execution)
    : failedAt more (failedAt times e) = failedAt (fun id => (more id).or (times id)) e := by
  cases first : times e.id <;> cases second : more e.id <;> simp [failedAt, first, second]

theorem failedWith_failedWith (p : PhaseRecord)
    : failedWith more (failedWith times p)
      = failedWith (fun id => (more id).or (times id)) p := by
  cases running : p.status == .running <;> cases first : times p.executionId <;>
    cases second : more p.executionId <;> simp [failedWith, first, second, running]

/-- An execution that has a time of either kind is looked for among the same ones. -/
theorem lastFailed_or (w : Workflow)
    : m.lastFailed (fun id => (more id).or (times id)) w
      = (m.lastFailed times w || (m.failing times).lastFailed more w) := by
  simp only [lastFailed, failing, List.any_map, Function.comp_def, id_failedAt,
    workflowId_failedAt, Option.isSome_or]
  induction m.executions with
  | nil => rfl
  | cons e rest ih =>
      simp only [List.any_cons, ih]
      grind

theorem retold_retold (w : Workflow)
    : (m.failing times).retold more (m.retold times w)
      = m.retold (fun id => (more id).or (times id)) w := by
  have same (n : Memory) : n.lastFailed more (m.retold times w) = n.lastFailed more w := by
    unfold retold
    split <;> rfl
  unfold retold at same ⊢
  rw [same, lastFailed_or]
  cases m.lastFailed times w <;> cases (m.failing times).lastFailed more w <;> rfl

/-- Failing some executions and then more of them is failing all of them. -/
theorem failing_failing
    : (m.failing times).failing more = m.failing fun id => (more id).or (times id) := by
  simp only [failing, mk.injEq, List.map_map, List.map_inj_left, Function.comp_apply, and_true]
  exact ⟨fun w _ => retold_retold times more m w, fun e _ => failedAt_failedAt times more e,
    fun p _ => failedWith_failedWith times more p⟩

/-- Failing no execution changes nothing. -/
theorem failing_none : m.failing (fun _ => none) = m := by
  have workflows (w : Workflow) : m.retold (fun _ => none) w = w := by simp [retold, lastFailed]
  have executions (e : Execution) : failedAt (fun _ => none) e = e := rfl
  have phases (p : PhaseRecord) : failedWith (fun _ => none) p = p := by simp [failedWith]
  simp [failing, funext workflows, funext executions, funext phases]

/-- An execution without a time is found as before. -/
theorem execution?_failing {id : Uuid} (apart : times id = none)
    : (m.failing times).execution? id = m.execution? id := by
  have found := Keyed.find?_map_of_key (id_failedAt times) id m.executions
  change (m.executions.map (failedAt times)).find? _ = _
  rw [found]
  change (m.execution? id).map _ = _
  cases held : m.execution? id with
  | none => rfl
  | some e =>
      have named : e.id = id := key_of_find? held
      rw [Option.map_some, failedAt, named, apart]

end

-----------------------------------------------------------------------------------------
-- One execution
-----------------------------------------------------------------------------------------

/-- One execution has a time. -/
def only (id : Uuid) (time : Instant) : Uuid → Option Instant :=
  fun other => if other = id then some time else none

/-- A failed execution. -/
def failedNow (e : Execution) (time : Instant) : Execution :=
  { e with status := .failed, completedAt := some time }

section

variable {m : Memory} {e : Execution} (time : Instant)

/-- Its running phases are failed. -/
theorem setPhaseStatuses_eq (id : Uuid)
    : (m.setPhaseStatuses id .running .failed).2.phases
      = m.phases.map (failedWith (only id time)) := by
  refine List.map_congr_left fun p _ => ?_
  by_cases own : p.executionId = id <;> simp [inStatus, failedWith, only, own]

/-- It is failed itself. -/
theorem insert_failedNow (distinct : (m.executions.map Execution.id).Nodup)
    (held : m.execution? e.id = some e)
    : insert Execution.id (failedNow e time) m.executions
      = m.executions.map (failedAt (only e.id time)) := by
  have known : find? Execution.id (failedNow e time).id m.executions = some e := held
  rw [insert_eq_map distinct known]
  refine List.map_congr_left fun other member => ?_
  by_cases same : other.id = e.id
  · obtain rfl :=
      List.inj_on_of_nodup_map distinct member (List.mem_of_find?_eq_some held) same
    simp [replaced, failedAt, only, failedNow]
  · have apart : other.id ≠ (failedNow e time).id := same
    rw [replaced_of_ne apart]
    simp [failedAt, only, same]

/-- The last run of a workflow is this execution. -/
theorem lastFailed_only (distinct : (m.executions.map Execution.id).Nodup)
    (held : m.execution? e.id = some e) (w : Workflow)
    : m.lastFailed (only e.id time) w ↔ w.id = e.workflowId ∧ w.lastRunId = some e.id := by
  have among : e ∈ m.executions := List.mem_of_find?_eq_some held
  simp only [lastFailed, only, List.any_eq_true, Bool.and_eq_true, beq_iff_eq]
  constructor
  · rintro ⟨other, member, ⟨failed, owner⟩, last⟩
    have same : other.id = e.id := by
      by_contra apart
      simp [apart] at failed
    obtain rfl := List.inj_on_of_nodup_map distinct member among same
    exact ⟨owner.symm, last⟩
  · rintro ⟨owner, last⟩
    exact ⟨e, among, ⟨by simp, owner.symm⟩, last⟩

/-- The workflow of which it is the last run is told. -/
theorem insert_retold (distinct : m.IsDistinct) (held : m.execution? e.id = some e) {w : Workflow}
    (known : m.workflow? e.workflowId = some w) (last : w.lastRunId = some e.id)
    : insert Workflow.id { w with lastRunStatus := some .failed } m.workflows
      = m.workflows.map (m.retold (only e.id time)) := by
  have told := lastFailed_only time distinct.sound.executions held
  have named : w.id = e.workflowId := key_of_find? known
  let next : Workflow := { w with lastRunStatus := some .failed }
  have put : find? Workflow.id next.id m.workflows = some w := named ▸ known
  refine (insert_eq_map distinct.workflows put).trans ?_
  refine List.map_congr_left fun other member => ?_
  by_cases same : other.id = w.id
  · obtain rfl :=
      List.inj_on_of_nodup_map distinct.workflows member (List.mem_of_find?_eq_some known) same
    rw [replaced, if_pos rfl, retold, if_pos ((told other).mpr ⟨named, last⟩)]
  · have apart : other.id ≠ next.id := same
    rw [replaced_of_ne apart, retold, if_neg]
    exact fun here => same (((told other).mp here).1.trans named.symm)

/-- Its workflow is told if it is the last run there, and otherwise none is. -/
theorem recordLastRunStatus_eq (distinct : m.IsDistinct) (held : m.execution? e.id = some e)
    {n : Memory} (same : n.workflows = m.workflows)
    : (n.recordLastRunStatus e.workflowId e.id .failed).2
      = { n with workflows := m.workflows.map (m.retold (only e.id time)) } := by
  have told := lastFailed_only time distinct.sound.executions held
  have found : n.workflow? e.workflowId = m.workflow? e.workflowId := by
    rw [workflow?, workflow?, same]
  have untold (other : ∀ w ∈ m.workflows, ¬ (w.id = e.workflowId ∧ w.lastRunId = some e.id))
      : n = { n with workflows := m.workflows.map (m.retold (only e.id time)) } := by
    refine congrArg (fun workflows => { n with workflows }) (same.trans ?_)
    refine ((List.map_congr_left fun w member => ?_).trans (List.map_id _)).symm
    exact if_neg fun last => other w member ((told w).mp last)
  unfold recordLastRunStatus
  rw [found]
  split
  · next absent =>
      refine untold fun w member ⟨owner, _⟩ => ?_
      exact List.find?_eq_none.mp absent w member (beq_iff_eq.mpr owner)
  · next w known =>
      have named : w.id = e.workflowId := key_of_find? known
      split
      · next current =>
          have put := insert_retold time distinct held known (beq_iff_eq.mp current)
          rw [← put, ← same]
          rfl
      · next superseded =>
          refine untold fun other member ⟨owner, last⟩ => ?_
          obtain rfl := List.inj_on_of_nodup_map distinct.workflows member
            (List.mem_of_find?_eq_some known) (owner.trans named.symm)
          exact superseded (beq_iff_eq.mpr last)

/-- The three calls that fail an execution, one after another. -/
def failOne (m : Memory) (e : Execution) (time : Instant) : Memory :=
  let quiet := (answer (.setPhaseStatuses e.id .running .failed) m).2
  let failed := (answer (.updateExecution (failedNow e time)) quiet).2
  (answer (.recordLastRunStatus e.workflowId e.id .failed) failed).2

/-- An execution that is not finished is failed when it is to be. -/
theorem answer_failedNow (held : m.execution? e.id = some e) (unfinished : ¬ e.status.isTerminal)
    : answer (.updateExecution (failedNow e time)) m
      = (.ok (), m.putExecution (failedNow e time)) := by
  have known : m.execution? (failedNow e time).id = some e := held
  simp only [answer, updateExecution, known, if_neg unfinished]
  simp [failedNow]
  rfl

/-- Failing one execution by three calls changes what failing it is to change. -/
theorem failOne_eq (distinct : m.IsDistinct) (held : m.execution? e.id = some e)
    (unfinished : ¬ e.status.isTerminal)
    : m.failOne e time = m.failing (only e.id time) := by
  let quiet := (answer (.setPhaseStatuses e.id .running .failed) m).2
  have held' : quiet.execution? e.id = some e := held
  have failed := answer_failedNow time held' unfinished
  have executions := insert_failedNow time distinct.sound.executions held
  have phases := setPhaseStatuses_eq (m := m) time e.id
  have workflows := recordLastRunStatus_eq time distinct held
    (n := quiet.putExecution (failedNow e time)) rfl
  change (recordLastRunStatus (answer (.updateExecution (failedNow e time)) quiet).2 _ _ _).2 = _
  rw [failed, workflows]
  change Memory.mk _ (insert Execution.id (failedNow e time) m.executions)
    (m.setPhaseStatuses e.id .running .failed).2.phases _ = _
  rw [executions, phases]
  rfl

end

end Memory

end Harvest

import Harvest.Proofs.Store.Archive

/-! What an execution has of a store in memory: its record, its phases and what is logged for them.
Calls about one execution are answered by what it has, and leave what any other execution has.
-/

namespace Harvest

/-- The call is about an execution, whose phases go by some identifiers. -/
def StoreCall.IsOf (id : Uuid) (phases : List Uuid) : StoreCall → Prop
  | .getExecution other => other = id
  | .updateExecution e => e.id = id
  | .requestStop other => other = id
  | .listPhases other => other = id
  | .updatePhase p => p.executionId = id ∧ p.id ∈ phases
  | .setPhaseStatuses other _ _ => other = id
  | .appendLogs phase _ => phase ∈ phases
  | .recordLastRunStatus _ other _ => other = id
  | _ => False

namespace Memory

/-- The identifiers of the phases of an execution. -/
def phaseIds (m : Memory) (id : Uuid) : List Uuid := (m.phasesOf id).map PhaseRecord.id

/-- What is logged for a phase, in the order in which it came. -/
def entriesOf (m : Memory) (phase : Uuid) : List LogEntry :=
  (m.logs.filter (·.1 == phase)).map (·.2)

/-- The last run of a workflow, if there is such a workflow. -/
def lastRun? (m : Memory) (workflow : Uuid) : Option (Option Uuid) :=
  (m.workflow? workflow).map Workflow.lastRunId

/-- Two stores have the same of an execution: its record, its phases and their logs. Which runs were
the last of their workflows is the same too.
-/
structure Shares (id : Uuid) (m m' : Memory) : Prop where
  execution : m'.execution? id = m.execution? id
  phases : m'.phasesOf id = m.phasesOf id
  entries : ∀ phase ∈ m.phaseIds id, m'.entriesOf phase = m.entriesOf phase
  lastRuns : ∀ workflow, m'.lastRun? workflow = m.lastRun? workflow

variable {m m' later : Memory} {id other : Uuid} {call : StoreCall}

namespace Shares

theorem refl (id : Uuid) (m : Memory) : Shares id m m := ⟨rfl, rfl, fun _ _ => rfl, fun _ => rfl⟩

theorem phaseIds (shares : Shares id m m') : m'.phaseIds id = m.phaseIds id :=
  congrArg (List.map PhaseRecord.id) shares.phases

theorem symm (shares : Shares id m m') : Shares id m' m where
  execution := shares.execution.symm
  phases := shares.phases.symm
  entries phase member := (shares.entries phase (shares.phaseIds ▸ member)).symm
  lastRuns workflow := (shares.lastRuns workflow).symm

theorem trans (one : Shares id m m') (two : Shares id m' later) : Shares id m later where
  execution := two.execution.trans one.execution
  phases := two.phases.trans one.phases
  entries phase member :=
    (two.entries phase (one.phaseIds.symm ▸ member)).trans (one.entries phase member)
  lastRuns workflow := (two.lastRuns workflow).trans (one.lastRuns workflow)

end Shares

-----------------------------------------------------------------------------------------
-- What is found of an execution
-----------------------------------------------------------------------------------------

theorem mem_phaseIds {phase : Uuid}
    : phase ∈ m.phaseIds id ↔ ∃ record ∈ m.phasesOf id, record.id = phase :=
  List.mem_map

/-- The phases of an execution are those on its roll. -/
theorem mem_phaseIds_iff_mem_roll {phase : Uuid}
    : phase ∈ m.phaseIds id ↔ phase ∈ (Books.roll m id).map Entry.id := by
  simp only [mem_phaseIds, mem_roll_ids, phasesOf, List.mem_filter, beq_iff_eq, and_assoc]

/-- No phase is of two executions. -/
theorem phaseIds_apart (sound : m.Sound) {phase : Uuid} (one : phase ∈ m.phaseIds id)
    (two : phase ∈ m.phaseIds other)
    : id = other :=
  Ledger.apart sound (mem_phaseIds_iff_mem_roll.mp one) (mem_phaseIds_iff_mem_roll.mp two)

/-- A phase of an execution is found by its identifier. -/
theorem phase?_of_mem (sound : m.Sound) {record : PhaseRecord} (member : record ∈ m.phasesOf id)
    : m.phase? record.id = some record :=
  Keyed.find?_of_mem sound.phases (List.mem_of_mem_filter member)

/-- Two stores that have the same of an execution find the same phases of it. -/
theorem Shares.phase? (shares : Shares id m m') (sound : m.Sound) (sound' : m'.Sound) {phase : Uuid}
    (member : phase ∈ m.phaseIds id)
    : m'.phase? phase = m.phase? phase := by
  obtain ⟨record, here, rfl⟩ := mem_phaseIds.mp member
  have there : record ∈ m'.phasesOf id := shares.phases ▸ here
  rw [phase?_of_mem sound here, phase?_of_mem sound' there]

/-- They tell the same of it. -/
theorem Shares.unchanged (shares : Shares id m m') (sound : m.Sound) (sound' : m'.Sound)
    : Unchanged id m m' := by
  refine unchanged_of_found shares.execution shares.phases (fun phase member => ?_)
    fun phase member => ?_
  · exact shares.phase? sound sound' (mem_phaseIds_iff_mem_roll.mpr member)
  · have same := shares.entries phase (mem_phaseIds_iff_mem_roll.mpr member)
    exact congrArg (List.mergeSort · fun a b => a.timestamp.upTo b.timestamp) same

-----------------------------------------------------------------------------------------
-- What single writes change
-----------------------------------------------------------------------------------------

/-- Executions have the same when a workflow is put in that has run last when the one before had. -/
theorem shares_putWorkflow {w old : Workflow} (held : m.workflow? w.id = some old)
    (same : w.lastRunId = old.lastRunId)
    : Shares id m (m.putWorkflow w) where
  execution := rfl
  phases := rfl
  entries _ _ := rfl
  lastRuns workflow := by
    rw [lastRun?, workflow?_putWorkflow, lastRun?]
    split
    · next here =>
        subst here
        rw [held, Option.map_some, Option.map_some, same]
    · rfl

theorem shares_recordLastRunStatus (id : Uuid) (m : Memory) (workflow execution : Uuid)
    (status : ExecutionStatus)
    : Shares id m (m.recordLastRunStatus workflow execution status).2 := by
  rcases m.recordLastRunStatus_leaves workflow execution status with
    ⟨same, _⟩ | ⟨w, held, _, same⟩
  · rw [same]
    exact .refl id m
  · rw [same]
    obtain rfl : w.id = workflow := key_of_find? held
    exact shares_putWorkflow (w := { w with lastRunStatus := some status }) held rfl

/-- Whether the status of a run is noted depends on which run was the last. -/
theorem recordLastRunStatus_answer (m : Memory) (workflow execution : Uuid)
    (status : ExecutionStatus)
    : (m.recordLastRunStatus workflow execution status).1
      = match m.lastRun? workflow with
        | none => throw (.noWorkflow workflow)
        | some last =>
            if last == some execution then return ()
            else throw (.superseded workflow execution) := by
  unfold recordLastRunStatus lastRun?
  cases m.workflow? workflow with
  | none => rfl
  | some w =>
      simp only [Option.map_some]
      split <;> rfl

/-- The other executions have the same when the record of an execution is put in. -/
theorem shares_putExecution {e : Execution} (apart : e.id ≠ id) : Shares id m (m.putExecution e) :=
  ⟨find?_insert_of_ne Execution.id apart _, rfl, fun _ _ => rfl, fun _ => rfl⟩

/-- A phase that is put in takes its place among those of its execution. -/
theorem phasesOf_putPhase {p : PhaseRecord} (sound : m.Sound) (owned : p.executionId = id)
    (member : p.id ∈ m.phaseIds id)
    : (m.putPhase p).phasesOf id = insert PhaseRecord.id p (m.phasesOf id) := by
  obtain ⟨old, here, same⟩ := mem_phaseIds.mp member
  have found : m.phase? p.id = some old := same ▸ phase?_of_mem sound here
  have stays : old.executionId == id := (List.mem_filter.mp here).2
  exact filter_insert found stays (beq_iff_eq.mpr owned)

theorem phaseIds_putPhase {p : PhaseRecord} (sound : m.Sound) (owned : p.executionId = id)
    (member : p.id ∈ m.phaseIds id)
    : (m.putPhase p).phaseIds id = m.phaseIds id := by
  obtain ⟨old, here, same⟩ := mem_phaseIds.mp member
  have found : find? PhaseRecord.id p.id (m.phasesOf id) = some old :=
    same ▸ Keyed.find?_of_mem (sound.phases.sublist (List.filter_sublist.map _)) here
  rw [phaseIds, phasesOf_putPhase sound owned member]
  exact map_insert_of_found found same.symm

/-- The phases of an execution move together. -/
theorem phasesOf_setPhaseStatuses (m : Memory) (id : Uuid) (source target : PhaseStatus)
    : (m.setPhaseStatuses id source target).2.phasesOf id
      = (m.phasesOf id).map (moved id source target) :=
  Keyed.filter_map_of_test fun phase _ =>
    congrArg (· == id) (moved_executionId id source target phase)

theorem phaseIds_setPhaseStatuses (m : Memory) (id : Uuid) (source target : PhaseStatus)
    : (m.setPhaseStatuses id source target).2.phaseIds id = m.phaseIds id := by
  rw [phaseIds, phasesOf_setPhaseStatuses, List.map_map]
  exact List.map_congr_left fun p _ => moved_id id source target p

/-- Those that move are counted among the phases of the execution. -/
theorem countP_inStatus (m : Memory) (id : Uuid) (status : PhaseStatus)
    : m.phases.countP (inStatus id status) = (m.phasesOf id).countP (inStatus id status) := by
  rw [phasesOf, List.countP_filter]
  refine List.countP_congr fun p _ => ?_
  simp [inStatus, and_comm]

/-- Log entries are added behind those of their phase. -/
theorem entriesOf_append (m : Memory) (phase : Uuid) (entries : List LogEntry) (wanted : Uuid)
    : entriesOf { m with logs := m.logs ++ entries.map fun entry => (phase, entry) } wanted
      = m.entriesOf wanted ++ if phase = wanted then entries else [] := by
  unfold entriesOf
  rw [List.filter_append, List.map_append, List.filter_map]
  split
  · next here => simp [here, Function.comp_def]
  · next apart => simp [beq_false_of_ne apart, Function.comp_def]

-----------------------------------------------------------------------------------------
-- Calls
-----------------------------------------------------------------------------------------

/-- A call about an execution leaves what the others have, by cases on the call. -/
theorem shares_answer_of_ne (sound : m.Sound) (of : call.IsOf other (m.phaseIds other))
    (apart : other ≠ id)
    : Shares id m (Memory.answer call m).2 := by
  -- no phase of the one is a phase of the other
  have elsewhere {phase : Uuid} (member : phase ∈ m.phaseIds other) : phase ∉ m.phaseIds id :=
    fun here => apart (phaseIds_apart sound member here)
  cases call with
  | getExecution | listPhases => exact .refl id m
  | updateExecution e =>
      obtain rfl : e.id = other := of
      change Shares id m (m.updateExecution e).2
      rcases m.updateExecution_cases e with ⟨_, same⟩ | ⟨_, _, _, same⟩ <;> rw [same]
      · exact .refl id m
      · exact shares_putExecution apart
  | requestStop wanted =>
      obtain rfl : wanted = other := of
      change Shares id m (m.requestStop wanted).2
      rcases m.requestStop_cases wanted with ⟨_, same⟩ | ⟨stored, held, _, same⟩ <;> rw [same]
      · exact .refl id m
      · exact shares_putExecution ((key_of_find? held : stored.id = wanted) ▸ apart)
  | updatePhase p =>
      obtain ⟨owned, member⟩ := of
      change Shares id m (m.updatePhase p).2
      rcases m.updatePhase_cases p with ⟨_, same⟩ | ⟨_, _, _, same⟩ <;> rw [same]
      · exact .refl id m
      · have absent := fun here => elsewhere member (mem_phaseIds_iff_mem_roll.mpr here)
        exact ⟨rfl, phasesOf_putPhase_of_ne (owned ▸ apart) absent, fun _ _ => rfl, fun _ => rfl⟩
  | setPhaseStatuses wanted source target =>
      obtain rfl : wanted = other := of
      exact ⟨rfl, phasesOf_setPhaseStatuses_of_ne apart m source target, fun _ _ => rfl,
        fun _ => rfl⟩
  | appendLogs phase entries =>
      rcases m.appendLogs_cases phase entries with ⟨_, same⟩ | same <;> rw [same]
      · exact .refl id m
      · refine ⟨rfl, rfl, fun wanted member => ?_, fun _ => rfl⟩
        rw [entriesOf_append, if_neg, List.append_nil]
        exact fun here => elsewhere of (here ▸ member)
  | recordLastRunStatus => exact shares_recordLastRunStatus ..
  | _ => exact of.elim

/-- A call about an execution leaves the identifiers of all phases, by cases on whether they are its
own.
-/
theorem phaseIds_answer (sound : m.Sound) (of : call.IsOf other (m.phaseIds other)) (id : Uuid)
    : (Memory.answer call m).2.phaseIds id = m.phaseIds id := by
  by_cases apart : other = id
  · subst apart
    by_cases writes : call.WritesPhases
    · cases call with
      | updatePhase p =>
          change (m.updatePhase p).2.phaseIds other = _
          rcases m.updatePhase_cases p with ⟨_, left⟩ | ⟨_, _, _, left⟩ <;> rw [left]
          exact phaseIds_putPhase sound of.1 of.2
      | setPhaseStatuses wanted source target =>
          obtain rfl : wanted = other := of
          exact phaseIds_setPhaseStatuses m wanted source target
      | createExecution => exact of.elim
      | _ => exact writes.elim
    · rw [phaseIds, phasesOf, phases_answer writes]
      rfl
  · exact (shares_answer_of_ne sound of apart).phaseIds

namespace Shares

/-- Stores that have the same of an execution still do when its record is put in. -/
theorem putExecution (shares : Shares id m m') {e : Execution} (named : e.id = id)
    : Shares id (m.putExecution e) (m'.putExecution e) where
  execution := by
    subst named
    exact (find?_insert_self Execution.id e _).trans (find?_insert_self Execution.id e _).symm
  phases := shares.phases
  entries := shares.entries
  lastRuns := shares.lastRuns

/-- They still do when one of its phases is put in. -/
theorem putPhase (shares : Shares id m m') (sound : m.Sound) (sound' : m'.Sound) {p : PhaseRecord}
    (owned : p.executionId = id) (member : p.id ∈ m.phaseIds id)
    : Shares id (m.putPhase p) (m'.putPhase p) where
  execution := shares.execution
  phases := by
    have member' : p.id ∈ m'.phaseIds id := shares.phaseIds ▸ member
    rw [phasesOf_putPhase sound owned member, phasesOf_putPhase sound' owned member',
      shares.phases]
  entries phase here := shares.entries phase (phaseIds_putPhase sound owned member ▸ here)
  lastRuns := shares.lastRuns

/-- They still do when its phases have moved. -/
theorem setPhaseStatuses (shares : Shares id m m') (source target : PhaseStatus)
    : Shares id (m.setPhaseStatuses id source target).2
        (m'.setPhaseStatuses id source target).2 where
  execution := shares.execution
  phases := by rw [phasesOf_setPhaseStatuses, phasesOf_setPhaseStatuses, shares.phases]
  entries phase here :=
    shares.entries phase (phaseIds_setPhaseStatuses m id source target ▸ here)
  lastRuns := shares.lastRuns

/-- Calls about an execution are answered alike by stores that have the same of it, and the stores
have the same of it afterwards, by cases on the call.
-/
theorem answer (shares : Shares id m m') (sound : m.Sound) (sound' : m'.Sound)
    (of : call.IsOf id (m.phaseIds id))
    : (Memory.answer call m').1 = (Memory.answer call m).1
      ∧ Shares id (Memory.answer call m).2 (Memory.answer call m').2 := by
  cases call with
  | getExecution wanted =>
      obtain rfl : wanted = id := of
      exact ⟨by simp only [Memory.answer, shares.execution], shares⟩
  | listPhases wanted =>
      obtain rfl : wanted = id := of
      have listed : m'.planned wanted = m.planned wanted :=
        congrArg (List.mergeSort · PhaseRecord.upTo) shares.phases
      exact ⟨congrArg Except.ok listed, shares⟩
  | updateExecution e =>
      obtain rfl : e.id = id := of
      simp only [Memory.answer, Memory.updateExecution, shares.execution]
      split
      · exact ⟨rfl, shares⟩
      · split
        · exact ⟨rfl, shares⟩
        · exact ⟨rfl, shares.putExecution rfl⟩
  | requestStop wanted =>
      obtain rfl : wanted = id := of
      simp only [Memory.answer, Memory.requestStop, shares.execution]
      split
      · exact ⟨rfl, shares⟩
      · next stored held =>
          split
          · exact ⟨rfl, shares⟩
          · exact ⟨rfl, shares.putExecution (key_of_find? held : stored.id = wanted)⟩
  | updatePhase p =>
      simp only [Memory.answer, Memory.updatePhase, shares.phase? sound sound' of.2]
      split
      · exact ⟨rfl, shares⟩
      · split
        · exact ⟨rfl, shares⟩
        · exact ⟨rfl, shares.putPhase sound sound' of.1 of.2⟩
  | setPhaseStatuses wanted source target =>
      obtain rfl : wanted = id := of
      have counted : m'.phases.countP (inStatus wanted source)
          = m.phases.countP (inStatus wanted source) := by
        rw [countP_inStatus, countP_inStatus, shares.phases]
      exact ⟨congrArg Except.ok counted, shares.setPhaseStatuses source target⟩
  | appendLogs phase entries =>
      simp only [Memory.answer, shares.phase? sound sound' of]
      split
      · refine ⟨rfl, shares.execution, shares.phases, fun wanted member => ?_, shares.lastRuns⟩
        rw [entriesOf_append, entriesOf_append, shares.entries wanted member]
      · exact ⟨rfl, shares⟩
  | recordLastRunStatus workflow execution status =>
      have before := (shares_recordLastRunStatus id m workflow execution status).symm
      have after := shares_recordLastRunStatus id m' workflow execution status
      refine ⟨?_, before.trans (shares.trans after)⟩
      change (m'.recordLastRunStatus ..).1 = (m.recordLastRunStatus ..).1
      rw [recordLastRunStatus_answer, recordLastRunStatus_answer, shares.lastRuns]
  | _ => exact of.elim

end Shares

end Memory

end Harvest

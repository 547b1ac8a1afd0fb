import Harvest.Proofs.Store.TablesLedger

/-! Stores that can be taken over from their process. A list of the executions in a status leaves
out none, what is unfinished can be brought to its end, and the record of a phase is the same, to
the last field, after every call that is not about the phase.
-/

namespace Harvest

open Books

/-- The call is not about the phase: it neither makes nor replaces its record, and it moves it from
no status.
-/
def StoreCall.SparesPhase {σ : Type} [Books σ] (phase : Uuid) (store : σ) : StoreCall → Prop
  | .createExecution _ phases => phase ∉ phases.map PhaseRecord.id
  | .updatePhase record => record.id ≠ phase
  | .setPhaseStatuses id source _ =>
      ∀ entry ∈ roll store id, entry.id = phase → entry.status ≠ source
  | _ => True

theorem StoreCall.IsIdle.sparesPhase {σ : Type} [Books σ] {call : StoreCall} (idle : call.IsIdle)
    (phase : Uuid) (store : σ)
    : call.SparesPhase phase store := by
  cases call with
  | createExecution _ _ => exact idle.elim
  | updatePhase _ => exact idle.elim
  | setPhaseStatuses _ _ _ => exact idle.elim
  | _ => trivial

/-- The call makes records of phases or replaces some. -/
def StoreCall.WritesPhases : StoreCall → Prop
  | .createExecution _ _ => True
  | .updatePhase _ => True
  | .setPhaseStatuses _ _ _ => True
  | _ => False

/-- What the store tells of a phase. -/
def recordOf {σ : Type} [Store σ] (phase : Uuid) (store : σ) : Except StoreError PhaseRecord :=
  (Store.answer (.getPhase phase) store).1

/-- A store whose books lead to all of its executions, and which refuses no end of them. -/
class Archive (σ : Type) extends Ledger σ where
  listed
    : ∀ {store : σ} {status : ExecutionStatus} {executions : List Execution} {id : Uuid}
        {standing : Standing},
        Sound store
        → (Store.answer (.listByStatus status) store).1 = .ok executions
        → standing? store id = some standing
        → standing.status = status
        → id ∈ executions.map Execution.id
  kept
    : ∀ (call : StoreCall) {store : σ} {phase : Uuid},
        Sound store
        → call.SparesPhase phase store
        → recordOf phase (Store.answer call store).2 = recordOf phase store
  moves
    : ∀ (id : Uuid) (source target : PhaseStatus) {store : σ},
        Sound store
        → ∃ count, (Store.answer (.setPhaseStatuses id source target) store).1 = .ok count
  updates
    : ∀ {execution : Execution} {store : σ},
        Sound store
        → IsOpen execution.id store
        → (Store.answer (.updateExecution execution) store).1 = .ok ()

-----------------------------------------------------------------------------------------
-- Stores in memory
-----------------------------------------------------------------------------------------

namespace Memory

variable {m later : Memory} {phase : Uuid}

theorem recordOf_congr (same : later.phase? phase = m.phase? phase)
    : recordOf phase later = recordOf phase m := by
  change Option.elim (later.phase? phase) _ _ = Option.elim (m.phase? phase) _ _
  rw [same]

/-- A phase is found as before when others are put in, by induction over these. -/
theorem phase?_foldl_putPhase {phases : List PhaseRecord}
    (apart : phase ∉ phases.map PhaseRecord.id)
    : (phases.foldl putPhase m).phase? phase = m.phase? phase := by
  induction phases generalizing m with
  | nil => rfl
  | cons first rest ih =>
      rw [List.map_cons, List.mem_cons, not_or] at apart
      rw [List.foldl_cons, ih apart.2]
      exact find?_insert_of_ne PhaseRecord.id (Ne.symm apart.1) m.phases

/-- A phase is found as before when phases move of which it is none. -/
theorem phase?_setPhaseStatuses {id : Uuid} {source : PhaseStatus}
    (apart : ∀ entry ∈ roll m id, entry.id = phase → entry.status ≠ source)
    (target : PhaseStatus)
    : (m.setPhaseStatuses id source target).2.phase? phase = m.phase? phase := by
  change (m.phases.map (moved id source target)).find? _ = _
  rw [Keyed.find?_map_of_key (moved_id id source target)]
  change (m.phase? phase).map (moved id source target) = m.phase? phase
  cases found : m.phase? phase with
  | none => rfl
  | some record =>
      have named : record.id = phase := key_of_find? found
      have stored : record ∈ m.phases := List.mem_of_find?_eq_some found
      refine congrArg some (if_neg fun inStatus => ?_)
      simp only [Memory.inStatus, Bool.and_eq_true, beq_iff_eq] at inStatus
      obtain ⟨owned, status⟩ := inStatus
      have listed : record.entry ∈ roll m id :=
        List.mem_map_of_mem (mem_planned.mpr ⟨stored, owned⟩)
      exact apart record.entry listed named status

/-- The other calls leave the records of phases, by cases on the call. -/
theorem phases_answer {call : StoreCall} (other : ¬ call.WritesPhases)
    : (Memory.answer call m).2.phases = m.phases := by
  cases call with
  | createExecution _ _ => exact (other trivial).elim
  | updatePhase _ => exact (other trivial).elim
  | setPhaseStatuses _ _ _ => exact (other trivial).elim
  | updateExecution execution =>
      rcases m.updateExecution_cases execution with ⟨_, same⟩ | ⟨_, _, _, same⟩ <;>
        exact congrArg (·.2.phases) same
  | requestStop id =>
      rcases m.requestStop_cases id with ⟨_, same⟩ | ⟨_, _, _, same⟩ <;>
        exact congrArg (·.2.phases) same
  | recordLastRunStart workflow id status time =>
      rcases m.recordLastRunStart_cases workflow id status time with ⟨_, same⟩ | ⟨_, same⟩ <;>
        exact congrArg (·.2.phases) same
  | recordLastRunStatus workflow id status =>
      rcases m.recordLastRunStatus_cases workflow id status with ⟨_, same⟩ | ⟨_, same⟩ <;>
        exact congrArg (·.2.phases) same
  | appendLogs id entries =>
      rcases m.appendLogs_cases id entries with ⟨_, same⟩ | same <;>
        exact congrArg (·.2.phases) same
  | _ => rfl

/-- No call changes a phase that it is not about. -/
theorem phase?_answer (call : StoreCall) (spares : call.SparesPhase phase m)
    : (Memory.answer call m).2.phase? phase = m.phase? phase := by
  by_cases writes : call.WritesPhases
  · cases call with
    | createExecution execution phases => exact phase?_foldl_putPhase spares
    | updatePhase record =>
        change (m.updatePhase record).2.phase? phase = _
        rcases m.updatePhase_cases record with ⟨_, same⟩ | ⟨_, _, _, same⟩
        · rw [same]
        · rw [same]
          exact find?_insert_of_ne PhaseRecord.id spares m.phases
    | setPhaseStatuses id source target => exact phase?_setPhaseStatuses spares target
    | _ => exact writes.elim
  · exact congrArg (List.find? fun record => record.id == phase) (phases_answer writes)

instance : Archive Memory where
  listed := by
    intro m status executions id standing sound answered held same
    cases answered
    obtain ⟨execution, found, rfl⟩ := Option.map_eq_some_iff.mp held
    have stored : execution ∈ m.executions := List.mem_of_find?_eq_some found
    refine List.mem_map.mpr ⟨execution, List.mem_mergeSort.mpr (List.mem_filter.mpr ⟨stored, ?_⟩),
      key_of_find? found⟩
    exact beq_iff_eq.mpr same
  kept call _ _ _ spares := recordOf_congr (phase?_answer call spares)
  moves _ _ _ _ _ := ⟨_, rfl⟩
  updates := by
    rintro execution m _ ⟨standing, held, unfinished⟩
    obtain ⟨stored, found, rfl⟩ := Option.map_eq_some_iff.mp held
    have open' : ¬ stored.status.isTerminal = true := unfinished
    change (m.updateExecution execution).1 = .ok ()
    simp only [Memory.updateExecution, found, if_neg open']
    rfl

end Memory

-----------------------------------------------------------------------------------------
-- Stores in tables
-----------------------------------------------------------------------------------------

namespace Tables

variable {t later : Tables} {m next : Memory} {phase : Uuid}

/-- What is found as before in the mirrored store is found as before in the tables. -/
theorem Mirrors.recordOf_congr (before : t.Mirrors m) (after : later.Mirrors next)
    (same : next.phase? phase = m.phase? phase)
    : recordOf phase later = recordOf phase t := by
  change readOne _ _ _ = readOne _ _ _
  rw [after.phase?, before.phase?, same]

/-- What a call spares in the tables it spares in the mirrored store. -/
theorem Mirrors.sparesPhase (mirrors : t.Mirrors m) {call : StoreCall}
    (spares : call.SparesPhase phase t)
    : call.SparesPhase phase m := by
  cases call with
  | setPhaseStatuses id source target =>
      intro entry listed
      exact spares entry (mirrors.roll id ▸ listed)
  | _ => exact spares

theorem changeExecution_phases (t : Tables) (id : Uuid) (change : ExecutionRow → ExecutionRow)
    : (t.changeExecution id change).2.phases = t.phases := by
  unfold changeExecution
  dsimp only
  split <;> rfl

theorem changeWorkflow_phases (t : Tables) (touched : WorkflowRow → Bool)
    (change : WorkflowRow → WorkflowRow) (refusal : StoreError)
    : (t.changeWorkflow touched change refusal).2.phases = t.phases := by
  rcases t.changeWorkflow_cases touched change refusal with same | ⟨_, same⟩ <;> rw [same]

/-- The other calls leave the table of phases, by cases on the call. -/
theorem phases_answer {call : StoreCall} (other : ¬ call.WritesPhases)
    : (Tables.answer call t).2.phases = t.phases := by
  cases call with
  | createExecution _ _ => exact (other trivial).elim
  | updatePhase _ => exact (other trivial).elim
  | setPhaseStatuses _ _ _ => exact (other trivial).elim
  | updateExecution execution => exact t.changeExecution_phases _ _
  | requestStop id => exact t.changeExecution_phases _ _
  | recordLastRunStart workflow id status time => exact t.changeWorkflow_phases _ _ _
  | recordLastRunStatus workflow id status => exact t.changeWorkflow_phases _ _ _
  | appendLogs id entries =>
      rcases t.appendLogs_cases id entries with ⟨_, same⟩ | ⟨_, same, _⟩ <;> rw [same]
  | createWorkflow workflow =>
      rcases t.createWorkflow_cases workflow with ⟨_, same⟩ | ⟨_, same⟩ <;> rw [same]
  | _ => rfl

/-- No call changes a phase that it is not about. -/
theorem recordOf_answer (mirrors : t.Mirrors m) (call : StoreCall)
    (spares : call.SparesPhase phase t)
    : recordOf phase (Tables.answer call t).2 = recordOf phase t := by
  have found := Memory.phase?_answer call (mirrors.sparesPhase spares)
  by_cases writes : call.WritesPhases
  · cases call with
    | createExecution execution phases =>
        rcases createExecution_cases mirrors execution phases with ⟨_, same⟩ | ⟨_, same, after, _⟩
        · rw [same]
        · rw [same]
          exact mirrors.recordOf_congr after found
    | updatePhase record =>
        change recordOf phase (t.changePhase record.id (setPhase record)).2 = _
        rcases changePhase_cases mirrors record.id (setPhase record) (updatedPhase record)
          (fun _ => rfl) (fun _ => rfl) with ⟨_, same⟩ | ⟨stored, _, held, same, after, _⟩
        · rw [same]
        · rw [same]
          refine mirrors.recordOf_congr after ?_
          have named : stored.id = record.id := Memory.key_of_find? held
          have apart : (updatedPhase record stored).id ≠ phase :=
            fun equal => spares (named ▸ equal)
          exact Memory.find?_insert_of_ne PhaseRecord.id apart m.phases
    | setPhaseStatuses id source target =>
        exact mirrors.recordOf_congr (mirrors_setPhaseStatuses mirrors id source target) found
    | _ => exact writes.elim
  · change readOne (List.find? _ _) _ _ = readOne (List.find? _ _) _ _
    rw [phases_answer writes]

instance : Archive Tables where
  listed := by
    rintro t status executions id standing ⟨m, mirrors⟩ answered held same
    let picked := (t.executions.filter (·.status == status.name)).mergeSort ExecutionRow.upTo
    have within : ∀ row ∈ picked, row ∈ t.executions := fun row member =>
      (List.mem_filter.mp (List.mem_mergeSort.mp member)).1
    have texts := mirrors.texts_of_mapM within answered
    rw [mirrors.standing?] at held
    obtain ⟨execution, found, rfl⟩ := Option.map_eq_some_iff.mp held
    have here : ExecutionRow.ofRecord execution ∈ picked := by
      refine List.mem_mergeSort.mpr (List.mem_filter.mpr ⟨?_, ?_⟩)
      · rw [mirrors.executions]
        exact List.mem_map_of_mem (List.mem_of_find?_eq_some found)
      · change (execution.status.name == status.name) = true
        rw [ExecutionStatus.name_beq]
        exact beq_iff_eq.mpr same
    have listed : execution.id.text ∈ executions.map fun execution => execution.id.text := by
      rw [texts]
      exact List.mem_map.mpr ⟨_, here, rfl⟩
    obtain ⟨read, member, named⟩ := List.mem_map.mp listed
    refine List.mem_map.mpr ⟨read, member, (Uuid.text_injective named).trans ?_⟩
    exact Memory.key_of_find? found
  kept := by
    rintro call t phase ⟨m, mirrors⟩ spares
    exact recordOf_answer mirrors call spares
  moves _ _ _ _ _ := ⟨_, rfl⟩
  updates := by
    rintro execution t ⟨m, mirrors⟩ ⟨standing, held, unfinished⟩
    rw [mirrors.standing?] at held
    obtain ⟨stored, found, rfl⟩ := Option.map_eq_some_iff.mp held
    have open' : stored.status.isTerminal = false := eq_false_of_ne_true unfinished
    have row : ExecutionRow.ofRecord stored ∈ t.executions := by
      rw [mirrors.executions]
      exact List.mem_map_of_mem (List.mem_of_find?_eq_some found)
    have touched : t.executions.any
        fun row => row.id == execution.id.text && !row.isTerminal := by
      refine List.any_eq_true.mpr ⟨_, row, ?_⟩
      rw [ExecutionRow.isTerminal_ofRecord, open', ← Memory.key_of_find? found]
      exact Bool.and_eq_true_iff.mpr ⟨beq_self_eq_true _, rfl⟩
    change (t.changeExecution execution.id (setExecution execution)).1 = .ok ()
    simp only [changeExecution, if_pos touched]
    rfl

end Tables

end Harvest

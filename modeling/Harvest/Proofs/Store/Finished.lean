import Harvest.Proofs.Store.Amended
import Harvest.Proofs.Store.Archive

/-! What is finished in a store. No call reaches an execution that is finished. A finished phase is
left alone too, save by the one call that moves all phases of its execution out of its status.
-/

namespace Harvest

section

variable {α κ : Type} [BEq κ] {key : α → κ} {isFinished : α → Bool} {before after : List α}

/-- What is found finished before is found the same after. -/
def Lasts (key : α → κ) (isFinished : α → Bool) (before after : List α) : Prop :=
  ∀ id record,
    before.find? (key · == id) = some record
    → isFinished record
    → after.find? (key · == id) = some record

theorem Lasts.of_eq (same : after = before) : Lasts key isFinished before after :=
  fun _ _ found _ => same ▸ found

/-- What is finished lasts when records are added behind. -/
theorem lasts_append (more : List α) : Lasts key isFinished before (before ++ more) :=
  fun id record found _ => by rw [List.find?_append, found, Option.some_or]

/-- Changing rows changes what is found under an identifier. -/
theorem find?_replaceWhere {touched : α → Bool} {change : α → α}
    (keeps : ∀ record, key (change record) = key record) (records : List α) (id : κ)
    : (Tables.replaceWhere touched change records).find? (key · == id)
      = (records.find? (key · == id)).map fun record =>
          if touched record then change record else record := by
  refine Keyed.find?_map_of_key (fun record => ?_) id records
  split
  · exact keeps record
  · rfl

/-- What is finished lasts when only unfinished records are changed. -/
theorem lasts_replaceWhere {touched : α → Bool} {change : α → α}
    (unfinished : ∀ record, touched record → isFinished record = false)
    (keeps : ∀ record, key (change record) = key record)
    : Lasts key isFinished before (Tables.replaceWhere touched change before) := by
  intro id record found finished
  rw [find?_replaceWhere keeps, found, Option.map_some]
  refine congrArg some (if_neg fun touches => ?_)
  rw [unfinished record touches] at finished
  cases finished

/-- What is finished lasts when a record is put in for an unfinished one, or for none. -/
theorem lasts_insert {key : α → Uuid} {record : α}
    (unfinished : ∀ old ∈ Memory.find? key (key record) before, isFinished old = false)
    : Lasts key isFinished before (Memory.insert key record before) := by
  intro id old found finished
  by_cases same : key record = id
  · rw [unfinished old (same ▸ found)] at finished
    cases finished
  · exact (Memory.find?_insert_of_ne key same before).trans found

end

/-- Records that the call creates have identifiers of their own. -/
def StoreCall.CreatesNew (m : Memory) : StoreCall → Prop
  | .createExecution e phases =>
      m.execution? e.id = none ∧ ∀ p ∈ phases, m.phase? p.id = none
  | _ => True

-----------------------------------------------------------------------------------------
-- Stores in memory
-----------------------------------------------------------------------------------------

namespace Memory

variable {m : Memory}

theorem workflows_foldl_putPhase (phases : List PhaseRecord) (m : Memory)
    : (phases.foldl putPhase m).workflows = m.workflows := by
  induction phases generalizing m with
  | nil => rfl
  | cons first rest ih => exact ih _

theorem executions_foldl_putPhase (phases : List PhaseRecord) (m : Memory)
    : (phases.foldl putPhase m).executions = m.executions := by
  induction phases generalizing m with
  | nil => rfl
  | cons first rest ih => exact ih _

/-- No call changes an execution that is finished, by cases on the call. -/
theorem executions_last (call : StoreCall) (new : call.CreatesNew m)
    : Lasts Execution.id (·.status.isTerminal) m.executions
        (Memory.answer call m).2.executions := by
  cases call with
  | createExecution e phases =>
      change Lasts _ _ _ (phases.foldl putPhase (m.putExecution e)).executions
      rw [executions_foldl_putPhase]
      refine lasts_insert fun old held => ?_
      cases held.symm.trans new.1
  | updateExecution e =>
      rcases m.updateExecution_cases e with ⟨_, same⟩ | ⟨stored, held, unfinished, same⟩
      · exact .of_eq (congrArg (·.2.executions) same)
      · change Lasts _ _ _ (m.updateExecution e).2.executions
        rw [same]
        refine lasts_insert fun old held' => ?_
        cases held.symm.trans held'
        exact eq_false_of_ne_true unfinished
  | requestStop id =>
      rcases m.requestStop_cases id with ⟨_, same⟩ | ⟨stored, held, unfinished, same⟩
      · exact .of_eq (congrArg (·.2.executions) same)
      · change Lasts _ _ _ (m.requestStop id).2.executions
        rw [same]
        obtain rfl := key_of_find? held
        refine lasts_insert fun old held' => ?_
        cases held.symm.trans held'
        exact eq_false_of_ne_true unfinished
  | updatePhase record =>
      rcases m.updatePhase_cases record with ⟨_, same⟩ | ⟨_, _, _, same⟩ <;>
        exact .of_eq (congrArg (·.2.executions) same)
  | recordLastRunStart workflow id status time =>
      rcases m.recordLastRunStart_cases workflow id status time with ⟨_, same⟩ | ⟨_, same⟩ <;>
        exact .of_eq (congrArg (·.2.executions) same)
  | recordLastRunStatus workflow id status =>
      rcases m.recordLastRunStatus_cases workflow id status with ⟨_, same⟩ | ⟨_, same⟩ <;>
        exact .of_eq (congrArg (·.2.executions) same)
  | appendLogs id entries =>
      rcases m.appendLogs_cases id entries with ⟨_, same⟩ | same <;>
        exact .of_eq (congrArg (·.2.executions) same)
  | _ => exact .of_eq rfl

/-- No call changes a phase that is finished, unless it moves the phases of its execution out of its
status.
-/
theorem phases_last (call : StoreCall) (new : call.CreatesNew m) {id : Uuid} {p : PhaseRecord}
    (found : m.phase? id = some p) (finished : p.status.isTerminal)
    : (Memory.answer call m).2.phase? id = some p
      ∨ ∃ target,
          call = .setPhaseStatuses p.executionId p.status target
          ∧ (Memory.answer call m).2.phase? id = some { p with status := target } := by
  have named : p.id = id := key_of_find? found
  by_cases writes : call.WritesPhases
  · cases call with
    | createExecution e phases =>
        refine Or.inl ((phase?_foldl_putPhase fun member => ?_).trans found)
        obtain ⟨other, among, same⟩ := List.mem_map.mp member
        cases found.symm.trans (same ▸ new.2 other among)
    | updatePhase record =>
        left
        change (m.updatePhase record).2.phase? id = some p
        rcases m.updatePhase_cases record with ⟨_, same⟩ | ⟨stored, held, unfinished, same⟩
        · rw [same]
          exact found
        · rw [same]
          have lasts : Lasts PhaseRecord.id (·.status.isTerminal) m.phases
              (m.putPhase record).phases := lasts_insert fun old held' => by
            cases held.symm.trans held'
            exact eq_false_of_ne_true unfinished
          exact lasts id p found finished
    | setPhaseStatuses owner source target =>
        have moved : (Memory.answer (.setPhaseStatuses owner source target) m).2.phase? id
            = some (Memory.moved owner source target p) := by
          change (m.phases.map (Memory.moved owner source target)).find? (·.id == id) = _
          rw [Keyed.find?_map_of_key (moved_id owner source target)]
          exact congrArg (Option.map (Memory.moved owner source target)) found
        by_cases touched : inStatus owner source p
        · have places : p.executionId = owner ∧ p.status = source := by
            simpa [inStatus] using touched
          obtain ⟨rfl, rfl⟩ := places
          exact Or.inr ⟨target, rfl, moved.trans (congrArg some (if_pos touched))⟩
        · exact Or.inl (moved.trans (congrArg some (if_neg touched)))
    | _ => exact writes.elim
  · refine Or.inl ?_
    rw [phase?, phases_answer writes]
    exact found

end Memory

-----------------------------------------------------------------------------------------
-- Stores in tables
-----------------------------------------------------------------------------------------

namespace Tables

variable {t later : Tables}

theorem insertExecution_eq {row : ExecutionRow} (added : t.insertExecution row = .ok later)
    : later = { t with executions := t.executions ++ [row] } := by
  unfold insertExecution at added
  split at added
  · cases added
  · split at added <;> cases added
    rfl

theorem insertPhase_eq {row : PhaseRow} (added : t.insertPhase row = .ok later)
    : later = { t with phases := t.phases ++ [row] } := by
  unfold insertPhase at added
  split at added
  · cases added
  · split at added <;> cases added
    rfl

/-- Phases are added behind the others, by induction over them. -/
theorem insertPhases_eq {phases : List PhaseRecord}
    (added : phases.foldlM (fun t phase => t.insertPhase (.ofRecord phase)) t = .ok later)
    : later = { t with phases := t.phases ++ phases.map PhaseRow.ofRecord } := by
  induction phases generalizing t with
  | nil =>
      cases added
      simp
  | cons first rest ih =>
      rw [List.foldlM_cons] at added
      obtain ⟨middle, here, added⟩ := bind_eq_ok.mp added
      rw [ih added, insertPhase_eq here]
      simp

/-- An execution and its phases are added behind the others, or nothing changes. -/
theorem createExecution_eq (t : Tables) (e : Execution) (phases : List PhaseRecord)
    : (∃ reason, Tables.answer (.createExecution e phases) t = (.error reason, t))
      ∨ Tables.answer (.createExecution e phases) t
        = (.ok (), { t with
            executions := t.executions ++ [.ofRecord e]
            phases := t.phases ++ phases.map PhaseRow.ofRecord }) := by
  rcases t.atomically_cases _ with refused | ⟨later, added, granted⟩
  · exact Or.inl refused
  · obtain ⟨middle, here, added⟩ := bind_eq_ok.mp added
    rw [insertPhases_eq added, insertExecution_eq here] at granted
    exact Or.inr granted

/-- A change of an execution leaves what is finished. -/
theorem changeExecution_lasts (t : Tables) (id : Uuid) (change : ExecutionRow → ExecutionRow)
    (keeps : ∀ row, (change row).id = row.id)
    : Lasts ExecutionRow.id ExecutionRow.isTerminal t.executions
        (t.changeExecution id change).2.executions := by
  simp only [changeExecution]
  split
  · refine lasts_replaceWhere (fun row touched => ?_) keeps
    simpa using (Bool.and_eq_true_iff.mp touched).2
  · exact .of_eq rfl

theorem changePhase_lasts (t : Tables) (id : Uuid) (change : PhaseRow → PhaseRow)
    (keeps : ∀ row, (change row).id = row.id)
    : Lasts PhaseRow.id PhaseRow.isTerminal t.phases (t.changePhase id change).2.phases := by
  simp only [changePhase]
  split
  · refine lasts_replaceWhere (fun row touched => ?_) keeps
    simpa using (Bool.and_eq_true_iff.mp touched).2
  · exact .of_eq rfl

theorem changePhase_executions (t : Tables) (id : Uuid) (change : PhaseRow → PhaseRow)
    : (t.changePhase id change).2.executions = t.executions := by
  simp only [changePhase]
  split <;> rfl

/-- No call changes an execution that is finished, by cases on the call. -/
theorem executions_last (call : StoreCall) (t : Tables)
    : Lasts ExecutionRow.id ExecutionRow.isTerminal t.executions
        (Tables.answer call t).2.executions := by
  cases call with
  | createExecution e phases =>
      rcases t.createExecution_eq e phases with ⟨_, same⟩ | same
      · exact .of_eq (congrArg (·.2.executions) same)
      · rw [same]
        exact lasts_append _
  | updateExecution e => exact t.changeExecution_lasts e.id _ fun _ => rfl
  | requestStop id => exact t.changeExecution_lasts id _ fun _ => rfl
  | updatePhase p => exact .of_eq (t.changePhase_executions _ _)
  | createWorkflow workflow =>
      rcases t.createWorkflow_cases workflow with ⟨_, same⟩ | ⟨_, same⟩ <;>
        exact .of_eq (congrArg (·.2.executions) same)
  | recordLastRunStart workflow id status time =>
      rcases t.changeWorkflow_cases _ _ _ with same | ⟨_, same⟩ <;>
        exact .of_eq (congrArg (·.2.executions) same)
  | recordLastRunStatus workflow id status =>
      rcases t.changeWorkflow_cases _ _ _ with same | ⟨_, same⟩ <;>
        exact .of_eq (congrArg (·.2.executions) same)
  | appendLogs id entries =>
      rcases t.appendLogs_cases id entries with ⟨_, same⟩ | ⟨_, same, _⟩ <;>
        exact .of_eq (congrArg (·.2.executions) same)
  | _ => exact .of_eq rfl

/-- No call changes a phase that is finished, unless it moves the phases of its execution out of its
status.
-/
theorem phases_last (call : StoreCall) {id : String} {row : PhaseRow}
    (found : t.phases.find? (·.id == id) = some row) (finished : row.isTerminal)
    : (Tables.answer call t).2.phases.find? (·.id == id) = some row
      ∨ ∃ owner source target,
          call = .setPhaseStatuses owner source target
          ∧ row.executionId = owner.text
          ∧ row.status = source.name
          ∧ (Tables.answer call t).2.phases.find? (·.id == id)
            = some { row with status := target.name } := by
  by_cases writes : call.WritesPhases
  · cases call with
    | createExecution e phases =>
        left
        rcases t.createExecution_eq e phases with ⟨_, same⟩ | same
        · rw [same]
          exact found
        · rw [same]
          have lasts : Lasts PhaseRow.id PhaseRow.isTerminal t.phases
              (t.phases ++ phases.map PhaseRow.ofRecord) := lasts_append _
          exact lasts id row found finished
    | updatePhase record =>
        have lasts := t.changePhase_lasts record.id (setPhase record) fun _ => rfl
        exact Or.inl (lasts id row found finished)
    | setPhaseStatuses owner source target =>
        have after
            : (Tables.answer (.setPhaseStatuses owner source target) t).2.phases.find? (·.id == id)
              = some (if inStatus owner source row then { row with status := target.name }
                else row) := by
          change (replaceWhere (inStatus owner source) _ t.phases).find? (·.id == id) = _
          refine (find?_replaceWhere (fun _ => ?_) t.phases id).trans ?_
          · rfl
          · rw [found, Option.map_some]
        by_cases touched : inStatus owner source row
        · have places : row.executionId = owner.text ∧ row.status = source.name := by
            simpa [inStatus] using touched
          exact Or.inr ⟨owner, source, target, rfl, places.1, places.2,
            after.trans (congrArg some (if_pos touched))⟩
        · exact Or.inl (after.trans (congrArg some (if_neg touched)))
    | _ => exact writes.elim
  · refine Or.inl ?_
    rw [phases_answer writes]
    exact found

end Tables

/-- After any call of a store an execution that was finished is found the same, to the last field.
So is a phase that was finished, unless the call moves the phases of its execution out of the status
it is in; then the phase has the status that they are moved to, and is otherwise the same.
-/
theorem finished_records_last (call : StoreCall)
    : (∀ m : Memory,
        call.CreatesNew m
        → (∀ id e,
            m.execution? id = some e
            → e.status.isTerminal
            → (Memory.answer call m).2.execution? id = some e)
          ∧ ∀ id p,
            m.phase? id = some p
            → p.status.isTerminal
            → (Memory.answer call m).2.phase? id = some p
              ∨ ∃ target,
                  call = .setPhaseStatuses p.executionId p.status target
                  ∧ (Memory.answer call m).2.phase? id = some { p with status := target })
      ∧ ∀ t : Tables,
        (∀ id row,
          t.executions.find? (·.id == id) = some row
          → row.isTerminal
          → (Tables.answer call t).2.executions.find? (·.id == id) = some row)
        ∧ ∀ id row,
          t.phases.find? (·.id == id) = some row
          → row.isTerminal
          → (Tables.answer call t).2.phases.find? (·.id == id) = some row
            ∨ ∃ owner source target,
                call = .setPhaseStatuses owner source target
                ∧ row.executionId = owner.text
                ∧ row.status = source.name
                ∧ (Tables.answer call t).2.phases.find? (·.id == id)
                  = some { row with status := target.name } :=
  ⟨fun _ new => ⟨Memory.executions_last call new, fun _ _ => Memory.phases_last call new⟩,
    fun t => ⟨Tables.executions_last call t, fun _ _ => Tables.phases_last call⟩⟩

/-- The execution of a store and its only phase, both completed. -/
def Execution.closed : Execution :=
  { Execution.fresh (.ofNat 2) (.ofNat 1) ⟨0, 0, 0⟩ "user" "" with status := .completed }

def PhaseRecord.closed : PhaseRecord :=
  { fresh (.ofNat 3) (.ofNat 2) 1 0 "Launch" .launchBrowser "" with status := .completed }

/-- When all completed phases of a completed execution become pending, the execution is found the
same in either store.
-/
theorem finished_records_last_reopened
    : let m : Memory := { Memory.lone with executions := [.closed], phases := [.closed] }
      let call : StoreCall := .setPhaseStatuses (.ofNat 2) .completed .pending
      let row := ExecutionRow.ofRecord .closed
      (call.CreatesNew m
        ∧ m.execution? (.ofNat 2) = some .closed
        ∧ Execution.closed.status.isTerminal
        ∧ (Memory.answer call m).2.execution? (.ofNat 2) = some .closed)
      ∧ (m.phase? (.ofNat 3) = some .closed
        ∧ PhaseRecord.closed.status.isTerminal
        ∧ ((Memory.answer call m).2.phase? (.ofNat 3) = some .closed
          ∨ ∃ target,
              call = .setPhaseStatuses (.ofNat 2) .completed target
              ∧ (Memory.answer call m).2.phase? (.ofNat 3)
                = some { PhaseRecord.closed with status := target }))
      ∧ (Tables.copyOf m).executions.find? (·.id == (Uuid.ofNat 2).text) = some row
      ∧ row.isTerminal
      ∧ (Tables.answer call (Tables.copyOf m)).2.executions.find? (·.id == (Uuid.ofNat 2).text)
        = some row := by
  intro m call row
  have sound : m.Sound := ⟨List.nodup_singleton _, List.nodup_singleton _⟩
  have held : (Tables.copyOf m).executions.find? (·.id == (Uuid.ofNat 2).text) = some row :=
    (Tables.mirrors_copyOf sound).execution? (.ofNat 2)
  have finished : row.isTerminal := ExecutionRow.isTerminal_ofRecord .closed
  obtain ⟨inMemory, inTables⟩ := finished_records_last call
  obtain ⟨executions, phases⟩ := inMemory m trivial
  exact ⟨⟨trivial, rfl, rfl, executions _ _ rfl rfl⟩, ⟨rfl, rfl, phases _ _ rfl rfl⟩, held,
    finished, (inTables _).1 _ _ held finished⟩

end Harvest

import Harvest.Proofs.Store.Reading
import Harvest.Proofs.Store.TablesLedger
import Mathlib.Data.List.Induction

/-! Copies of stores in memory. The rows of all records in memory make a store in tables; what is
added to it, changed in it and read from it is the copy of what is added to the records, changed in
them and read from them.
-/

namespace Harvest

open Time

namespace Tables

/-- The rows of log entries, numbered in the order of their arrival. -/
def logRows (logs : List (Uuid × LogEntry)) : List LogRow :=
  (logs.zipIdx 1).map fun ((phase, entry), number) => .ofEntry number phase entry

/-- The copy of a store in memory. -/
def copyOf (m : Memory) : Tables where
  workflows := m.workflows.map .ofRecord
  executions := m.executions.map .ofRecord
  phases := m.phases.map .ofRecord
  logs := logRows m.logs

variable {m : Memory} {id : Uuid}

/-- A copy mirrors its store. -/
theorem mirrors_copyOf (sound : m.Sound) : (copyOf m).Mirrors m := ⟨rfl, rfl, sound⟩

theorem workflow?_copyOf (m : Memory) (id : Uuid)
    : (copyOf m).workflows.find? (·.id == id.text)
      = (m.workflow? id).map WorkflowRow.ofRecord := by
  rw [copyOf, List.find?_map]
  simp only [Function.comp_def, WorkflowRow.ofRecord, text_beq]
  rfl

-----------------------------------------------------------------------------------------
-- Rows that are there
-----------------------------------------------------------------------------------------

section

variable {ρ α : Type} {row : α → ρ} {key : α → Uuid} {name : ρ → String} {records : List α}

/-- A row of an identifier is there when its record is. -/
theorem any_eq_isSome (row : α → ρ) (name : ρ → String) (key : α → Uuid)
    (named : ∀ record, name (row record) = (key record).text) (records : List α) (id : Uuid)
    : (records.map row).any (name · == id.text) = (Memory.find? key id records).isSome := by
  rw [List.any_map, Memory.find?, List.isSome_find?]
  simp only [Function.comp_def, named, text_beq]

/-- A row of an identifier that may be touched is there when its record is. -/
theorem any_touched (row : α → ρ) (name : ρ → String) (distinct : (records.map key).Nodup)
    (named : ∀ record, name (row record) = (key record).text) (isTerminal : ρ → Bool) (id : Uuid)
    : ((records.map row).any fun row => name row == id.text && !isTerminal row)
      = (Memory.find? key id records).any fun record => !isTerminal (row record) := by
  rw [List.any_map]
  simp only [Function.comp_def, named, text_beq]
  cases found : Memory.find? key id records with
  | none =>
      refine List.any_eq_false.mpr fun record member => ?_
      have other := List.find?_eq_none.mp found record member
      simp [eq_false_of_ne_true other]
  | some stored =>
      have same : key stored = id := Memory.key_of_find? found
      have among : stored ∈ records := List.mem_of_find?_eq_some found
      refine Bool.eq_iff_iff.mpr ⟨fun here => ?_, fun here => ?_⟩
      · obtain ⟨record, member, touched⟩ := List.any_eq_true.mp here
        rw [Bool.and_eq_true, beq_iff_eq] at touched
        obtain rfl := List.inj_on_of_nodup_map distinct member among (touched.1.trans same.symm)
        exact touched.2
      · refine List.any_eq_true.mpr ⟨stored, among, ?_⟩
        rw [Bool.and_eq_true, beq_iff_eq]
        exact ⟨same, here⟩

/-- Changing the row of a record that may be touched is putting the changed record in. -/
theorem replaceWhere_of_found (row : α → ρ) (name : ρ → String) (isTerminal : ρ → Bool)
    (distinct : (records.map key).Nodup)
    (named : ∀ record, name (row record) = (key record).text)
    {change : ρ → ρ} {made : α → α} (fits : ∀ record, change (row record) = row (made record))
    (keeps : ∀ record, key (made record) = key record) {stored : α}
    (found : Memory.find? key id records = some stored) (unfinished : ¬ isTerminal (row stored))
    : replaceWhere (fun row => name row == id.text && !isTerminal row) change (records.map row)
      = (Memory.insert key (made stored) records).map row := by
  have met : (records.map row).any fun row => name row == id.text && !isTerminal row := by
    rw [any_touched row name distinct named, found, Option.any_some, eq_false_of_ne_true unfinished]
    rfl
  obtain ⟨other, held, _, replaced⟩ := replaceWhere_of_any row name distinct named fits keeps met
  obtain rfl := Option.some.inj (found.symm.trans held)
  exact replaced

/-- A record of a new identifier adds its row behind the others. -/
theorem map_insert_of_new (row : α → ρ) {record : α}
    (new : Memory.find? key (key record) records = none)
    : (Memory.insert key record records).map row = records.map row ++ [row record] := by
  rw [Memory.insert_of_find?_eq_none new, List.map_append]
  rfl

/-- What is picked, sorted and read of rows is what is picked and sorted of their records. -/
theorem listed {picks : ρ → Bool} {test : α → Bool} {rowUpTo : ρ → ρ → Bool}
    {upTo : α → α → Bool} {read : ρ → RowRead α}
    (picked : ∀ record, picks (row record) = test record)
    (ordered
      : ∀ one ∈ records, ∀ two ∈ records, rowUpTo (row one) (row two) = upTo one two)
    (reads : ∀ record ∈ records, read (row record) = .ok record)
    : (((records.map row).filter picks).mergeSort rowUpTo).mapM read
      = .ok ((records.filter test).mergeSort upTo) := by
  have rows : (records.map row).filter picks = (records.filter test).map row := by
    rw [List.filter_map]
    exact congrArg (List.map row) (List.filter_congr fun record _ => picked record)
  have sorted : ((records.filter test).map row).mergeSort rowUpTo
      = ((records.filter test).mergeSort upTo).map row := by
    refine (List.map_mergeSort fun one here two there => ?_).symm
    exact (ordered one (List.mem_of_mem_filter here) two (List.mem_of_mem_filter there)).symm
  rw [rows, sorted, mapM_map_eq_ok fun record member =>
    reads record (List.mem_of_mem_filter (List.mem_mergeSort.mp member)), List.map_id']

end

theorem hasWorkflow_copyOf (m : Memory) (id : Uuid)
    : (copyOf m).hasWorkflow id.text = (m.workflow? id).isSome :=
  any_eq_isSome WorkflowRow.ofRecord WorkflowRow.id Workflow.id (fun _ => rfl) m.workflows id

theorem hasExecution_copyOf (m : Memory) (id : Uuid)
    : (copyOf m).hasExecution id.text = (m.execution? id).isSome :=
  any_eq_isSome ExecutionRow.ofRecord ExecutionRow.id Execution.id (fun _ => rfl) m.executions id

theorem hasPhase_copyOf (m : Memory) (id : Uuid)
    : (copyOf m).hasPhase id.text = (m.phase? id).isSome :=
  any_eq_isSome PhaseRow.ofRecord PhaseRow.id PhaseRecord.id (fun _ => rfl) m.phases id

-----------------------------------------------------------------------------------------
-- Rows that are added
-----------------------------------------------------------------------------------------

/-- A new workflow is added to the copy as to the store. -/
theorem insertWorkflow_copyOf {w : Workflow} (fresh : m.workflow? w.id = none)
    : (copyOf m).insertWorkflow (.ofRecord w) = .ok (copyOf (m.putWorkflow w)) := by
  have absent : (copyOf m).hasWorkflow w.id.text = false := by
    rw [hasWorkflow_copyOf, fresh]
    rfl
  rw [insertWorkflow, show (WorkflowRow.ofRecord w).id = w.id.text from rfl, absent]
  exact congrArg (fun workflows => Except.ok { copyOf m with workflows })
    (map_insert_of_new WorkflowRow.ofRecord fresh).symm

/-- A new execution of a workflow that is there is added to the copy as to the store. -/
theorem insertExecution_copyOf {e : Execution} (fresh : m.execution? e.id = none)
    (owner : (m.workflow? e.workflowId).isSome)
    : (copyOf m).insertExecution (.ofRecord e) = .ok (copyOf (m.putExecution e)) := by
  have absent : (copyOf m).hasExecution e.id.text = false := by
    rw [hasExecution_copyOf, fresh]
    rfl
  have there : (copyOf m).hasWorkflow e.workflowId.text = true := by
    rw [hasWorkflow_copyOf, owner]
  rw [insertExecution, show (ExecutionRow.ofRecord e).id = e.id.text from rfl,
    show (ExecutionRow.ofRecord e).workflowId = e.workflowId.text from rfl, absent, there]
  exact congrArg (fun executions => Except.ok { copyOf m with executions })
    (map_insert_of_new ExecutionRow.ofRecord fresh).symm

/-- A new phase of an execution that is there is added to the copy as to the store. -/
theorem insertPhase_copyOf {p : PhaseRecord} (fresh : m.phase? p.id = none)
    (owner : (m.execution? p.executionId).isSome)
    : (copyOf m).insertPhase (.ofRecord p) = .ok (copyOf (m.putPhase p)) := by
  have absent : (copyOf m).hasPhase p.id.text = false := by
    rw [hasPhase_copyOf, fresh]
    rfl
  have there : (copyOf m).hasExecution p.executionId.text = true := by
    rw [hasExecution_copyOf, owner]
  rw [insertPhase, show (PhaseRow.ofRecord p).id = p.id.text from rfl,
    show (PhaseRow.ofRecord p).executionId = p.executionId.text from rfl, absent, there]
  exact congrArg (fun phases => Except.ok { copyOf m with phases })
    (map_insert_of_new PhaseRow.ofRecord fresh).symm

/-- New phases of an execution that is there are added one after another, by induction over them. -/
theorem insertPhases_copyOf {phases : List PhaseRecord} (owner : (m.execution? id).isSome)
    (fresh : ∀ p ∈ phases, p.executionId = id ∧ m.phase? p.id = none)
    (distinct : (phases.map PhaseRecord.id).Nodup)
    : phases.foldlM (fun t p => t.insertPhase (.ofRecord p)) (copyOf m)
      = .ok (copyOf (phases.foldl Memory.putPhase m)) := by
  induction phases generalizing m with
  | nil => rfl
  | cons first rest ih =>
      obtain ⟨owned, new⟩ := fresh first List.mem_cons_self
      rw [List.map_cons, List.nodup_cons] at distinct
      rw [List.foldlM_cons, insertPhase_copyOf new (owned ▸ owner)]
      refine ih (m := m.putPhase first) owner (fun p member => ?_) distinct.2
      obtain ⟨owned, new⟩ := fresh p (List.mem_cons_of_mem _ member)
      have apart : first.id ≠ p.id := fun same =>
        distinct.1 (same ▸ List.mem_map_of_mem member)
      exact ⟨owned, (Memory.find?_insert_of_ne PhaseRecord.id apart m.phases).trans new⟩

theorem logRows_append (logs : List (Uuid × LogEntry)) (phase : Uuid) (entry : LogEntry)
    : logRows (logs ++ [(phase, entry)])
      = logRows logs ++ [.ofEntry (logs.length + 1) phase entry] := by
  rw [logRows, List.zipIdx_append, List.map_append, Nat.add_comm]
  rfl

/-- As many numbers are taken as there are log entries, by induction from the last one. -/
theorem nextLog_copyOf (m : Memory) : (copyOf m).nextLog = m.logs.length + 1 := by
  suffices taken : ∀ logs, (logRows logs).foldl (fun n row => max n row.id) 0 = logs.length from
    congrArg (· + 1) (taken m.logs)
  intro logs
  induction logs using List.reverseRecOn with
  | nil => rfl
  | append_singleton logs log ih =>
      rw [logRows_append, List.foldl_append, ih, List.length_append]
      exact Nat.max_eq_right (Nat.le_succ _)

/-- Log entries of a phase that is there are added one after another, by induction over them. -/
theorem insertLogs_copyOf (owner : (m.phase? id).isSome) (entries : List LogEntry)
    : entries.foldlM (insertLog id.text) (copyOf m)
      = .ok (copyOf { m with logs := m.logs ++ entries.map fun entry => (id, entry) }) := by
  induction entries generalizing m with
  | nil => simp [pure, Except.pure]
  | cons first rest ih =>
      have there : (copyOf m).hasPhase id.text = true := by rw [hasPhase_copyOf, owner]
      have added : insertLog id.text (copyOf m) first
          = .ok (copyOf { m with logs := m.logs ++ [(id, first)] }) := by
        have rows := congrArg (fun logs => { copyOf m with logs })
          (logRows_append m.logs id first)
        rw [insertLog, there, nextLog_copyOf]
        exact congrArg Except.ok rows.symm
      rw [List.foldlM_cons, added, List.map_cons]
      have others := ih (m := { m with logs := m.logs ++ [(id, first)] }) owner
      rw [List.append_assoc] at others
      exact others

-----------------------------------------------------------------------------------------
-- Rows that are changed
-----------------------------------------------------------------------------------------

/-- A change of an execution is refused, or it is made of the copy as of the store. -/
theorem changeExecution_copyOf (sound : m.Sound) (id : Uuid)
    (change : ExecutionRow → ExecutionRow) (made : Execution → Execution)
    (fits : ∀ execution, change (.ofRecord execution) = .ofRecord (made execution))
    (keeps : ∀ execution, (made execution).id = execution.id)
    : (copyOf m).changeExecution id change
      = match m.execution? id with
        | none => (.error (.notFound (executionTable ++ " " ++ id.text)), copyOf m)
        | some stored =>
            if stored.status.isTerminal then (.error (.terminal id.text), copyOf m)
            else (.ok (), copyOf (m.putExecution (made stored))) := by
  have met : (copyOf m).executions.any (fun row => row.id == id.text && !row.isTerminal)
      = (m.execution? id).any fun record => !(ExecutionRow.ofRecord record).isTerminal :=
    any_touched ExecutionRow.ofRecord ExecutionRow.id sound.executions (fun _ => rfl) _ id
  simp only [changeExecution, met, hasExecution_copyOf]
  cases found : m.execution? id with
  | none => rfl
  | some stored =>
      have finished := ExecutionRow.isTerminal_ofRecord stored
      simp only [Option.any_some, finished]
      cases terminal : stored.status.isTerminal with
      | true => rfl
      | false =>
          have replaced := replaceWhere_of_found ExecutionRow.ofRecord ExecutionRow.id
            ExecutionRow.isTerminal sound.executions (fun _ => rfl) fits keeps found
            (by simp [finished, terminal])
          exact congrArg (fun executions => (Except.ok (), { copyOf m with executions })) replaced

/-- A change of a phase is refused, or it is made of the copy as of the store. -/
theorem changePhase_copyOf (sound : m.Sound) (id : Uuid) (change : PhaseRow → PhaseRow)
    (made : PhaseRecord → PhaseRecord)
    (fits : ∀ phase, change (.ofRecord phase) = .ofRecord (made phase))
    (keeps : ∀ phase, (made phase).id = phase.id)
    : (copyOf m).changePhase id change
      = match m.phase? id with
        | none => (.error (.notFound (phaseTable ++ " " ++ id.text)), copyOf m)
        | some stored =>
            if stored.status.isTerminal then (.error (.terminal id.text), copyOf m)
            else (.ok (), copyOf (m.putPhase (made stored))) := by
  have met : (copyOf m).phases.any (fun row => row.id == id.text && !row.isTerminal)
      = (m.phase? id).any fun record => !(PhaseRow.ofRecord record).isTerminal :=
    any_touched PhaseRow.ofRecord PhaseRow.id sound.phases (fun _ => rfl) _ id
  simp only [changePhase, met, hasPhase_copyOf]
  cases found : m.phase? id with
  | none => rfl
  | some stored =>
      have finished := PhaseRow.isTerminal_ofRecord stored
      simp only [Option.any_some, finished]
      cases terminal : stored.status.isTerminal with
      | true => rfl
      | false =>
          have replaced := replaceWhere_of_found PhaseRow.ofRecord PhaseRow.id
            PhaseRow.isTerminal sound.phases (fun _ => rfl) fits keeps found
            (by simp [finished, terminal])
          exact congrArg (fun phases => (Except.ok (), { copyOf m with phases })) replaced

/-- A change of workflows is made of the copy as of the store when it touches one row. -/
theorem changeWorkflow_copyOf (distinct : (m.workflows.map Workflow.id).Nodup)
    {stored next : Workflow} (held : m.workflow? id = some stored) (same : next.id = stored.id)
    {touched : WorkflowRow → Bool} {change : WorkflowRow → WorkflowRow}
    (only : ∀ w, touched (.ofRecord w) → w.id = id) (here : touched (.ofRecord stored))
    (changed : change (.ofRecord stored) = .ofRecord next) (refusal : StoreError)
    : (copyOf m).changeWorkflow touched change refusal = (.ok (), copyOf (m.putWorkflow next)) := by
  have among : stored ∈ m.workflows := List.mem_of_find?_eq_some held
  have named : stored.id = id := Memory.key_of_find? held
  have met : (copyOf m).workflows.any touched :=
    List.any_eq_true.mpr ⟨_, List.mem_map_of_mem among, here⟩
  have replaced := replaceWhere_eq_map distinct among same
    (fun w _ touches => (only w touches).trans named.symm) here changed
  rw [changeWorkflow, if_pos met]
  exact congrArg (fun workflows => (Except.ok (), { copyOf m with workflows })) replaced

/-- A change of workflows that touches no row is refused. -/
theorem changeWorkflow_copyOf_of_not {touched : WorkflowRow → Bool}
    (none : ∀ w ∈ m.workflows, ¬ touched (.ofRecord w)) (change : WorkflowRow → WorkflowRow)
    (refusal : StoreError)
    : (copyOf m).changeWorkflow touched change refusal = (.error refusal, copyOf m) := by
  have unmet : ¬ (copyOf m).workflows.any touched := by
    intro met
    obtain ⟨_, member, touches⟩ := List.any_eq_true.mp met
    obtain ⟨w, among, rfl⟩ := List.mem_map.mp member
    exact none w among touches
  rw [changeWorkflow, if_neg unmet]
  rfl

-----------------------------------------------------------------------------------------
-- Log entries that are read
-----------------------------------------------------------------------------------------

/-- Log entries are numbered in rising order. -/
theorem rising_numbers (logs : List (Uuid × LogEntry))
    : (logs.zipIdx 1).Pairwise (·.2 < ·.2) := by
  have numbers : ((logs.zipIdx 1).map Prod.snd).Pairwise (· < ·) := by
    rw [List.zipIdx_map_snd]
    exact List.pairwise_lt_range'
  exact List.pairwise_map.mp numbers

/-- The log of a phase is read from the copy as from the store: rows of one time are ordered by
their numbers, which keeps the order of arrival.
-/
theorem logsOf_copyOf (proper : ∀ log ∈ m.logs, log.2.IsProper) (id : Uuid)
    : (((copyOf m).logs.filter (·.phaseId == id.text)).mergeSort LogRow.upTo).mapM LogRow.record
      = .ok (m.logsOf id) := by
  let row : (Uuid × LogEntry) × Nat → LogRow := fun log => .ofEntry log.2 log.1.1 log.1.2
  let upTo (one two : (Uuid × LogEntry) × Nat) : Bool :=
    one.1.2.timestamp.upTo two.1.2.timestamp
  let numbered := (m.logs.zipIdx 1).filter (·.1.1 == id)
  have entries : numbered.map (·.1.2) = (m.logs.filter (·.1 == id)).map (·.2) := by
    conv_rhs => rw [← List.zipIdx_map_fst 1 m.logs]
    rw [List.filter_map, List.map_map]
    rfl
  have proper' : ∀ log ∈ numbered, log.1.2.IsProper := fun log member =>
    proper log.1 (List.fst_mem_of_mem_zipIdx (List.mem_of_mem_filter member))
  have rows : (copyOf m).logs.filter (·.phaseId == id.text) = numbered.map row := by
    rw [copyOf, logRows, List.filter_map]
    simp only [Function.comp_def, LogRow.ofEntry, text_beq]
    rfl
  have decides : ∀ one ∈ numbered, ∀ two ∈ numbered,
      LogRow.upTo (row one) (row two)
        = if upTo one two then if upTo two one then decide (one.2 ≤ two.2) else true
          else false := by
    intro one here two there
    simp only [LogRow.upTo, row, LogRow.ofEntry,
      storedTime_beq (proper' one here) (proper' two there),
      before_storedTime (proper' one here) (proper' two there)]
    exact Instant.before_or_beq_and _ _ _
  have rising : numbered.Pairwise (·.2 < ·.2) := (rising_numbers m.logs).filter _
  have sorted : (numbered.map row).mergeSort LogRow.upTo = (numbered.mergeSort upTo).map row := by
    rw [← Keyed.mergeSort_of_ranks rising decides]
    exact (List.map_mergeSort (f := row) fun _ _ _ _ => rfl).symm
  rw [rows, sorted, mapM_map_eq_ok fun log member =>
    (proper' log (List.mem_mergeSort.mp member)).record log.2 log.1.1]
  rw [Memory.logsOf, ← entries]
  exact congrArg Except.ok (List.map_mergeSort fun _ _ _ _ => rfl)

end Tables

end Harvest

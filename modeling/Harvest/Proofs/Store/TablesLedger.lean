import Harvest.Proofs.Store.MemoryLedger
import Harvest.Proofs.Store.Rows

/-! The books of a store in tables. Tables mirror a store in memory whose records their rows were
made of, and a granted call makes of the tables what putting records in makes of that store.
-/

namespace Harvest

namespace Tables

/-- The rows of executions and phases are those of the records of a store in memory. -/
structure Mirrors (t : Tables) (m : Memory) : Prop where
  executions : t.executions = m.executions.map ExecutionRow.ofRecord
  phases : t.phases = m.phases.map PhaseRow.ofRecord
  sound : m.Sound

/-- The phases of an execution in plan order. -/
def planned (t : Tables) (id : Uuid) : List PhaseRow :=
  (t.phases.filter (·.executionId == id.text)).mergeSort PhaseRow.upTo

/-- Nothing in the tables goes by an identifier. -/
structure Unused (t : Tables) (id : Uuid) : Prop where
  execution : t.executions.find? (·.id == id.text) = none
  phases : t.phases.filter (·.executionId == id.text) = []
  phase : t.phases.find? (·.id == id.text) = none

instance : Books Tables where
  Sound t := ∃ m, t.Mirrors m
  standing? t id := (t.executions.find? (·.id == id.text)).map ExecutionRow.standing
  roll t id := (t.planned id).map PhaseRow.entry
  Unused := Unused

variable {t later : Tables} {m next : Memory} {id : Uuid}

-----------------------------------------------------------------------------------------
-- What mirrors show
-----------------------------------------------------------------------------------------

/-- Texts of identifiers are compared as the identifiers. -/
theorem text_beq (a b : Uuid) : (a.text == b.text) = (a == b) := by
  rw [Bool.beq_eq_decide_eq, Bool.beq_eq_decide_eq]
  exact decide_eq_decide.mpr ⟨Uuid.text_injective, congrArg Uuid.text⟩

namespace Mirrors

theorem execution? (mirrors : t.Mirrors m) (id : Uuid)
    : t.executions.find? (·.id == id.text) = (m.execution? id).map ExecutionRow.ofRecord := by
  rw [mirrors.executions, List.find?_map]
  simp only [Function.comp_def, ExecutionRow.ofRecord, text_beq]
  rfl

theorem phase? (mirrors : t.Mirrors m) (id : Uuid)
    : t.phases.find? (·.id == id.text) = (m.phase? id).map PhaseRow.ofRecord := by
  rw [mirrors.phases, List.find?_map]
  simp only [Function.comp_def, PhaseRow.ofRecord, text_beq]
  rfl

theorem phasesOf (mirrors : t.Mirrors m) (id : Uuid)
    : t.phases.filter (·.executionId == id.text) = (m.phasesOf id).map PhaseRow.ofRecord := by
  rw [mirrors.phases, List.filter_map]
  simp only [Function.comp_def, PhaseRow.ofRecord, text_beq]
  rfl

theorem planned (mirrors : t.Mirrors m) (id : Uuid)
    : t.planned id = (m.planned id).map PhaseRow.ofRecord := by
  rw [Tables.planned, mirrors.phasesOf]
  exact (List.map_mergeSort fun one _ two _ => (PhaseRow.upTo_ofRecord one two).symm).symm

theorem standing? (mirrors : t.Mirrors m) (id : Uuid)
    : Books.standing? t id = Books.standing? m id := by
  change Option.map _ (t.executions.find? _) = Option.map _ (m.execution? id)
  rw [mirrors.execution?, Option.map_map]
  congr 1
  funext execution
  exact ExecutionRow.standing_ofRecord execution

theorem roll (mirrors : t.Mirrors m) (id : Uuid) : Books.roll t id = Books.roll m id := by
  change (t.planned id).map _ = (m.planned id).map _
  rw [mirrors.planned, List.map_map]
  exact List.map_congr_left fun phase _ => PhaseRow.entry_ofRecord phase

/-- What nothing goes by in the tables, nothing goes by in the mirrored store. -/
theorem unused_iff (mirrors : t.Mirrors m) (id : Uuid) : t.Unused id ↔ m.Unused id := by
  constructor
  · rintro ⟨execution, phases, phase⟩
    rw [mirrors.execution?, Option.map_eq_none_iff] at execution
    rw [mirrors.phasesOf, List.map_eq_nil_iff] at phases
    rw [mirrors.phase?, Option.map_eq_none_iff] at phase
    exact ⟨execution, phases, phase⟩
  · rintro ⟨execution, phases, phase⟩
    refine ⟨?_, ?_, ?_⟩
    · rw [mirrors.execution?, execution, Option.map_none]
    · rw [mirrors.phasesOf, phases, List.map_nil]
    · rw [mirrors.phase?, phase, Option.map_none]

/-- What does not change in the mirrored store does not change in the tables. -/
theorem unchanged (before : t.Mirrors m) (after : later.Mirrors next)
    (same : Unchanged id m next)
    (logs
      : ∀ entry ∈ Books.roll m id,
          later.logs.filter (·.phaseId == entry.id.text)
            = t.logs.filter (·.phaseId == entry.id.text))
    : Unchanged id t later := by
  obtain ⟨execution, planned, phase⟩ := Memory.found_of_unchanged same
  have rows : later.planned id = t.planned id := by rw [after.planned, before.planned, planned]
  refine ⟨?_, ?_, ?_, ?_, fun entry member => ?_, fun entry member => ?_⟩
  · rw [after.standing?, before.standing?, same.standing]
  · exact congrArg (List.map PhaseRow.entry) rows
  · change readOne _ _ _ = readOne _ _ _
    rw [after.execution?, before.execution?, execution]
  · exact congrArg (List.mapM PhaseRow.record) rows
  · rw [before.roll] at member
    change readOne _ _ _ = readOne _ _ _
    rw [after.phase?, before.phase?, phase entry member]
  · rw [before.roll] at member
    change List.mapM LogRow.record _ = List.mapM LogRow.record _
    rw [logs entry member]

end Mirrors

-----------------------------------------------------------------------------------------
-- Calls that write
-----------------------------------------------------------------------------------------

section

variable {ρ α : Type} {row : α → ρ} {key : α → Uuid} {name : ρ → String} {records : List α}

/-- Changing the row of a record is putting the changed record in. -/
theorem replaceWhere_eq_map (distinct : (records.map key).Nodup) {stored next : α}
    (member : stored ∈ records) (same : key next = key stored) {touched : ρ → Bool}
    {change : ρ → ρ} (only : ∀ record ∈ records, touched (row record) → key record = key stored)
    (here : touched (row stored)) (changed : change (row stored) = row next)
    : replaceWhere touched change (records.map row)
      = (Memory.insert key next records).map row := by
  have found : Memory.find? key (key next) records = some stored :=
    same ▸ Keyed.find?_of_mem distinct member
  rw [Memory.insert_eq_map distinct found, replaceWhere, List.map_map, List.map_map]
  refine List.map_congr_left fun record there => ?_
  by_cases equal : key record = key stored
  · obtain rfl := List.inj_on_of_nodup_map distinct there member equal
    simp [here, changed, Memory.replaced, same]
  · have spared : ¬ touched (row record) := fun touched => equal (only record there touched)
    simp [spared, Memory.replaced_of_ne (same ▸ equal)]

/-- Where some row of an identifier is unfinished, its record is found, and changing the row is
putting the changed record in.
-/
theorem replaceWhere_of_any (row : α → ρ) (name : ρ → String)
    (distinct : (records.map key).Nodup)
    (named : ∀ record, name (row record) = (key record).text) {isTerminal : ρ → Bool}
    {change : ρ → ρ} {made : α → α} (fits : ∀ record, change (row record) = row (made record))
    (keeps : ∀ record, key (made record) = key record)
    (met : (records.map row).any fun row => name row == id.text && !isTerminal row)
    : ∃ stored,
        Memory.find? key id records = some stored
        ∧ isTerminal (row stored) = false
        ∧ replaceWhere (fun row => name row == id.text && !isTerminal row) change
            (records.map row)
          = (Memory.insert key (made stored) records).map row := by
  obtain ⟨_, member, here⟩ := List.any_eq_true.mp met
  obtain ⟨stored, among, rfl⟩ := List.mem_map.mp member
  have key_of {record : α} (same : name (row record) == id.text && !isTerminal (row record))
      : key record = id := by
    rw [Bool.and_eq_true, named] at same
    exact Uuid.text_injective (beq_iff_eq.mp same.1)
  obtain rfl := key_of here
  refine ⟨stored, Keyed.find?_of_mem distinct among, ?_, ?_⟩
  · simpa using (Bool.and_eq_true_iff.mp here).2
  · exact replaceWhere_eq_map distinct among (keeps stored) (fun _ _ => key_of) here (fits stored)

/-- No record goes by an identifier that no row has. -/
theorem find?_eq_none_of_new (row : α → ρ) (name : ρ → String)
    (named : ∀ record, name (row record) = (key record).text)
    (new : ¬ (records.map row).any fun row => name row == id.text)
    : Memory.find? key id records = none := by
  refine List.find?_eq_none.mpr fun record member same => new ?_
  refine List.any_eq_true.mpr ⟨row record, List.mem_map_of_mem member, ?_⟩
  rw [named, text_beq]
  exact same

end

/-- An execution is changed unless it is finished or not there; the mirrored store has the
changed record put in.
-/
theorem changeExecution_cases (mirrors : t.Mirrors m) (id : Uuid)
    (change : ExecutionRow → ExecutionRow) (made : Execution → Execution)
    (fits : ∀ execution, change (.ofRecord execution) = .ofRecord (made execution))
    (keeps : ∀ execution, (made execution).id = execution.id)
    : (∃ reason, t.changeExecution id change = (.error reason, t))
      ∨ ∃ stored later,
          m.execution? id = some stored
          ∧ ¬ stored.status.isTerminal
          ∧ t.changeExecution id change = (.ok (), later)
          ∧ later.Mirrors (m.putExecution (made stored))
          ∧ later.logs = t.logs := by
  simp only [changeExecution]
  split
  · next met =>
      rw [mirrors.executions] at met
      obtain ⟨stored, held, unfinished, replaced⟩ :=
        replaceWhere_of_any ExecutionRow.ofRecord ExecutionRow.id mirrors.sound.executions
          (fun _ => rfl) fits keeps met
      rw [ExecutionRow.isTerminal_ofRecord] at unfinished
      refine Or.inr ⟨stored, _, held, ne_true_of_eq_false unfinished, rfl,
        ⟨?_, mirrors.phases, ?_⟩, rfl⟩
      · rw [← mirrors.executions] at replaced
        exact replaced
      · exact ⟨Memory.nodup_insert mirrors.sound.executions _, mirrors.sound.phases⟩
  · exact Or.inl ⟨_, rfl⟩

/-- A phase is changed unless it is finished or not there; the mirrored store has the changed
record put in.
-/
theorem changePhase_cases (mirrors : t.Mirrors m) (id : Uuid)
    (change : PhaseRow → PhaseRow) (made : PhaseRecord → PhaseRecord)
    (fits : ∀ phase, change (.ofRecord phase) = .ofRecord (made phase))
    (keeps : ∀ phase, (made phase).id = phase.id)
    : (∃ reason, t.changePhase id change = (.error reason, t))
      ∨ ∃ stored later,
          m.phase? id = some stored
          ∧ t.changePhase id change = (.ok (), later)
          ∧ later.Mirrors (m.putPhase (made stored))
          ∧ later.logs = t.logs := by
  simp only [changePhase]
  split
  · next met =>
      rw [mirrors.phases] at met
      obtain ⟨stored, held, _, replaced⟩ :=
        replaceWhere_of_any PhaseRow.ofRecord PhaseRow.id mirrors.sound.phases
          (fun _ => rfl) fits keeps met
      refine Or.inr ⟨stored, _, held, rfl, ⟨mirrors.executions, ?_, ?_⟩, rfl⟩
      · rw [← mirrors.phases] at replaced
        exact replaced
      · exact ⟨mirrors.sound.executions, Memory.nodup_insert mirrors.sound.phases _⟩
  · exact Or.inl ⟨_, rfl⟩

/-- A workflow is changed or not; executions and phases stay. -/
theorem changeWorkflow_cases (t : Tables) (touched : WorkflowRow → Bool)
    (change : WorkflowRow → WorkflowRow) (refusal : StoreError)
    : t.changeWorkflow touched change refusal = (.error refusal, t)
      ∨ ∃ workflows, t.changeWorkflow touched change refusal = (.ok (), { t with workflows }) := by
  unfold changeWorkflow
  split
  · exact Or.inr ⟨_, rfl⟩
  · exact Or.inl rfl

/-- A change that succeeds is made, and a change that is refused is not. -/
theorem atomically_cases (t : Tables) (change : Except StoreError Tables)
    : (∃ reason, t.atomically change = (.error reason, t))
      ∨ ∃ later, change = .ok later ∧ t.atomically change = (.ok (), later) := by
  cases change with
  | error reason => exact Or.inl ⟨reason, rfl⟩
  | ok later => exact Or.inr ⟨later, rfl, rfl⟩

/-- What a mirrored store holds is the same in tables whose executions and phases are. -/
theorem Mirrors.congr (mirrors : t.Mirrors m) (executions : later.executions = t.executions)
    (phases : later.phases = t.phases)
    : later.Mirrors m :=
  ⟨executions.trans mirrors.executions, phases.trans mirrors.phases, mirrors.sound⟩

/-- An execution is added under an identifier that is not there. -/
theorem mirrors_insertExecution (mirrors : t.Mirrors m) {execution : Execution}
    (added : t.insertExecution (.ofRecord execution) = .ok later)
    : later.Mirrors (m.putExecution execution) ∧ later.logs = t.logs := by
  unfold insertExecution at added
  split at added
  · cases added
  · next new =>
      split at added
      · cases added
      · cases added
        rw [hasExecution, mirrors.executions] at new
        have absent : Memory.find? Execution.id execution.id m.executions = none :=
          find?_eq_none_of_new ExecutionRow.ofRecord ExecutionRow.id (fun _ => rfl) new
        refine ⟨⟨?_, mirrors.phases, ?_⟩, rfl⟩
        · change t.executions ++ [_] = (Memory.insert _ _ _).map _
          rw [Memory.insert_of_find?_eq_none absent, mirrors.executions, List.map_append,
            List.map_singleton]
        · exact ⟨Memory.nodup_insert mirrors.sound.executions _, mirrors.sound.phases⟩

theorem mirrors_insertPhase (mirrors : t.Mirrors m) {phase : PhaseRecord}
    (added : t.insertPhase (.ofRecord phase) = .ok later)
    : later.Mirrors (m.putPhase phase) ∧ later.logs = t.logs := by
  unfold insertPhase at added
  split at added
  · cases added
  · next new =>
      split at added
      · cases added
      · cases added
        rw [hasPhase, mirrors.phases] at new
        have absent : Memory.find? PhaseRecord.id phase.id m.phases = none :=
          find?_eq_none_of_new PhaseRow.ofRecord PhaseRow.id (fun _ => rfl) new
        refine ⟨⟨mirrors.executions, ?_, ?_⟩, rfl⟩
        · change t.phases ++ [_] = (Memory.insert _ _ _).map _
          rw [Memory.insert_of_find?_eq_none absent, mirrors.phases, List.map_append,
            List.map_singleton]
        · exact ⟨mirrors.sound.executions, Memory.nodup_insert mirrors.sound.phases _⟩

/-- Phases are added one after another, by induction over the phases. -/
theorem mirrors_insertPhases (mirrors : t.Mirrors m) {phases : List PhaseRecord}
    (added : phases.foldlM (fun t phase => t.insertPhase (.ofRecord phase)) t = .ok later)
    : later.Mirrors (phases.foldl Memory.putPhase m) ∧ later.logs = t.logs := by
  induction phases generalizing t m with
  | nil =>
      cases added
      exact ⟨mirrors, rfl⟩
  | cons first rest ih =>
      rw [List.foldlM_cons] at added
      obtain ⟨middle, here, added⟩ := bind_eq_ok.mp added
      obtain ⟨mirrors, logs⟩ := mirrors_insertPhase mirrors here
      obtain ⟨mirrors, logs'⟩ := ih mirrors added
      exact ⟨mirrors, logs'.trans logs⟩

/-- Log entries are added behind the others, by induction over the entries. -/
theorem insertLogs_eq {phase : String} {entries : List LogEntry}
    (added : entries.foldlM (insertLog phase) t = .ok later)
    : ∃ rows,
        later = { t with logs := t.logs ++ rows } ∧ ∀ row ∈ rows, row.phaseId = phase := by
  induction entries generalizing t with
  | nil =>
      cases added
      exact ⟨[], by simp, by simp⟩
  | cons first rest ih =>
      rw [List.foldlM_cons] at added
      obtain ⟨middle, here, added⟩ := bind_eq_ok.mp added
      obtain ⟨rows, rfl, owned⟩ := ih added
      unfold insertLog at here
      split at here
      · cases here
      · cases here
        let row : LogRow := ⟨t.nextLog, phase, first.level.name, first.message,
          storedTime first.timestamp⟩
        refine ⟨row :: rows, by simp [row], ?_⟩
        intro row member
        rcases List.mem_cons.mp member with rfl | later
        · rfl
        · exact owned row later

/-- An execution with the columns set that an update sets. -/
def updated (execution stored : Execution) : Execution :=
  { stored with
    status := execution.status
    startedAt := execution.startedAt
    completedAt := execution.completedAt
    credits := execution.credits
    stopRequested := stored.stopRequested || execution.stopRequested }

/-- A phase with the columns set that an update sets. -/
def updatedPhase (phase stored : PhaseRecord) : PhaseRecord :=
  { stored with
    status := phase.status
    startedAt := phase.startedAt
    completedAt := phase.completedAt
    inputs := phase.inputs
    outputs := phase.outputs
    credits := phase.credits }

/-- Setting the columns of a row is setting the fields of its record. -/
theorem setExecution_ofRecord (execution stored : Execution)
    : setExecution execution (.ofRecord stored) = .ofRecord (updated execution stored) := by
  simp [setExecution, ExecutionRow.ofRecord, updated, Cell.holds_flag]

/-- A row belongs to an execution and is in a status as its record does. -/
theorem inStatus_ofRecord (id : Uuid) (status : PhaseStatus) (phase : PhaseRecord)
    : inStatus id status (.ofRecord phase) = Memory.inStatus id status phase := by
  simp only [inStatus, Memory.inStatus, PhaseRow.ofRecord, text_beq, PhaseStatus.name_beq]

/-- Rows move with their records. -/
theorem replaceWhere_inStatus (id : Uuid) (source target : PhaseStatus)
    (phases : List PhaseRecord)
    : replaceWhere (inStatus id source) (fun row => { row with status := target.name })
        (phases.map PhaseRow.ofRecord)
      = (phases.map (Memory.moved id source target)).map PhaseRow.ofRecord := by
  rw [replaceWhere, List.map_map, List.map_map]
  refine List.map_congr_left fun phase _ => ?_
  simp only [Function.comp_apply, inStatus_ofRecord, Memory.moved]
  cases Memory.inStatus id source phase <;> rfl

/-- Moving the phases of an execution is moving the phases of the mirrored store. -/
theorem mirrors_setPhaseStatuses (mirrors : t.Mirrors m) (id : Uuid) (source target : PhaseStatus)
    : (Tables.answer (.setPhaseStatuses id source target) t).2.Mirrors
        (Memory.answer (.setPhaseStatuses id source target) m).2 where
  executions := mirrors.executions
  phases := by
    change replaceWhere _ _ t.phases = _
    rw [mirrors.phases]
    exact replaceWhere_inStatus id source target m.phases
  sound := (Memory.handles_setPhaseStatuses mirrors.sound id source target).sound

/-- An execution is created with its phases, or nothing changes. -/
theorem createExecution_cases (mirrors : t.Mirrors m) (execution : Execution)
    (phases : List PhaseRecord)
    : (∃ reason, Tables.answer (.createExecution execution phases) t = (.error reason, t))
      ∨ ∃ later,
          Tables.answer (.createExecution execution phases) t = (.ok (), later)
          ∧ later.Mirrors (Memory.answer (.createExecution execution phases) m).2
          ∧ later.logs = t.logs := by
  rcases t.atomically_cases _ with refused | ⟨later, added, granted⟩
  · exact Or.inl refused
  · obtain ⟨middle, here, added⟩ := bind_eq_ok.mp added
    obtain ⟨mirrors, logs⟩ := mirrors_insertExecution mirrors here
    obtain ⟨mirrors, logs'⟩ := mirrors_insertPhases mirrors added
    exact Or.inr ⟨later, granted, mirrors, logs'.trans logs⟩

/-- Log entries are added to a phase, or nothing changes. -/
theorem appendLogs_cases (t : Tables) (phase : Uuid) (entries : List LogEntry)
    : (∃ reason, Tables.answer (.appendLogs phase entries) t = (.error reason, t))
      ∨ ∃ rows,
          Tables.answer (.appendLogs phase entries) t
            = (.ok (), { t with logs := t.logs ++ rows })
          ∧ ∀ row ∈ rows, row.phaseId = phase.text := by
  rcases t.atomically_cases _ with refused | ⟨later, added, granted⟩
  · exact Or.inl refused
  · obtain ⟨rows, rfl, owned⟩ := insertLogs_eq added
    exact Or.inr ⟨rows, granted, owned⟩

/-- A workflow is added, or nothing changes. -/
theorem createWorkflow_cases (t : Tables) (workflow : Workflow)
    : (∃ reason, Tables.answer (.createWorkflow workflow) t = (.error reason, t))
      ∨ ∃ workflows,
          Tables.answer (.createWorkflow workflow) t = (.ok (), { t with workflows }) := by
  rcases t.atomically_cases (t.insertWorkflow (.ofRecord workflow))
    with refused | ⟨later, added, granted⟩
  · exact Or.inl refused
  · unfold insertWorkflow at added
    split at added
    · cases added
    · cases added
      exact Or.inr ⟨_, granted⟩

-----------------------------------------------------------------------------------------
-- The books
-----------------------------------------------------------------------------------------

/-- What is granted is dealt with when the mirrored store stays in step, gets the effect of the
call, and keeps what the call spares.
-/
theorem handles_of_mirrors (before : t.Mirrors m) {call : StoreCall} (result : call.Result)
    (answered : Tables.answer call t = (.ok result, later)) (after : later.Mirrors next)
    (effect : call.Effect result t later)
    (frame : ∀ {id}, call.Spares id m → Unchanged id m next)
    (logs
      : ∀ {id}, call.Spares id m
        → ∀ entry ∈ Books.roll m id,
            later.logs.filter (·.phaseId == entry.id.text)
              = t.logs.filter (·.phaseId == entry.id.text))
    : Handles call t := by
  refine .of_granted result answered ⟨next, after⟩ effect fun {id} spares => ?_
  -- both stores have the same rolls and the same identifiers in use
  have spares' : call.Spares id m := by
    cases call with
    | createExecution execution phases =>
        refine ⟨spares.1, fun phase member => ?_⟩
        obtain ⟨other, unused⟩ := spares.2 phase member
        exact ⟨other, (before.unused_iff _).mp unused⟩
    | updatePhase phase => exact ⟨spares.1, before.roll id ▸ spares.2⟩
    | appendLogs phase entries =>
        change phase ∉ (Books.roll m id).map Entry.id
        exact before.roll id ▸ spares
    | _ => exact spares
  exact before.unchanged after (frame spares') (logs spares')

theorem handles_createExecution (mirrors : t.Mirrors m) (execution : Execution)
    (phases : List PhaseRecord)
    : Handles (.createExecution execution phases) t := by
  have created := Memory.handles_createExecution mirrors.sound execution phases
  rcases createExecution_cases mirrors execution phases with ⟨_, same⟩ | ⟨later, same, after, logs⟩
  · exact .of_refused ⟨m, mirrors⟩ same
  · refine handles_of_mirrors mirrors () same after ?_ created.frame
      fun _ _ _ => by rw [logs]
    intro unused owned distinct ordered
    have owned' : ∀ phase ∈ phases, phase.executionId = execution.id ∧ m.Unused phase.id := by
      intro phase member
      obtain ⟨owned, unused⟩ := owned phase member
      exact ⟨owned, (mirrors.unused_iff _).mp unused⟩
    rw [after.standing?, after.roll]
    exact created.effect (rfl : _ = Except.ok ()) ((mirrors.unused_iff _).mp unused) owned' distinct
      ordered

theorem handles_updateExecution (mirrors : t.Mirrors m) (execution : Execution)
    : Handles (.updateExecution execution) t := by
  rcases changeExecution_cases mirrors execution.id (setExecution execution) (updated execution)
    (setExecution_ofRecord execution) (fun _ => rfl)
    with ⟨_, same⟩ | ⟨stored, later, held, unfinished, same, after, logs⟩
  · exact .of_refused ⟨m, mirrors⟩ same
  · have named : stored.id = execution.id := Memory.key_of_find? held
    refine handles_of_mirrors mirrors () same after ?_
      (fun spares => Memory.unchanged_putExecution (named ▸ spares)) fun _ _ _ => by rw [logs]
    refine ⟨⟨stored.standing, stored.definition, ?_, unfinished, Or.inr rfl, ?_⟩, ?_⟩
    · rw [mirrors.standing?]
      exact Memory.standing?_of_found held
    · rw [after.standing?, ← named]
      exact Memory.standing?_putExecution m (updated execution stored)
    · rw [after.roll, mirrors.roll]
      rfl

theorem handles_requestStop (mirrors : t.Mirrors m) (wanted : Uuid)
    : Handles (.requestStop wanted) t := by
  rcases changeExecution_cases mirrors wanted (fun row => { row with stopRequested := .flag true })
    (fun stored => { stored with stopRequested := true }) (fun _ => rfl) (fun _ => rfl)
    with ⟨_, same⟩ | ⟨stored, later, held, unfinished, same, after, logs⟩
  · exact .of_refused ⟨m, mirrors⟩ same
  · have named : stored.id = wanted := Memory.key_of_find? held
    subst named
    refine handles_of_mirrors mirrors () same after ?_
      (fun spares => Memory.unchanged_putExecution spares) fun _ _ _ => by rw [logs]
    refine ⟨⟨stored.standing, ?_, unfinished, ?_⟩, ?_, fun other unused => ?_⟩
    · rw [mirrors.standing?]
      exact Memory.standing?_of_found held
    · rw [after.standing?]
      exact Memory.standing?_putExecution m { stored with stopRequested := true }
    · rw [after.roll, mirrors.roll]
      rfl
    · have unused' : m.Unused other := (mirrors.unused_iff other).mp unused
      exact (after.unused_iff other).mpr (Memory.unused_putExecution held
        { stored with stopRequested := true } rfl unused')

theorem handles_updatePhase (mirrors : t.Mirrors m) (phase : PhaseRecord)
    : Handles (.updatePhase phase) t := by
  rcases changePhase_cases mirrors phase.id (setPhase phase) (updatedPhase phase)
    (fun _ => rfl) (fun _ => rfl) with ⟨_, same⟩ | ⟨stored, later, held, same, after, logs⟩
  · exact .of_refused ⟨m, mirrors⟩ same
  · have named : stored.id = phase.id := Memory.key_of_find? held
    have member : stored ∈ m.phases := List.mem_of_find?_eq_some held
    refine handles_of_mirrors mirrors () same after ⟨?_, ?_⟩ ?_
      fun _ _ _ => by rw [logs]
    · intro id
      rw [after.standing?, mirrors.standing?]
      rfl
    · intro old listed place
      rw [mirrors.roll] at listed
      obtain ⟨record, here, rfl⟩ := List.mem_map.mp listed
      obtain ⟨there, owned⟩ := Memory.mem_planned.mp here
      obtain rfl := List.inj_on_of_nodup_map mirrors.sound.phases there member
        (place.id.trans named.symm)
      have entry : (updatedPhase phase record).entry = phase.entry := by
        obtain ⟨_, number, position, taskType⟩ := place
        simp only [PhaseRecord.entry] at number position taskType
        simp [updatedPhase, PhaseRecord.entry, named, number, position, taskType]
      rw [after.roll, mirrors.roll, ← entry, ← owned]
      exact Memory.roll_putPhase mirrors.sound
        (List.mem_map_of_mem (Memory.mem_planned.mpr ⟨member, rfl⟩)) ⟨rfl, rfl, rfl, rfl⟩
    · intro id spares
      have apart : stored.id ∉ (Books.roll m id).map Entry.id := named ▸ spares.2
      refine Memory.unchanged_putPhase (fun owned => apart ?_) apart
      exact Memory.mem_roll_ids.mpr ⟨stored, member, owned, rfl⟩

theorem handles_setPhaseStatuses (mirrors : t.Mirrors m) (wanted : Uuid)
    (source target : PhaseStatus)
    : Handles (.setPhaseStatuses wanted source target) t := by
  have moved := Memory.handles_setPhaseStatuses mirrors.sound wanted source target
  have after := mirrors_setPhaseStatuses mirrors wanted source target
  refine handles_of_mirrors mirrors (t.phases.countP (inStatus wanted source)) rfl after ?_
    moved.frame fun _ _ _ => rfl
  obtain ⟨standings, roll⟩ := moved.effect (rfl : _ = Except.ok (m.phases.countP _))
  refine ⟨fun other => ?_, ?_⟩
  · exact (after.standing? other).trans ((standings other).trans (mirrors.standing? other).symm)
  · rw [mirrors.roll, ← roll]
    exact after.roll wanted

theorem handles_appendLogs (mirrors : t.Mirrors m) (phase : Uuid) (entries : List LogEntry)
    : Handles (.appendLogs phase entries) t := by
  rcases appendLogs_cases t phase entries with ⟨_, same⟩ | ⟨rows, same, owned⟩
  · exact .of_refused ⟨m, mirrors⟩ same
  · refine handles_of_mirrors mirrors () same (mirrors.congr rfl rfl)
      (fun _ => ⟨rfl, rfl⟩) (fun _ => .refl _ m) fun apart entry member => ?_
    have skipped : rows.filter (·.phaseId == entry.id.text) = [] := by
      refine List.filter_eq_nil_iff.mpr fun row here same => apart ?_
      rw [owned row here, text_beq, beq_iff_eq] at same
      exact same ▸ List.mem_map_of_mem member
    change (t.logs ++ rows).filter _ = _
    rw [List.filter_append, skipped, List.append_nil]

theorem handles_getExecution (mirrors : t.Mirrors m) (wanted : Uuid)
    : Handles (.getExecution wanted) t := by
  refine .of_read ⟨m, mirrors⟩ rfl fun {execution} granted => ?_
  rw [mirrors.execution?] at granted
  cases held : m.execution? wanted with
  | none =>
      rw [held] at granted
      cases granted
  | some stored =>
      rw [held] at granted
      obtain ⟨named, stands⟩ := ExecutionRow.record_ofRecord granted
      refine ⟨rfl, named.trans (Memory.key_of_find? held), ?_⟩
      rw [mirrors.standing?, Memory.standing?_of_found held, stands]

theorem handles_listPhases (mirrors : t.Mirrors m) (wanted : Uuid)
    : Handles (.listPhases wanted) t := by
  refine .of_read ⟨m, mirrors⟩ rfl fun {phases} granted => ?_
  change (t.planned wanted).mapM PhaseRow.record = .ok phases at granted
  rw [mirrors.planned] at granted
  refine ⟨rfl, ?_, fun phase member => ?_⟩
  · have entries := map_eq_of_mapM PhaseRow.entry PhaseRecord.entry granted
      fun row member phase read => by
        obtain ⟨record, _, rfl⟩ := List.mem_map.mp member
        exact (PhaseRow.record_ofRecord read).1.trans (PhaseRow.entry_ofRecord record).symm
    rw [entries, ← mirrors.planned]
    rfl
  · obtain ⟨row, here, read⟩ := exists_of_mapM granted member
    obtain ⟨record, there, rfl⟩ := List.mem_map.mp here
    exact (PhaseRow.record_ofRecord read).2.trans (Memory.mem_planned.mp there).2

/-- What is read of rows goes by their identifiers. -/
theorem Mirrors.texts_of_mapM (mirrors : t.Mirrors m) {rows : List ExecutionRow}
    (within : ∀ row ∈ rows, row ∈ t.executions) {executions : List Execution}
    (read : rows.mapM ExecutionRow.record = .ok executions)
    : (executions.map fun execution => execution.id.text) = rows.map ExecutionRow.id := by
  refine map_eq_of_mapM ExecutionRow.id _ read fun row member execution read => ?_
  have here := within row member
  rw [mirrors.executions] at here
  obtain ⟨record, _, rfl⟩ := List.mem_map.mp here
  exact congrArg Uuid.text (ExecutionRow.record_ofRecord read).1

theorem handles_listByStatus (mirrors : t.Mirrors m) (status : ExecutionStatus)
    : Handles (.listByStatus status) t := by
  refine .of_read ⟨m, mirrors⟩ rfl fun {executions} granted => ?_
  change List Execution at executions
  let picked := (t.executions.filter (·.status == status.name)).mergeSort ExecutionRow.upTo
  have ofRecord : ∀ row ∈ picked, ∃ record ∈ m.executions,
      row = .ofRecord record ∧ record.status = status := by
    intro row member
    obtain ⟨here, named⟩ := List.mem_filter.mp (List.mem_mergeSort.mp member)
    rw [mirrors.executions] at here
    obtain ⟨record, there, rfl⟩ := List.mem_map.mp here
    refine ⟨record, there, rfl, ?_⟩
    change (record.status.name == status.name) = true at named
    rwa [ExecutionStatus.name_beq, beq_iff_eq] at named
  refine ⟨rfl, ?_, fun execution member => ?_⟩
  · have within : ∀ row ∈ picked, row ∈ t.executions := fun row member =>
      (List.mem_filter.mp (List.mem_mergeSort.mp member)).1
    have ids := mirrors.texts_of_mapM within granted
    have distinct : (t.executions.map ExecutionRow.id).Nodup := by
      rw [mirrors.executions, List.map_map]
      change (m.executions.map (Uuid.text ∘ Execution.id)).Nodup
      rw [← List.map_map]
      exact mirrors.sound.executions.map fun _ _ => Uuid.text_injective
    have texts : ((executions.map Execution.id).map Uuid.text).Nodup := by
      rw [List.map_map]
      change (executions.map fun execution => execution.id.text).Nodup
      rw [ids]
      have sublist : ((t.executions.filter (·.status == status.name)).map ExecutionRow.id).Nodup :=
        (List.filter_sublist.map _).nodup distinct
      exact ((List.mergeSort_perm _ _).map _).nodup_iff.mpr sublist
    exact List.Nodup.of_map _ texts
  · obtain ⟨row, here, read⟩ := exists_of_mapM granted member
    obtain ⟨record, there, rfl, status⟩ := ofRecord row here
    obtain ⟨named, stands⟩ := ExecutionRow.record_ofRecord read
    refine ⟨(congrArg Standing.status stands).trans status, ?_⟩
    rw [mirrors.standing?, named, stands]
    exact Memory.standing?_of_found (Keyed.find?_of_mem mirrors.sound.executions there)

/-- A call that touches workflows only is dealt with. -/
theorem handles_workflows (mirrors : t.Mirrors m) {call : StoreCall} (result : call.Result)
    {workflows : List WorkflowRow}
    (answered : Tables.answer call t = (.ok result, { t with workflows }))
    (effect : call.Effect result t { t with workflows })
    : Handles call t :=
  handles_of_mirrors mirrors result answered (mirrors.congr rfl rfl) effect (fun _ => .refl _ m)
    fun _ _ _ => rfl

/-- Every call is dealt with, by cases on the call. -/
theorem handles (mirrors : t.Mirrors m) (call : StoreCall) : Handles call t := by
  cases call with
  | createExecution execution phases => exact handles_createExecution mirrors execution phases
  | updateExecution execution => exact handles_updateExecution mirrors execution
  | requestStop wanted => exact handles_requestStop mirrors wanted
  | updatePhase phase => exact handles_updatePhase mirrors phase
  | setPhaseStatuses wanted source target => exact handles_setPhaseStatuses mirrors wanted _ _
  | appendLogs phase entries => exact handles_appendLogs mirrors phase entries
  | getExecution wanted => exact handles_getExecution mirrors wanted
  | listPhases wanted => exact handles_listPhases mirrors wanted
  | listByStatus status => exact handles_listByStatus mirrors status
  | createWorkflow workflow =>
      rcases createWorkflow_cases t workflow with ⟨_, same⟩ | ⟨_, same⟩
      · exact .of_refused ⟨m, mirrors⟩ same
      · exact handles_workflows mirrors () same trivial
  | recordLastRunStart workflow wanted status time =>
      rcases changeWorkflow_cases t _ _ _ with same | ⟨_, same⟩
      · exact .of_refused ⟨m, mirrors⟩ same
      · exact handles_workflows mirrors () same trivial
  | recordLastRunStatus workflow wanted status =>
      rcases changeWorkflow_cases t _ _ _ with same | ⟨_, same⟩
      · exact .of_refused ⟨m, mirrors⟩ same
      · exact handles_workflows mirrors () same trivial
  | _ => exact .of_read ⟨m, mirrors⟩ rfl fun _ => rfl

/-- A store in tables has its books in order. -/
instance : Ledger Tables where
  sound_empty := ⟨Memory.empty, rfl, rfl, ⟨.nil, .nil⟩⟩
  handles call _ sound := sound.elim fun _ mirrors => handles mirrors call
  distinct := by
    rintro t id ⟨m, mirrors⟩
    rw [mirrors.roll]
    exact Ledger.distinct id mirrors.sound
  apart := by
    rintro t first second phase ⟨m, mirrors⟩ one two
    rw [mirrors.roll] at one two
    exact Ledger.apart mirrors.sound one two
  unused unused := congrArg (Option.map ExecutionRow.standing) unused.execution

end Tables

end Harvest

import Harvest.Proofs.Store.Keyed
import Harvest.Proofs.Store.Ledger
import Harvest.Proofs.Store.Records

/-! The books of a store in memory. Records go by distinct identifiers, so that a record that is
put in takes the place of one record and of no other.
-/

namespace Harvest

open Time

namespace Memory

-----------------------------------------------------------------------------------------
-- Records that are put in
-----------------------------------------------------------------------------------------

section Insert

variable {α : Type} {key : α → Uuid} {record old : α} {records : List α}

/-- A record that is put in takes the place of the one with its identifier. -/
def replaced (key : α → Uuid) (record old : α) : α := if key old = key record then record else old

theorem key_replaced (key : α → Uuid) (record old : α)
    : key (replaced key record old) = key old := by
  unfold replaced
  split
  · next same => exact same.symm
  · rfl

theorem replaced_of_ne (apart : key old ≠ key record) : replaced key record old = old :=
  if_neg apart

/-- Where identifiers are distinct, putting in a record that has a predecessor changes that one
record, by the split at the predecessor.
-/
theorem insert_eq_map (distinct : (records.map key).Nodup)
    (found : find? key (key record) records = some old)
    : insert key record records = records.map (replaced key record) := by
  have same : key old = key record := key_of_find? found
  obtain ⟨before, after, rfl, absent⟩ := find?_eq_some_split found
  rw [insert_append before after same absent]
  simp only [List.map_append, List.map_cons, List.nodup_append, List.nodup_cons] at distinct ⊢
  have early : before.map (replaced key record) = before :=
    (List.map_congr_left fun other here => replaced_of_ne (absent other here)).trans
      (List.map_id _)
  have late : after.map (replaced key record) = after := by
    refine (List.map_congr_left fun other here => replaced_of_ne fun equal => ?_).trans
      (List.map_id _)
    exact distinct.2.1.1 (same ▸ equal ▸ List.mem_map_of_mem here)
  rw [early, late, replaced, if_pos same]

/-- Putting a record in for one that agrees with it in something leaves that of every record. -/
theorem map_insert_of_found (found : find? key (key record) records = some old) {φ : Type}
    {core : α → φ} (same : core record = core old)
    : (insert key record records).map core = records.map core := by
  obtain ⟨before, after, rfl, absent⟩ := find?_eq_some_split found
  rw [insert_append before after (key_of_find? found) absent, List.map_append, List.map_append,
    List.map_cons, List.map_cons, same]

/-- Identifiers stay distinct, by cases on whether there was a predecessor. -/
theorem nodup_insert (distinct : (records.map key).Nodup) (record : α)
    : ((insert key record records).map key).Nodup := by
  cases found : find? key (key record) records with
  | some old => rwa [map_insert_of_found found (key_of_find? found).symm]
  | none =>
      rw [insert_of_find?_eq_none found, List.map_append, List.map_singleton]
      refine List.nodup_append.mpr ⟨distinct, List.nodup_singleton _, ?_⟩
      intro other here last there equal
      obtain ⟨one, member, rfl⟩ := List.mem_map.mp here
      rw [List.mem_singleton.mp there] at equal
      exact List.find?_eq_none.mp found one member (beq_iff_eq.mpr equal)

end Insert

-----------------------------------------------------------------------------------------
-- Calls that write
-----------------------------------------------------------------------------------------

section Writes

variable (m : Memory)

/-- An execution is replaced unless it is finished or not there. -/
theorem updateExecution_cases (execution : Execution)
    : (∃ reason, m.updateExecution execution = (.error reason, m))
      ∨ ∃ stored,
          m.execution? execution.id = some stored
          ∧ ¬ stored.status.isTerminal
          ∧ m.updateExecution execution
            = (.ok (), m.putExecution { execution with
                stopRequested := stored.stopRequested || execution.stopRequested }) := by
  unfold updateExecution
  split
  · exact Or.inl ⟨_, rfl⟩
  · next stored held =>
      split
      · exact Or.inl ⟨_, rfl⟩
      · next unfinished => exact Or.inr ⟨stored, held, unfinished, rfl⟩

/-- A stop flag is raised unless the execution is finished or not there. -/
theorem requestStop_cases (id : Uuid)
    : (∃ reason, m.requestStop id = (.error reason, m))
      ∨ ∃ stored,
          m.execution? id = some stored
          ∧ ¬ stored.status.isTerminal
          ∧ m.requestStop id = (.ok (), m.putExecution { stored with stopRequested := true }) := by
  unfold requestStop
  split
  · exact Or.inl ⟨_, rfl⟩
  · next stored held =>
      split
      · exact Or.inl ⟨_, rfl⟩
      · next unfinished => exact Or.inr ⟨stored, held, unfinished, rfl⟩

/-- A phase is replaced unless it is finished or not there. -/
theorem updatePhase_cases (phase : PhaseRecord)
    : (∃ reason, m.updatePhase phase = (.error reason, m))
      ∨ ∃ stored,
          m.phase? phase.id = some stored
          ∧ ¬ stored.status.isTerminal
          ∧ m.updatePhase phase = (.ok (), m.putPhase phase) := by
  unfold updatePhase
  split
  · exact Or.inl ⟨_, rfl⟩
  · next stored held =>
      split
      · exact Or.inl ⟨_, rfl⟩
      · next unfinished => exact Or.inr ⟨stored, held, unfinished, rfl⟩

/-- The start of a run is noted in its workflow if that is there. -/
theorem recordLastRunStart_cases (workflow id : Uuid) (status : ExecutionStatus) (time : Instant)
    : (∃ reason, m.recordLastRunStart workflow id status time = (.error reason, m))
      ∨ ∃ next, m.recordLastRunStart workflow id status time = (.ok (), m.putWorkflow next) := by
  unfold recordLastRunStart
  split
  · exact Or.inl ⟨_, rfl⟩
  · exact Or.inr ⟨_, rfl⟩

/-- The status of a run is noted in its workflow if that has not run again. -/
theorem recordLastRunStatus_cases (workflow id : Uuid) (status : ExecutionStatus)
    : (∃ reason, m.recordLastRunStatus workflow id status = (.error reason, m))
      ∨ ∃ next, m.recordLastRunStatus workflow id status = (.ok (), m.putWorkflow next) := by
  unfold recordLastRunStatus
  split
  · exact Or.inl ⟨_, rfl⟩
  · split
    · exact Or.inr ⟨_, rfl⟩
    · exact Or.inl ⟨_, rfl⟩

/-- A workflow that is put in is found, and the others as before. -/
theorem workflow?_putWorkflow (w : Workflow) (id : Uuid)
    : (m.putWorkflow w).workflow? id = if w.id = id then some w else m.workflow? id := by
  split
  · next same => exact same ▸ find?_insert_self Workflow.id w _
  · next apart => exact find?_insert_of_ne Workflow.id apart _

/-- The status goes to the workflow whose last run it is of, and otherwise nowhere. -/
theorem recordLastRunStatus_leaves (workflow id : Uuid) (status : ExecutionStatus)
    : ((m.recordLastRunStatus workflow id status).2 = m
        ∧ ∀ w, m.workflow? workflow = some w → w.lastRunId ≠ some id)
      ∨ ∃ w,
          m.workflow? workflow = some w
          ∧ w.lastRunId = some id
          ∧ (m.recordLastRunStatus workflow id status).2
            = m.putWorkflow { w with lastRunStatus := some status } := by
  unfold recordLastRunStatus
  cases held : m.workflow? workflow with
  | none => exact Or.inl ⟨rfl, fun _ => nofun⟩
  | some w =>
      cases last : w.lastRunId == some id with
      | true => exact Or.inr ⟨w, rfl, by simpa using last, by simp [last]⟩
      | false =>
          refine Or.inl ⟨by simp [last], ?_⟩
          rintro _ ⟨rfl⟩
          simpa using last

/-- Log entries are added to a phase if that is there. -/
theorem appendLogs_cases (phase : Uuid) (entries : List LogEntry)
    : (∃ reason, Memory.answer (.appendLogs phase entries) m = (.error reason, m))
      ∨ Memory.answer (.appendLogs phase entries) m
        = (.ok (), { m with logs := m.logs ++ entries.map fun entry => (phase, entry) }) := by
  simp only [answer]
  split
  · exact Or.inr rfl
  · exact Or.inl ⟨_, rfl⟩

end Writes

-----------------------------------------------------------------------------------------
-- The books
-----------------------------------------------------------------------------------------

/-- Records go by distinct identifiers. -/
structure Sound (m : Memory) : Prop where
  executions : (m.executions.map Execution.id).Nodup
  phases : (m.phases.map PhaseRecord.id).Nodup

/-- The phases of an execution in plan order. -/
def planned (m : Memory) (id : Uuid) : List PhaseRecord :=
  (m.phasesOf id).mergeSort PhaseRecord.upTo

instance : Books Memory where
  Sound := Sound
  standing? m id := (m.execution? id).map Execution.standing
  roll m id := (m.planned id).map PhaseRecord.entry
  Unused := Unused

variable {m later : Memory} {id : Uuid}

/-- Phases on the roll of an execution belong to it. -/
theorem mem_planned {phase : PhaseRecord}
    : phase ∈ m.planned id ↔ phase ∈ m.phases ∧ phase.executionId = id := by
  simp [planned, phasesOf]

/-- An identifier is on a roll when a phase of the execution goes by it. -/
theorem mem_roll_ids {phase : Uuid}
    : phase ∈ (Books.roll m id).map Entry.id
      ↔ ∃ record ∈ m.phases, record.executionId = id ∧ record.id = phase := by
  change phase ∈ ((m.planned id).map PhaseRecord.entry).map Entry.id ↔ _
  rw [List.map_map]
  constructor
  · intro member
    obtain ⟨record, here, rfl⟩ := List.mem_map.mp member
    obtain ⟨stored, owned⟩ := mem_planned.mp here
    exact ⟨record, stored, owned, rfl⟩
  · rintro ⟨record, stored, owned, rfl⟩
    exact List.mem_map.mpr ⟨record, mem_planned.mpr ⟨stored, owned⟩, rfl⟩

/-- Nothing changes for an execution whose records and logs are found as before. -/
theorem unchanged_of_found (execution : later.execution? id = m.execution? id)
    (listed : later.phasesOf id = m.phasesOf id)
    (phase : ∀ phase ∈ (Books.roll m id).map Entry.id, later.phase? phase = m.phase? phase)
    (logs : ∀ phase ∈ (Books.roll m id).map Entry.id, later.logsOf phase = m.logsOf phase)
    : Unchanged id m later where
  standing := congrArg (Option.map Execution.standing) execution
  roll := congrArg (fun phases => (phases.mergeSort PhaseRecord.upTo).map PhaseRecord.entry) listed
  execution := by
    change Option.elim (later.execution? id) _ _ = Option.elim (m.execution? id) _ _
    rw [execution]
  phases := by
    change Except.ok ((later.phasesOf id).mergeSort _) = Except.ok ((m.phasesOf id).mergeSort _)
    rw [listed]
  phase entry member := by
    change Option.elim (later.phase? entry.id) _ _ = Option.elim (m.phase? entry.id) _ _
    rw [phase entry.id (List.mem_map_of_mem member)]
  logs entry member := by
    change Except.ok (later.logsOf entry.id) = Except.ok (m.logsOf entry.id)
    rw [logs entry.id (List.mem_map_of_mem member)]

/-- A record is found as before when looking for it is answered as before. -/
theorem eq_of_elim {ε α : Type} {reason : ε} {one two : Option α}
    (same : one.elim (throw reason : Except ε α) pure = two.elim (throw reason) pure)
    : one = two := by
  cases one <;> cases two <;> cases same <;> rfl

/-- A record that is told is found. -/
theorem found_of_elim {ε α : Type} {reason : ε} {found : Option α} {record : α}
    (told : found.elim (throw reason : Except ε α) pure = .ok record)
    : found = some record := by
  cases found <;> cases told
  rfl

/-- Where nothing changes for an execution its records are found as before. -/
theorem found_of_unchanged (same : Unchanged id m later)
    : later.execution? id = m.execution? id
      ∧ later.planned id = m.planned id
      ∧ ∀ entry ∈ Books.roll m id, later.phase? entry.id = m.phase? entry.id := by
  refine ⟨eq_of_elim same.execution, ?_, fun entry member => ?_⟩
  · exact Except.ok.inj same.phases
  · exact eq_of_elim (same.phase entry member)

/-- Nothing changes for an execution when a record of another execution is put in. -/
theorem unchanged_putExecution {execution : Execution} (other : execution.id ≠ id)
    : Unchanged id m (m.putExecution execution) :=
  unchanged_of_found (find?_insert_of_ne Execution.id other _) rfl (fun _ _ => rfl)
    (fun _ _ => rfl)

/-- The phases of an execution stay when a phase is put in that neither belongs to it nor takes the
place of one of them.
-/
theorem phasesOf_putPhase_of_ne {phase : PhaseRecord} (other : phase.executionId ≠ id)
    (apart : phase.id ∉ (Books.roll m id).map Entry.id)
    : (m.putPhase phase).phasesOf id = m.phasesOf id := by
  have fails : ¬ (phase.executionId == id) := by simpa using other
  change (insert PhaseRecord.id phase m.phases).filter _ = _
  cases found : find? PhaseRecord.id phase.id m.phases with
  | some old =>
      refine filter_insert_of_not found (fun owned => apart ?_) fails
      have stored : old ∈ m.phases := List.mem_of_find?_eq_some found
      exact mem_roll_ids.mpr ⟨old, stored, by simpa using owned, key_of_find? found⟩
  | none =>
      have skipped : [phase].filter (·.executionId == id) = [] := by simp [other]
      rw [insert_of_find?_eq_none found, List.filter_append, skipped, List.append_nil]
      rfl

/-- Nothing changes for an execution when a phase is put in that neither belongs to it nor takes
the place of one of its phases.
-/
theorem unchanged_putPhase {phase : PhaseRecord} (other : phase.executionId ≠ id)
    (apart : phase.id ∉ (Books.roll m id).map Entry.id)
    : Unchanged id m (m.putPhase phase) := by
  refine unchanged_of_found rfl (phasesOf_putPhase_of_ne other apart) ?_ fun _ _ => rfl
  intro wanted member
  exact find?_insert_of_ne PhaseRecord.id (fun same => apart (same ▸ member)) _

/-- Nothing changes for an execution when phases of others are put in, by induction over the
phases.
-/
theorem unchanged_foldl_putPhase {phases : List PhaseRecord}
    (others
      : ∀ phase ∈ phases,
          phase.executionId ≠ id ∧ phase.id ∉ (Books.roll m id).map Entry.id)
    : Unchanged id m (phases.foldl putPhase m) := by
  induction phases generalizing m with
  | nil => exact .refl id m
  | cons first rest ih =>
      obtain ⟨other, apart⟩ := others first List.mem_cons_self
      have same := unchanged_putPhase other apart
      refine same.trans (ih fun phase member => ?_)
      rw [same.roll]
      exact others phase (List.mem_cons_of_mem _ member)

/-- A phase that moves with the others of its execution. -/
def moved (execution : Uuid) (source target : PhaseStatus) (phase : PhaseRecord) : PhaseRecord :=
  if inStatus execution source phase then { phase with status := target } else phase

section Moved

variable (execution : Uuid) (source target : PhaseStatus) (phase : PhaseRecord)

theorem moved_id : (moved execution source target phase).id = phase.id := by
  unfold moved
  split <;> rfl

theorem moved_executionId
    : (moved execution source target phase).executionId = phase.executionId := by
  unfold moved
  split <;> rfl

theorem moved_upTo (one two : PhaseRecord)
    : one.upTo two
      = (moved execution source target one).upTo (moved execution source target two) := by
  unfold moved
  split <;> split <;> rfl

theorem moved_of_ne (other : phase.executionId ≠ execution)
    : moved execution source target phase = phase := by
  simp [moved, inStatus, other]

theorem moved_entry (owned : phase.executionId = execution)
    : (moved execution source target phase).entry = phase.entry.moved source target := by
  unfold moved Entry.moved inStatus
  by_cases here : phase.status = source
  · simp [owned, here, PhaseRecord.entry]
  · simp [here, PhaseRecord.entry]

end Moved

/-- The phases of an execution stay when those of another one move. -/
theorem phasesOf_setPhaseStatuses_of_ne {other : Uuid} (apart : other ≠ id) (m : Memory)
    (source target : PhaseStatus)
    : (m.setPhaseStatuses other source target).2.phasesOf id = m.phasesOf id := by
  refine Keyed.filter_map_of_apart ?_ ?_
  · intro phase _
    exact congrArg (· == id) (moved_executionId other source target phase)
  · intro phase _ owned
    refine moved_of_ne other source target phase fun same => apart ?_
    exact same.symm.trans (beq_iff_eq.mp owned)

/-- Nothing changes for an execution when the phases of another one move. -/
theorem unchanged_setPhaseStatuses (sound : m.Sound) {other : Uuid} (apart : other ≠ id)
    (source target : PhaseStatus)
    : Unchanged id m (m.setPhaseStatuses other source target).2 := by
  refine unchanged_of_found rfl (phasesOf_setPhaseStatuses_of_ne apart m source target) ?_
    fun _ _ => rfl
  intro wanted member
  obtain ⟨phase, stored, owned, rfl⟩ := mem_roll_ids.mp member
  have found : m.phase? phase.id = some phase := Keyed.find?_of_mem sound.phases stored
  change (m.phases.map (moved other source target)).find? _ = _
  rw [Keyed.find?_map_of_key (moved_id other source target)]
  refine (congrArg (Option.map (moved other source target)) found).trans ?_
  rw [found, Option.map_some, moved_of_ne]
  exact fun same => apart (same.symm.trans owned)

/-- Nothing changes for an execution when log entries of a phase of another one are added. -/
theorem unchanged_appendLogs {phase : Uuid} (apart : phase ∉ (Books.roll m id).map Entry.id)
    (entries : List LogEntry)
    : Unchanged id m { m with logs := m.logs ++ entries.map fun entry => (phase, entry) } := by
  refine unchanged_of_found rfl rfl (fun _ _ => rfl) fun wanted member => ?_
  have other : (phase == wanted) = false := beq_false_of_ne fun same => apart (same ▸ member)
  simp [logsOf, List.filter_append, List.filter_map, Function.comp_def, other]

/-- A workflow is no part of an execution. -/
theorem unchanged_putWorkflow (workflow : Workflow) : Unchanged id m (m.putWorkflow workflow) :=
  unchanged_of_found rfl rfl (fun _ _ => rfl) fun _ _ => rfl

-----------------------------------------------------------------------------------------
-- What calls make of the books
-----------------------------------------------------------------------------------------

/-- Identifiers stay distinct when phases are put in, by induction over the phases. -/
theorem sound_foldl_putPhase (sound : m.Sound) (phases : List PhaseRecord)
    : (phases.foldl putPhase m).Sound := by
  induction phases generalizing m with
  | nil => exact sound
  | cons first rest ih =>
      have put : (m.putPhase first).Sound :=
        ⟨sound.executions, nodup_insert sound.phases first⟩
      exact ih put

/-- The roll changes entry by entry when the phases of an execution change and keep their
places.
-/
theorem roll_map {change : PhaseRecord → PhaseRecord} {next : Entry → Entry}
    (owners
      : ∀ phase ∈ m.phases, ((change phase).executionId == id) = (phase.executionId == id))
    (places
      : ∀ one ∈ m.phasesOf id, ∀ two ∈ m.phasesOf id,
          one.upTo two = (change one).upTo (change two))
    (entries : ∀ phase ∈ m.phasesOf id, (change phase).entry = next phase.entry)
    : Books.roll { m with phases := m.phases.map change } id = (Books.roll m id).map next := by
  change (((m.phases.map change).filter _).mergeSort _).map _ = ((m.planned id).map _).map next
  rw [Keyed.filter_map_of_test owners]
  change (((m.phasesOf id).map change).mergeSort _).map _ = _
  rw [Keyed.mergeSort_map_of_upTo places, List.map_map, List.map_map]
  exact List.map_congr_left fun phase member => entries phase (List.mem_mergeSort.mp member)

/-- The roll when a phase is put in that keeps its place. -/
theorem roll_putPhase (sound : m.Sound) {phase : PhaseRecord} {old : Entry}
    (member : old ∈ Books.roll m phase.executionId) (same : old.SamePhase phase.entry)
    : Books.roll (m.putPhase phase) phase.executionId
      = (Books.roll m phase.executionId).map (Entry.replacedBy phase.entry) := by
  obtain ⟨record, listed, rfl⟩ := List.mem_map.mp member
  obtain ⟨stored, owned⟩ := mem_planned.mp listed
  have id' : record.id = phase.id := same.id
  have unique : ∀ other ∈ m.phases, other.id = phase.id → other = record :=
    fun other here equal => List.inj_on_of_nodup_map sound.phases here stored (equal.trans id'.symm)
  have found : find? PhaseRecord.id phase.id m.phases = some record :=
    id' ▸ Keyed.find?_of_mem sound.phases stored
  have put : m.putPhase phase
      = { m with phases := m.phases.map (replaced PhaseRecord.id phase) } :=
    congrArg (fun phases => { m with phases }) (insert_eq_map sound.phases found)
  rw [put]
  refine roll_map ?_ ?_ ?_
  · intro other here
    unfold replaced
    split
    · next equal => rw [unique other here equal, owned]
    · rfl
  · intro one here two there
    have placed : ∀ other ∈ m.phasesOf phase.executionId,
        (replaced PhaseRecord.id phase other).number = other.number
        ∧ (replaced PhaseRecord.id phase other).position = other.position := by
      intro other here
      unfold replaced
      split
      · next equal =>
          rw [unique other (List.mem_of_mem_filter here) equal]
          exact ⟨same.number.symm, same.position.symm⟩
      · exact ⟨rfl, rfl⟩
    simp only [PhaseRecord.upTo, placed one here, placed two there, key_replaced]
  · intro other _
    unfold replaced Entry.replacedBy
    by_cases equal : other.id = phase.id
    · simp [equal, PhaseRecord.entry]
    · simp [equal, PhaseRecord.entry]

theorem standing?_putExecution (m : Memory) (execution : Execution)
    : Books.standing? (m.putExecution execution) execution.id = some execution.standing :=
  congrArg (Option.map Execution.standing) (find?_insert_self Execution.id execution _)

theorem standing?_of_found {execution : Execution} (found : m.execution? id = some execution)
    : Books.standing? m id = some execution.standing :=
  congrArg (Option.map Execution.standing) found

theorem handles_createExecution (sound : m.Sound) (execution : Execution)
    (phases : List PhaseRecord)
    : Handles (.createExecution execution phases) m := by
  have first : (m.putExecution execution).Sound :=
    ⟨nodup_insert sound.executions execution, sound.phases⟩
  refine .of_granted () rfl (sound_foldl_putPhase first phases) ?_ ?_
  · intro unused owned distinct ordered
    have fresh : ∀ phase ∈ phases, m.phase? phase.id = none :=
      fun phase member => (owned phase member).2.phase
    have created : phases.foldl putPhase (m.putExecution execution)
        = { m.putExecution execution with phases := m.phases ++ phases } :=
      foldl_putPhase phases (m.putExecution execution) distinct fresh
    rw [created]
    refine ⟨standing?_putExecution m execution, ?_⟩
    have nothing : m.phases.filter (·.executionId == execution.id) = [] := unused.phases
    have all : phases.filter (·.executionId == execution.id) = phases :=
      List.filter_eq_self.mpr fun phase member => by simp [owned phase member]
    change (((m.phases ++ phases).filter _).mergeSort _).map _ = _
    rw [List.filter_append, nothing, all, List.nil_append,
      List.mergeSort_of_pairwise (ordered.imp PhaseRecord.Precedes.upTo)]
  · intro id spares
    have same : Unchanged id m (m.putExecution execution) := unchanged_putExecution spares.1
    refine same.trans (unchanged_foldl_putPhase fun phase member => ?_)
    obtain ⟨other, unused⟩ := spares.2 phase member
    refine ⟨other, fun here => ?_⟩
    rw [same.roll] at here
    obtain ⟨record, stored, _, named⟩ := mem_roll_ids.mp here
    exact List.find?_eq_none.mp unused.phase record stored (beq_iff_eq.mpr named)

/-- Nothing goes by new identifiers when the record of an execution that is there is put in. -/
theorem unused_putExecution {stored : Execution} (held : m.execution? id = some stored)
    (execution : Execution) (named : execution.id = id) {other : Uuid} (unused : m.Unused other)
    : (m.putExecution execution).Unused other := by
  refine ⟨?_, unused.phases, unused.phase⟩
  have apart : execution.id ≠ other := by
    intro same
    have nothing := unused.execution
    rw [← same, named, held] at nothing
    cases nothing
  exact (find?_insert_of_ne Execution.id apart _).trans unused.execution

theorem handles_updateExecution (sound : m.Sound) (execution : Execution)
    : Handles (.updateExecution execution) m := by
  rcases m.updateExecution_cases execution with ⟨_, same⟩ | ⟨stored, held, unfinished, same⟩
  · exact .of_refused sound same
  · refine .of_granted () same ⟨nodup_insert sound.executions _, sound.phases⟩ ?_
      fun spares => unchanged_putExecution spares
    refine ⟨⟨stored.standing, execution.definition, standing?_of_found held, unfinished,
      Or.inl rfl, ?_⟩, rfl⟩
    exact standing?_putExecution m { execution with stopRequested := _ }

theorem handles_requestStop (sound : m.Sound) (wanted : Uuid)
    : Handles (.requestStop wanted) m := by
  rcases m.requestStop_cases wanted with ⟨_, same⟩ | ⟨stored, held, unfinished, same⟩
  · exact .of_refused sound same
  · have named : stored.id = wanted := key_of_find? held
    subst named
    refine .of_granted () same ⟨nodup_insert sound.executions _, sound.phases⟩ ?_
      fun spares => unchanged_putExecution spares
    refine ⟨⟨stored.standing, standing?_of_found held, unfinished, ?_⟩, rfl, ?_⟩
    · exact standing?_putExecution m { stored with stopRequested := true }
    · intro other unused
      exact unused_putExecution held { stored with stopRequested := true } rfl unused

theorem handles_updatePhase (sound : m.Sound) (phase : PhaseRecord)
    : Handles (.updatePhase phase) m := by
  rcases m.updatePhase_cases phase with ⟨_, same⟩ | ⟨_, _, _, same⟩
  · exact .of_refused sound same
  · exact .of_granted () same ⟨sound.executions, nodup_insert sound.phases phase⟩
      ⟨fun _ => rfl, fun old member place => roll_putPhase sound member place⟩
      fun spares => unchanged_putPhase spares.1 spares.2

theorem handles_setPhaseStatuses (sound : m.Sound) (wanted : Uuid) (source target : PhaseStatus)
    : Handles (.setPhaseStatuses wanted source target) m := by
  refine .of_granted (m.phases.countP (inStatus wanted source)) rfl ?_ ?_
    fun spares => unchanged_setPhaseStatuses sound spares source target
  · refine ⟨sound.executions, ?_⟩
    change ((m.phases.map (moved wanted source target)).map PhaseRecord.id).Nodup
    rw [List.map_map]
    simpa only [Function.comp_def, moved_id] using sound.phases
  · refine ⟨fun _ => rfl, roll_map ?_ ?_ ?_⟩
    · intro phase _
      exact congrArg (· == wanted) (moved_executionId wanted source target phase)
    · intro one _ two _
      exact moved_upTo wanted source target one two
    · intro phase member
      exact moved_entry wanted source target phase (by simpa using List.of_mem_filter member)

theorem handles_getExecution (sound : m.Sound) (wanted : Uuid)
    : Handles (.getExecution wanted) m := by
  refine .of_read sound rfl fun {execution} granted => ?_
  cases held : m.execution? wanted with
  | none =>
      rw [held] at granted
      cases granted
  | some stored =>
      rw [held] at granted
      cases granted
      exact ⟨rfl, key_of_find? held, standing?_of_found held⟩

theorem handles_listByStatus (sound : m.Sound) (status : ExecutionStatus)
    : Handles (.listByStatus status) m := by
  refine .of_read sound rfl fun {executions} granted => ?_
  cases granted
  refine ⟨rfl, ?_, ?_⟩
  · have picked : ((m.executions.filter (·.status == status)).map Execution.id).Nodup :=
      (List.filter_sublist.map _).nodup sound.executions
    exact ((List.mergeSort_perm _ _).map _).nodup_iff.mpr picked
  · intro execution member
    obtain ⟨stored, here⟩ := List.mem_filter.mp (List.mem_mergeSort.mp member)
    refine ⟨by simpa using here, ?_⟩
    exact standing?_of_found (Keyed.find?_of_mem sound.executions stored)

/-- A call whose answer leaves executions, phases and logs is dealt with. -/
theorem handles_putWorkflow (sound : m.Sound) {call : StoreCall} (result : call.Result)
    {workflow : Workflow} (answered : Memory.answer call m = (.ok result, m.putWorkflow workflow))
    (effect : call.Effect result m (m.putWorkflow workflow))
    : Handles call m :=
  .of_granted result answered ⟨sound.executions, sound.phases⟩ effect
    fun _ => unchanged_putWorkflow workflow

/-- Every call is dealt with, by cases on the call. -/
theorem handles (call : StoreCall) (sound : m.Sound) : Handles call m := by
  cases call with
  | createExecution execution phases => exact handles_createExecution sound execution phases
  | updateExecution execution => exact handles_updateExecution sound execution
  | requestStop wanted => exact handles_requestStop sound wanted
  | updatePhase phase => exact handles_updatePhase sound phase
  | setPhaseStatuses wanted source target => exact handles_setPhaseStatuses sound wanted _ _
  | getExecution wanted => exact handles_getExecution sound wanted
  | listByStatus status => exact handles_listByStatus sound status
  | listPhases wanted =>
      refine .of_read sound rfl fun {phases} granted => ?_
      cases granted
      exact ⟨rfl, rfl, fun phase member => (mem_planned.mp member).2⟩
  | appendLogs phase entries =>
      rcases m.appendLogs_cases phase entries with ⟨_, same⟩ | same
      · exact .of_refused sound same
      · exact .of_granted () same ⟨sound.executions, sound.phases⟩
          (fun _ => ⟨rfl, rfl⟩) fun spares => unchanged_appendLogs spares entries
  | createWorkflow workflow => exact handles_putWorkflow sound () rfl trivial
  | recordLastRunStart workflow wanted status time =>
      rcases m.recordLastRunStart_cases workflow wanted status time with ⟨_, same⟩ | ⟨_, same⟩
      · exact .of_refused sound same
      · exact handles_putWorkflow sound () same trivial
  | recordLastRunStatus workflow wanted status =>
      rcases m.recordLastRunStatus_cases workflow wanted status with ⟨_, same⟩ | ⟨_, same⟩
      · exact .of_refused sound same
      · exact handles_putWorkflow sound () same trivial
  | _ => exact .of_read sound rfl fun _ => rfl

/-- A store in memory has its books in order. -/
instance : Ledger Memory where
  sound_empty := ⟨.nil, .nil⟩
  handles call _ sound := handles call sound
  distinct := by
    intro m id sound
    change (((m.planned id).map PhaseRecord.entry).map Entry.id).Nodup
    rw [List.map_map]
    have picked : ((m.phasesOf id).map PhaseRecord.id).Nodup :=
      (List.filter_sublist.map _).nodup sound.phases
    exact ((List.mergeSort_perm _ _).map _).nodup_iff.mpr picked
  apart := by
    intro m first second phase sound one two
    obtain ⟨record, stored, owned, rfl⟩ := mem_roll_ids.mp one
    obtain ⟨other, stored', owned', same⟩ := mem_roll_ids.mp two
    obtain rfl := List.inj_on_of_nodup_map sound.phases stored' stored same
    exact owned.symm.trans owned'
  unused unused := congrArg (Option.map Execution.standing) unused.execution

end Memory

end Harvest

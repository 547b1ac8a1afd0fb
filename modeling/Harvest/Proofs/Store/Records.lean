import Harvest.Store.Memory
import Mathlib.Data.List.Basic

/-! What a store in memory holds of one execution, and what each call makes of it. Of an
execution only the stop flag is left open, for others may raise it at any time.
-/

namespace Harvest

open Time

/-- The execution, asked to stop if it was not before. -/
def Execution.flagged (execution : Execution) (stop : Bool) : Execution :=
  { execution with stopRequested := execution.stopRequested || stop }

/-- Two requests are one. -/
theorem Execution.flagged_flagged (execution : Execution) (first second : Bool)
    : (execution.flagged first).flagged second = execution.flagged (first || second) := by
  simp [flagged, Bool.or_assoc]

/-- Without a request the execution stays as it is. -/
@[simp] theorem Execution.flagged_false (execution : Execution)
    : execution.flagged false = execution := by
  simp [flagged]

namespace Memory

-----------------------------------------------------------------------------------------
-- Records found by identifier
-----------------------------------------------------------------------------------------

section Find

variable {α : Type} {key : α → Uuid} {id : Uuid} {record old : α} {records : List α}

/-- A record that is found has the identifier it was looked for by. -/
theorem key_of_find? (found : find? key id records = some record) : key record = id := by
  simpa using List.find?_some found

/-- A record that was put in is found. -/
theorem find?_insert_self (key : α → Uuid) (record : α) (records : List α)
    : find? key (key record) (insert key record records) = some record := by
  induction records with
  | nil => simp [find?, insert]
  | cons first rest ih =>
      by_cases same : key first = key record
      · simp [find?, insert, same]
      · simpa [find?, insert, same] using ih

/-- Putting a record in does not change what is found by another identifier. -/
theorem find?_insert_of_ne (key : α → Uuid) (other : key record ≠ id) (records : List α)
    : find? key id (insert key record records) = find? key id records := by
  induction records with
  | nil => simp [find?, insert, other]
  | cons first rest ih =>
      by_cases same : key first = key record
      · simp [find?, insert, same, other]
      · by_cases here : key first = id
        · simp [find?, insert, here, other.symm]
        · simpa [find?, insert, same, here] using ih

/-- A record is put in where the record with its identifier was found. -/
theorem insert_append (before after : List α) (same : key old = key record)
    (fresh : ∀ other ∈ before, key other ≠ key record)
    : insert key record (before ++ old :: after) = before ++ record :: after := by
  induction before with
  | nil => simp [insert, same]
  | cons first rest ih =>
      have absent : key first ≠ key record := fresh first List.mem_cons_self
      simp [insert, absent, ih fun other member => fresh other (List.mem_cons_of_mem _ member)]

/-- A record without a predecessor is put in at the end. -/
theorem insert_of_find?_eq_none (absent : find? key (key record) records = none)
    : insert key record records = records ++ [record] := by
  have fresh : ∀ other ∈ records, key other ≠ key record := by simpa [find?] using absent
  clear absent
  induction records with
  | nil => rfl
  | cons first rest ih =>
      have other : key first ≠ key record := fresh first List.mem_cons_self
      simp [insert, other, ih fun next member => fresh next (List.mem_cons_of_mem _ member)]

/-- What is found was put in behind records of other identifiers. -/
theorem find?_eq_some_split (found : find? key id records = some old)
    : ∃ before after,
        records = before ++ old :: after ∧ ∀ other ∈ before, key other ≠ id := by
  obtain ⟨_, before, after, rfl, absent⟩ := List.find?_eq_some_iff_append.mp found
  exact ⟨before, after, rfl, by simpa using absent⟩

/-- Records picked by a test that the old and the new record pass change as all records do. -/
theorem filter_insert {test : α → Bool} (found : find? key (key record) records = some old)
    (oldPasses : test old) (newPasses : test record)
    : (insert key record records).filter test = insert key record (records.filter test) := by
  obtain ⟨before, after, rfl, absent⟩ := find?_eq_some_split found
  have same : key old = key record := key_of_find? found
  rw [insert_append before after same absent]
  simp only [List.filter_append, List.filter_cons, oldPasses, newPasses, if_true]
  rw [insert_append _ _ same fun other member => absent other (List.mem_of_mem_filter member)]

/-- Records picked by a test that neither the old nor the new record passes stay as they
are.
-/
theorem filter_insert_of_not {test : α → Bool}
    (found : find? key (key record) records = some old) (oldFails : ¬ test old)
    (newFails : ¬ test record)
    : (insert key record records).filter test = records.filter test := by
  obtain ⟨before, after, rfl, absent⟩ := find?_eq_some_split found
  rw [insert_append before after (key_of_find? found) absent]
  simp [List.filter_append, oldFails, newFails]

end Find

-----------------------------------------------------------------------------------------
-- The records of one execution
-----------------------------------------------------------------------------------------

/-- The phases that belong to an execution, as they are stored. -/
def phasesOf (m : Memory) (id : Uuid) : List PhaseRecord := m.phases.filter (·.executionId == id)

/-- Nothing in the store goes by an identifier. -/
structure Unused (m : Memory) (id : Uuid) : Prop where
  execution : m.execution? id = none
  phases : m.phasesOf id = []
  phase : m.phase? id = none

/-- The store holds an execution, up to a stop that was requested since, and its phases. -/
structure Shows (m : Memory) (execution : Execution) (records : List PhaseRecord) : Prop where
  held : ∃ stop, m.execution? execution.id = some (execution.flagged stop)
  listed : m.phasesOf execution.id = records
  found : ∀ record ∈ records, m.phase? record.id = some record
  distinct : (records.map (·.id)).Nodup

/-- What others leave alone under an identifier: the phases, and the execution up to its stop
flag, which may be raised until the execution is finished.
-/
structure Keeps (id : Uuid) (before after : Memory) : Prop where
  execution
    : after.execution? id = before.execution? id
      ∨ ∃ stored,
          before.execution? id = some stored
          ∧ ¬ stored.status.isTerminal
          ∧ after.execution? id = some (stored.flagged true)
  phases : after.phasesOf id = before.phasesOf id
  phase : after.phase? id = before.phase? id

namespace Keeps

/-- A store keeps what it holds as long as it does not change. -/
theorem refl (id : Uuid) (m : Memory) : Keeps id m m := ⟨Or.inl rfl, rfl, rfl⟩

/-- What is kept twice is kept, by cases on where the stop flag was raised. -/
theorem trans {id : Uuid} {first middle last : Memory} (one : Keeps id first middle)
    (two : Keeps id middle last)
    : Keeps id first last where
  execution := by
    rcases two.execution with same | ⟨stored, held, unfinished, raised⟩
    · rw [same]
      exact one.execution
    · rcases one.execution with same | ⟨earlier, held', unfinished', raised'⟩
      · exact Or.inr ⟨stored, same ▸ held, unfinished, raised⟩
      · rw [raised', Option.some.injEq] at held
        subst held
        exact Or.inr ⟨earlier, held', unfinished',
          raised.trans (congrArg some (earlier.flagged_flagged true true))⟩
  phases := two.phases.trans one.phases
  phase := two.phase.trans one.phase

end Keeps

/-- A request to stop an execution is one of the things that others may do. -/
theorem keeps_requestStop (m : Memory) (id other : Uuid)
    : Keeps other m (m.requestStop id).2 := by
  unfold requestStop
  split
  · exact .refl other m
  · rename_i stored held
    have same : stored.id = id := key_of_find? held
    split
    · exact .refl other m
    · rename_i unfinished
      refine ⟨?_, rfl, rfl⟩
      by_cases here : id = other
      · subst here
        refine Or.inr ⟨stored, held, unfinished, ?_⟩
        have flag : stored.flagged true = { stored with stopRequested := true } := by
          simp [Execution.flagged]
        rw [flag]
        exact same ▸ find?_insert_self Execution.id { stored with stopRequested := true } _
      · refine Or.inl (find?_insert_of_ne Execution.id ?_ _)
        simpa [same] using here

namespace Shows

variable {m : Memory} {execution : Execution} {records : List PhaseRecord}

/-- What is shown depends on the executions and phases only. -/
theorem congr (shows' : m.Shows execution records) {later : Memory}
    (executions : later.executions = m.executions) (phases : later.phases = m.phases)
    : later.Shows execution records := by
  obtain ⟨held, listed, found, distinct⟩ := shows'
  refine ⟨?_, ?_, ?_, distinct⟩
  · simpa only [execution?, executions] using held
  · simpa only [phasesOf, phases] using listed
  · simpa only [phase?, phases] using found

/-- Others leave what is shown, by cases on whether they raised the stop flag. -/
theorem of_keeps (shows' : m.Shows execution records) {later : Memory}
    (kept : Keeps execution.id m later)
    (phases : ∀ record ∈ records, later.phase? record.id = m.phase? record.id)
    : later.Shows execution records where
  held := by
    obtain ⟨stop, held⟩ := shows'.held
    rcases kept.execution with same | ⟨stored, held', _, raised⟩
    · exact ⟨stop, same.trans held⟩
    · rw [held, Option.some.injEq] at held'
      subst held'
      exact ⟨_, raised.trans (congrArg some (execution.flagged_flagged stop true))⟩
  listed := kept.phases.trans shows'.listed
  found record member := (phases record member).trans (shows'.found record member)
  distinct := shows'.distinct

/-- What is shown of an execution that was asked to stop is shown of it before. -/
theorem of_flagged {stop : Bool} (shows' : m.Shows (execution.flagged stop) records)
    : m.Shows execution records where
  held := by
    obtain ⟨later, held⟩ := shows'.held
    exact ⟨_, held.trans (congrArg some (execution.flagged_flagged stop later))⟩
  listed := shows'.listed
  found := shows'.found
  distinct := shows'.distinct

/-- The execution is read as it is held. -/
theorem getExecution (shows' : m.Shows execution records)
    : ∃ stop,
        Memory.answer (.getExecution execution.id) m = (.ok (execution.flagged stop), m) := by
  obtain ⟨stop, held⟩ := shows'.held
  refine ⟨stop, ?_⟩
  simp only [answer, held]
  rfl

/-- The phases are listed as they are stored when that is in plan order. -/
theorem listPhases (shows' : m.Shows execution records)
    (sorted : records.Pairwise fun a b => a.upTo b)
    : Memory.answer (.listPhases execution.id) m = (.ok records, m) := by
  have listed : m.phases.filter (·.executionId == execution.id) = records := shows'.listed
  simp only [answer, listed, List.mergeSort_of_pairwise sorted]
  rfl

/-- An execution that is not finished is replaced, and a raised stop flag stays raised. -/
theorem updateExecution (shows' : m.Shows execution records)
    (unfinished : ¬ execution.status.isTerminal) {next : Execution}
    (same : next.id = execution.id)
    : ∃ later,
        Memory.answer (.updateExecution next) m = (.ok (), later)
        ∧ later.Shows next records := by
  obtain ⟨stop, held⟩ := shows'.held
  refine ⟨m.putExecution (next.flagged (execution.flagged stop).stopRequested), ?_, ?_⟩
  · simp only [answer, Memory.updateExecution, same, held, Execution.flagged, unfinished,
      Bool.or_comm next.stopRequested]
    rfl
  · refine ⟨⟨(execution.flagged stop).stopRequested, ?_⟩, ?_, shows'.found, shows'.distinct⟩
    · exact find?_insert_self Execution.id (next.flagged _) _
    · exact same ▸ shows'.listed

/-- A phase that is not finished is replaced, and the other phases stay. -/
theorem updatePhase {before after : List PhaseRecord} {old next : PhaseRecord}
    (shows' : m.Shows execution (before ++ old :: after)) (unfinished : ¬ old.status.isTerminal)
    (same : next.id = old.id) (owner : next.executionId = old.executionId)
    : ∃ later,
        Memory.answer (.updatePhase next) m = (.ok (), later)
        ∧ later.Shows execution (before ++ next :: after) := by
  have member : old ∈ before ++ old :: after := by simp
  have held : m.phase? next.id = some old := same ▸ shows'.found old member
  have owned : old.executionId == execution.id := by
    rw [← shows'.listed, phasesOf, List.mem_filter] at member
    exact member.2
  have others : ∀ record ∈ before ++ after, next.id ≠ record.id := by
    have distinct := shows'.distinct
    simp only [List.map_append, List.map_cons, List.nodup_append, List.nodup_cons] at distinct
    intro record here
    rcases List.mem_append.mp here with early | late
    · have apart := distinct.2.2 record.id (List.mem_map_of_mem early) old.id (by simp)
      exact fun equal => apart (equal.symm.trans same)
    · exact fun equal => distinct.2.1.1 (same ▸ equal ▸ List.mem_map_of_mem late)
  refine ⟨m.putPhase next, ?_, ⟨shows'.held, ?_, ?_, ?_⟩⟩
  · simp only [answer, Memory.updatePhase, held, unfinished]
    rfl
  · have picked : (insert PhaseRecord.id next m.phases).filter (·.executionId == execution.id)
        = insert PhaseRecord.id next (m.phasesOf execution.id) :=
      filter_insert held owned (by simpa [owner] using owned)
    rw [shows'.listed] at picked
    refine picked.trans (insert_append before after same.symm ?_)
    exact fun record here => (others record (List.mem_append_left _ here)).symm
  · intro record here
    rcases List.mem_append.mp here with early | rest
    · have apart := others record (List.mem_append_left _ early)
      exact (find?_insert_of_ne PhaseRecord.id apart _).trans
        (shows'.found record (by simp [early]))
    · rcases List.mem_cons.mp rest with rfl | late
      · exact find?_insert_self PhaseRecord.id _ _
      · have apart := others record (List.mem_append_right _ late)
        exact (find?_insert_of_ne PhaseRecord.id apart _).trans
          (shows'.found record (by simp [late]))
  · have distinct := shows'.distinct
    simpa only [List.map_append, List.map_cons, same] using distinct

/-- All phases of an execution that are in a status move on together. -/
theorem setPhaseStatuses (shows' : m.Shows execution records) {source : PhaseStatus}
    (target : PhaseStatus) (all : ∀ record ∈ records, record.status = source)
    : ∃ count later,
        Memory.answer (.setPhaseStatuses execution.id source target) m = (.ok count, later)
        ∧ later.Shows execution (records.map ({ · with status := target })) := by
  let moved (record : PhaseRecord) : PhaseRecord :=
    if inStatus execution.id source record then { record with status := target } else record
  have moves : ∀ record ∈ records, moved record = { record with status := target } := by
    intro record here
    have owned : record.executionId = execution.id := by
      rw [← shows'.listed, phasesOf, List.mem_filter] at here
      simpa using here.2
    simp [moved, inStatus, owned, all record here]
  have owners : (fun record : PhaseRecord => record.executionId == execution.id) ∘ moved
      = fun record => record.executionId == execution.id := by
    funext record
    simp only [Function.comp_apply, moved]
    split <;> rfl
  have ids (id : Uuid) : (fun record : PhaseRecord => record.id == id) ∘ moved
      = fun record => record.id == id := by
    funext record
    simp only [Function.comp_apply, moved]
    split <;> rfl
  refine ⟨_, _, rfl, ⟨shows'.held, ?_, ?_, ?_⟩⟩
  · change (m.phases.map moved).filter _ = _
    rw [List.filter_map, owners]
    change (m.phasesOf execution.id).map moved = _
    rw [shows'.listed]
    exact List.map_congr_left moves
  · intro record here
    obtain ⟨old, inside, rfl⟩ := List.mem_map.mp here
    have held : m.phases.find? (·.id == old.id) = some old := shows'.found old inside
    change (m.phases.map moved).find? (·.id == old.id) = _
    rw [List.find?_map, ids, held, Option.map_some, moves old inside]
  · simpa only [List.map_map, Function.comp_def] using shows'.distinct

/-- Log entries of a phase change neither the execution nor its phases. -/
theorem appendLogs (shows' : m.Shows execution records) {record : PhaseRecord}
    (member : record ∈ records) (entries : List LogEntry)
    : ∃ later,
        Memory.answer (.appendLogs record.id entries) m = (.ok (), later)
        ∧ later.Shows execution records := by
  refine ⟨{ m with logs := m.logs ++ entries.map fun entry => (record.id, entry) }, ?_,
    shows'.congr rfl rfl⟩
  simp only [answer, shows'.found record member]
  rfl

/-- The last run of a workflow is no part of an execution. -/
theorem recordLastRunStatus (shows' : m.Shows execution records) (workflow id : Uuid)
    (status : ExecutionStatus)
    : (Memory.answer (.recordLastRunStatus workflow id status) m).2.Shows execution records := by
  simp only [answer, Memory.recordLastRunStatus]
  split
  · exact shows'
  · split
    · exact shows'.congr rfl rfl
    · exact shows'

/-- Neither is the start of the last run. -/
theorem recordLastRunStart (shows' : m.Shows execution records) (workflow id : Uuid)
    (status : ExecutionStatus) (time : Instant)
    : (Memory.answer (.recordLastRunStart workflow id status time) m).2.Shows execution
        records := by
  simp only [answer, Memory.recordLastRunStart]
  split
  · exact shows'
  · exact shows'.congr rfl rfl

end Shows

/-- Phases under new identifiers are put in at the end, by induction over the phases. -/
theorem foldl_putPhase (phases : List PhaseRecord) (m : Memory)
    (distinct : (phases.map (·.id)).Nodup)
    (fresh : ∀ phase ∈ phases, m.phase? phase.id = none)
    : phases.foldl putPhase m = { m with phases := m.phases ++ phases } := by
  induction phases generalizing m with
  | nil => simp
  | cons first rest ih =>
      have put : m.putPhase first = { m with phases := m.phases ++ [first] } := by
        have absent : find? PhaseRecord.id first.id m.phases = none :=
          fresh first List.mem_cons_self
        rw [putPhase, insert_of_find?_eq_none absent]
      rw [List.map_cons, List.nodup_cons] at distinct
      rw [List.foldl_cons, put, ih _ distinct.2]
      · simp
      · intro phase member
        have apart : first.id ≠ phase.id :=
          fun same => distinct.1 (same ▸ List.mem_map_of_mem member)
        have absent : m.phases.find? (·.id == phase.id) = none :=
          fresh phase (List.mem_cons_of_mem _ member)
        simp [phase?, find?, absent, apart]

/-- An execution that is created under new identifiers is shown with its phases. -/
theorem shows_createExecution {m : Memory} {execution : Execution} {phases : List PhaseRecord}
    (unused : m.phasesOf execution.id = [])
    (owned : ∀ phase ∈ phases, phase.executionId = execution.id)
    (distinct : (phases.map (·.id)).Nodup)
    (fresh : ∀ phase ∈ phases, m.phase? phase.id = none)
    : (Memory.answer (.createExecution execution phases) m).2.Shows execution phases := by
  have created : (Memory.answer (.createExecution execution phases) m).2
      = { m.putExecution execution with phases := m.phases ++ phases } :=
    foldl_putPhase phases (m.putExecution execution) distinct fresh
  rw [created]
  refine ⟨⟨false, ?_⟩, ?_, ?_, distinct⟩
  · rw [Execution.flagged_false]
    exact find?_insert_self Execution.id execution _
  · have nothing : m.phases.filter (·.executionId == execution.id) = [] := unused
    have all : phases.filter (·.executionId == execution.id) = phases :=
      List.filter_eq_self.mpr fun phase member => by simp [owned phase member]
    simp only [phasesOf, List.filter_append, nothing, all, List.nil_append]
  · intro phase member
    have absent : m.phases.find? (·.id == phase.id) = none := fresh phase member
    obtain ⟨before, after, rfl⟩ := List.append_of_mem member
    have early : ∀ other ∈ before, other.id ≠ phase.id := by
      simp only [List.map_append, List.map_cons, List.nodup_append] at distinct
      exact fun other here =>
        distinct.2.2 other.id (List.mem_map_of_mem here) phase.id (by simp)
    have skipped : before.find? (·.id == phase.id) = none := by simpa using early
    simp [phase?, find?, absent, skipped]

end Memory

end Harvest

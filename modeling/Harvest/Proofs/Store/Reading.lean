import Harvest.Proofs.Store.Rows
import Harvest.Proofs.Time.Written

/-! Rows without loss. A record whose times have texts of their own and whose numbers have at most
32 bits is read back from its row to the last field, and rows are sorted as their records.
-/

namespace Harvest

open Time

-----------------------------------------------------------------------------------------
-- Proper records
-----------------------------------------------------------------------------------------

/-- The number has at most 32 bits. -/
abbrev FitsCell (n : Nat) : Prop := n < 4294967296

/-- A workflow that a row can hold without loss. -/
structure Workflow.IsProper (w : Workflow) : Prop where
  createdAt : w.createdAt.IsProper
  lastRunAt : ∀ time ∈ w.lastRunAt, time.IsProper

/-- An execution that a row can hold without loss. -/
structure Execution.IsProper (e : Execution) : Prop where
  createdAt : e.createdAt.IsProper
  startedAt : ∀ time ∈ e.startedAt, time.IsProper
  completedAt : ∀ time ∈ e.completedAt, time.IsProper
  credits : FitsCell e.credits

/-- A phase that a row can hold without loss. -/
structure PhaseRecord.IsProper (p : PhaseRecord) : Prop where
  number : FitsCell p.number
  position : FitsCell p.position
  startedAt : ∀ time ∈ p.startedAt, time.IsProper
  completedAt : ∀ time ∈ p.completedAt, time.IsProper
  credits : FitsCell p.credits

/-- A log entry that a row can hold without loss. -/
abbrev LogEntry.IsProper (entry : LogEntry) : Prop := entry.timestamp.IsProper

instance (w : Workflow) : Decidable w.IsProper :=
  decidable_of_iff (w.createdAt.IsProper ∧ ∀ time ∈ w.lastRunAt, time.IsProper)
    ⟨fun ⟨created, last⟩ => ⟨created, last⟩, fun ⟨created, last⟩ => ⟨created, last⟩⟩

instance (e : Execution) : Decidable e.IsProper :=
  decidable_of_iff
    (e.createdAt.IsProper ∧ (∀ time ∈ e.startedAt, time.IsProper)
      ∧ (∀ time ∈ e.completedAt, time.IsProper) ∧ FitsCell e.credits)
    ⟨fun ⟨created, started, completed, credits⟩ => ⟨created, started, completed, credits⟩,
      fun ⟨created, started, completed, credits⟩ => ⟨created, started, completed, credits⟩⟩

instance (p : PhaseRecord) : Decidable p.IsProper :=
  decidable_of_iff
    (FitsCell p.number ∧ FitsCell p.position ∧ (∀ time ∈ p.startedAt, time.IsProper)
      ∧ (∀ time ∈ p.completedAt, time.IsProper) ∧ FitsCell p.credits)
    ⟨fun ⟨number, position, started, completed, credits⟩ =>
        ⟨number, position, started, completed, credits⟩,
      fun ⟨number, position, started, completed, credits⟩ =>
        ⟨number, position, started, completed, credits⟩⟩

-----------------------------------------------------------------------------------------
-- Cells
-----------------------------------------------------------------------------------------

/-- Proper times in columns are ordered as the times. -/
theorem before_storedTime {a b : Instant} (properA : a.IsProper) (properB : b.IsProper)
    : Text.before (storedTime a) (storedTime b) = a.before b :=
  before_textWith properA properB

/-- Proper times in columns are compared as the times. -/
theorem storedTime_beq {a b : Instant} (properA : a.IsProper) (properB : b.IsProper)
    : (storedTime a == storedTime b) = (a == b) := by
  rw [Bool.beq_eq_decide_eq, Bool.beq_eq_decide_eq]
  exact decide_eq_decide.mpr ⟨textWith_injective properA properB, congrArg storedTime⟩

/-- A trigger is read back from its name, by cases on it. -/
theorem Trigger.parse?_name (trigger : Trigger) : parse? trigger.name = some trigger := by
  cases trigger <;> rfl

/-- The level of a log entry is read back from its name, by cases on it. -/
theorem LogLevel.parse?_name (level : LogLevel) : parse? level.name = some level := by
  cases level <;> rfl

namespace RowRead

/-- A cell that may be empty is read back when what is in it is. -/
theorem mapM_map {α β : Type} {write : α → β} {read : β → RowRead α} {cell : Option α}
    (reads : ∀ value ∈ cell, read (write value) = .ok value)
    : (cell.map write).mapM read = .ok cell := by
  cases cell with
  | none => rfl
  | some value =>
      change (read (write value) >>= _) = _
      rw [reads value rfl]
      rfl

theorem time_storedTime (column : String) {t : Instant} (proper : t.IsProper)
    : time column (storedTime t) = .ok t := by
  rw [time, storedTime, ofColumn?_textWith proper]
  rfl

/-- A time that may be missing is read back. -/
theorem times_storedTime (column : String) {cell : Option Instant}
    (proper : ∀ t ∈ cell, t.IsProper)
    : (cell.map storedTime).mapM (time column) = .ok cell :=
  mapM_map fun t member => time_storedTime column (proper t member)

/-- A number of at most 32 bits is read back. -/
theorem nat32_of_fits (column : String) {n : Nat} (fits : FitsCell n)
    : nat32 column (.integer n) = .ok n := by
  have within : (decide (0 ≤ (n : Int)) && decide ((n : Int) < 4294967296)) = true := by
    rw [Bool.and_eq_true, decide_eq_true_eq, decide_eq_true_eq]
    omega
  simp only [nat32, integer, pure_bind, within, if_true, Int.toNat_natCast]
  rfl

end RowRead

-----------------------------------------------------------------------------------------
-- Records
-----------------------------------------------------------------------------------------

/-- A proper workflow is read back from its row. -/
theorem Workflow.IsProper.record {w : Workflow} (proper : w.IsProper)
    : (WorkflowRow.ofRecord w).record = .ok w := by
  have lastRunId : (w.lastRunId.map Uuid.text).mapM RowRead.uuid = .ok w.lastRunId :=
    RowRead.mapM_map fun id _ => RowRead.uuid_text id
  have lastRunStatus : (w.lastRunStatus.map ExecutionStatus.name).mapM
      (RowRead.word ExecutionStatus.parse? "execution status") = .ok w.lastRunStatus :=
    RowRead.mapM_map fun status _ => RowRead.word_of_parse status.parse?_name
  simp only [WorkflowRow.record, WorkflowRow.ofRecord, RowRead.uuid_text,
    RowRead.time_storedTime _ proper.createdAt, RowRead.times_storedTime _ proper.lastRunAt,
    lastRunId, lastRunStatus]
  rfl

namespace Execution.IsProper

variable {e other : Execution}

/-- A proper execution is read back from its row. -/
theorem record (proper : e.IsProper) : (ExecutionRow.ofRecord e).record = .ok e := by
  simp only [ExecutionRow.record, ExecutionRow.ofRecord, RowRead.uuid_text,
    RowRead.word_of_parse e.status.parse?_name, RowRead.word_of_parse e.trigger.parse?_name,
    RowRead.time_storedTime _ proper.createdAt, RowRead.times_storedTime _ proper.startedAt,
    RowRead.times_storedTime _ proper.completedAt, RowRead.nat32_of_fits _ proper.credits,
    RowRead.flag_flag]
  rfl

/-- Rows of proper executions are in the order of the executions by age. -/
theorem upTo (proper : e.IsProper) (proper' : other.IsProper)
    : ExecutionRow.upTo (.ofRecord e) (.ofRecord other) = e.upTo other := by
  simp only [ExecutionRow.upTo, ExecutionRow.ofRecord, Execution.upTo, Uuid.not_before_text,
    before_storedTime proper.createdAt proper'.createdAt,
    storedTime_beq proper.createdAt proper'.createdAt]

/-- Rows of proper executions are in the order of the executions also with the latest first. -/
theorem latestUpTo (proper : e.IsProper) (proper' : other.IsProper)
    : ExecutionRow.latestUpTo (.ofRecord e) (.ofRecord other) = e.latestUpTo other := by
  simp only [ExecutionRow.latestUpTo, ExecutionRow.ofRecord, Execution.latestUpTo,
    Uuid.not_before_text, before_storedTime proper'.createdAt proper.createdAt,
    storedTime_beq proper.createdAt proper'.createdAt]

end Execution.IsProper

/-- A proper phase is read back from its row. -/
theorem PhaseRecord.IsProper.record {p : PhaseRecord} (proper : p.IsProper)
    : (PhaseRow.ofRecord p).record = .ok p := by
  simp only [PhaseRow.record, PhaseRow.ofRecord, RowRead.uuid_text,
    RowRead.nat32_of_fits _ proper.number, RowRead.nat32_of_fits _ proper.position,
    RowRead.word_of_parse p.taskType.parse?_name, RowRead.word_of_parse p.status.parse?_name,
    RowRead.times_storedTime _ proper.startedAt, RowRead.times_storedTime _ proper.completedAt,
    RowRead.nat32_of_fits _ proper.credits]
  rfl

/-- The row of a log entry. -/
def LogRow.ofEntry (number : Nat) (phase : Uuid) (entry : LogEntry) : LogRow where
  id := number
  phaseId := phase.text
  level := entry.level.name
  message := entry.message
  timestamp := storedTime entry.timestamp

/-- A proper log entry is read back from its row. -/
theorem LogEntry.IsProper.record {entry : LogEntry} (proper : entry.IsProper) (number : Nat)
    (phase : Uuid)
    : (LogRow.ofEntry number phase entry).record = .ok entry := by
  simp only [LogRow.record, LogRow.ofEntry, RowRead.word_of_parse entry.level.parse?_name,
    RowRead.time_storedTime _ proper]
  rfl

/-- Parts that give values give the list of the values, by induction over the list. -/
theorem mapM_map_eq_ok {ε α β γ : Type} {row : α → β} {read : β → Except ε γ} {value : α → γ}
    {records : List α} (reads : ∀ record ∈ records, read (row record) = .ok (value record))
    : (records.map row).mapM read = .ok (records.map value) := by
  induction records with
  | nil => rfl
  | cons first rest ih =>
      rw [List.map_cons, List.mapM_cons, reads first List.mem_cons_self,
        ih fun record member => reads record (List.mem_cons_of_mem _ member)]
      rfl

end Harvest

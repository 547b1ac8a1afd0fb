import Harvest.Proofs.Except
import Harvest.Proofs.Store.Ledger
import Harvest.Proofs.Uuid
import Harvest.Store.Tables

/-! What rows say of the records that they were made of. A row of a record is read back as a
record that stands where the first one stood, and rows are in the order of their records.
-/

namespace Harvest

/-- A status of an execution is read back from its name, by cases on it. -/
theorem ExecutionStatus.parse?_name (status : ExecutionStatus)
    : parse? status.name = some status := by
  cases status <;> rfl

/-- A status of a phase is read back from its name, by cases on it. -/
theorem PhaseStatus.parse?_name (status : PhaseStatus) : parse? status.name = some status := by
  cases status <;> rfl

/-- Names of statuses are compared as the statuses. -/
theorem PhaseStatus.name_beq (one two : PhaseStatus) : (one.name == two.name) = (one == two) := by
  rw [Bool.beq_eq_decide_eq, Bool.beq_eq_decide_eq]
  refine decide_eq_decide.mpr ⟨fun same => ?_, congrArg name⟩
  have read := one.parse?_name
  rw [same, parse?_name, Option.some.injEq] at read
  exact read.symm

theorem ExecutionStatus.name_beq (one two : ExecutionStatus)
    : (one.name == two.name) = (one == two) := by
  rw [Bool.beq_eq_decide_eq, Bool.beq_eq_decide_eq]
  refine decide_eq_decide.mpr ⟨fun same => ?_, congrArg name⟩
  have read := one.parse?_name
  rw [same, parse?_name, Option.some.injEq] at read
  exact read.symm

/-- A task type is read back from its name, by cases on it. -/
theorem TaskType.parse?_name (t : TaskType) : parse? t.name = some t := by
  cases t <;> rfl

/-- The natural number of a cell; other cells have none. -/
def Cell.count : Cell → Nat
  | integer n => n.toNat
  | text _ => 0

theorem Cell.holds_flag (b : Bool) : (Cell.flag b).holds = b := by
  cases b <;> rfl

namespace RowRead

/-- An identifier is read from its text. -/
theorem uuid_text (id : Uuid) : uuid id.text = .ok id := by
  simp [uuid, Uuid.parse?_text, pure, Except.pure]

/-- A word that names a value is read as that value. -/
theorem word_of_parse {α : Type} {parse : String → Option α} {what s : String} {value : α}
    (parsed : parse s = some value)
    : word parse what s = .ok value := by
  simp [word, parsed, pure, Except.pure]

/-- A natural number that is read from its cell is the one that was written. -/
theorem nat32_integer {column : String} {n value : Nat}
    (read : nat32 column (.integer n) = .ok value)
    : value = n := by
  simp only [nat32, integer, pure_bind] at read
  split at read
  · cases read
    simp
  · cases read

theorem flag_flag (column : String) (b : Bool) : flag column (Cell.flag b) = .ok b := by
  cases b <;> rfl

end RowRead

namespace ExecutionRow

/-- Where the execution of a row stands. -/
def standing (row : ExecutionRow) : Standing :=
  ⟨(ExecutionStatus.parse? row.status).getD .pending, row.credits.count, row.stopRequested.holds,
    row.definition⟩

@[simp] theorem standing_ofRecord (execution : Execution)
    : (ofRecord execution).standing = execution.standing := by
  simp [standing, ofRecord, Execution.standing, ExecutionStatus.parse?_name, Cell.holds_flag,
    Cell.count]

@[simp] theorem isTerminal_ofRecord (execution : Execution)
    : (ofRecord execution).isTerminal = execution.status.isTerminal := by
  unfold isTerminal ofRecord
  cases execution.status <;> rfl

/-- What is read from the row of a record has its identifier and stands where it stands. -/
theorem record_ofRecord {execution read : Execution}
    (succeeds : (ofRecord execution).record = .ok read)
    : read.id = execution.id ∧ read.standing = execution.standing := by
  unfold record at succeeds
  obtain ⟨id, here, succeeds⟩ := bind_eq_ok.mp succeeds
  cases (RowRead.uuid_text execution.id).symm.trans here
  obtain ⟨_, _, succeeds⟩ := bind_eq_ok.mp succeeds
  obtain ⟨status, here, succeeds⟩ := bind_eq_ok.mp succeeds
  cases (RowRead.word_of_parse (ExecutionStatus.parse?_name _)).symm.trans here
  obtain ⟨_, _, succeeds⟩ := bind_eq_ok.mp succeeds
  obtain ⟨_, _, succeeds⟩ := bind_eq_ok.mp succeeds
  obtain ⟨_, _, succeeds⟩ := bind_eq_ok.mp succeeds
  obtain ⟨_, _, succeeds⟩ := bind_eq_ok.mp succeeds
  obtain ⟨credits, here, succeeds⟩ := bind_eq_ok.mp succeeds
  obtain rfl := RowRead.nat32_integer here
  obtain ⟨stop, here, succeeds⟩ := bind_eq_ok.mp succeeds
  cases (RowRead.flag_flag "stop_requested" execution.stopRequested).symm.trans here
  cases succeeds
  exact ⟨rfl, rfl⟩

end ExecutionRow

namespace PhaseRow

/-- The entry of a row. -/
def entry (row : PhaseRow) : Entry :=
  ⟨(Uuid.parse? row.id).getD .nil, row.number.count, row.position.count,
    (TaskType.parse? row.taskType).getD default, (PhaseStatus.parse? row.status).getD .created,
    row.credits.count⟩

@[simp] theorem entry_ofRecord (phase : PhaseRecord) : (ofRecord phase).entry = phase.entry := by
  simp [entry, ofRecord, PhaseRecord.entry, Uuid.parse?_text, TaskType.parse?_name,
    PhaseStatus.parse?_name, Cell.count]

@[simp] theorem isTerminal_ofRecord (phase : PhaseRecord)
    : (ofRecord phase).isTerminal = phase.status.isTerminal := by
  unfold isTerminal ofRecord
  cases phase.status <;> rfl

/-- What is read from the row of a record has its entry and its owner. -/
theorem record_ofRecord {phase read : PhaseRecord}
    (succeeds : (ofRecord phase).record = .ok read)
    : read.entry = phase.entry ∧ read.executionId = phase.executionId := by
  unfold record at succeeds
  obtain ⟨id, here, succeeds⟩ := bind_eq_ok.mp succeeds
  cases (RowRead.uuid_text phase.id).symm.trans here
  obtain ⟨owner, here, succeeds⟩ := bind_eq_ok.mp succeeds
  cases (RowRead.uuid_text phase.executionId).symm.trans here
  obtain ⟨number, here, succeeds⟩ := bind_eq_ok.mp succeeds
  obtain rfl := RowRead.nat32_integer here
  obtain ⟨position, here, succeeds⟩ := bind_eq_ok.mp succeeds
  obtain rfl := RowRead.nat32_integer here
  obtain ⟨taskType, here, succeeds⟩ := bind_eq_ok.mp succeeds
  cases (RowRead.word_of_parse (TaskType.parse?_name _)).symm.trans here
  obtain ⟨status, here, succeeds⟩ := bind_eq_ok.mp succeeds
  cases (RowRead.word_of_parse (PhaseStatus.parse?_name _)).symm.trans here
  obtain ⟨_, _, succeeds⟩ := bind_eq_ok.mp succeeds
  obtain ⟨_, _, succeeds⟩ := bind_eq_ok.mp succeeds
  obtain ⟨credits, here, succeeds⟩ := bind_eq_ok.mp succeeds
  obtain rfl := RowRead.nat32_integer here
  cases succeeds
  exact ⟨rfl, rfl⟩

/-- Rows are in the order of their records, by cases on which place comes first. -/
theorem upTo_ofRecord (one two : PhaseRecord)
    : upTo (ofRecord one) (ofRecord two) = one.upTo two := by
  have numbers (a b : Nat) : (Cell.integer a != Cell.integer b) = (a != b) := by
    refine congrArg not (Bool.eq_iff_iff.mpr ?_)
    rw [beq_iff_eq, beq_iff_eq, Cell.integer.injEq, Int.ofNat_inj]
  have cells (a b : Nat) : (Cell.integer a).upTo (.integer b) = decide (a ≤ b) := by
    simp [Cell.upTo]
  simp only [upTo, ofRecord, PhaseRecord.upTo, Uuid.not_before_text, numbers, cells]
  rcases Nat.lt_trichotomy one.number two.number with less | same | more
  · simp [less, Nat.ne_of_lt less, Nat.le_of_lt less]
  · rcases Nat.lt_trichotomy one.position two.position with less | same' | more
    · simp [same, less, Nat.ne_of_lt less, Nat.le_of_lt less]
    · simp [same, same']
    · simp [same, Nat.ne_of_gt more, Nat.lt_asymm more, Nat.not_le_of_gt more]
  · simp [Nat.ne_of_gt more, Nat.lt_asymm more, Nat.not_le_of_gt more]

end PhaseRow

end Harvest

import Harvest.Proofs.Store.Copy

/-! What updates leave as it is. Tables change one row, and in it only what an update sets. A store
in memory changes one record too, but takes over all of the one that it is given.
-/

namespace Harvest

/-- What no update of an execution is for. -/
def Execution.fixed (e : Execution) : Uuid × String × Trigger × Time.Instant × String :=
  (e.workflowId, e.userId, e.trigger, e.createdAt, e.definition)

/-- What no update of a phase is for. -/
def PhaseRecord.fixed (p : PhaseRecord) : Uuid × Nat × Nat × String × TaskType × String :=
  (p.executionId, p.number, p.position, p.name, p.taskType, p.node)

def ExecutionRow.fixed (row : ExecutionRow) : String × String × String × String × String :=
  (row.workflowId, row.userId, row.triggerKind, row.createdAt, row.definition)

def PhaseRow.fixed (row : PhaseRow) : String × Cell × Cell × String × String × String :=
  (row.executionId, row.number, row.position, row.name, row.taskType, row.node)

section

variable {α κ φ : Type}

/-- One by one the records are as before, but for those of an identifier, which keep their
identifier and what is fixed.
-/
def Amended (key : α → κ) (fixed : α → φ) (id : κ) : List α → List α → Prop :=
  List.Forall₂ fun old new =>
    key new = key old ∧ fixed new = fixed old ∧ (key old ≠ id → new = old)

variable {key : α → κ} {fixed : α → φ} {id : κ} {records : List α}

theorem Amended.refl (key : α → κ) (fixed : α → φ) (id : κ) (records : List α)
    : Amended key fixed id records records :=
  List.forall₂_same.mpr fun _ _ => ⟨rfl, rfl, fun _ => rfl⟩

/-- Changing the rows of an identifier amends them when the change leaves what is fixed. -/
theorem amended_replaceWhere {touched : α → Bool} {change : α → α}
    (only : ∀ row, touched row → key row = id)
    (keeps : ∀ row, key (change row) = key row ∧ fixed (change row) = fixed row)
    : Amended key fixed id records (Tables.replaceWhere touched change records) := by
  refine List.forall₂_map_right_iff.mpr (List.forall₂_same.mpr fun row _ => ?_)
  split
  · next touches =>
      exact ⟨(keeps row).1, (keeps row).2, fun other => absurd (only row touches) other⟩
  · exact ⟨rfl, rfl, fun _ => rfl⟩

/-- Putting a record in amends the one that was there when both agree in what is fixed, by induction
over the records up to that one.
-/
theorem amended_insert_iff {key : α → Uuid} {record old : α}
    (found : Memory.find? key (key record) records = some old)
    : Amended key fixed (key record) records (Memory.insert key record records)
      ↔ fixed record = fixed old := by
  unfold Amended Memory.find? at *
  induction records with
  | nil => cases found
  | cons first rest ih =>
      rw [List.find?_cons] at found
      rw [Memory.insert]
      split at found
      · next same =>
          cases found
          rw [beq_iff_eq] at same
          rw [if_pos (beq_iff_eq.mpr same), List.forall₂_cons]
          have others := Amended.refl key fixed (key record) rest
          exact ⟨fun amended => amended.1.2.1,
            fun agree => ⟨⟨same.symm, agree, fun other => absurd same other⟩, others⟩⟩
      · next other =>
          rw [if_neg (ne_true_of_eq_false other), List.forall₂_cons, ih found]
          exact and_iff_right ⟨rfl, rfl, fun _ => rfl⟩

end

-----------------------------------------------------------------------------------------
-- Stores
-----------------------------------------------------------------------------------------

namespace Tables

variable {t later : Tables}

/-- A change of an execution that leaves what is fixed amends its row and nothing else. -/
theorem amended_changeExecution {id : Uuid} {change : ExecutionRow → ExecutionRow}
    (granted : t.changeExecution id change = (.ok (), later))
    (keeps : ∀ row, (change row).id = row.id ∧ (change row).fixed = row.fixed)
    : ∃ executions,
        later = { t with executions }
        ∧ Amended ExecutionRow.id ExecutionRow.fixed id.text t.executions executions := by
  simp only [changeExecution] at granted
  split at granted
  · cases granted
    refine ⟨_, rfl, amended_replaceWhere (fun row touches => ?_) keeps⟩
    exact beq_iff_eq.mp (Bool.and_eq_true_iff.mp touches).1
  · cases granted

theorem amended_changePhase {id : Uuid} {change : PhaseRow → PhaseRow}
    (granted : t.changePhase id change = (.ok (), later))
    (keeps : ∀ row, (change row).id = row.id ∧ (change row).fixed = row.fixed)
    : ∃ phases,
        later = { t with phases }
        ∧ Amended PhaseRow.id PhaseRow.fixed id.text t.phases phases := by
  simp only [changePhase] at granted
  split at granted
  · cases granted
    refine ⟨_, rfl, amended_replaceWhere (fun row touches => ?_) keeps⟩
    exact beq_iff_eq.mp (Bool.and_eq_true_iff.mp touches).1
  · cases granted

end Tables

namespace Memory

variable {m later : Memory}

/-- An update of an execution changes one record and nothing else; the record is amended when the
given one agrees with it in what is fixed, and only then.
-/
theorem amended_updateExecution {e : Execution} (granted : m.updateExecution e = (.ok (), later))
    : ∃ stored executions,
        m.execution? e.id = some stored
        ∧ later = { m with executions }
        ∧ Amended Execution.id (fun _ => ()) e.id m.executions executions
        ∧ (Amended Execution.id Execution.fixed e.id m.executions executions
          ↔ e.fixed = stored.fixed) := by
  rcases m.updateExecution_cases e with ⟨_, same⟩ | ⟨stored, held, _, same⟩
  · cases same.symm.trans granted
  · cases same.symm.trans granted
    let made : Execution := { e with stopRequested := stored.stopRequested || e.stopRequested }
    have found : find? Execution.id made.id m.executions = some stored := held
    exact ⟨stored, _, held, rfl, (amended_insert_iff found).mpr rfl, amended_insert_iff found⟩

theorem amended_updatePhase {p : PhaseRecord} (granted : m.updatePhase p = (.ok (), later))
    : ∃ stored phases,
        m.phase? p.id = some stored
        ∧ later = { m with phases }
        ∧ Amended PhaseRecord.id (fun _ => ()) p.id m.phases phases
        ∧ (Amended PhaseRecord.id PhaseRecord.fixed p.id m.phases phases
          ↔ p.fixed = stored.fixed) := by
  rcases m.updatePhase_cases p with ⟨_, same⟩ | ⟨stored, held, _, same⟩
  · cases same.symm.trans granted
  · cases same.symm.trans granted
    exact ⟨stored, _, held, rfl, (amended_insert_iff held).mpr rfl, amended_insert_iff held⟩

end Memory

/-- An update that is granted changes the record of one identifier and nothing else in the store.
In tables the record keeps what is fixed, whatever else the given one says; in memory it keeps that
when the given one agrees with it, and only then.
-/
theorem updates_amend (e : Execution) (p : PhaseRecord)
    : (∀ t later : Tables,
        Tables.answer (.updateExecution e) t = (.ok (), later)
        → ∃ executions,
            later = { t with executions }
            ∧ Amended ExecutionRow.id ExecutionRow.fixed e.id.text t.executions executions)
      ∧ (∀ t later : Tables,
        Tables.answer (.updatePhase p) t = (.ok (), later)
        → ∃ phases,
            later = { t with phases }
            ∧ Amended PhaseRow.id PhaseRow.fixed p.id.text t.phases phases)
      ∧ (∀ m later : Memory,
        Memory.answer (.updateExecution e) m = (.ok (), later)
        → ∃ stored executions,
            m.execution? e.id = some stored
            ∧ later = { m with executions }
            ∧ Amended Execution.id (fun _ => ()) e.id m.executions executions
            ∧ (Amended Execution.id Execution.fixed e.id m.executions executions
              ↔ e.fixed = stored.fixed))
      ∧ (∀ m later : Memory,
        Memory.answer (.updatePhase p) m = (.ok (), later)
        → ∃ stored phases,
            m.phase? p.id = some stored
            ∧ later = { m with phases }
            ∧ Amended PhaseRecord.id (fun _ => ()) p.id m.phases phases
            ∧ (Amended PhaseRecord.id PhaseRecord.fixed p.id m.phases phases
              ↔ p.fixed = stored.fixed)) := by
  refine ⟨fun t later granted => ?_, fun t later granted => ?_, fun m later granted => ?_,
    fun m later granted => ?_⟩
  · exact Tables.amended_changeExecution granted fun _ => ⟨rfl, rfl⟩
  · exact Tables.amended_changePhase granted fun _ => ⟨rfl, rfl⟩
  · exact Memory.amended_updateExecution granted
  · exact Memory.amended_updatePhase granted

/-- A store of one workflow that runs, with one phase. -/
def Memory.lone : Memory where
  workflows := [.fresh (.ofNat 1) ⟨0, 0, 0⟩ "user" "lone" ""]
  executions := [.fresh (.ofNat 2) (.ofNat 1) ⟨0, 0, 0⟩ "user" ""]
  phases := [.fresh (.ofNat 3) (.ofNat 2) 1 0 "Launch" .launchBrowser ""]
  logs := []

theorem Memory.sound_lone : lone.Sound := ⟨List.nodup_singleton _, List.nodup_singleton _⟩

/-- Given the records of another user and of another node, tables keep theirs and a store in memory
does not.
-/
theorem updates_amend_lone
    : (∃ later executions,
        Tables.answer (.updateExecution (.fresh (.ofNat 2) (.ofNat 1) ⟨0, 0, 0⟩ "other" ""))
            (Tables.copyOf .lone)
          = (.ok (), later)
        ∧ later = { Tables.copyOf .lone with executions }
        ∧ Amended ExecutionRow.id ExecutionRow.fixed (Uuid.ofNat 2).text
            (Tables.copyOf .lone).executions executions)
      ∧ (∃ later phases,
        Tables.answer (.updatePhase (.fresh (.ofNat 3) (.ofNat 2) 1 0 "Launch" .launchBrowser "b"))
            (Tables.copyOf .lone)
          = (.ok (), later)
        ∧ later = { Tables.copyOf .lone with phases }
        ∧ Amended PhaseRow.id PhaseRow.fixed (Uuid.ofNat 3).text
            (Tables.copyOf .lone).phases phases)
      ∧ (∃ later executions,
        Memory.answer (.updateExecution (.fresh (.ofNat 2) (.ofNat 1) ⟨0, 0, 0⟩ "other" "")) .lone
          = (.ok (), later)
        ∧ later = { Memory.lone with executions }
        ∧ ¬ Amended Execution.id Execution.fixed (.ofNat 2) Memory.lone.executions executions)
      ∧ ∃ later phases,
        Memory.answer (.updatePhase (.fresh (.ofNat 3) (.ofNat 2) 1 0 "Launch" .launchBrowser "b"))
            .lone
          = (.ok (), later)
        ∧ later = { Memory.lone with phases }
        ∧ ¬ Amended PhaseRecord.id PhaseRecord.fixed (.ofNat 3) Memory.lone.phases phases := by
  let e : Execution := .fresh (.ofNat 2) (.ofNat 1) ⟨0, 0, 0⟩ "other" ""
  let p : PhaseRecord := .fresh (.ofNat 3) (.ofNat 2) 1 0 "Launch" .launchBrowser "b"
  have execution : Memory.lone.execution? e.id
      = some (.fresh (.ofNat 2) (.ofNat 1) ⟨0, 0, 0⟩ "user" "") := rfl
  have phase : Memory.lone.phase? p.id
      = some (.fresh (.ofNat 3) (.ofNat 2) 1 0 "Launch" .launchBrowser "") := rfl
  have executionRow := Tables.changeExecution_copyOf Memory.sound_lone e.id _ _
    (Tables.setExecution_ofRecord e) fun _ => rfl
  have phaseRow := Tables.changePhase_copyOf Memory.sound_lone p.id (Tables.setPhase p)
    (Tables.updatedPhase p) (fun _ => rfl) fun _ => rfl
  rw [execution] at executionRow
  rw [phase] at phaseRow
  obtain ⟨inTables, inTables', inMemory, inMemory'⟩ := updates_amend e p
  refine ⟨?_, ?_, ?_, ?_⟩
  · obtain ⟨executions, only, amended⟩ := inTables (Tables.copyOf .lone) _ executionRow
    exact ⟨_, executions, executionRow, only, amended⟩
  · obtain ⟨phases, only, amended⟩ := inTables' (Tables.copyOf .lone) _ phaseRow
    exact ⟨_, phases, phaseRow, only, amended⟩
  · obtain ⟨stored, executions, held, only, _, agrees⟩ := inMemory .lone _ rfl
    cases held
    exact ⟨_, executions, rfl, only, agrees.not.mpr (by decide)⟩
  · obtain ⟨stored, phases, held, only, _, agrees⟩ := inMemory' .lone _ rfl
    cases held
    exact ⟨_, phases, rfl, only, agrees.not.mpr (by decide)⟩

end Harvest

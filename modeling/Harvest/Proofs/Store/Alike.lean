import Harvest.Proofs.Store.Amended

/-! Stores in memory and in tables answer alike. Each call that may be made leads from a store and
its copy to a store and its copy, with like answers; so do the calls of a whole session, from the
empty stores on.
-/

namespace Harvest

-----------------------------------------------------------------------------------------
-- Answers
-----------------------------------------------------------------------------------------

/-- The reasons are of one kind; stores may word them in their own ways. -/
def StoreError.SameKind : StoreError → StoreError → Prop
  | .notFound _, .notFound _ => True
  | .terminal _, .terminal _ => True
  | .conflict _, .conflict _ => True
  | .corrupt _, .corrupt _ => True
  | .database _, .database _ => True
  | _, _ => False

/-- Both answers give equal results, or both refuse for reasons of one kind. -/
def Alike {α : Type} : Except StoreError α → Except StoreError α → Prop
  | .ok one, .ok two => one = two
  | .error one, .error two => one.SameKind two
  | _, _ => False

/-- Calls that are made of two stores one after another are answered alike. -/
def AnswerAlike {σ τ : Type} [Store σ] [Store τ] : List StoreCall → σ → τ → Prop
  | [], _, _ => True
  | call :: rest, one, two =>
      Alike (Store.answer call one).1 (Store.answer call two).1
      ∧ AnswerAlike rest (Store.answer call one).2 (Store.answer call two).2

-----------------------------------------------------------------------------------------
-- Calls that may be made
-----------------------------------------------------------------------------------------

/-- The call may be made of a store: what it creates is new and refers to what is there, what it
updates agrees with what is there in all that no update is for, and what it writes fits a row.
-/
def StoreCall.IsAdmitted (m : Memory) : StoreCall → Prop
  | .createWorkflow w => w.IsProper ∧ m.workflow? w.id = none
  | .recordLastRunStart _ _ _ time => time.IsProper
  | .recordLastRunStatus w _ _ => (m.workflow? w).isSome
  | .createExecution e phases =>
      e.IsProper
      ∧ m.execution? e.id = none
      ∧ (m.workflow? e.workflowId).isSome
      ∧ (∀ p ∈ phases, p.IsProper ∧ p.executionId = e.id ∧ m.phase? p.id = none)
      ∧ (phases.map PhaseRecord.id).Nodup
  | .updateExecution e => e.IsProper ∧ ∀ stored ∈ m.execution? e.id, e.fixed = stored.fixed
  | .updatePhase p => p.IsProper ∧ ∀ stored ∈ m.phase? p.id, p.fixed = stored.fixed
  | .appendLogs p entries => (m.phase? p).isSome ∧ ∀ entry ∈ entries, entry.IsProper
  | _ => True

/-- The calls may be made of a store one after another. -/
def StoreCall.AreAdmitted : List StoreCall → Memory → Prop
  | [], _ => True
  | call :: rest, m => call.IsAdmitted m ∧ AreAdmitted rest (Memory.answer call m).2

-----------------------------------------------------------------------------------------
-- Proper stores
-----------------------------------------------------------------------------------------

namespace Memory

/-- A store that tables can copy without loss. -/
structure IsProper (m : Memory) : Prop where
  distinct : (m.workflows.map Workflow.id).Nodup
  sound : m.Sound
  workflows : ∀ w ∈ m.workflows, w.IsProper
  executions : ∀ e ∈ m.executions, e.IsProper
  phases : ∀ p ∈ m.phases, p.IsProper
  logs : ∀ log ∈ m.logs, log.2.IsProper

variable {m : Memory}

/-- What holds of a record that is put in and of all others holds of all, by induction over them. -/
theorem forall_insert {α : Type} {key : α → Uuid} {holds : α → Prop} {record : α} {records : List α}
    (here : holds record) (there : ∀ other ∈ records, holds other)
    : ∀ other ∈ insert key record records, holds other := by
  induction records with
  | nil => simpa [insert] using here
  | cons first rest ih =>
      have others := fun other member => there other (List.mem_cons_of_mem _ member)
      rw [insert]
      split
      · exact List.forall_mem_cons.mpr ⟨here, others⟩
      · exact List.forall_mem_cons.mpr ⟨there first List.mem_cons_self, ih others⟩

namespace IsProper

theorem putWorkflow (proper : m.IsProper) {w : Workflow} (fits : w.IsProper)
    : (m.putWorkflow w).IsProper :=
  { proper with
    distinct := nodup_insert proper.distinct w
    sound := ⟨proper.sound.executions, proper.sound.phases⟩
    workflows := forall_insert fits proper.workflows }

theorem putExecution (proper : m.IsProper) {e : Execution} (fits : e.IsProper)
    : (m.putExecution e).IsProper :=
  { proper with
    sound := ⟨nodup_insert proper.sound.executions e, proper.sound.phases⟩
    executions := forall_insert fits proper.executions }

theorem putPhase (proper : m.IsProper) {p : PhaseRecord} (fits : p.IsProper)
    : (m.putPhase p).IsProper :=
  { proper with
    sound := ⟨proper.sound.executions, nodup_insert proper.sound.phases p⟩
    phases := forall_insert fits proper.phases }

theorem putPhases (proper : m.IsProper) {phases : List PhaseRecord}
    (fits : ∀ p ∈ phases, p.IsProper)
    : (phases.foldl Memory.putPhase m).IsProper := by
  induction phases generalizing m with
  | nil => exact proper
  | cons first rest ih =>
      exact ih (proper.putPhase (fits first List.mem_cons_self)) fun p member =>
        fits p (List.mem_cons_of_mem _ member)

theorem workflow? (proper : m.IsProper) {id : Uuid} {w : Workflow} (held : m.workflow? id = some w)
    : w.IsProper :=
  proper.workflows w (List.mem_of_find?_eq_some held)

theorem execution? (proper : m.IsProper) {id : Uuid} {e : Execution}
    (held : m.execution? id = some e)
    : e.IsProper :=
  proper.executions e (List.mem_of_find?_eq_some held)

theorem phase? (proper : m.IsProper) {id : Uuid} {p : PhaseRecord} (held : m.phase? id = some p)
    : p.IsProper :=
  proper.phases p (List.mem_of_find?_eq_some held)

/-- A store stays proper when a call is made that may be made, by cases on the call. -/
theorem answer (proper : m.IsProper) {call : StoreCall} (admitted : call.IsAdmitted m)
    : (Memory.answer call m).2.IsProper := by
  cases call with
  | createWorkflow w => exact proper.putWorkflow admitted.1
  | recordLastRunStart w e status time =>
      simp only [Memory.answer, recordLastRunStart]
      split
      · exact proper
      · next held =>
          refine proper.putWorkflow ⟨(proper.workflow? held).createdAt, fun _ member => ?_⟩
          cases member
          exact admitted
  | recordLastRunStatus w e status =>
      simp only [Memory.answer, recordLastRunStatus]
      split
      · exact proper
      · next held =>
          have stored := proper.workflow? held
          split
          · exact proper.putWorkflow ⟨stored.createdAt, stored.lastRunAt⟩
          · exact proper
  | createExecution e phases =>
      exact (proper.putExecution admitted.1).putPhases fun p member =>
        (admitted.2.2.2.1 p member).1
  | updateExecution e =>
      obtain ⟨fits, _⟩ := admitted
      simp only [Memory.answer, updateExecution]
      split
      · exact proper
      · split
        · exact proper
        · exact proper.putExecution ⟨fits.createdAt, fits.startedAt, fits.completedAt, fits.credits⟩
  | requestStop id =>
      simp only [Memory.answer, requestStop]
      split
      · exact proper
      · next held =>
          have fits := proper.execution? held
          split
          · exact proper
          · exact proper.putExecution
              ⟨fits.createdAt, fits.startedAt, fits.completedAt, fits.credits⟩
  | updatePhase p =>
      simp only [Memory.answer, updatePhase]
      split
      · exact proper
      · split
        · exact proper
        · exact proper.putPhase admitted.1
  | setPhaseStatuses id source target =>
      refine { proper with sound := ⟨proper.sound.executions, ?_⟩, phases := ?_ }
      · change ((m.phases.map (moved id source target)).map PhaseRecord.id).Nodup
        rw [List.map_map]
        simpa only [Function.comp_def, moved_id] using proper.sound.phases
      · intro p member
        obtain ⟨old, stored, rfl⟩ := List.mem_map.mp member
        have fits := proper.phases old stored
        split
        · exact ⟨fits.number, fits.position, fits.startedAt, fits.completedAt, fits.credits⟩
        · exact fits
  | appendLogs id entries =>
      simp only [Memory.answer]
      split
      · refine { proper with sound := ⟨proper.sound.executions, proper.sound.phases⟩, logs := ?_ }
        refine List.forall_mem_append.mpr ⟨proper.logs, fun log member => ?_⟩
        obtain ⟨entry, added, rfl⟩ := List.mem_map.mp member
        exact admitted.2 entry added
      · exact proper
  | _ => exact proper

end IsProper

end Memory

-----------------------------------------------------------------------------------------
-- One call
-----------------------------------------------------------------------------------------

/-- A store in memory and tables gave like answers, and the tables are its copy again. -/
structure InStep {α : Type} (one : Except StoreError α × Memory)
    (two : Except StoreError α × Tables)
    : Prop where
  alike : Alike one.1 two.1
  copied : two.2 = Tables.copyOf one.2

/-- What is granted to both with one result leaves them in step. -/
theorem InStep.of_granted {α : Type} {result : α} {m : Memory}
    {two : Except StoreError α × Tables} (granted : two = (.ok result, Tables.copyOf m))
    : InStep (.ok result, m) two :=
  granted ▸ ⟨rfl, rfl⟩

/-- What is refused to both for reasons of one kind leaves them in step. -/
theorem InStep.of_refused {α : Type} {one two : StoreError} {m : Memory}
    {answer : Except StoreError α × Tables} (refused : answer = (.error two, Tables.copyOf m))
    (kind : one.SameKind two)
    : InStep (.error one, m) answer :=
  refused ▸ ⟨kind, rfl⟩

namespace Tables

variable {m : Memory}

/-- A record that is read from its row is found alike. -/
theorem alike_readOne {ρ α : Type} {row : α → ρ} {read : ρ → RowRead α} {found : Option α}
    (reads : ∀ record ∈ found, read (row record) = .ok record) (refusal : StoreError)
    (kind : refusal.SameKind refusal)
    : Alike (found.elim (throw refusal) pure) (readOne (found.map row) read refusal) := by
  cases found with
  | none => exact kind
  | some record =>
      rw [Option.map_some, readOne, reads record rfl]
      rfl

theorem inStep_createWorkflow {w : Workflow} (fresh : m.workflow? w.id = none)
    : InStep (Memory.answer (.createWorkflow w) m) (Tables.answer (.createWorkflow w) (copyOf m)) :=
  .of_granted (congrArg (copyOf m).atomically (insertWorkflow_copyOf fresh))

theorem inStep_recordLastRunStart (proper : m.IsProper) (w e : Uuid) (status : ExecutionStatus)
    (time : Time.Instant)
    : InStep (Memory.answer (.recordLastRunStart w e status time) m)
        (Tables.answer (.recordLastRunStart w e status time) (copyOf m)) := by
  simp only [Memory.answer, Memory.recordLastRunStart]
  split
  · next absent =>
      refine .of_refused (changeWorkflow_copyOf_of_not (fun other member touched => ?_) _ _) trivial
      have same : other.id = w := Uuid.text_injective (beq_iff_eq.mp touched)
      exact List.find?_eq_none.mp absent other member (beq_iff_eq.mpr same)
  · next stored held =>
      have named : stored.id = w := Memory.key_of_find? held
      refine .of_granted (changeWorkflow_copyOf proper.distinct held ?_ (fun other touched => ?_) ?_
        ?_ _)
      · rfl
      · exact Uuid.text_injective (beq_iff_eq.mp touched)
      · exact beq_iff_eq.mpr (congrArg Uuid.text named)
      · rfl

/-- Where the workflow is there, both stores refuse when it has run again since. -/
theorem inStep_recordLastRunStatus (proper : m.IsProper) {w : Uuid}
    (there : (m.workflow? w).isSome) (e : Uuid) (status : ExecutionStatus)
    : InStep (Memory.answer (.recordLastRunStatus w e status) m)
        (Tables.answer (.recordLastRunStatus w e status) (copyOf m)) := by
  obtain ⟨stored, held⟩ := Option.isSome_iff_exists.mp there
  have named : stored.id = w := Memory.key_of_find? held
  have among : stored ∈ m.workflows := List.mem_of_find?_eq_some held
  have touches (other : Workflow)
      : ((WorkflowRow.ofRecord other).id == w.text
          && (WorkflowRow.ofRecord other).lastRunId == some e.text)
        ↔ other.id = w ∧ other.lastRunId = some e := by
    rw [Bool.and_eq_true, beq_iff_eq, beq_iff_eq]
    refine and_congr ⟨Uuid.text_injective, congrArg Uuid.text⟩ ?_
    change other.lastRunId.map Uuid.text = (some e).map Uuid.text ↔ _
    exact (Option.map_injective fun _ _ => Uuid.text_injective).eq_iff
  simp only [Memory.answer, Memory.recordLastRunStatus, held]
  split
  · next current =>
      refine .of_granted (changeWorkflow_copyOf proper.distinct held ?_ (fun other touched => ?_) ?_
        ?_ _)
      · rfl
      · exact ((touches other).mp touched).1
      · exact (touches stored).mpr ⟨named, beq_iff_eq.mp current⟩
      · rfl
  · next superseded =>
      refine .of_refused (changeWorkflow_copyOf_of_not (fun other member touched => ?_) _ _) trivial
      obtain ⟨same, current⟩ := (touches other).mp touched
      obtain rfl := List.inj_on_of_nodup_map proper.distinct member among (same.trans named.symm)
      exact superseded (beq_iff_eq.mpr current)

theorem inStep_createExecution {e : Execution} {phases : List PhaseRecord}
    (fresh : m.execution? e.id = none) (owner : (m.workflow? e.workflowId).isSome)
    (fresh' : ∀ p ∈ phases, p.executionId = e.id ∧ m.phase? p.id = none)
    (distinct : (phases.map PhaseRecord.id).Nodup)
    : InStep (Memory.answer (.createExecution e phases) m)
        (Tables.answer (.createExecution e phases) (copyOf m)) := by
  have created : ((m.putExecution e).execution? e.id).isSome := by
    rw [show (m.putExecution e).execution? e.id = some e from Memory.find?_insert_self _ e _]
    rfl
  have added := insertPhases_copyOf (m := m.putExecution e) created fresh' distinct
  refine .of_granted ?_
  change (copyOf m).atomically ((copyOf m).insertExecution (.ofRecord e) >>= _) = _
  rw [insertExecution_copyOf fresh owner]
  exact congrArg (copyOf m).atomically added

/-- A change of an execution is made of both stores or refused by both. -/
theorem inStep_changeExecution (proper : m.IsProper) {id : Uuid} {given : Execution → Execution}
    (change : ExecutionRow → ExecutionRow) (made : Execution → Execution)
    (fits : ∀ execution, change (.ofRecord execution) = .ofRecord (made execution))
    (keeps : ∀ execution, (made execution).id = execution.id)
    (same : ∀ stored, m.execution? id = some stored → given stored = made stored)
    : InStep
        (match m.execution? id with
          | none => (throw (.noExecution id), m)
          | some stored =>
              if stored.status.isTerminal then (throw (.terminal id.text), m)
              else (return (), m.putExecution (given stored)))
        ((copyOf m).changeExecution id change) := by
  rw [changeExecution_copyOf proper.sound id change made fits keeps]
  cases held : m.execution? id with
  | none => exact .of_refused rfl trivial
  | some stored =>
      dsimp only
      rw [same stored held]
      cases stored.status.isTerminal with
      | true => exact .of_refused rfl trivial
      | false => exact .of_granted rfl

theorem inStep_updateExecution (proper : m.IsProper) {e : Execution}
    (agrees : ∀ stored ∈ m.execution? e.id, e.fixed = stored.fixed)
    : InStep (Memory.answer (.updateExecution e) m)
        (Tables.answer (.updateExecution e) (copyOf m)) := by
  refine inStep_changeExecution proper (setExecution e) (updated e) (setExecution_ofRecord e)
    (fun _ => rfl) fun stored held => ?_
  have fixed := agrees stored held
  have named : stored.id = e.id := Memory.key_of_find? held
  simp only [Execution.fixed, Prod.mk.injEq] at fixed
  simp [updated, fixed, named]

theorem inStep_requestStop (proper : m.IsProper) (id : Uuid)
    : InStep (Memory.answer (.requestStop id) m) (Tables.answer (.requestStop id) (copyOf m)) :=
  inStep_changeExecution proper _ (fun stored => { stored with stopRequested := true })
    (fun _ => rfl) (fun _ => rfl) fun _ _ => rfl

theorem inStep_updatePhase (proper : m.IsProper) {p : PhaseRecord}
    (agrees : ∀ stored ∈ m.phase? p.id, p.fixed = stored.fixed)
    : InStep (Memory.answer (.updatePhase p) m) (Tables.answer (.updatePhase p) (copyOf m)) := by
  change InStep (m.updatePhase p) ((copyOf m).changePhase p.id (setPhase p))
  rw [changePhase_copyOf proper.sound p.id (setPhase p) (updatedPhase p) (fun _ => rfl)
    fun _ => rfl, Memory.updatePhase]
  cases held : m.phase? p.id with
  | none => exact .of_refused rfl trivial
  | some stored =>
      have made : updatedPhase p stored = p := by
        have fixed := agrees stored held
        have named : stored.id = p.id := Memory.key_of_find? held
        simp only [PhaseRecord.fixed, Prod.mk.injEq] at fixed
        simp [updatedPhase, ← fixed, named]
      dsimp only
      rw [made]
      cases stored.status.isTerminal with
      | true => exact .of_refused rfl trivial
      | false => exact .of_granted rfl

theorem inStep_setPhaseStatuses (m : Memory) (id : Uuid) (source target : PhaseStatus)
    : InStep (Memory.answer (.setPhaseStatuses id source target) m)
        (Tables.answer (.setPhaseStatuses id source target) (copyOf m)) where
  alike := by
    change m.phases.countP _ = (m.phases.map PhaseRow.ofRecord).countP _
    rw [List.countP_map]
    exact List.countP_congr fun p _ => by rw [Function.comp_apply, inStatus_ofRecord]
  copied := congrArg (fun phases => { copyOf m with phases })
    (replaceWhere_inStatus id source target m.phases)

theorem inStep_appendLogs {id : Uuid} (there : (m.phase? id).isSome) (entries : List LogEntry)
    : InStep (Memory.answer (.appendLogs id entries) m)
        (Tables.answer (.appendLogs id entries) (copyOf m)) := by
  simp only [Memory.answer, there, if_true]
  exact .of_granted (congrArg (copyOf m).atomically (insertLogs_copyOf there entries))

/-- Executions and phases are listed alike, for their rows are picked and sorted as they are. -/
theorem inStep_listExecutions (proper : m.IsProper) (w : Uuid)
    : InStep (Memory.answer (.listExecutions w) m)
        (Tables.answer (.listExecutions w) (copyOf m)) := by
  refine .of_granted (congrArg (·, copyOf m) (listed (fun e => ?_) ?_ ?_))
  · exact text_beq e.workflowId w
  · exact fun one here two there =>
      (proper.executions one here).latestUpTo (proper.executions two there)
  · exact fun e member => (proper.executions e member).record

theorem inStep_listByStatus (proper : m.IsProper) (status : ExecutionStatus)
    : InStep (Memory.answer (.listByStatus status) m)
        (Tables.answer (.listByStatus status) (copyOf m)) := by
  refine .of_granted (congrArg (·, copyOf m) (listed (fun e => ?_) ?_ ?_))
  · exact e.status.name_beq status
  · exact fun one here two there => (proper.executions one here).upTo (proper.executions two there)
  · exact fun e member => (proper.executions e member).record

theorem inStep_listPhases (proper : m.IsProper) (id : Uuid)
    : InStep (Memory.answer (.listPhases id) m) (Tables.answer (.listPhases id) (copyOf m)) := by
  refine .of_granted (congrArg (·, copyOf m) (listed (fun p => ?_) ?_ ?_))
  · exact text_beq p.executionId id
  · exact fun one _ two _ => PhaseRow.upTo_ofRecord one two
  · exact fun p member => (proper.phases p member).record

/-- Each call that may be made is answered alike, and leaves a copy, by cases on the call. -/
theorem inStep_answer (proper : m.IsProper) {call : StoreCall} (admitted : call.IsAdmitted m)
    : InStep (Memory.answer call m) (Tables.answer call (copyOf m)) := by
  cases call with
  | createWorkflow w => exact inStep_createWorkflow admitted.2
  | getWorkflow id =>
      refine ⟨?_, rfl⟩
      change Alike _ (readOne ((copyOf m).workflows.find? _) _ _)
      rw [workflow?_copyOf]
      exact alike_readOne (fun w held => (proper.workflow? held).record) _ trivial
  | recordLastRunStart w e status time => exact inStep_recordLastRunStart proper w e status time
  | recordLastRunStatus w e status => exact inStep_recordLastRunStatus proper admitted e status
  | createExecution e phases =>
      obtain ⟨_, fresh, owner, each, distinct⟩ := admitted
      exact inStep_createExecution fresh owner (fun p member => (each p member).2) distinct
  | getExecution id =>
      refine ⟨?_, rfl⟩
      change Alike _ (readOne ((copyOf m).executions.find? _) _ _)
      rw [(mirrors_copyOf proper.sound).execution?]
      exact alike_readOne (fun e held => (proper.execution? held).record) _ trivial
  | updateExecution e => exact inStep_updateExecution proper admitted.2
  | listExecutions w => exact inStep_listExecutions proper w
  | listByStatus status => exact inStep_listByStatus proper status
  | requestStop id => exact inStep_requestStop proper id
  | listPhases id => exact inStep_listPhases proper id
  | getPhase id =>
      refine ⟨?_, rfl⟩
      change Alike _ (readOne ((copyOf m).phases.find? _) _ _)
      rw [(mirrors_copyOf proper.sound).phase?]
      exact alike_readOne (fun p held => (proper.phase? held).record) _ trivial
  | updatePhase p => exact inStep_updatePhase proper admitted.2
  | setPhaseStatuses id source target => exact inStep_setPhaseStatuses m id source target
  | appendLogs id entries => exact inStep_appendLogs admitted.1 entries
  | listLogs id => exact .of_granted (congrArg (·, copyOf m) (logsOf_copyOf proper.logs id))

end Tables

-----------------------------------------------------------------------------------------
-- Whole sessions
-----------------------------------------------------------------------------------------

theorem Memory.isProper_empty : empty.IsProper := by
  constructor <;> first | exact ⟨.nil, .nil⟩ | simp [empty]

/-- A store and its copy answer alike from any proper store on, by induction over the calls. -/
theorem answerAlike_copyOf {m : Memory} (proper : m.IsProper) {calls : List StoreCall}
    (admitted : StoreCall.AreAdmitted calls m)
    : AnswerAlike calls m (Tables.copyOf m) := by
  induction calls generalizing m with
  | nil => trivial
  | cons call rest ih =>
      obtain ⟨here, there⟩ := admitted
      obtain ⟨alike, copied⟩ := Tables.inStep_answer proper here
      refine ⟨alike, ?_⟩
      rw [show (Store.answer call (Tables.copyOf m)).2 = _ from copied]
      exact ih (proper.answer here) there

/-- Stores in memory and in tables serve alike: of any calls that may be made one after another,
from the empty stores on, each is answered with the same result, or refused for reasons of one kind.
-/
theorem stores_answer_alike {calls : List StoreCall}
    (admitted : StoreCall.AreAdmitted calls .empty)
    : AnswerAlike calls Memory.empty Tables.empty :=
  answerAlike_copyOf Memory.isProper_empty admitted

/-- One workflow, one execution of it that is completed and then updated once more, and a log. -/
def loneSession : List StoreCall :=
  let execution : Execution := .fresh (.ofNat 2) (.ofNat 1) ⟨0, 0, 0⟩ "user" ""
  let phase : PhaseRecord := .fresh (.ofNat 3) (.ofNat 2) 1 0 "Launch" .launchBrowser ""
  [.createWorkflow (.fresh (.ofNat 1) ⟨0, 0, 0⟩ "user" "lone" ""),
    .createExecution execution [phase],
    .recordLastRunStart (.ofNat 1) (.ofNat 2) .pending ⟨0, 0, 1⟩,
    .appendLogs (.ofNat 3) [⟨.info, "late", ⟨0, 1, 0⟩⟩, ⟨.error, "early", ⟨0, 0, 500000000⟩⟩],
    .updatePhase { phase with status := .completed, completedAt := some ⟨0, 86399, 1500000000⟩ },
    .updateExecution { execution with status := .completed, credits := 5 },
    .updateExecution { execution with status := .running },
    .recordLastRunStatus (.ofNat 1) (.ofNat 4) .failed,
    .listExecutions (.ofNat 1),
    .listLogs (.ofNat 3)]

/-- Its calls may be made, and both stores answer them alike. -/
theorem stores_answer_alike_lone
    : StoreCall.AreAdmitted loneSession .empty
      ∧ AnswerAlike loneSession Memory.empty Tables.empty := by
  have admitted : StoreCall.AreAdmitted loneSession .empty := by
    have started : (⟨0, 0, 1⟩ : Time.Instant).IsProper := by decide +kernel
    refine ⟨⟨by decide +kernel, rfl⟩, ⟨by decide +kernel, rfl, rfl, ?_, by decide⟩, started,
      ⟨rfl, by decide +kernel⟩, ⟨by decide +kernel, ?_⟩, ⟨by decide +kernel, ?_⟩,
      ⟨by decide +kernel, ?_⟩, rfl, trivial, trivial, trivial⟩
    · intro p member
      rw [List.mem_singleton.mp member]
      exact ⟨by decide +kernel, rfl, rfl⟩
    all_goals
      intro stored held
      cases held
      rfl
  exact ⟨admitted, stores_answer_alike admitted⟩

end Harvest

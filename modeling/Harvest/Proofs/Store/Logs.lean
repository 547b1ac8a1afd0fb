import Harvest.Proofs.Store.Copy

/-! The logs of phases. Whatever else a store is asked, the log of a phase holds the entries of all
batches that were added to it, in the order of their times; entries of one time stay in the order in
which they were added. Stores in memory and in tables both keep them so.
-/

namespace Harvest

open Time

-----------------------------------------------------------------------------------------
-- What is added to logs
-----------------------------------------------------------------------------------------

/-- The entries that a call adds to logs if it is granted, with their phases. -/
def StoreCall.logged : (call : StoreCall) → call.Answer → List (Uuid × LogEntry)
  | .appendLogs phase entries, .ok _ => entries.map fun entry => (phase, entry)
  | _, _ => []

namespace Store

variable {σ : Type} [Store σ]

/-- The store after calls that are made one after another. -/
def after : List StoreCall → σ → σ
  | [], store => store
  | call :: rest, store => after rest (answer call store).2

/-- The entries that calls add to logs one after another, with their phases. -/
def journal : List StoreCall → σ → List (Uuid × LogEntry)
  | [], _ => []
  | call :: rest, store => call.logged (answer call store).1 ++ journal rest (answer call store).2

end Store

/-- The times of all entries that the calls would add have texts. -/
def StoreCall.LogProperly (calls : List StoreCall) : Prop :=
  ∀ phase entries, .appendLogs phase entries ∈ calls → ∀ entry ∈ entries, entry.IsProper

/-- What calls add is as proper as they are, by induction over them. -/
theorem Store.journal_isProper {σ : Type} [Store σ] {calls : List StoreCall}
    (proper : StoreCall.LogProperly calls) (store : σ)
    : ∀ log ∈ journal calls store, log.2.IsProper := by
  induction calls generalizing store with
  | nil => nofun
  | cons call rest ih =>
      have later : StoreCall.LogProperly rest := fun phase entries member =>
        proper phase entries (List.mem_cons_of_mem _ member)
      intro log member
      rcases List.mem_append.mp member with here | there
      · generalize (answer call store).1 = result at here
        unfold StoreCall.logged at here
        split at here
        · next phase entries _ =>
            obtain ⟨entry, among, rfl⟩ := List.mem_map.mp here
            exact proper phase entries List.mem_cons_self entry among
        · cases here
      · exact ih later _ log there

-----------------------------------------------------------------------------------------
-- Logs in order
-----------------------------------------------------------------------------------------

/-- The log lists the entries in the order of their times, and those of one time as they came. -/
structure LogOf (entries log : List LogEntry) : Prop where
  same : log.Perm entries
  rising : log.Pairwise fun one two => one.timestamp.upTo two.timestamp
  stable
    : ∀ time, log.filter (·.timestamp == time) = entries.filter (·.timestamp == time)

/-- Sorting entries by time makes their log. -/
theorem logOf_mergeSort (entries : List LogEntry)
    : LogOf entries (entries.mergeSort fun a b => a.timestamp.upTo b.timestamp) := by
  have trans (a b c : LogEntry) (first : a.timestamp.upTo b.timestamp)
      (second : b.timestamp.upTo c.timestamp)
      : a.timestamp.upTo c.timestamp :=
    Instant.upTo_trans first second
  have total (a b : LogEntry)
      : a.timestamp.upTo b.timestamp || b.timestamp.upTo a.timestamp :=
    Instant.upTo_total _ _
  have perm := List.mergeSort_perm entries fun a b => a.timestamp.upTo b.timestamp
  refine ⟨perm, List.pairwise_mergeSort trans total entries, fun time => ?_⟩
  -- Entries of one time are in order as they came, and so they are a part of the sorted list.
  have level : (entries.filter (·.timestamp == time)).Pairwise
      fun one two => one.timestamp.upTo two.timestamp := by
    refine List.pairwise_of_forall_mem_list fun one here two there => ?_
    rw [beq_iff_eq.mp (List.mem_filter.mp here).2, beq_iff_eq.mp (List.mem_filter.mp there).2]
    simp [Instant.upTo, Instant.before_irrefl]
  have among := (List.sublist_mergeSort trans total level List.filter_sublist).filter
    (·.timestamp == time)
  rw [List.filter_filter] at among
  simp only [Bool.and_self] at among
  exact (among.eq_of_length (perm.filter _).length_eq.symm).symm

-----------------------------------------------------------------------------------------
-- What a store keeps
-----------------------------------------------------------------------------------------

/-- After the calls the store takes entries for every phase that it has, and it tells the log of
what was added for a phase.
-/
structure Store.KeepsLogs (σ : Type) [Store σ] (calls : List StoreCall) : Prop where
  taken
    : ∀ phase record entries,
        (answer (.getPhase phase) (after calls (empty : σ))).1 = .ok record
        → (answer (.appendLogs phase entries) (after calls (empty : σ))).1 = .ok ()
  told
    : ∀ phase, ∃ log,
        (answer (.listLogs phase) (after calls (empty : σ))).1 = .ok log
        ∧ LogOf (((journal calls (empty : σ)).filter (·.1 == phase)).map (·.2)) log

namespace Memory

/-- Putting phases in leaves the logs, by induction over the phases. -/
theorem logs_foldl_putPhase (m : Memory) (phases : List PhaseRecord)
    : (phases.foldl putPhase m).logs = m.logs := by
  induction phases generalizing m with
  | nil => rfl
  | cons first rest ih => exact ih _

/-- A call adds to the logs what it says, by cases on the call. -/
theorem logs_answer (call : StoreCall) (m : Memory)
    : (answer call m).2.logs = m.logs ++ call.logged (answer call m).1 := by
  cases call with
  | createExecution e phases =>
      exact (logs_foldl_putPhase _ phases).trans (List.append_nil _).symm
  | appendLogs phase entries =>
      rcases m.appendLogs_cases phase entries with ⟨reason, same⟩ | same <;> rw [same]
      · exact (List.append_nil _).symm
      · rfl
  | updateExecution _ | updatePhase _ | requestStop _ | recordLastRunStart _ _ _ _
  | recordLastRunStatus _ _ _ =>
      -- Each of them is refused or changes one record.
      refine Eq.trans ?_ (List.append_nil _).symm
      simp only [answer, updateExecution, updatePhase, requestStop, recordLastRunStart,
        recordLastRunStatus]
      repeat' split
      all_goals rfl
  | _ => exact (List.append_nil _).symm

/-- The logs hold all that calls added to them, by induction over the calls. -/
theorem logs_after (calls : List StoreCall) (m : Memory)
    : (Store.after calls m).logs = m.logs ++ Store.journal calls m := by
  induction calls generalizing m with
  | nil => exact (List.append_nil _).symm
  | cons call rest ih =>
      rw [Store.after, Store.journal, ih, ← List.append_assoc]
      exact congrArg (· ++ _) (logs_answer call m)

/-- Entries are taken for phases that are there. -/
theorem appendLogs_of_found {m : Memory} {phase : Uuid} {record : PhaseRecord}
    (found : (answer (.getPhase phase) m).1 = .ok record) (entries : List LogEntry)
    : (answer (.appendLogs phase entries) m).1 = .ok () := by
  have there : (m.phase? phase).isSome := by
    cases held : m.phase? phase with
    | none =>
        simp only [answer, held] at found
        cases found
    | some stored => rfl
  simp only [answer, there, if_true]
  rfl

/-- A store in memory keeps logs. -/
theorem keepsLogs (calls : List StoreCall) : Store.KeepsLogs Memory calls where
  taken phase record entries found := appendLogs_of_found found entries
  told phase := by
    refine ⟨_, rfl, ?_⟩
    have logs := logs_after calls Store.empty
    rw [show (Store.empty : Memory).logs = [] from rfl, List.nil_append] at logs
    rw [← logs]
    exact logOf_mergeSort _

end Memory

namespace Tables

variable {t later : Tables} {logs : List (Uuid × LogEntry)}

/-- Rows of phases that are added leave the logs, by induction over the phases. -/
theorem logs_insertPhases {phases : List PhaseRecord}
    (added : phases.foldlM (fun t p => t.insertPhase (.ofRecord p)) t = .ok later)
    : later.logs = t.logs := by
  induction phases generalizing t with
  | nil =>
      cases added
      rfl
  | cons first rest ih =>
      rw [List.foldlM_cons] at added
      obtain ⟨middle, here, added⟩ := bind_eq_ok.mp added
      refine (ih added).trans ?_
      unfold insertPhase at here
      split at here
      · cases here
      · split at here <;> cases here
        rfl

/-- As many numbers are taken as there are log entries. -/
theorem nextLog_eq (kept : t.logs = logRows logs) : t.nextLog = logs.length + 1 := by
  rw [nextLog, kept]
  exact nextLog_copyOf { Memory.empty with logs }

/-- Rows are added for the entries of a batch, by induction over the entries. -/
theorem logs_insertLogs (kept : t.logs = logRows logs) {phase : Uuid} {entries : List LogEntry}
    (added : entries.foldlM (insertLog phase.text) t = .ok later)
    : later.logs = logRows (logs ++ entries.map fun entry => (phase, entry)) := by
  induction entries generalizing t logs with
  | nil =>
      cases added
      simpa using kept
  | cons first rest ih =>
      rw [List.foldlM_cons] at added
      obtain ⟨middle, here, added⟩ := bind_eq_ok.mp added
      unfold insertLog at here
      split at here
      · cases here
      · cases here
        have numbered : t.logs ++ [.ofEntry t.nextLog phase first]
            = logRows (logs ++ [(phase, first)]) := by
          rw [logRows_append, kept, nextLog_eq kept]
        exact (ih numbered added).trans (by simp)

/-- The rows of logs stay those of what was added, by cases on the call. -/
theorem logs_answer (kept : t.logs = logRows logs) (call : StoreCall)
    : (answer call t).2.logs = logRows (logs ++ call.logged (answer call t).1) := by
  have unchanged : t.logs = logRows (logs ++ []) := by rw [List.append_nil, kept]
  cases call with
  | createWorkflow w =>
      rcases t.createWorkflow_cases w with ⟨reason, same⟩ | ⟨_, same⟩ <;> rw [same] <;>
        exact unchanged
  | createExecution e phases =>
      rcases t.atomically_cases _ with ⟨reason, same⟩ | ⟨later, added, same⟩
      · exact (congrArg (·.2.logs) same).trans unchanged
      · obtain ⟨middle, here, added⟩ := bind_eq_ok.mp added
        refine (congrArg (·.2.logs) same).trans ((logs_insertPhases added).trans ?_)
        unfold insertExecution at here
        split at here
        · cases here
        · split at here <;> cases here
          exact unchanged
  | appendLogs phase entries =>
      rcases t.atomically_cases (entries.foldlM (insertLog phase.text) t)
        with ⟨reason, same⟩ | ⟨later, added, same⟩
      · rw [show answer (.appendLogs phase entries) t = _ from same]
        exact unchanged
      · rw [show answer (.appendLogs phase entries) t = _ from same]
        exact logs_insertLogs kept added
  | updateExecution _ | updatePhase _ | requestStop _ | recordLastRunStart _ _ _ _
  | recordLastRunStatus _ _ _ =>
      -- Each of them is refused or changes rows of another table.
      refine Eq.trans ?_ unchanged
      simp only [answer, changeExecution, changePhase, changeWorkflow]
      split <;> rfl
  | _ => exact unchanged

/-- The logs hold rows of all that calls added to them, by induction over the calls. -/
theorem logs_after (kept : t.logs = logRows logs) (calls : List StoreCall)
    : (Store.after calls t).logs = logRows (logs ++ Store.journal calls t) := by
  induction calls generalizing t logs with
  | nil => simpa [Store.after, Store.journal] using kept
  | cons call rest ih =>
      rw [Store.after, Store.journal, ← List.append_assoc]
      exact ih (logs_answer kept call)

/-- Entries are taken for phases that are there, by induction over the entries. -/
theorem insertLogs_of_hasPhase {phase : String} (there : t.hasPhase phase)
    (entries : List LogEntry)
    : ∃ later, entries.foldlM (insertLog phase) t = .ok later := by
  induction entries generalizing t with
  | nil => exact ⟨t, rfl⟩
  | cons first rest ih =>
      simp only [List.foldlM_cons, insertLog, there]
      exact ih there

theorem appendLogs_of_found {phase : Uuid} {record : PhaseRecord}
    (found : (answer (.getPhase phase) t).1 = .ok record) (entries : List LogEntry)
    : (answer (.appendLogs phase entries) t).1 = .ok () := by
  have there : t.hasPhase phase.text := by
    simp only [answer, readOne] at found
    split at found
    · next row held =>
        have named : row.id == phase.text := by simpa using List.find?_some held
        exact List.any_eq_true.mpr ⟨row, List.mem_of_find?_eq_some held, named⟩
    · cases found
  obtain ⟨later, added⟩ := insertLogs_of_hasPhase there entries
  simp only [answer, added]
  rfl

/-- A store in tables keeps logs whose times have texts. -/
theorem keepsLogs {calls : List StoreCall} (proper : StoreCall.LogProperly calls)
    : Store.KeepsLogs Tables calls where
  taken phase record entries found := appendLogs_of_found found entries
  told phase := by
    have logs := @logs_after Store.empty [] rfl calls
    rw [List.nil_append] at logs
    have listed := logsOf_copyOf
      (m := { Memory.empty with logs := Store.journal calls (Store.empty : Tables) })
      (Store.journal_isProper proper _) phase
    refine ⟨_, ?_, logOf_mergeSort _⟩
    change ((((Store.after calls (Store.empty : Tables)).logs.filter _).mergeSort _).mapM _) = _
    rw [logs]
    exact listed

end Tables

/-- Both stores keep the logs of phases: after any calls, a phase that is there takes every batch,
and its log has the entries of all batches that were added to it, each once and no others, in the
order of their times, those of one time in the order in which they were added.
-/
theorem logs_kept {calls : List StoreCall} (proper : StoreCall.LogProperly calls)
    : Store.KeepsLogs Memory calls ∧ Store.KeepsLogs Tables calls :=
  ⟨Memory.keepsLogs calls, Tables.keepsLogs proper⟩

/-- Two phases with batches in turn, one of them late, and a batch for a phase that is not there. -/
def batches : List StoreCall :=
  let execution : Execution := .fresh (.ofNat 2) (.ofNat 1) ⟨0, 0, 0⟩ "user" ""
  let phase (id number : Nat) : PhaseRecord :=
    .fresh (.ofNat id) (.ofNat 2) number 0 "Launch" .launchBrowser ""
  [.createWorkflow (.fresh (.ofNat 1) ⟨0, 0, 0⟩ "user" "lone" ""),
    .createExecution execution [phase 3 1, phase 4 2],
    .appendLogs (.ofNat 3) [⟨.info, "second", ⟨0, 1, 0⟩⟩, ⟨.error, "third", ⟨0, 1, 500000000⟩⟩],
    .appendLogs (.ofNat 4) [⟨.info, "other", ⟨0, 1, 0⟩⟩],
    .appendLogs (.ofNat 5) [⟨.info, "lost", ⟨0, 1, 0⟩⟩],
    .appendLogs (.ofNat 3) [⟨.info, "fourth", ⟨0, 1, 500000000⟩⟩, ⟨.info, "first", ⟨0, 0, 7⟩⟩]]

/-- Both stores keep the logs; four entries were added for the first phase. -/
theorem logs_kept_batches
    : StoreCall.LogProperly batches
      ∧ Store.KeepsLogs Memory batches
      ∧ Store.KeepsLogs Tables batches
      ∧ ((Store.journal batches (Store.empty : Tables)).filter (·.1 == .ofNat 3)).map (·.2.message)
        = ["second", "third", "fourth", "first"] := by
  have proper : StoreCall.LogProperly batches := by
    intro phase entries member
    simp only [batches, List.mem_cons, reduceCtorEq, StoreCall.appendLogs.injEq, false_or,
      List.not_mem_nil, or_false] at member
    rcases member with ⟨-, rfl⟩ | ⟨-, rfl⟩ | ⟨-, rfl⟩ | ⟨-, rfl⟩ <;> decide +kernel
  exact ⟨proper, (logs_kept proper).1, (logs_kept proper).2, by decide +kernel⟩

end Harvest

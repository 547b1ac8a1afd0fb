import Harvest.Proofs.Run.Outcome

/-! Executions whose process stops. Wherever it stops once the execution is written, the phases
stand as a run can leave them: they had their turn in plan order, and one of them may be at work.
-/

namespace Harvest

-----------------------------------------------------------------------------------------
-- Statuses in plan order
-----------------------------------------------------------------------------------------

/-- The statuses are those of phases that had their turn in plan order: some were completed, at most
one failed after these, and the others wait alike.
-/
def InTurn (statuses : List PhaseStatus) : Prop :=
  ∃ completed failed others waits,
    statuses
      = List.replicate completed .completed
        ++ List.replicate failed .failed
        ++ List.replicate others waits
    ∧ failed ≤ 1
    ∧ (waits = .pending ∨ waits = .created)

theorem InTurn.not_running {statuses : List PhaseStatus} (inTurn : InTurn statuses)
    {status : PhaseStatus} (member : status ∈ statuses)
    : status ≠ .running := by
  obtain ⟨completed, failed, others, waits, rfl, _, waiting⟩ := inTurn
  simp only [List.mem_append, List.mem_replicate] at member
  rcases member with (⟨_, rfl⟩ | ⟨_, rfl⟩) | ⟨_, rfl⟩
  · decide
  · decide
  · rcases waiting with rfl | rfl <;> decide

/-- The roll of an execution once phases at work were failed, which is done of those that have not
finished only.
-/
def struck (status : ExecutionStatus) (roll : List Entry) : List Entry :=
  if status.isTerminal then roll else roll.map (Entry.moved .running .failed)

/-- A phase that is completed once those at work were failed is as it was. -/
theorem Entry.moved_of_completed {entry : Entry}
    (completed : (entry.moved .running .failed).status = .completed)
    : entry.moved .running .failed = entry := by
  refine if_neg fun running => ?_
  rw [moved, if_pos running] at completed
  cases completed

/-- Phases that are not at work stay as they are. -/
theorem map_moved_of_settled {roll : List Entry}
    (settled : ∀ entry ∈ roll, entry.status ≠ .running)
    : roll.map (Entry.moved .running .failed) = roll := by
  have same : ∀ entry ∈ roll, entry.moved .running .failed = entry :=
    fun entry member => if_neg (settled entry member)
  rw [List.map_congr_left same, List.map_id']

theorem struck_of_settled {roll : List Entry} (status : ExecutionStatus)
    (settled : ∀ entry ∈ roll, entry.status ≠ .running)
    : struck status roll = roll := by
  unfold struck
  split
  · rfl
  · exact map_moved_of_settled settled

-----------------------------------------------------------------------------------------
-- Where a run can be left
-----------------------------------------------------------------------------------------

namespace Run

open Realm

section

variable {charge : Charge} {flow : Flow} {plan : Plan} {turns : List Turn}
  {past : List (Happening runCalls)} {status : ExecutionStatus} {roll : List Entry}

/-- Phases are in turn when some were completed, at most one failed then and the others wait. -/
theorem inTurn_append (catalog : Catalog) (succeed : ∀ turn ∈ turns, turn.verdict.succeeds)
    (middle : List Entry) {rest : List Entry} {waits : PhaseStatus} (few : middle.length ≤ 1)
    (fail : ∀ entry ∈ middle, entry.status = .failed) (wait : ∀ entry ∈ rest, entry.status = waits)
    (waiting : waits = .pending ∨ waits = .created)
    : InTurn ((turns.map (Turn.entry catalog) ++ middle ++ rest).map Entry.status) := by
  have statuses {entries : List Entry} {status : PhaseStatus}
      (same : ∀ entry ∈ entries, entry.status = status)
      : entries.map Entry.status = List.replicate entries.length status :=
    List.eq_replicate_iff.mpr ⟨List.length_map _, List.forall_mem_map.mpr same⟩
  have completed : ∀ entry ∈ turns.map (Turn.entry catalog), entry.status = .completed := by
    intro entry member
    obtain ⟨turn, here, rfl⟩ := List.mem_map.mp member
    exact if_pos (succeed turn here)
  refine ⟨turns.length, middle.length, rest.length, waits, ?_, few, waiting⟩
  rw [List.map_append, List.map_append, statuses completed, statuses fail, statuses wait,
    List.length_map]

/-- The phases of a walk are in turn wherever it may end, by cases on how it ends. -/
theorem Went.inTurn {ending : Ending} {rest : List Entry} (went : Went ending turns rest)
    (catalog : Catalog) (wait : ∀ entry ∈ rest, entry.status = .pending)
    : InTurn ((turns.map (Turn.entry catalog) ++ rest).map Entry.status) := by
  cases went with
  | finished succeed =>
      have inTurn := inTurn_append catalog succeed [] (by simp) (List.forall_mem_nil _) wait
        (Or.inl rfl)
      simpa using inTurn
  | @failed turns turn _ succeed fails =>
      have fail : ∀ entry ∈ [turn.entry catalog], entry.status = .failed := by
        intro entry member
        rw [List.mem_singleton.mp member]
        exact if_neg (by simp [fails])
      have inTurn := inTurn_append catalog succeed [turn.entry catalog] (by simp) fail wait
        (Or.inl rfl)
      simpa using inTurn
  | stopped succeed =>
      have inTurn := inTurn_append catalog succeed [] (by simp) (List.forall_mem_nil _) wait
        (Or.inl rfl)
      simpa using inTurn

/-- Wherever the run of a new execution is left, its phases are in turn once those at work were
failed. A finished execution has none at work when the store kept how each phase ended.
-/
theorem Charge.Juncture.inTurn (juncture : charge.Juncture past status roll)
    (new : charge.IsNew flow plan) (created : ∀ entry ∈ charge.roll, entry.status = .created)
    (kept : ¬ Unended past)
    : InTurn ((struck status roll).map Entry.status) := by
  cases juncture with
  | found begun =>
      have settled : ∀ entry ∈ charge.roll, entry.status ≠ .running := by
        intro entry member
        simp [created entry member]
      have none : ∀ turn ∈ ([] : List Turn), turn.verdict.succeeds := List.forall_mem_nil _
      rw [struck_of_settled status settled]
      exact inTurn_append charge.catalog none [] (by simp) (List.forall_mem_nil _) created
        (Or.inr rfl)
  | @between ending turns rest _ order went begun =>
      have wait : ∀ entry ∈ rest, entry.status = .pending := fun entry member =>
        (new.waits entry (order ▸ List.mem_append_right _ member)).1
      have inTurn := went.inTurn charge.catalog wait
      have settled : ∀ entry ∈ turns.map (Turn.entry charge.catalog) ++ rest,
          entry.status ≠ .running :=
        fun entry member => inTurn.not_running (List.mem_map_of_mem member)
      rw [struck_of_settled status settled]
      exact inTurn
  | @within turns phase rest _ order succeed begun =>
      have running : status = .running := begun.resolve_right fun left => kept left.2
      have wait : ∀ entry ∈ rest, entry.status = .pending := fun entry member =>
        (new.waits entry (order ▸ List.mem_append_right _ (List.mem_cons_of_mem _ member))).1
      have fail : ∀ entry ∈ [{ phase with status := .failed }], entry.status = .failed :=
        List.forall_mem_singleton.mpr rfl
      have visited : ∀ entry ∈ turns.map (Turn.entry charge.catalog), entry.status ≠ .running := by
        intro entry member
        obtain ⟨turn, _, rfl⟩ := List.mem_map.mp member
        exact turn.settled_entry charge.catalog
      have behind : ∀ entry ∈ rest, entry.status ≠ .running := by
        intro entry member
        simp [wait entry member]
      have strikes : struck status (turns.map (Turn.entry charge.catalog) ++ atWork phase :: rest)
          = turns.map (Turn.entry charge.catalog)
            ++ [{ phase with status := .failed }]
            ++ rest := by
        subst running
        change List.map _ _ = _
        rw [List.map_append, List.map_cons, map_moved_of_settled visited,
          map_moved_of_settled behind, List.append_assoc]
        rfl
      rw [strikes]
      exact inTurn_append charge.catalog succeed _ (by simp) fail wait (Or.inl rfl)

end

section

variable {σ : Type} [Ledger σ] {mine : Uuid → Prop} {charge : Charge} {before later : Arena σ}

/-- A run leaves its books in order wherever it is left, by induction over its steps. -/
theorem orderly_of_reaches (ours : mine charge.execution) {α : Type} {program rest : RunM α}
    {wanted : α → Arena σ → Prop}
    (safe : (Arena.running mine).Safe charge.Proper wanted program before)
    (orderly : charge.Orderly before)
    (run : (Arena.running mine).Reaches (program, before) (rest, later))
    : charge.Orderly later := by
  refine safe.preserved charge.Orderly ?_ ?_ orderly run
  · exact fun drifts orderly => orderly.drift ours drifts
  · intro call here answer there replies proper orderly
    cases replies with
    | store => exact proper.2.2 orderly
    | fault => exact proper.2.2 orderly
    | fresh => exact proper.elim
    | _ => exact orderly.grows rfl rfl

/-- What was just made is in order. -/
theorem Charge.Suits.orderly (suits : charge.Suits before) {standing : Standing}
    (held : Books.standing? before.store charge.execution = some standing)
    : charge.Orderly before := by
  refine ⟨standing, held, ?_⟩
  rw [← suits.roll]
  exact .found (Or.inl (congrArg Standing.status (suits.standing standing held)))

end

end Run

-----------------------------------------------------------------------------------------
-- Where a process can stop
-----------------------------------------------------------------------------------------

namespace Service

open Realm Arena Run

variable {σ : Type} [Ledger σ] {mine : Uuid → Prop}

/-- A process has made an execution of a request and then stops, in the arena that is left: while it
goes on making the execution once this is written, or while it runs the execution.
-/
inductive Interrupted (mine : Uuid → Prop) (settings : RunSettings) (request : RunRequest)
    (execution : Execution) : Arena σ → Prop where
  | making {before dead : Arena σ} {phases : List PhaseRecord}
      {rest : ServiceM (Except TriggerError Execution)}
      (reached
        : (Arena.serving mine).Reaches
            (ExceptT.run (createExecution settings.catalog request), before.anew) (rest, dead))
      (written
        : (⟨.store (.createExecution execution phases), .ok ()⟩ : Happening runCalls) ∈ dead.past)
      : Interrupted mine settings request execution dead
  | running {before created dead : Arena σ} {token : Token}
      {rest : RunM (Except SetupError RunOutcome)}
      (made
        : (Arena.serving mine).Reaches
            (ExceptT.run (createExecution settings.catalog request), before)
            (.done (.ok execution), created))
      (reached
        : (Arena.running mine).Reaches (execute settings execution.id token, created.anew)
            (rest, dead))
      : Interrupted mine settings request execution dead

/-- What is left of an execution when its process stops. -/
theorem Interrupted.inTurn {settings : RunSettings} {request : RunRequest} {execution : Execution}
    {dead : Arena σ} (interrupted : Interrupted mine settings request execution dead)
    (kept : ¬ Unended dead.past)
    : mine execution.id
      ∧ ∃ standing,
          Books.standing? dead.store execution.id = some standing
          ∧ InTurn ((struck standing.status (Books.roll dead.store execution.id)).map
              Entry.status) := by
  cases interrupted with
  | @making before _ phases rest reached written =>
      have filed := files_of_reaches rfl reached execution phases written
      obtain ⟨charge, flow, plan, catalog, named, _, _, suits, new, created⟩ :=
        Charge.exists_charge filed ⟨0⟩
      obtain ⟨stop, held⟩ := filed.opened.standing
      rw [← named] at held
      obtain ⟨standing, held, juncture⟩ := suits.orderly held
      rw [named] at held juncture
      exact ⟨filed.ours, standing, held, juncture.inTurn new created kept⟩
  | @running before middle _ token rest made reached =>
      obtain ⟨phases, filed⟩ := filed_of_made made
      obtain ⟨charge, flow, plan, catalog, named, rfl, _, suits, new, created⟩ :=
        Charge.exists_charge filed.anew token
      obtain ⟨stop, held⟩ := filed.opened.standing
      have ours := filed.ours
      rw [← named] at held reached ours ⊢
      have safe := Charge.safe_execute ours catalog.symm suits
      obtain ⟨standing, held, juncture⟩ :=
        orderly_of_reaches ours safe (suits.orderly held) reached
      exact ⟨ours, standing, held, juncture.inTurn new created kept⟩

end Service

end Harvest

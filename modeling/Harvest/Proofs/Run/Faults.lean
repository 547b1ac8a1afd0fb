import Harvest.Proofs.Run.Credits
import Harvest.Proofs.Run.Outcome

/-! Runs whose store refuses a call. A run that has marked its execution finishes it on every way
out but one, and what it leaves of its phases and credits goes by the call that was refused.
-/

namespace Harvest

-----------------------------------------------------------------------------------------
-- Calls about phases
-----------------------------------------------------------------------------------------

/-- The call keeps how a phase ended. -/
def StoreCall.EndsPhase : StoreCall → Prop
  | .updatePhase record => record.status.isTerminal
  | _ => False

/-- The call is made when a phase has ended: its log is kept, or what was earned is recorded. -/
def StoreCall.FollowsPhase : StoreCall → Prop
  | .appendLogs _ _ => True
  | .updateExecution record => ¬ record.status.isTerminal
  | _ => False

namespace Run

open Realm

variable {σ : Type} [Ledger σ] {mine : Uuid → Prop} {execution : Uuid} {token : Token}

/-- The execution of one phase is marked as running, and the phase is not queued. -/
theorem Lone.unqueued {definition : String} {flow : Flow}
    (parsed : Flow.parse definition = .ok flow) (sound : Books.Sound (Lone.store definition))
    (past : List (Happening runCalls))
    : ∃ later record result,
        (Arena.running fun _ => True).Reaches
            (execute Lone.settings (Lone.execution definition).id ⟨0⟩,
              Arena.anew ⟨Lone.store definition, sound, .shut .empty, [.ofNat 3, .ofNat 2], past⟩)
            (.done result, later)
        ∧ Marks record ∈ later.past
        ∧ (∀ last reason,
            last.status.isTerminal
            → (⟨.store (.updateExecution last), .error reason⟩ : Happening runCalls) ∉ later.past)
        ∧ IsOpen (Lone.execution definition).id later.store := by
  let record : Execution := { Lone.execution definition with
    status := .running
    startedAt := some Lone.time }
  refine ⟨?later, record, ?result, ?run, ?marked, ?kept, ?runs⟩
  case run =>
    refine Program.reaches_bind (Lone.loaded parsed sound (.shut .empty) past) ?_
    refine .reply (.quiet .uptime trivial (0 : Nat) _) ?_
    refine .reply (.quiet (.task .now) trivial Lone.time _) ?_
    refine .reply (.granted (.updateExecution _) _ rfl) ?_
    refine .reply (.fault (.setPhaseStatuses (.ofNat 2) .created .pending)
      (.database .cannotOpen) _) ?_
    exact .refl
  case marked =>
    simp only [Arena.after, List.nil_append, List.cons_append]
    exact .tail _ (.tail _ (.tail _ (.tail _ (.head _))))
  case kept =>
    intro last reason terminal
    simp only [Arena.after, List.nil_append, List.cons_append, List.mem_cons,
      List.not_mem_nil, or_false, not_or]
    and_intros <;> rintro ⟨⟩
  case runs => exact ⟨_, rfl, Bool.false_ne_true⟩

/-- A run that has marked its execution and is over leaves it finished, unless the store refused to
keep its end, or to queue its phases: then the run is over at once and the execution runs on.
-/
theorem finished_unless_refused {settings : RunSettings} {before later : Arena σ}
    {record : Execution} {result : Except SetupError RunOutcome} (ours : mine execution)
    (run
      : (Arena.running mine).Reaches (execute settings execution token, before.anew)
          (.done result, later))
    (marked : Marks record ∈ later.past)
    : IsFinished execution later.store
      ∨ (∃ last reason,
          last.status.isTerminal
          ∧ (⟨.store (.updateExecution last), .error reason⟩ : Happening runCalls) ∈ later.past)
      ∨ ∃ reason standing,
          (⟨.store (.setPhaseStatuses execution .created .pending), .error reason⟩
            : Happening runCalls) ∈ later.past
          ∧ result = .error (.store reason)
          ∧ Books.standing? later.store execution = some standing
          ∧ standing.status = .running := by
  obtain ⟨charge, catalog, rfl, rfl, suits⟩ :=
    Charge.exists_suits settings.catalog execution token before.anew
  have safe := Charge.safe_execute ours catalog.symm suits
  have apart (unmarked : Unmarked [] later.past) : False := by
    obtain ⟨made, past, none⟩ := unmarked
    rw [past] at marked
    exact none record marked
  cases safe.ended run with
  | faulted _ falls =>
      cases falls with
      | unmarked _ unmarked => exact (apart unmarked).elim
      | unqueued same refused holds =>
          obtain ⟨stop, definition, held⟩ := holds.standing
          exact Or.inr (Or.inr ⟨_, _, refused, same, held, rfl⟩)
      | unsettled _ terminal refused => exact Or.inr (Or.inl ⟨_, _, terminal, refused⟩)
      | aborted _ _ _ _ _ failed _ holds =>
          obtain ⟨stop, definition, held⟩ := holds.standing
          exact Or.inl ⟨_, held, by rw [failed]; rfl⟩
  | refused _ _ _ _ _ _ unmarked => exact (apart unmarked).elim
  | concluded concluded =>
      obtain ⟨ending, turns, rest, credits, stop, millis, time, _, _, _, holds⟩ := concluded
      obtain ⟨stop', definition, held⟩ := holds.standing
      exact Or.inl ⟨_, held, ending.isTerminal_status⟩

/-- A run that cannot queue its only phase is over, and its execution is running still; no record of
an end was refused.
-/
theorem finished_unless_refused_unqueued
    : ∃ (before later : Arena Memory) (record : Execution) (result : Except SetupError RunOutcome),
        (Arena.running fun _ => True).Reaches
            (execute Lone.settings (Lone.execution Lone.flow.text).id ⟨0⟩, before.anew)
            (.done result, later)
        ∧ Marks record ∈ later.past
        ∧ (∀ last reason,
            last.status.isTerminal
            → (⟨.store (.updateExecution last), .error reason⟩ : Happening runCalls) ∉ later.past)
        ∧ ∃ standing,
            Books.standing? later.store (Lone.execution Lone.flow.text).id = some standing
            ∧ standing.status = .running := by
  obtain ⟨sound, past, _⟩ := Lone.opened
  obtain ⟨flow, parsed, _⟩ := Service.planned_of_planOf Lone.planned
  obtain ⟨later, record, result, run, marked, kept, runs⟩ := Lone.unqueued parsed sound past
  refine ⟨_, later, record, result, run, marked, kept, ?_⟩
  rcases finished_unless_refused trivial run marked
    with ended | ⟨last, reason, ended, refused⟩ | left
  · exact absurd runs ended.not_open
  · exact absurd refused (kept last reason ended)
  · obtain ⟨_, standing, _, _, held, running⟩ := left
    exact ⟨standing, held, running⟩

-----------------------------------------------------------------------------------------
-- What an abort leaves
-----------------------------------------------------------------------------------------

namespace Charge

variable {charge : Charge} {flow : Flow} {plan : Plan} {turns : List Turn} {waits roll : List Entry}
  {call : StoreCall} {store : σ} {standing : Standing}

/-- No phase is at work where the loop lost its store, unless at the call that keeps how a phase
ended.
-/
theorem IsNew.settled_of_severs (new : charge.IsNew flow plan)
    (order : charge.queue = turns.map Turn.phase ++ waits)
    (severs : charge.Severs (turns.map (Turn.entry charge.catalog)) call waits roll)
    (other : ¬ call.EndsPhase)
    : ∀ entry ∈ roll, entry.status ≠ .running := by
  have visited (turn : Turn) : (turn.entry charge.catalog).status ≠ .running :=
    turn.settled_entry charge.catalog
  have ahead : ∀ entry ∈ turns.map (Turn.entry charge.catalog), entry.status ≠ .running := by
    intro entry member
    obtain ⟨turn, _, rfl⟩ := List.mem_map.mp member
    exact visited turn
  have behind : ∀ entry ∈ waits, entry.status ≠ .running := by
    intro entry member
    obtain ⟨pending, _⟩ := new.waits entry (order ▸ List.mem_append_right _ member)
    simp [pending]
  cases severs with
  | looking => exact List.forall_mem_append.mpr ⟨ahead, behind⟩
  | opening => exact List.forall_mem_append.mpr ⟨ahead, behind⟩
  | ending ends => exact absurd ends other
  | @logging turn =>
      obtain ⟨_, others⟩ := List.forall_mem_cons.mp behind
      exact List.forall_mem_append.mpr ⟨ahead, List.forall_mem_cons.mpr ⟨visited turn, others⟩⟩
  | @recording turn =>
      obtain ⟨_, others⟩ := List.forall_mem_cons.mp behind
      exact List.forall_mem_append.mpr ⟨ahead, List.forall_mem_cons.mpr ⟨visited turn, others⟩⟩

/-- The books balance where the loop lost its store, unless a phase had just ended. -/
theorem IsNew.balanced_of_severs (new : charge.IsNew flow plan)
    (fits
      : (plan.nodes.map fun node => charge.catalog.credits node.2.taskType).sum < 4294967296)
    (order : charge.queue = turns.map Turn.phase ++ waits)
    (severs : charge.Severs (turns.map (Turn.entry charge.catalog)) call waits roll)
    (held : Books.standing? store charge.execution = some standing)
    (paid : standing.credits = charge.spent turns)
    (same : Books.roll store charge.execution = roll) (other : ¬ call.FollowsPhase)
    : Balanced charge.catalog charge.execution store := by
  rw [new.spent_eq] at paid
  cases severs with
  | looking => exact new.balanced fits order held paid same
  | opening => exact new.balanced fits order held paid same
  | @ending _ next rest =>
      refine new.balanced_of_unpaid fits order held paid same (List.forall_mem_cons.mpr ⟨?_, ?_⟩)
      · have here : next ∈ next :: rest := List.mem_cons_self
        exact ⟨nofun, (new.unpaid_of_waits order here).2⟩
      · exact fun entry member => new.unpaid_of_waits order (List.mem_cons_of_mem _ member)
  | logging => exact absurd trivial other
  | @recording _ record _ _ unfinished =>
      have follows : ¬ record.status.isTerminal := by
        rw [unfinished]
        decide
      exact absurd follows other

/-- The record lacks what the last phase cost where the loop lost its store when a phase had just
ended.
-/
theorem IsNew.lacking_of_severs (new : charge.IsNew flow plan)
    (fits
      : (plan.nodes.map fun node => charge.catalog.credits node.2.taskType).sum < 4294967296)
    (order : charge.queue = turns.map Turn.phase ++ waits)
    (severs : charge.Severs (turns.map (Turn.entry charge.catalog)) call waits roll)
    (follows : call.FollowsPhase)
    : ∃ entry ∈ roll,
        entry.status.isTerminal
        ∧ (roll.map Entry.credits).sum = charge.spent turns + entry.credits := by
  have lacks (turn : Turn) (rest : List Entry)
      (order : charge.queue = turns.map Turn.phase ++ turn.phase :: rest)
      : ((turns.map (Turn.entry charge.catalog) ++ turn.entry charge.catalog :: rest).map
          Entry.credits).sum = charge.spent turns + (turn.entry charge.catalog).credits := by
    have unpaid : (rest.map Entry.credits).sum = 0 :=
      List.sum_eq_zero_iff.mpr fun credits member => by
        obtain ⟨entry, here, rfl⟩ := List.mem_map.mp member
        exact (new.unpaid_of_waits order (List.mem_cons_of_mem _ here)).2
    have before := new.sum_credits fits order fun entry (member : entry ∈ []) => nomatch member
    rw [List.append_nil] at before
    rw [List.map_append, List.sum_append, before, List.map_cons, List.sum_cons, unpaid,
      new.spent_eq, Nat.add_zero]
  cases severs with
  | looking => exact follows.elim
  | opening => exact follows.elim
  | ending => exact follows.elim
  | @logging turn _ _ rest =>
      refine ⟨turn.entry charge.catalog, ?_, turn.isTerminal_entry charge.catalog, ?_⟩
      · exact List.mem_append_right _ List.mem_cons_self
      · exact lacks turn rest order
  | @recording turn _ rest =>
      refine ⟨turn.entry charge.catalog, ?_, turn.isTerminal_entry charge.catalog, ?_⟩
      · exact List.mem_append_right _ List.mem_cons_self
      · exact lacks turn rest order

end Charge

/-- What a run leaves that was aborted at a call and could not, or could, read back what was on
record.
-/
structure Aborted (catalog : Catalog) (execution : Uuid) (call : StoreCall)
    (late : List (Happening runCalls)) (store : σ) : Prop where
  failed
    : ∃ standing,
        Books.standing? store execution = some standing ∧ standing.status = .failed
  settled : ¬ call.EndsPhase → ∀ entry ∈ Books.roll store execution, entry.status ≠ .running
  balanced
    : ¬ call.FollowsPhase
      → (∀ reason, (⟨.store (.getExecution execution), .error reason⟩ : Happening runCalls) ∉ late)
      → Balanced catalog execution store
  lacking
    : call.FollowsPhase
      → (∀ reason, (⟨.store (.getExecution execution), .error reason⟩ : Happening runCalls) ∉ late)
      → ∃ standing, ∃ entry ∈ Books.roll store execution,
          Books.standing? store execution = some standing
          ∧ entry.status.isTerminal
          ∧ ((Books.roll store execution).map Entry.credits).sum
            = standing.credits + entry.credits

/-- A run of a new execution that fails and has put its end on record was aborted at a call that the
store refused. Its execution has failed. A phase is left at work only when the call was to keep how
it ended, and the execution has not cost what its phases have cost only when a phase had just ended
or the record could not be read back.
-/
theorem aborted_on_record {settings : RunSettings} {request : RunRequest}
    {execution last : Execution} {plan : Plan} {before created later : Arena σ}
    {reason : SetupError}
    (planned : Service.planOf settings.catalog request.definition = .ok plan)
    (fits
      : (plan.nodes.map fun node => settings.catalog.credits node.2.taskType).sum < 4294967296)
    (made
      : (Arena.serving mine).Reaches
          (ExceptT.run (Service.createExecution settings.catalog request), before)
          (.done (.ok execution), created))
    (run
      : (Arena.running mine).Reaches (execute settings execution.id token, created.anew)
          (.done (.error reason), later))
    (terminal : last.status.isTerminal) (ended : Marks last ∈ later.past)
    : ∃ call refusal early late,
        reason = .store refusal
        ∧ later.past = early ++ ⟨.store call, .error refusal⟩ :: late
        ∧ Aborted settings.catalog execution.id call late later.store := by
  obtain ⟨ours, charge, flow, other, catalog, named, rfl, parsed, suits, new, safe⟩ :=
    Charge.exists_isNew made token
  obtain rfl : other = plan := Service.plan_unique planned parsed (catalog ▸ new.planned)
  rw [← catalog] at fits ⊢
  rw [← named] at ours ⊢
  have finished := (recorded_of_reaches ours safe rfl run last ended).1 terminal
  cases safe.ended run with
  | faulted _ falls =>
      cases falls with
      | unmarked _ unmarked =>
          obtain ⟨stored, past, none⟩ := unmarked
          rw [past] at ended
          exact absurd ended (none last)
      | unqueued _ _ holds =>
          exact absurd (holds.isOpen (Tally.isOpen_of_running rfl)) finished.not_open
      | unsettled _ _ _ running holds =>
          exact absurd (holds.isOpen (Tally.isOpen_of_running running)) finished.not_open
      | @aborted refusal call turns waits early late tally same past order succeed severs failed
          credits holds =>
          cases same
          refine ⟨call, refusal, early, late, rfl, past, ?_⟩
          obtain ⟨stop, definition, held⟩ := holds.standing
          have paid
              (kept : ∀ reason,
                (⟨.store (.getExecution charge.execution), .error reason⟩
                  : Happening runCalls) ∉ late)
              : tally.credits = charge.spent turns :=
            credits.resolve_right fun ⟨reason, refused⟩ => kept reason refused
          refine ⟨⟨_, held, failed⟩, fun apart => ?_, fun apart kept => ?_, fun follows kept => ?_⟩
          · rw [holds.roll]
            exact new.settled_of_severs order severs apart
          · exact new.balanced_of_severs fits order severs held (paid kept) holds.roll apart
          · obtain ⟨entry, listed, ended, sum⟩ := new.lacking_of_severs fits order severs follows
            rw [holds.roll]
            exact ⟨_, entry, listed, held, ended, by rw [sum, paid kept]⟩
  | refused refuses => exact absurd refuses new.not_refuses
  | concluded concluded =>
      obtain ⟨_, _, _, _, _, _, _, _, _, same, _⟩ := concluded
      cases same

/-- The only phase is about to start, and the store does not tell whether a stop was asked for. -/
theorem Lone.aborted {definition : String} {flow : Flow}
    (parsed : Flow.parse definition = .ok flow) (sound : Books.Sound (Lone.store definition))
    (past : List (Happening runCalls))
    : ∃ later last reason,
        (Arena.running fun _ => True).Reaches
            (execute Lone.settings (Lone.execution definition).id ⟨0⟩,
              Arena.anew ⟨Lone.store definition, sound, .empty, [.ofNat 3, .ofNat 2], past⟩)
            (.done (.error reason), later)
        ∧ last.status.isTerminal
        ∧ Marks last ∈ later.past := by
  let last : Execution := { Lone.execution definition with
    status := .failed
    startedAt := some Lone.time
    completedAt := some Lone.time }
  refine ⟨?later, last, ?reason, ?run, rfl, ?marked⟩
  case run =>
    refine Program.reaches_bind (Lone.loaded parsed sound .empty past) ?_
    refine .reply (.quiet .uptime trivial (0 : Nat) _) ?_
    refine .reply (.quiet (.task .now) trivial Lone.time _) ?_
    refine .reply (.granted (.updateExecution _) _ rfl) ?_
    refine .reply (.granted (.setPhaseStatuses (.ofNat 2) .created .pending) _ rfl) ?_
    refine .reply (.granted (.recordLastRunStatus _ _ .running) _ rfl) ?_
    refine .reply (.quiet (.task .now) trivial Lone.time _) ?_
    refine .reply (.emit _ _) ?_
    refine .reply (.looked ⟨0⟩ _ rfl) ?_
    refine .reply (.fault (.getExecution (.ofNat 2)) (.database .cannotOpen) _) ?_
    refine .reply (.granted (.getExecution (.ofNat 2)) _ rfl) ?_
    refine .reply (.quiet (.task .now) trivial Lone.time _) ?_
    refine .reply (.granted (.updateExecution _) _ rfl) ?_
    refine .reply (.quiet .uptime trivial (0 : Nat) _) ?_
    refine .reply (.quiet (.task .now) trivial Lone.time _) ?_
    refine .reply (.emit _ _) ?_
    refine .reply (.granted (.recordLastRunStatus _ _ .failed) _ rfl) ?_
    exact .refl
  case marked =>
    simp only [Arena.after, List.nil_append, List.cons_append]
    iterate 13 apply List.Mem.tail
    exact .head _

/-- A run that is aborted before its only phase leaves an execution that has failed and books that
balance.
-/
theorem aborted_on_record_looking
    : ∃ (created later : Arena Memory) (reason : SetupError) (call : StoreCall)
          (late : List (Happening runCalls)),
        (Arena.serving fun _ => True).Reaches
            (ExceptT.run (Service.createExecution Lone.settings.catalog Lone.request),
              Lone.groundUnder .empty)
            (.done (.ok (Lone.execution Lone.flow.text)), created)
        ∧ (Arena.running fun _ => True).Reaches
            (execute Lone.settings (Lone.execution Lone.flow.text).id ⟨0⟩, created.anew)
            (.done (.error reason), later)
        ∧ Aborted Lone.settings.catalog (Lone.execution Lone.flow.text).id call late
            later.store := by
  obtain ⟨sound, past, made⟩ := Lone.opened_under .empty
  obtain ⟨flow, parsed, _⟩ := Service.planned_of_planOf Lone.planned
  obtain ⟨later, last, reason, run, terminal, ended⟩ := Lone.aborted parsed sound past
  have planned : Service.planOf Lone.settings.catalog Lone.request.definition
      = .ok ⟨[⟨1, [.bare "a" .launchBrowser]⟩]⟩ := Lone.planned
  obtain ⟨call, _, _, late, _, _, aborted⟩ :=
    aborted_on_record planned (by decide) made run terminal ended
  exact ⟨_, later, reason, call, late, made, run, aborted⟩

end Run

end Harvest

import Harvest.Proofs.Service.Interruption
import Harvest.Proofs.Service.Resting
import Harvest.Service.Supervise

/-! Recovery after a process has stopped. It takes up each execution that was left unfinished, fails
the phase that was at work and then the execution, and touches no phase that was completed.
-/

namespace Harvest

open Run

namespace Arena

open Realm Program ServiceM Service

variable {σ : Type} [Archive σ] {mine : Uuid → Prop} {arena before later : Arena σ} {α ε : Type}

-----------------------------------------------------------------------------------------
-- An execution that is looked after
-----------------------------------------------------------------------------------------

/-- The execution is in a status and has a roll, and the records of its completed phases are those
of another store.
-/
structure Stays (execution : Uuid) (base : σ) (status : ExecutionStatus) (entries : List Entry)
    (arena : Arena σ) : Prop where
  standing
    : ∃ standing,
        Books.standing? arena.store execution = some standing ∧ standing.status = status
  roll : Books.roll arena.store execution = entries
  records
    : ∀ entry ∈ entries,
        entry.status = .completed → recordOf entry.id arena.store = recordOf entry.id base

variable {execution : Uuid} {base : σ} {status status' : ExecutionStatus} {roll roll' : List Entry}
  {found : Execution}

namespace Stays

theorem rests (stays : Stays execution base status roll arena) (ours : mine execution)
    (rests : Rests mine arena later)
    : Stays execution base status roll later where
  standing := by
    obtain ⟨standing, held, same⟩ := stays.standing
    rcases (rests.alone execution ours).standing with kept | ⟨old, held', _, raised⟩
    · exact ⟨standing, kept.trans held, same⟩
    · rw [held, Option.some.injEq] at held'
      subst held'
      exact ⟨_, raised, same⟩
  roll := (rests.alone execution ours).roll.trans stays.roll
  records entry listed completed := by
    have there : entry ∈ Books.roll arena.store execution := stays.roll.symm ▸ listed
    exact (rests.records execution ours entry there).trans (stays.records entry listed completed)

/-- What spares the execution and its completed phases leaves them. -/
theorem spared (stays : Stays execution base status roll arena) {call : StoreCall}
    (spares : call.Spares execution arena.store)
    (sparesPhase
      : ∀ entry ∈ roll, entry.status = .completed → call.SparesPhase entry.id arena.store)
    : Stays execution base status roll (arena.answered call) where
  standing := by
    obtain ⟨standing, held, same⟩ := stays.standing
    exact ⟨standing, (unchanged_of_spares spares).standing.trans held, same⟩
  roll := (unchanged_of_spares spares).roll.trans stays.roll
  records entry listed completed := by
    have kept := Archive.kept call arena.sound (sparesPhase entry listed completed)
    exact kept.trans (stays.records entry listed completed)

theorem idle (stays : Stays execution base status roll arena) {call : RunCall} (idle : call.IsIdle)
    {answer : call.Answer} (replies : Replies mine call arena answer later)
    : Stays execution base status roll later := by
  cases replies with
  | store call =>
      refine stays.spared (idle.spares execution arena.store) fun entry _ _ => ?_
      exact idle.sparesPhase entry.id arena.store
  | _ => exact ⟨stays.standing, stays.roll, stays.records⟩

end Stays

/-- Idle calls leave the execution, by induction over the part. -/
theorem safe_idle (ours : mine execution) {part : RunM α} (only : part.Only RunCall.IsIdle)
    (stays : Stays execution base status roll arena)
    : (Arena.resting mine).Safe (fun _ _ _ _ => True) (fun _ => Stays execution base status roll)
        (ofRun part) arena := by
  induction only generalizing arena with
  | done value => exact fun later rests => stays.rests ours rests
  | ask idle _ ih =>
      intro before rests answer later serves
      cases serves with
      | run replies => exact ⟨trivial, ih answer ((stays.rests ours rests).idle idle replies)⟩

theorem achieves_idle (ours : mine execution) {part : RunM α} (only : part.Only RunCall.IsIdle)
    (stays : Stays execution base status roll arena)
    : Achieves mine (liftM (ofRun part) : ExceptT ε ServiceM α) arena
        fun _ => Stays execution base status roll := by
  refine Safe.map ((safe_idle ours only stays).mono id fun value later there => ?_)
  exact Or.inr ⟨value, rfl, there⟩

-----------------------------------------------------------------------------------------
-- One execution is recovered
-----------------------------------------------------------------------------------------

/-- An execution is recovered in two steps: its phases are struck, and then it fails. -/
theorem achieves_recoverOne (ours : mine execution) (stays : Stays execution base status roll arena)
    (strikes
      : ∀ before count,
          Stays execution base status roll before
          → (Store.answer (.setPhaseStatuses found.id .running .failed) before.store).1
            = .ok count
          → Stays execution base status roll'
              (before.answered (.setPhaseStatuses found.id .running .failed)))
    (fails
      : ∀ before record,
          record.id = found.id
          → record.status = .failed
          → Stays execution base status roll' before
          → (Store.answer (.updateExecution record) before.store).1 = .ok ()
          → Stays execution base status' roll' (before.answered (.updateExecution record)))
    : Achieves mine (recoverOne found) arena fun _ => Stays execution base status' roll' := by
  have struck : Achieves mine
      (stored ServiceError.store (.setPhaseStatuses found.id .running .failed)) arena
      fun _ => Stays execution base status roll' := by
    refine achieves_stored _ (by trivial) fun before count later rests granted rests' => ?_
    exact (strikes before count (stays.rests ours rests) granted).rests ours rests'
  refine struck.bind fun _ later stays => ?_
  refine (achieves_idle ours (ask_idle (.task .now) trivial) stays).bind fun time later stays => ?_
  let failed : Execution := { found with status := .failed, completedAt := some time }
  have ended
      : Achieves mine (tried (.updateExecution failed) : ExceptT ServiceError ServiceM _) later
          fun answer later =>
            ∃ result, answer = .ok result ∧ Stays execution base status' roll' later := by
    refine achieves_tried _ (by trivial) fun before result later rests granted rests' => ?_
    exact (fails before failed rfl rfl (stays.rests ours rests) granted).rests ours rests'
  refine ended.bind fun answer later stays => ?_
  obtain ⟨result, rfl, stays⟩ := stays
  let note : RunM Unit := noteLastRun found .failed
  have idle : note.Only RunCall.IsIdle := (ask_idle _ (by trivial)).bind fun _ => .done ()
  refine (achieves_idle ours idle stays).bind fun _ later stays => ?_
  exact achieves_pure true fun later rests => stays.rests ours rests

/-- Recovering another execution leaves ours, for no phase is on two rolls. -/
theorem achieves_recoverOne_apart (ours : mine execution) (apart : found.id ≠ execution)
    (stays : Stays execution base status roll arena)
    : Achieves mine (recoverOne found) arena fun _ => Stays execution base status roll := by
  refine achieves_recoverOne ours stays ?_ ?_
  · intro before count stays _
    refine stays.spared apart fun entry listed completed other there same => ?_
    have here : entry.id ∈ (Books.roll before.store execution).map Entry.id :=
      List.mem_map_of_mem (stays.roll.symm ▸ listed)
    have elsewhere : entry.id ∈ (Books.roll before.store found.id).map Entry.id :=
      same ▸ List.mem_map_of_mem there
    exact absurd (Ledger.apart before.sound elsewhere here) apart
  · intro before record named _ stays _
    exact stays.spared (fun same => apart (named.symm.trans same)) fun _ _ _ => trivial

/-- Recovering ours fails it and the phase that was at work. -/
theorem achieves_recoverOne_same (ours : mine execution) (same : found.id = execution)
    (stays : Stays execution base status roll arena)
    : Achieves mine (recoverOne found) arena
        fun _ => Stays execution base .failed (roll.map (Entry.moved .running .failed)) := by
  subst same
  refine achieves_recoverOne ours stays ?_ ?_
  · intro before count stays granted
    obtain ⟨standing, struck⟩ := (Ledger.handles _ before.sound).effect granted
    obtain ⟨known, held, inStatus⟩ := stays.standing
    refine ⟨⟨known, (standing found.id).trans held, inStatus⟩, stays.roll ▸ struck, ?_⟩
    intro entry member completed
    obtain ⟨old, listed, rfl⟩ := List.mem_map.mp member
    have same : old.moved .running .failed = old := Entry.moved_of_completed completed
    rw [same] at completed ⊢
    have here : old ∈ Books.roll before.store found.id := stays.roll.symm ▸ listed
    refine Eq.trans (Archive.kept _ before.sound fun other there shared => ?_)
      (stays.records old listed completed)
    have distinct := Ledger.distinct found.id before.sound
    rw [List.inj_on_of_nodup_map distinct there here shared, completed]
    decide
  · intro before record named failed stays granted
    obtain ⟨⟨old, kept, _, _, _, updated⟩, roll⟩ := (Ledger.handles _ before.sound).effect granted
    rw [named] at updated roll
    refine ⟨⟨_, updated, failed⟩, roll.trans stays.roll, fun entry listed completed => ?_⟩
    refine Eq.trans (Archive.kept _ before.sound ?_) (stays.records entry listed completed)
    trivial

-----------------------------------------------------------------------------------------
-- All executions are recovered
-----------------------------------------------------------------------------------------

variable {executions : List Execution}

/-- Recovering others leaves ours, by induction over the list. -/
theorem achieves_recoverAll_apart (ours : mine execution)
    (apart : execution ∉ executions.map Execution.id)
    (stays : Stays execution base status roll arena)
    : Achieves mine (recoverAll executions) arena fun _ => Stays execution base status roll := by
  induction executions generalizing arena with
  | nil => exact achieves_pure 0 fun later rests => stays.rests ours rests
  | cons found executions ih =>
      rw [List.map_cons, List.mem_cons, not_or] at apart
      have one := achieves_recoverOne_apart ours (Ne.symm apart.1) stays
      refine one.bind fun one later stays => ?_
      refine (ih apart.2 stays).bind fun others later stays => ?_
      exact achieves_pure _ fun later rests => stays.rests ours rests

/-- Recovering a list that ours is on once fails it, by induction over the list. -/
theorem achieves_recoverAll_listed (ours : mine execution)
    (distinct : (executions.map Execution.id).Nodup)
    (listed : execution ∈ executions.map Execution.id)
    (stays : Stays execution base status roll arena)
    : Achieves mine (recoverAll executions) arena
        fun _ => Stays execution base .failed (roll.map (Entry.moved .running .failed)) := by
  induction executions generalizing arena with
  | nil => cases listed
  | cons found executions ih =>
      rw [List.map_cons, List.nodup_cons] at distinct
      rw [List.map_cons, List.mem_cons] at listed
      by_cases same : found.id = execution
      · refine (achieves_recoverOne_same ours same stays).bind fun one later stays => ?_
        have others := achieves_recoverAll_apart ours (same ▸ distinct.1) stays
        refine others.bind fun others later stays => ?_
        exact achieves_pure _ fun later rests => stays.rests ours rests
      · have behind := listed.resolve_left (Ne.symm same)
        refine (achieves_recoverOne_apart ours same stays).bind fun one later stays => ?_
        refine (ih distinct.2 behind stays).bind fun others later stays => ?_
        exact achieves_pure _ fun later rests => stays.rests ours rests

/-- A list of the executions in a status has ours on it when it is in that status, and once. -/
theorem achieves_listByStatus (ours : mine execution) (picked : ExecutionStatus)
    (stays : Stays execution base status roll arena)
    : Achieves mine (stored ServiceError.store (.listByStatus picked)) arena
        fun (executions : List Execution) later =>
          Stays execution base status roll later
          ∧ (executions.map Execution.id).Nodup
          ∧ (execution ∈ executions.map Execution.id ↔ status = picked) := by
  refine achieves_stored _ (by trivial) fun before executions later rests granted rests' => ?_
  change List Execution at executions
  have here := stays.rests ours rests
  have there : Stays execution base status roll (before.answered (.listByStatus picked)) :=
    here.spared trivial fun _ _ _ => trivial
  obtain ⟨_, distinct, each⟩ := (Ledger.handles _ before.sound).effect granted
  obtain ⟨standing, held, inStatus⟩ := here.standing
  refine ⟨there.rests ours rests', distinct, fun listed => ?_, fun same => ?_⟩
  · obtain ⟨record, member, named⟩ := List.mem_map.mp listed
    obtain ⟨picked, stands⟩ := each record member
    rw [named, held, Option.some.injEq] at stands
    rw [← inStatus, stands]
    exact picked
  · exact Archive.listed before.sound granted held (inStatus.trans same)

/-- Recovery takes up ours when it is in the status of the list. -/
theorem achieves_recoverAll (ours : mine execution) (picked : ExecutionStatus)
    (distinct : (executions.map Execution.id).Nodup)
    (listed : execution ∈ executions.map Execution.id ↔ status = picked)
    (stays : Stays execution base status roll arena)
    : Achieves mine (recoverAll executions) arena fun _ =>
        Stays execution base (if status = picked then .failed else status)
          (if status = picked then roll.map (Entry.moved .running .failed) else roll) := by
  by_cases same : status = picked
  · rw [if_pos same, if_pos same]
    exact achieves_recoverAll_listed ours distinct (listed.mpr same) stays
  · rw [if_neg same, if_neg same]
    exact achieves_recoverAll_apart ours (fun there => same (listed.mp there)) stays

/-- Recovery fails ours unless it was finished. What it failed as running it does not find again as
pending.
-/
theorem achieves_recover (ours : mine execution) (stays : Stays execution base status roll arena)
    : Achieves mine recover arena fun _ =>
        Stays execution base (if status.isTerminal then status else .failed)
          (struck status roll) := by
  unfold recover
  refine (achieves_listByStatus ours .running stays).bind fun running later there => ?_
  obtain ⟨stays, distinct, listed⟩ := there
  refine (achieves_recoverAll ours .running distinct listed stays).bind fun first later stays => ?_
  refine (achieves_listByStatus ours .pending stays).bind fun pending later there => ?_
  obtain ⟨stays, distinct, listed⟩ := there
  refine (achieves_recoverAll ours .pending distinct listed stays).bind fun second later stays => ?_
  refine achieves_pure _ fun last rests => ?_
  replace stays := stays.rests ours rests
  cases status <;> exact stays

-----------------------------------------------------------------------------------------
-- Recovery can be carried through
-----------------------------------------------------------------------------------------

/-- An unfinished execution can be recovered, and the others that are unfinished stay so. -/
theorem completes_recoverOne (unfinished : IsOpen found.id arena.store)
    : Completes mine (recoverOne found) arena fun _ later =>
        ∀ other, other ≠ found.id → IsOpen other arena.store → IsOpen other later.store := by
  unfold recoverOne
  obtain ⟨count, moved⟩ := Archive.moves found.id .running .failed arena.sound
  refine (completes_stored moved).bind ?_
  rintro _ struck _ ⟨rfl, rfl⟩
  obtain ⟨same, _⟩ := (Ledger.handles _ arena.sound).effect moved
  refine completes_now.bind fun time timed _ kept => ?_
  have still (id : Uuid) (isOpen : IsOpen id arena.store) : IsOpen id timed.store := by
    obtain ⟨standing, held, unfinished⟩ := isOpen
    exact ⟨standing, kept ▸ (same id).trans held, unfinished⟩
  let failed : Execution := { found with status := .failed, completedAt := some time }
  have granted : (Store.answer (.updateExecution failed) timed.store).1 = .ok () :=
    Archive.updates timed.sound (still failed.id unfinished)
  refine (completes_tried granted).bind ?_
  rintro _ ended _ ⟨rfl, rfl⟩
  refine (completes_noteLastRun found .failed).bind fun _ noted _ same => ?_
  refine completes_pure true fun other apart isOpen => ?_
  obtain ⟨standing, held, unfinished⟩ := still other isOpen
  have spared : Unchanged other timed.store (timed.answered (.updateExecution failed)).store :=
    unchanged_of_spares (Ne.symm apart)
  exact ⟨standing, (same other).standing.trans (spared.standing.trans held), unfinished⟩

/-- So can those of a list, by induction over the list. -/
theorem completes_recoverAll (distinct : (executions.map Execution.id).Nodup)
    (unfinished : ∀ found ∈ executions, IsOpen found.id arena.store)
    : Completes mine (recoverAll executions) arena fun _ _ => True := by
  induction executions generalizing arena with
  | nil => exact completes_pure 0 trivial
  | cons found executions ih =>
      rw [List.map_cons, List.nodup_cons] at distinct
      obtain ⟨here, others⟩ := List.forall_mem_cons.mp unfinished
      refine (completes_recoverOne here).bind fun one later _ kept => ?_
      refine (ih distinct.2 fun other member => ?_).bind fun count later _ _ => ?_
      · refine kept other.id (fun same => distinct.1 ?_) (others other member)
        exact same ▸ List.mem_map_of_mem member
      · exact completes_pure _ trivial

/-- What is listed as unfinished can be recovered. -/
theorem completes_listed {picked : ExecutionStatus} (unfinished : ¬ picked.isTerminal)
    (granted : (Store.answer (.listByStatus picked) arena.store).1 = .ok executions)
    : Completes mine (recoverAll executions) (arena.answered (.listByStatus picked))
        fun _ _ => True := by
  obtain ⟨same, distinct, each⟩ := (Ledger.handles _ arena.sound).effect granted
  refine completes_recoverAll distinct fun found member => ?_
  obtain ⟨inStatus, held⟩ := each found member
  refine ⟨found.standing, ?_, fun terminal => unfinished (inStatus ▸ terminal)⟩
  exact (congrArg (Books.standing? · found.id) same).trans held

/-- Recovery can be carried through where the store gives its lists. -/
theorem completes_recover
    (lists
      : ∀ picked rest later,
          (Arena.resting mine).Reaches (ExceptT.run recover, arena) (rest, later)
          → ∃ executions, (Store.answer (.listByStatus picked) later.store).1 = .ok executions)
    : Completes mine recover arena fun _ _ => True := by
  obtain ⟨running, granted⟩ := lists .running _ _ .refl
  refine (completes_stored granted).bind ?_
  rintro _ _ listed ⟨rfl, rfl⟩
  refine (completes_listed (by decide) granted).bind fun first middle recovered _ => ?_
  -- the second list is asked for where the first one was dealt with, which recovery reaches
  obtain ⟨pending, granted⟩ :=
    lists .pending _ _ (reaches_bind listed (reaches_bind recovered .refl))
  refine (completes_stored granted).bind ?_
  rintro _ _ _ ⟨rfl, rfl⟩
  refine (completes_listed (by decide) granted).bind fun second last _ _ => ?_
  exact completes_pure _ trivial

end Arena

-----------------------------------------------------------------------------------------
-- What recovery leaves
-----------------------------------------------------------------------------------------

namespace Service

open Realm Arena

variable {σ : Type} [Archive σ] {mine : Uuid → Prop}

/-- What recovery leaves of an execution whose process stopped: it is finished, and its phases are
those it had. None is at work, and those that were completed are on record to the last field as
they were.
-/
structure Recovered (execution : Uuid) (dead later : σ) : Prop where
  finished
    : ∃ old new,
        Books.standing? dead execution = some old
        ∧ Books.standing? later execution = some new
        ∧ new.status.isTerminal
        ∧ new.status = if old.status.isTerminal then old.status else .failed
  phases : (Books.roll later execution).map Entry.id = (Books.roll dead execution).map Entry.id
  inTurn : InTurn ((Books.roll later execution).map Entry.status)
  settled : ∀ entry ∈ Books.roll later execution, entry.status ≠ .running
  completed
    : ∀ entry ∈ Books.roll dead execution,
        entry.status = .completed
        → entry ∈ Books.roll later execution
          ∧ recordOf entry.id later = recordOf entry.id dead

/-- What an execution stays as that was recovered. -/
theorem recovered_of_stays {execution : Uuid} {dead : σ} {old : Standing} {later : Arena σ}
    (held : Books.standing? dead execution = some old)
    (inTurn : InTurn ((struck old.status (Books.roll dead execution)).map Entry.status))
    (stays
      : Stays execution dead (if old.status.isTerminal then old.status else .failed)
          (struck old.status (Books.roll dead execution)) later)
    : Recovered execution dead later.store where
  finished := by
    obtain ⟨new, held', same⟩ := stays.standing
    refine ⟨old, new, held, held', ?_, same⟩
    rw [same]
    split
    · assumption
    · rfl
  phases := by
    rw [stays.roll]
    unfold struck
    split
    · rfl
    · rw [List.map_map]
      exact List.map_congr_left fun entry _ => (Entry.samePhase_moved _ _ entry).id
  inTurn := stays.roll.symm ▸ inTurn
  settled entry listed := by
    rw [stays.roll] at listed
    exact inTurn.not_running (List.mem_map_of_mem listed)
  completed entry listed completed := by
    have there : entry ∈ struck old.status (Books.roll dead execution) := by
      unfold struck
      split
      · exact listed
      · refine List.mem_map.mpr ⟨entry, listed, if_neg ?_⟩
        rw [completed]
        decide
    exact ⟨stays.roll.symm ▸ there, stays.records entry there completed⟩

/-- Wherever the process of a new execution stops once the execution is written, the next process
recovers it. Before, the store may have refused any calls but those that keep how a phase ended.
Recovery is refused nothing that it counts on where the store gives its lists.
-/
theorem recovered_after_crash {settings : RunSettings} {request : RunRequest}
    {execution : Execution} {dead : Arena σ}
    (interrupted : Interrupted mine settings request execution dead)
    (kept : ¬ Run.Unended dead.past)
    : (∀ result later,
        (Arena.resting mine).Reaches (ExceptT.run recover, dead.restarted) (.done result, later)
        → (∀ happening ∈ later.past, Run.IsGranted happening)
        → (∃ count, result = .ok count) ∧ Recovered execution.id dead.store later.store)
      ∧ ((∀ picked rest later,
          (Arena.resting mine).Reaches (ExceptT.run recover, dead.restarted) (rest, later)
          → ∃ executions, (Store.answer (.listByStatus picked) later.store).1 = .ok executions)
        → ∃ count later,
            (Arena.resting mine).Reaches (ExceptT.run recover, dead.restarted)
                (.done (.ok count), later)
            ∧ ∀ happening ∈ later.past, Run.IsGranted happening) := by
  obtain ⟨ours, old, held, inTurn⟩ := interrupted.inTurn kept
  have stays : Stays execution.id dead.store old.status (Books.roll dead.store execution.id)
      dead.restarted :=
    ⟨⟨old, held, rfl⟩, rfl, fun _ _ _ => rfl⟩
  refine ⟨fun result later recovery granted => ?_, fun lists => ?_⟩
  · rcases Safe.ended (achieves_recover ours stays) recovery with faulted | ⟨count, rfl, recovered⟩
    · obtain ⟨happening, member, refused⟩ := faulted
      exact absurd (granted happening member) refused
    · exact ⟨⟨count, rfl⟩, recovered_of_stays held inTurn recovered⟩
  · obtain ⟨count, later, reached, ⟨made, past, granted⟩, _⟩ := completes_recover lists
    refine ⟨count, later, reached, ?_⟩
    rw [past]
    exact granted

end Service

open Realm Service

/-- The only phase is queued, and nothing was refused. -/
theorem Run.Lone.queued {definition : String} {flow : Flow}
    (parsed : Flow.parse definition = .ok flow) (sound : Books.Sound (Lone.store definition))
    (past : List (Happening runCalls))
    : ∃ rest dead,
        (Arena.running fun _ => True).Reaches
            (execute Lone.settings (Lone.execution definition).id ⟨0⟩,
              Arena.anew ⟨Lone.store definition, sound, .shut .empty, [.ofNat 3, .ofNat 2], past⟩)
            (rest, dead)
        ∧ ¬ Unended dead.past
        ∧ ∃ standing,
            Books.standing? dead.store (Lone.execution definition).id = some standing
            ∧ standing.status = .running := by
  refine ⟨?rest, ?dead, ?run, ?kept, ?runs⟩
  case run =>
    refine Program.reaches_bind (Lone.loaded parsed sound (.shut .empty) past) ?_
    refine .reply (.quiet .uptime trivial (0 : Nat) _) ?_
    refine .reply (.quiet (.task .now) trivial Lone.time _) ?_
    refine .reply (.granted (.updateExecution _) _ rfl) ?_
    refine .reply (.granted (.setPhaseStatuses (.ofNat 2) .created .pending) _ rfl) ?_
    exact .refl
  case kept =>
    rintro ⟨phase, reason, _, refused⟩
    have asked := List.mem_map_of_mem (f := Sigma.fst) refused
    simp [Arena.after] at asked
  case runs => exact ⟨_, rfl, rfl⟩

/-- A run that is left when its only phase is queued is recovered. -/
theorem Service.recovered_after_crash_queued
    : ∃ (dead later : Arena Memory) (count : Nat),
        Interrupted (fun _ => True) Lone.settings Lone.request (Lone.execution Lone.flow.text) dead
        ∧ ¬ Unended dead.past
        ∧ (∃ standing,
            Books.standing? dead.store (Lone.execution Lone.flow.text).id = some standing
            ∧ standing.status = .running)
        ∧ (Arena.resting fun _ => True).Reaches (ExceptT.run recover, dead.restarted)
            (.done (.ok count), later)
        ∧ Recovered (Lone.execution Lone.flow.text).id dead.store later.store := by
  obtain ⟨sound, past, made⟩ := Lone.opened
  obtain ⟨flow, parsed, _⟩ := planned_of_planOf Lone.planned
  obtain ⟨rest, dead, run, kept, runs⟩ := Lone.queued parsed sound past
  have interrupted : Interrupted (fun _ => True) Lone.settings Lone.request
      (Lone.execution Lone.flow.text) dead :=
    .running made run
  obtain ⟨recovers, completes⟩ := recovered_after_crash interrupted kept
  obtain ⟨count, later, recovery, granted⟩ := completes fun _ _ _ _ => ⟨_, rfl⟩
  exact ⟨dead, later, count, interrupted, kept, runs, recovery,
    (recovers (.ok count) later recovery granted).2⟩

end Harvest

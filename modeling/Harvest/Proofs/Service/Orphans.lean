import Harvest.Proofs.Program.Realm
import Harvest.Proofs.Run.Turn
import Harvest.Proofs.Store.Failing
import Harvest.Service.Supervise

/-! What a recovery does to a store that no one else uses. It fails the executions that are not
finished, with all that hangs on them, counts them, and leaves everything else; after it there is
nothing to be recovered.
-/

namespace Harvest

open Time Program

-----------------------------------------------------------------------------------------
-- Stores that are repaired alike
-----------------------------------------------------------------------------------------

/-- What a recovery asks of a store, once it is known what the store holds. -/
inductive Repairs (isTime : Instant → Prop) (m : Memory) : StoreCall → Prop where
  | list (status : ExecutionStatus) : Repairs isTime m (.listByStatus status)
  | quiet (id : Uuid) : Repairs isTime m (.setPhaseStatuses id .running .failed)
  | fail {e : Execution} {time : Instant} (held : m.execution? e.id = some e)
      (told : isTime time)
      : Repairs isTime m (.updateExecution (Memory.failedNow e time))
  | note {workflow id : Uuid} (owned : ∃ e ∈ m.executions, e.workflowId = workflow)
      : Repairs isTime m (.recordLastRunStatus workflow id .failed)

/-- A kind of store that shows what a store in memory holds: a recovery is answered as there, and
leaves it showing what is left there.
-/
class Mirror (σ : Type) [Store σ] where
  /-- The store that shows what a store in memory holds. -/
  view : Memory → σ
  /-- What it can show. -/
  Fits : Memory → Prop
  /-- The times that it can show. -/
  IsTime : Instant → Prop
  distinct {m : Memory} : Fits m → m.IsDistinct
  alike {m : Memory} {call : StoreCall}
    : Fits m
      → Repairs IsTime m call
      → Alike (Memory.answer call m).1 (Store.answer call (view m)).1
  copied {m : Memory} {call : StoreCall}
    : Fits m
      → Repairs IsTime m call
      → (Store.answer call (view m)).2 = view (Memory.answer call m).2
  fits {m : Memory} {call : StoreCall}
    : Fits m → Repairs IsTime m call → Fits (Memory.answer call m).2

/-- A reason is of the kind that it is of. -/
theorem StoreError.sameKind_refl (reason : StoreError) : reason.SameKind reason := by
  cases reason <;> trivial

theorem Alike.refl {α : Type} (answer : Except StoreError α) : Alike answer answer := by
  cases answer with
  | ok value => rfl
  | error reason => exact reason.sameKind_refl

namespace Memory

/-- Identifiers stay distinct when a store is repaired, by cases on the call. -/
theorem IsDistinct.repaired {m : Memory} {isTime : Instant → Prop} {call : StoreCall}
    (distinct : m.IsDistinct) (repairs : Repairs isTime m call)
    : (answer call m).2.IsDistinct := by
  refine ⟨?_, (handles call distinct.sound).sound⟩
  cases repairs with
  | list status | quiet id => exact distinct.workflows
  | @fail e time held told =>
      rcases m.updateExecution_cases (failedNow e time) with ⟨_, same⟩ | ⟨_, _, _, same⟩ <;>
        simp only [answer, same] <;>
        exact distinct.workflows
  | @note workflow id owned =>
      rcases m.recordLastRunStatus_cases workflow id .failed with ⟨_, same⟩ | ⟨next, same⟩ <;>
        simp only [answer, same]
      · exact distinct.workflows
      · exact nodup_insert distinct.workflows next

/-- A store in memory shows itself. -/
instance : Mirror Memory where
  view := id
  Fits := IsDistinct
  IsTime _ := True
  distinct := id
  alike _ _ := .refl _
  copied _ _ := rfl
  fits := IsDistinct.repaired

end Memory

namespace Tables

/-- What tables can show: records without loss, and a workflow for every execution. -/
structure Shows (m : Memory) : Prop where
  proper : m.IsProper
  owned : ∀ e ∈ m.executions, (m.workflow? e.workflowId).isSome

/-- Tables answer all that a recovery asks. -/
theorem Shows.admits {m : Memory} {call : StoreCall} (shows : Shows m)
    (repairs : Repairs Instant.IsProper m call)
    : call.IsAdmitted m := by
  cases repairs with
  | list status => trivial
  | quiet id => trivial
  | @fail e time held told =>
      have fits := shows.proper.execution? held
      refine ⟨⟨fits.createdAt, fits.startedAt, fun _ here => ?_, fits.credits⟩, ?_⟩
      · cases here
        exact told
      · intro stored known
        cases held.symm.trans known
        rfl
  | note owned =>
      obtain ⟨e, among, rfl⟩ := owned
      exact shows.owned e among

/-- Each execution keeps its workflow when a store is repaired, by cases on the call. -/
theorem Shows.repaired {m : Memory} {call : StoreCall} (shows : Shows m)
    (repairs : Repairs Instant.IsProper m call)
    : Shows (Memory.answer call m).2 := by
  refine ⟨shows.proper.answer (shows.admits repairs), ?_⟩
  cases repairs with
  | list status | quiet id => exact shows.owned
  | @fail e time held told =>
      rcases m.updateExecution_cases (Memory.failedNow e time) with ⟨_, same⟩ | ⟨_, _, _, same⟩
      · simpa only [Memory.answer, same] using shows.owned
      · simp only [Memory.answer, same]
        exact Memory.forall_insert (shows.owned e (List.mem_of_find?_eq_some held)) shows.owned
  | @note workflow id owned =>
      rcases m.recordLastRunStatus_cases workflow id .failed with ⟨_, same⟩ | ⟨next, same⟩
      · simpa only [Memory.answer, same] using shows.owned
      · intro other member
        simp only [Memory.answer, same] at member ⊢
        rw [Memory.workflow?_putWorkflow]
        split
        · rfl
        · exact shows.owned other member

/-- Tables show the store in memory that they are a copy of. -/
instance : Mirror Tables where
  view := copyOf
  Fits := Shows
  IsTime := Instant.IsProper
  distinct shows := ⟨shows.proper.distinct, shows.proper.sound⟩
  alike shows repairs := (inStep_answer shows.proper (shows.admits repairs)).alike
  copied shows repairs := (inStep_answer shows.proper (shows.admits repairs)).copied
  fits := Shows.repaired

end Tables

-----------------------------------------------------------------------------------------
-- A store that no one else uses
-----------------------------------------------------------------------------------------

namespace Service

open Mirror ServiceM

/-- A store that no one else uses, and how many other calls were answered so far. -/
structure Desk (σ : Type) where
  store : σ
  asked : Nat

/-- What is answered to other calls, one after another: the clock among it. -/
abbrev Beyond := (call : ServiceCall) → Nat → call.Answer

namespace Desk

/-- The answer to a call, and the desk after it. -/
def answer {σ : Type} [Store σ] (beyond : Beyond)
    : (call : ServiceCall) → Desk σ → call.Answer × Desk σ
  | .run (.store call), desk =>
      ((Store.answer call desk.store).1, { desk with store := (Store.answer call desk.store).2 })
  | call, desk => (beyond call desk.asked, { desk with asked := desk.asked + 1 })

/-- What a part of the service comes to at a desk, and what it leaves. -/
def perform {σ ε α : Type} [Store σ] (beyond : Beyond) (desk : Desk σ)
    (part : ExceptT ε ServiceM α) : Except ε α × Desk σ :=
  (ExceptT.run part).run (answer beyond) desk

/-- What the clock shows when some calls were answered. -/
def clock (beyond : Beyond) (n : Nat) : Instant := beyond (.run (.task .now)) n

end Desk

open Desk (perform clock)

section

variable {σ ε α β : Type} [Store σ] {beyond : Beyond} {desk left : Desk σ}

/-- A part that may refuse does not, and what follows goes on. -/
theorem performs_known {part : ExceptT ε ServiceM α} {next : α → ExceptT ε ServiceM β} {value : α}
    (first : perform beyond desk part = (.ok value, left))
    : perform beyond desk (part >>= next) = perform beyond left (next value) :=
  run_known first

/-- A part that never refuses goes first. -/
theorem performs_lift {part : ServiceM α} {next : α → ExceptT ε ServiceM β} {value : α}
    (first : part.run (Desk.answer beyond) desk = (value, left))
    : perform beyond desk (liftM part >>= next) = perform beyond left (next value) :=
  run_lift first

/-- The store grants what it is asked. -/
theorem performs_stored {wrap : StoreError → ε} {call : StoreCall} {result : call.Result}
    {store : σ} (granted : Store.answer call desk.store = (.ok result, store))
    : perform beyond desk (stored wrap call) = (.ok result, { desk with store := store }) := by
  change ((Store.answer call desk.store).1.mapError wrap, Desk.mk _ _) = _
  rw [granted]
  rfl

/-- The store answers what it is asked. -/
theorem performs_tried {call : StoreCall} {answer : call.Answer} {store : σ}
    (answered : Store.answer call desk.store = (answer, store))
    : perform beyond desk (tried (ε := ε) call) = (.ok answer, { desk with store := store }) := by
  change (Except.ok (Store.answer call desk.store).1, Desk.mk _ _) = _
  rw [answered]

end

-----------------------------------------------------------------------------------------
-- One execution
-----------------------------------------------------------------------------------------

section

variable {σ : Type} [Store σ] [Mirror σ] {beyond : Beyond} {m : Memory} {n : Nat}

/-- What a store in memory grants is granted by the store that shows it. -/
theorem answer_view {call : StoreCall} {result : call.Result} {left : Memory}
    (fits : Fits (σ := σ) m) (repairs : Repairs (IsTime (σ := σ)) m call)
    (granted : Memory.answer call m = (.ok result, left))
    : Store.answer call (view m : σ) = (.ok result, view left) ∧ Fits (σ := σ) left := by
  have same := alike fits repairs
  have copy := copied fits repairs
  have fits' := Mirror.fits fits repairs
  rw [granted] at same copy fits'
  cases answered : (Store.answer call (view m : σ)).1 with
  | error reason => simp [answered, Alike] at same
  | ok other =>
      rw [answered] at same
      obtain rfl : result = other := same
      exact ⟨Prod.ext answered copy, fits'⟩

/-- The execution is failed by three calls, at the time that the clock shows. -/
theorem perform_recoverOne {e : Execution} (fits : Fits (σ := σ) m)
    (held : m.execution? e.id = some e) (unfinished : ¬ e.status.isTerminal)
    (told : IsTime (σ := σ) (clock beyond n))
    : perform beyond ⟨(view m : σ), n⟩ (recoverOne e)
        = (.ok true, ⟨view (m.failOne e (clock beyond n)), n + 1⟩)
      ∧ Fits (σ := σ) (m.failOne e (clock beyond n)) := by
  let time := clock beyond n
  let quiet := (m.setPhaseStatuses e.id .running .failed).2
  let failed := quiet.putExecution (Memory.failedNow e time)
  have held' : quiet.execution? e.id = some e := held
  obtain ⟨quieted, fits'⟩ : _ ∧ Fits (σ := σ) quiet := answer_view fits (.quiet e.id) rfl
  have granted : Memory.answer (.updateExecution (Memory.failedNow e time)) quiet
      = (.ok (), failed) :=
    Memory.answer_failedNow time held' unfinished
  obtain ⟨updated, fits''⟩ := answer_view fits' (.fail held' told) granted
  have left : m.failOne e time
      = (Memory.answer (.recordLastRunStatus e.workflowId e.id .failed) failed).2 := by
    change (Memory.answer _ (Memory.answer _ quiet).2).2 = _
    rw [granted]
  have note : Repairs (IsTime (σ := σ)) failed
      (.recordLastRunStatus e.workflowId e.id .failed) := by
    have known : failed.execution? e.id = some (Memory.failedNow e time) :=
      Memory.find?_insert_self Execution.id (Memory.failedNow e time) quiet.executions
    exact .note ⟨_, List.mem_of_find?_eq_some known, rfl⟩
  have noted := copied fits'' note
  rw [left]
  refine ⟨?_, Mirror.fits fits'' note⟩
  refine (performs_known (performs_stored quieted)).trans ?_
  have shown : now.run (Desk.answer beyond) ⟨(view quiet : σ), n⟩ = (time, ⟨view quiet, n + 1⟩) :=
    rfl
  refine (performs_lift shown).trans ?_
  refine (performs_known (performs_tried updated)).trans ?_
  refine (performs_lift (Prod.eta _).symm).trans ?_
  exact congrArg (fun store => (Except.ok true, Desk.mk store (n + 1))) noted

-----------------------------------------------------------------------------------------
-- All executions of a list
-----------------------------------------------------------------------------------------

/-- The times of executions that are failed one after another. -/
def timesOf (beyond : Beyond) : Nat → List Execution → Uuid → Option Instant
  | _, [] => fun _ => none
  | n, e :: rest => fun id =>
      (timesOf beyond (n + 1) rest id).or (Memory.only e.id (clock beyond n) id)

/-- The executions of the list have times, and no others, by induction over the list. -/
theorem isSome_timesOf {executions : List Execution} {id : Uuid}
    : (timesOf beyond n executions id).isSome ↔ id ∈ executions.map Execution.id := by
  induction executions generalizing n with
  | nil => simp [timesOf]
  | cons e rest ih =>
      rw [timesOf, Option.isSome_or, Bool.or_eq_true, ih, List.map_cons, List.mem_cons]
      by_cases same : id = e.id <;> simp [Memory.only, same]

/-- The times are those that the clock shows, by induction over the list. -/
theorem told_timesOf {executions : List Execution} {id : Uuid} {time : Instant}
    (here : timesOf beyond n executions id = some time)
    : ∃ k, time = clock beyond k := by
  induction executions generalizing n with
  | nil => cases here
  | cons e rest ih =>
      rw [timesOf, Option.or_eq_some_iff] at here
      rcases here with later | ⟨_, now⟩
      · exact ih later
      · rw [Memory.only] at now
        split at now
        · exact ⟨n, (Option.some.inj now).symm⟩
        · cases now

/-- The executions of a list that are not finished are failed one after another, by induction over
the list: those that follow are still as they were listed.
-/
theorem perform_recoverAll (told : ∀ k, IsTime (σ := σ) (clock beyond k))
    {executions : List Execution} (fits : Fits (σ := σ) m)
    (distinct : (executions.map Execution.id).Nodup)
    (listed : ∀ e ∈ executions, m.execution? e.id = some e ∧ ¬ e.status.isTerminal)
    : perform beyond ⟨(view m : σ), n⟩ (recoverAll executions)
        = (.ok executions.length,
            ⟨view (m.failing (timesOf beyond n executions)), n + executions.length⟩)
      ∧ Fits (σ := σ) (m.failing (timesOf beyond n executions)) := by
  induction executions generalizing m n with
  | nil =>
      rw [show timesOf beyond n [] = fun _ => none from rfl, m.failing_none]
      exact ⟨rfl, fits⟩
  | cons e rest ih =>
      obtain ⟨held, unfinished⟩ := listed e List.mem_cons_self
      rw [List.map_cons, List.nodup_cons] at distinct
      obtain ⟨first, fits'⟩ := perform_recoverOne fits held unfinished (told n)
      rw [Memory.failOne_eq _ (Mirror.distinct fits) held unfinished] at first fits'
      have others : ∀ other ∈ rest,
          (m.failing (Memory.only e.id (clock beyond n))).execution? other.id = some other
          ∧ ¬ other.status.isTerminal := by
        intro other member
        have apart : other.id ≠ e.id := fun same =>
          distinct.1 (same ▸ List.mem_map_of_mem member)
        rw [Memory.execution?_failing _ _ (if_neg apart)]
        exact listed other (List.mem_cons_of_mem _ member)
      obtain ⟨next, fits''⟩ := ih (n := n + 1) fits' distinct.2 others
      rw [Memory.failing_failing] at next fits''
      refine ⟨(performs_known first).trans ((performs_known next).trans ?_), fits''⟩
      change (Except.ok (1 + rest.length), Desk.mk _ (n + 1 + rest.length)) = _
      rw [Nat.add_comm 1, List.length_cons, Nat.add_assoc n, Nat.add_comm 1]
      rfl

-----------------------------------------------------------------------------------------
-- The whole recovery
-----------------------------------------------------------------------------------------

/-- The executions in a status, the oldest first. -/
def inStatus (m : Memory) (status : ExecutionStatus) : List Execution :=
  (m.executions.filter (·.status == status)).mergeSort Execution.upTo

theorem mem_inStatus {status : ExecutionStatus} {e : Execution}
    : e ∈ inStatus m status ↔ e ∈ m.executions ∧ e.status = status := by
  rw [inStatus, List.mem_mergeSort, List.mem_filter, beq_iff_eq]

theorem length_inStatus (m : Memory) (status : ExecutionStatus)
    : (inStatus m status).length = m.executions.countP (·.status == status) := by
  rw [inStatus, List.length_mergeSort, List.countP_eq_length_filter]

/-- All executions in a status are failed when it is not a final one. -/
theorem perform_inStatus (told : ∀ k, IsTime (σ := σ) (clock beyond k)) (fits : Fits (σ := σ) m)
    (status : ExecutionStatus) (unfinished : ¬ status.isTerminal)
    : perform beyond ⟨(view m : σ), n⟩ (recoverAll (inStatus m status))
        = (.ok (m.executions.countP (·.status == status)),
            ⟨view (m.failing (timesOf beyond n (inStatus m status))),
              n + m.executions.countP (·.status == status)⟩)
      ∧ Fits (σ := σ) (m.failing (timesOf beyond n (inStatus m status))) := by
  have distinct := (Mirror.distinct fits).sound.executions
  have distinct' : ((inStatus m status).map Execution.id).Nodup := by
    refine ((List.mergeSort_perm _ _).map _).nodup_iff.mpr ?_
    exact (List.filter_sublist.map _).nodup distinct
  rw [← length_inStatus]
  refine perform_recoverAll told fits distinct' fun e member => ?_
  obtain ⟨among, rfl⟩ := mem_inStatus.mp member
  exact ⟨Keyed.find?_of_mem distinct among, unfinished⟩

/-- Failing the executions in one status leaves those in another status that is not final. -/
theorem status_failedAt (distinct : (m.executions.map Execution.id).Nodup) {e : Execution}
    (among : e ∈ m.executions) {status other : ExecutionStatus} (unfinished : ¬ status.isTerminal)
    (apart : status ≠ other)
    : (Memory.failedAt (timesOf beyond n (inStatus m other)) e).status = status
      ↔ e.status = status := by
  unfold Memory.failedAt
  split
  · next time here =>
      have listed := isSome_timesOf.mp (Option.isSome_of_eq_some here)
      obtain ⟨twin, member, same⟩ := List.mem_map.mp listed
      obtain ⟨among', held⟩ := mem_inStatus.mp member
      obtain rfl := List.inj_on_of_nodup_map distinct among' among same
      refine iff_of_false (fun final => unfinished (final ▸ rfl)) fun is => apart (is ▸ held)
  · exact Iff.rfl

/-- The number of executions that are not finished. -/
def unfinished (m : Memory) : Nat :=
  m.executions.countP fun e => e.status == .pending || e.status == .running

/-- The executions in two statuses are counted apart, by induction over all. -/
theorem unfinished_eq (m : Memory)
    : unfinished m
      = m.executions.countP (·.status == .running)
        + m.executions.countP (·.status == .pending) := by
  unfold unfinished
  induction m.executions with
  | nil => rfl
  | cons e rest ih =>
      simp only [List.countP_cons, ih]
      cases e.status <;> simp <;> omega

/-- The recovery fails the running executions, and then the pending ones. -/
theorem perform_recover (told : ∀ k, IsTime (σ := σ) (clock beyond k)) (fits : Fits (σ := σ) m)
    : ∃ times : Uuid → Option Instant,
        (∀ id,
          (times id).isSome
            ↔ ∃ e ∈ m.executions, e.id = id ∧ (e.status = .pending ∨ e.status = .running))
        ∧ (∀ id time, times id = some time → ∃ k, time = clock beyond k)
        ∧ Fits (σ := σ) (m.failing times)
        ∧ perform beyond ⟨(view m : σ), n⟩ recover
          = (.ok (unfinished m), ⟨view (m.failing times), n + unfinished m⟩) := by
  have distinct := (Mirror.distinct fits).sound.executions
  let running := timesOf beyond n (inStatus m .running)
  let count := m.executions.countP (·.status == .running)
  let later := m.failing running
  let pending := timesOf beyond (n + count) (inStatus later .pending)
  obtain ⟨first, fits'⟩ := perform_inStatus (n := n) told fits .running (by decide)
  obtain ⟨second, fits''⟩ := perform_inStatus (n := n + count) told fits' .pending (by decide)
  have same {e : Execution} (among : e ∈ m.executions)
      : (Memory.failedAt running e).status = .pending ↔ e.status = .pending :=
    status_failedAt distinct among (by decide) (by decide)
  have counted : later.executions.countP (·.status == .pending)
      = m.executions.countP (·.status == .pending) := by
    change (m.executions.map _).countP _ = _
    rw [List.countP_map]
    exact List.countP_congr fun e among => by simpa using same among
  refine ⟨fun id => (pending id).or (running id), fun id => ?_, fun id time here => ?_, ?_, ?_⟩
  · rw [Option.isSome_or, Bool.or_eq_true, isSome_timesOf, isSome_timesOf]
    simp only [List.mem_map, mem_inStatus]
    constructor
    · rintro (⟨e, ⟨member, status⟩, rfl⟩ | ⟨e, ⟨among, status⟩, rfl⟩)
      · obtain ⟨old, among, rfl⟩ := List.mem_map.mp member
        exact ⟨old, among, (Memory.id_failedAt running old).symm, .inl ((same among).mp status)⟩
      · exact ⟨e, among, rfl, .inr status⟩
    · rintro ⟨e, among, rfl, status | status⟩
      · refine .inl ⟨Memory.failedAt running e, ⟨List.mem_map_of_mem among, ?_⟩,
          Memory.id_failedAt running e⟩
        exact (same among).mpr status
      · exact .inr ⟨e, ⟨among, status⟩, rfl⟩
  · rcases Option.or_eq_some_iff.mp here with late | ⟨_, early⟩
    · exact told_timesOf late
    · exact told_timesOf early
  · rw [← Memory.failing_failing]
    exact fits''
  · obtain ⟨listed, _⟩ := answer_view fits (.list .running) rfl
    obtain ⟨listed', _⟩ := answer_view fits' (.list .pending) rfl
    rw [← Memory.failing_failing, unfinished_eq, ← counted, ← Nat.add_assoc]
    refine (performs_known (performs_stored listed)).trans ?_
    refine (performs_known first).trans ?_
    refine (performs_known (performs_stored listed')).trans ?_
    exact performs_known second

/-- Nothing is left to be recovered: no execution that has a time is unfinished. -/
theorem unfinished_failing {times : Uuid → Option Instant}
    (named
      : ∀ id,
          (times id).isSome
            ↔ ∃ e ∈ m.executions, e.id = id ∧ (e.status = .pending ∨ e.status = .running))
    : ∀ e ∈ (m.failing times).executions, ¬ (e.status = .pending ∨ e.status = .running) := by
  intro e member left
  obtain ⟨old, among, rfl⟩ := List.mem_map.mp member
  unfold Memory.failedAt at left
  split at left
  · simp at left
  · next none =>
      have some := (named old.id).mpr ⟨old, among, rfl, left⟩
      rw [none] at some
      cases some

/-- What a recovery of a store comes to that shows some records, and another one after it. Each
execution that is not finished is given a time that the clock shows, and is failed then.
-/
structure Recovers {σ : Type} [Store σ] (shown : Memory → σ) (beyond : Beyond) (m : Memory)
    (n : Nat) (times : Uuid → Option Instant) : Prop where
  named
    : ∀ id,
        (times id).isSome
          ↔ ∃ e ∈ m.executions, e.id = id ∧ (e.status = .pending ∨ e.status = .running)
  told : ∀ id time, times id = some time → ∃ k, time = clock beyond k
  first
    : perform beyond ⟨shown m, n⟩ recover
      = (.ok (unfinished m), ⟨shown (m.failing times), n + unfinished m⟩)
  again
    : ∀ later,
        perform beyond ⟨shown (m.failing times), later⟩ recover
          = (.ok 0, ⟨shown (m.failing times), later⟩)

/-- A store that shows what it holds is recovered. -/
theorem exists_recovers (told : ∀ k, IsTime (σ := σ) (clock beyond k)) (fits : Fits (σ := σ) m)
    : ∃ times, Recovers (view : Memory → σ) beyond m n times := by
  obtain ⟨times, named, shown, fits', first⟩ := perform_recover (n := n) told fits
  refine ⟨times, named, shown, first, fun later => ?_⟩
  have finished := unfinished_failing named
  obtain ⟨others, named', _, _, again⟩ := perform_recover (n := later) told fits'
  have none : others = fun _ => none := by
    funext id
    rw [← Option.not_isSome_iff_eq_none, named']
    rintro ⟨e, among, _, left⟩
    exact finished e among left
  have zero : unfinished (m.failing times) = 0 := by
    rw [unfinished, List.countP_eq_zero]
    intro e among
    simpa using finished e among
  rw [again, none, Memory.failing_none, zero]
  rfl

end

/-- A recovery that no one disturbs gives a time to each execution that is not finished, fails it
then with all that hangs on it, leaves all else, and tells how many there were. Another one after
it finds nothing to do. So it is with a store in memory, and with tables that hold its records.
-/
theorem orphans_recovered (beyond : Beyond) (m : Memory) (n : Nat)
    : (m.IsDistinct → ∃ times, Recovers (fun held => held) beyond m n times)
      ∧ (Tables.Shows m
        → (∀ k, (clock beyond k).IsProper)
        → ∃ times, Recovers Tables.copyOf beyond m n times) :=
  ⟨fun distinct => exists_recovers (σ := Memory) (fun _ => trivial) distinct,
    fun shows proper => exists_recovers (σ := Tables) proper shows⟩

/-! A run that was left under way, and one that is over. -/
namespace Leftover

def phase (id execution : Nat) : PhaseRecord :=
  { PhaseRecord.fresh (.ofNat id) (.ofNat execution) 1 0 "" .launchBrowser "" with
    status := .running }

def store : Memory where
  workflows :=
    [{ Workflow.fresh (.ofNat 1) ⟨0, 0, 0⟩ "user" "left" "" with
        lastRunId := some (.ofNat 2), lastRunStatus := some .running }]
  executions :=
    [{ Execution.fresh (.ofNat 2) (.ofNat 1) ⟨0, 0, 0⟩ "user" "" with status := .running },
      { Execution.fresh (.ofNat 3) (.ofNat 1) ⟨0, 0, 0⟩ "user" "" with status := .completed }]
  phases := [phase 4 2, phase 5 3]
  logs := []

/-- A world without time. -/
def still : Beyond
  | .run call, _ => Run.answering Run.obliging (fun _ => .error (.database .cannotOpen)) call []
  | .enlist _, _ => (⟨0⟩ : Token)
  | .dismiss _, _ => ()
  | .cancel _, _ => ()
  | .spawn _ _, _ => ()

theorem shows : Tables.Shows store := by
  refine ⟨⟨by decide, ⟨by decide, by decide⟩, ?_, ?_, ?_, by decide⟩, by decide⟩ <;>
    decide +kernel

end Leftover

/-- The run that was left is failed, and the other one is not. -/
theorem orphans_recovered_leftover
    : (∃ times,
        (times (.ofNat 2)).isSome
        ∧ times (.ofNat 3) = none
        ∧ perform Leftover.still ⟨Leftover.store, 0⟩ recover
          = (.ok 1, ⟨Leftover.store.failing times, 1⟩))
      ∧ ∃ times,
          perform Leftover.still ⟨Tables.copyOf Leftover.store, 0⟩ recover
            = (.ok 1, ⟨Tables.copyOf (Leftover.store.failing times), 1⟩) := by
  have midnight : (⟨0, 0, 0⟩ : Instant).IsProper := by decide +kernel
  have proper : ∀ k, (clock Leftover.still k).IsProper := fun _ => midnight
  have distinct : Leftover.store.IsDistinct :=
    ⟨Leftover.shows.proper.distinct, Leftover.shows.proper.sound⟩
  obtain ⟨inMemory, inTables⟩ := orphans_recovered Leftover.still Leftover.store 0
  obtain ⟨times, recovers⟩ := inMemory distinct
  obtain ⟨times', recovers'⟩ := inTables Leftover.shows proper
  refine ⟨⟨times, ?_, ?_, recovers.first⟩, times', recovers'.first⟩
  · exact (recovers.named _).mpr (by decide)
  · rw [← Option.not_isSome_iff_eq_none, recovers.named]
    decide

end Service

end Harvest

import Harvest.Proofs.Service.Conduct
import Harvest.Proofs.Store.Archive

/-! How the service works while no run of ours is under way. Others leave the records of our phases
then; what a part of the service achieves is composed of what its calls achieve.
-/

namespace Harvest

open Run

namespace Arena

open Realm Program ServiceM

-----------------------------------------------------------------------------------------
-- A new process
-----------------------------------------------------------------------------------------

/-- The arena of a new process, which finds the store as it was left. -/
def restarted {σ : Type} [Ledger σ] (arena : Arena σ) : Arena σ :=
  { arena with supervisor := .empty, past := [] }

variable {σ : Type} [Archive σ]

/-- While nothing of ours runs, others may still ask for stops, but our phases are on record as they
were.
-/
structure Rests (mine : Uuid → Prop) (before after : Arena σ) : Prop
    extends Drifts mine before after where
  records
    : ∀ id, mine id → ∀ entry ∈ Books.roll before.store id,
        recordOf entry.id after.store = recordOf entry.id before.store

theorem Rests.refl {mine : Uuid → Prop} (arena : Arena σ) : Rests mine arena arena :=
  ⟨.refl arena, fun _ _ _ _ => rfl⟩

theorem Rests.trans {mine : Uuid → Prop} {first middle last : Arena σ}
    (one : Rests mine first middle) (two : Rests mine middle last)
    : Rests mine first last where
  toDrifts := one.toDrifts.trans two.toDrifts
  records id ours entry listed := by
    have there : entry ∈ Books.roll middle.store id := (one.alone id ours).roll.symm ▸ listed
    exact (two.records id ours entry there).trans (one.records id ours entry listed)

/-- A request to stop is one of the things that others may do. -/
theorem rests_requestStop (mine : Uuid → Prop) (arena : Arena σ) (id : Uuid)
    : Rests mine arena { arena.answered (.requestStop id) with past := arena.past } where
  toDrifts := drifts_requestStop mine arena id
  records _ _ _ _ := Archive.kept (.requestStop id) arena.sound trivial

/-- Where the service works while nothing of ours runs. -/
def resting (mine : Uuid → Prop) : Realm serviceCalls (Arena σ) :=
  ⟨Serves mine, Rests mine, Rests.refl, Rests.trans⟩

-----------------------------------------------------------------------------------------
-- Parts that may be refused
-----------------------------------------------------------------------------------------

variable {mine : Uuid → Prop} {arena before later : Arena σ} {α β ε : Type}
  {left : α → Arena σ → Prop} {wanted : β → Arena σ → Prop}

/-- The part is done and leaves the arena so, unless the store refuses a call that it counts on. -/
def Achieves (mine : Uuid → Prop) (part : ExceptT ε ServiceM α) (arena : Arena σ)
    (left : α → Arena σ → Prop)
    : Prop :=
  (Arena.resting mine).Safe (fun _ _ _ _ => True)
    (fun result later => Faulted later.past ∨ ∃ value, result = .ok value ∧ left value later)
    (ExceptT.run part) arena

/-- A fault is not taken back, whatever the service does, by induction over the part. -/
theorem safe_of_faulted {program : ServiceM α} (faulted : Faulted arena.past)
    : (Arena.resting mine).Safe (fun _ _ _ _ => True) (fun _ later => Faulted later.past) program
        arena := by
  induction program generalizing arena with
  | done value =>
      intro later rests
      exact Eq.subst (motive := Faulted) rests.past.symm faulted
  | ask call next ih =>
      intro before rests answer later serves
      have still : Faulted before.past := Eq.subst (motive := Faulted) rests.past.symm faulted
      refine ⟨trivial, ih answer ?_⟩
      cases serves with
      | run replies => exact replies.grows.2 ▸ still.append _
      | _ => exact still

/-- Parts are done one after the other. -/
theorem Achieves.bind {part : ExceptT ε ServiceM α} {next : α → ExceptT ε ServiceM β}
    (achieves : Achieves mine part arena left)
    (rest : ∀ value later, left value later → Achieves mine (next value) later wanted)
    : Achieves mine (part >>= next) arena wanted := by
  unfold Achieves
  rw [except_bind]
  refine Safe.followed achieves fun result later done => ?_
  rcases done with faulted | ⟨value, rfl, there⟩
  · exact (safe_of_faulted faulted).mono id fun _ _ => Or.inl
  · exact rest value later there

theorem achieves_pure (value : α) (stays : ∀ later, Rests mine arena later → left value later)
    : Achieves mine (pure value : ExceptT ε ServiceM α) arena left :=
  fun later rests => Or.inr ⟨value, rfl, stays later rests⟩

/-- The store grants what it is asked, or it refuses a call that is counted on. -/
theorem safe_counted (call : StoreCall) (counted : IsCounted call)
    {left : call.Result → Arena σ → Prop}
    (granted
      : ∀ before result later,
          Rests mine arena before
          → (Store.answer call before.store).1 = .ok result
          → Rests mine (before.answered call) later
          → left result later)
    : (Arena.resting mine).Safe (fun _ _ _ _ => True)
        (fun answer later => Faulted later.past ∨ ∃ result, answer = .ok result ∧ left result later)
        (ofRun (RunM.store call)) arena := by
  intro before rests answer middle serves
  refine ⟨trivial, fun later rests' => ?_⟩
  have lost (reason : StoreError) (left : middle = before.after (.store call) (.error reason))
      : Faulted later.past := by
    rw [rests'.past, left]
    exact faulted_of_refused counted reason
  cases serves with
  | run replies =>
      cases replies with
      | store =>
          cases answered : (Store.answer call before.store).1 with
          | error reason => exact Or.inl (lost reason (answered_of_refused answered))
          | ok result =>
              exact Or.inr ⟨result, rfl, granted before result later rests answered rests'⟩
      | fault _ reason => exact Or.inl (lost reason rfl)
      | quiet _ quiet => exact quiet.elim

theorem achieves_tried (call : StoreCall) (counted : IsCounted call)
    {left : call.Result → Arena σ → Prop}
    (granted
      : ∀ before result later,
          Rests mine arena before
          → (Store.answer call before.store).1 = .ok result
          → Rests mine (before.answered call) later
          → left result later)
    : Achieves mine (tried call : ExceptT ε ServiceM call.Answer) arena
        fun answer later => ∃ result, answer = .ok result ∧ left result later := by
  refine Safe.map ((safe_counted call counted granted).mono id fun answer later done => ?_)
  exact done.imp_right fun granted => ⟨answer, rfl, granted⟩

theorem achieves_stored {wrap : StoreError → ε} (call : StoreCall) (counted : IsCounted call)
    {left : call.Result → Arena σ → Prop}
    (granted
      : ∀ before result later,
          Rests mine arena before
          → (Store.answer call before.store).1 = .ok result
          → Rests mine (before.answered call) later
          → left result later)
    : Achieves mine (stored wrap call) arena left := by
  refine Safe.map ((safe_counted call counted granted).mono id fun answer later done => ?_)
  refine done.imp_right ?_
  rintro ⟨result, rfl, there⟩
  exact ⟨result, rfl, there⟩

-----------------------------------------------------------------------------------------
-- Parts that can be carried through
-----------------------------------------------------------------------------------------

/-- The part can be carried through, with all granted that it counts on, and leaves the arena so. -/
def Completes (mine : Uuid → Prop) (part : ExceptT ε ServiceM α) (arena : Arena σ)
    (left : α → Arena σ → Prop)
    : Prop :=
  ∃ value later,
    (Arena.resting mine).Reaches (ExceptT.run part, arena) (.done (.ok value), later)
    ∧ (∃ made, later.past = arena.past ++ made ∧ ∀ happening ∈ made, IsGranted happening)
    ∧ left value later

theorem completes_pure (value : α) (here : left value arena)
    : Completes mine (pure value : ExceptT ε ServiceM α) arena left :=
  ⟨value, arena, .refl, ⟨[], by simp⟩, here⟩

/-- Parts are carried through one after the other. -/
theorem Completes.bind {part : ExceptT ε ServiceM α} {next : α → ExceptT ε ServiceM β}
    (completes : Completes mine part arena left)
    (rest
      : ∀ value later,
          (Arena.resting mine).Reaches (ExceptT.run part, arena) (.done (.ok value), later)
          → left value later
          → Completes mine (next value) later wanted)
    : Completes mine (part >>= next) arena wanted := by
  obtain ⟨value, middle, reached, ⟨made, past, granted⟩, there⟩ := completes
  obtain ⟨result, later, reached', ⟨made', past', granted'⟩, there'⟩ :=
    rest value middle reached there
  refine ⟨result, later, reaches_bind reached reached', ⟨made ++ made', ?_, ?_⟩, there'⟩
  · rw [past', past, List.append_assoc]
  · exact List.forall_mem_append.mpr ⟨granted, granted'⟩

/-- A call can be made when the store grants it as it works it out. -/
theorem Replies.answered {call : StoreCall} {result : call.Result}
    (granted : (Store.answer call arena.store).1 = .ok result)
    : Replies mine (.store call) arena (.ok result) (arena.answered call) := by
  have replies : Replies mine (.store call) arena _ (arena.answered call) := .store call arena
  rwa [granted] at replies

theorem completes_stored {wrap : StoreError → ε} {call : StoreCall} {result : call.Result}
    (granted : (Store.answer call arena.store).1 = .ok result)
    : Completes mine (stored wrap call) arena
        fun value later => value = result ∧ later = arena.answered call := by
  have replies : Replies mine (.store call) arena _ _ := .answered granted
  refine ⟨result, _, .reply (.run replies) .refl, ⟨_, replies.grows.2, ?_⟩, rfl, rfl⟩
  exact List.forall_mem_singleton.mpr fun _ => ⟨result, rfl⟩

theorem completes_tried {call : StoreCall} {result : call.Result}
    (granted : (Store.answer call arena.store).1 = .ok result)
    : Completes mine (tried call : ExceptT ε ServiceM call.Answer) arena
        fun answer later => answer = .ok result ∧ later = arena.answered call := by
  have replies : Replies mine (.store call) arena _ _ := .answered granted
  refine ⟨.ok result, _, .reply (.run replies) .refl, ⟨_, replies.grows.2, ?_⟩, rfl, rfl⟩
  exact List.forall_mem_singleton.mpr fun _ => ⟨result, rfl⟩

theorem completes_now
    : Completes mine (liftM now : ExceptT ε ServiceM Time.Instant) arena
        fun _ later => later.store = arena.store := by
  refine ⟨default, _, .reply (.run (.quiet (.task .now) trivial _ arena)) .refl, ⟨_, rfl, ?_⟩, rfl⟩
  exact List.forall_mem_singleton.mpr trivial

theorem completes_noteLastRun (record : Execution) (status : ExecutionStatus)
    : Completes mine (liftM (ofRun (noteLastRun record status)) : ExceptT ε ServiceM Unit) arena
        fun _ later => ∀ id, Unchanged id arena.store later.store := by
  let note : StoreCall := .recordLastRunStatus record.workflowId record.id status
  have replies : Replies mine (.store note) arena _ (arena.answered note) := .store note arena
  refine ⟨(), _, .reply (.run replies) .refl, ⟨_, replies.grows.2, ?_⟩, ?_⟩
  · exact List.forall_mem_singleton.mpr fun counted => counted.elim
  · exact fun id => unchanged_of_spares trivial

end Arena

end Harvest

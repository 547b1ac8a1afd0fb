import Harvest.Proofs.Run.Parts
import Harvest.Proofs.Store.Ledger
import Harvest.Service.Basic
import Harvest.Service.Supervisor

/-! Where runs take place over any store that keeps its books. The store answers each call as it
works out or fails without doing anything, and the list of runs says who was asked to stop. Of the
identifiers that are ours, others may only have executions stopped.
-/

namespace Harvest

open Relation

/-- A store in good order, the runs under way, the identifiers that were given out here, and what
has been asked so far.
-/
structure Arena (σ : Type) [Ledger σ] where
  store : σ
  sound : Books.Sound store
  supervisor : Supervisor
  given : List Uuid
  past : List (Happening runCalls)

namespace Arena

variable {σ : Type} [Ledger σ]

/-- The arena with one more call in its past. -/
def after (arena : Arena σ) (call : RunCall) (answer : call.Answer) : Arena σ :=
  { arena with past := arena.past ++ [⟨call, answer⟩] }

/-- The arena once the store has answered a call. -/
def answered (arena : Arena σ) (call : StoreCall) : Arena σ :=
  { arena.after (.store call) (Store.answer call arena.store).1 with
    store := (Store.answer call arena.store).2
    sound := (Ledger.handles call arena.sound).sound }

/-- The same arena, its past forgotten. -/
def anew (arena : Arena σ) : Arena σ := { arena with past := [] }

/-- What may be answered to the calls of a run, and what that leaves. -/
inductive Replies (mine : Uuid → Prop)
    : (call : RunCall) → Arena σ → call.Answer → Arena σ → Prop where
  | store (call : StoreCall) (arena : Arena σ)
      : Replies mine (.store call) arena (Store.answer call arena.store).1 (arena.answered call)
  | fault (call : StoreCall) (reason : StoreError) (arena : Arena σ)
      : Replies mine (.store call) arena (.error reason)
          (arena.after (.store call) (.error reason))
  | quiet (call : RunCall) (quiet : call.IsQuiet) (answer : call.Answer) (arena : Arena σ)
      : Replies mine call arena answer (arena.after call answer)
  | emit (event : Event) (arena : Arena σ)
      : Replies mine (.emit event) arena () (arena.after (.emit event) ())
  | isCancelled (token : Token) (arena : Arena σ)
      : Replies mine (.isCancelled token) arena (arena.supervisor.isCancelled token)
          (arena.after (.isCancelled token) (arena.supervisor.isCancelled token))
  | fresh (id : Uuid) (arena : Arena σ) (ours : mine id) (new : id ∉ arena.given)
      (unused : Books.Unused arena.store id)
      : Replies mine .freshId arena id { arena.after .freshId id with given := id :: arena.given }

/-- What may be answered to the calls of the service; its own calls leave the store. -/
inductive Serves (mine : Uuid → Prop)
    : (call : ServiceCall) → Arena σ → call.Answer → Arena σ → Prop where
  | run {call : RunCall} {before after : Arena σ} {answer : call.Answer}
      (replies : Replies mine call before answer after)
      : Serves mine (.run call) before answer after
  | enlist (id : Uuid) (arena : Arena σ)
      : Serves mine (.enlist id) arena (arena.supervisor.enlist id).1
          { arena with supervisor := (arena.supervisor.enlist id).2 }
  | dismiss (id : Uuid) (arena : Arena σ)
      : Serves mine (.dismiss id) arena ()
          { arena with supervisor := arena.supervisor.dismiss id }
  | cancel (id : Uuid) (arena : Arena σ)
      : Serves mine (.cancel id) arena () { arena with supervisor := arena.supervisor.cancel id }
  | spawn (id : Uuid) (token : Token) (arena : Arena σ)
      : Serves mine (.spawn id token) arena ()
          { arena with supervisor := arena.supervisor.spawn id token }

/-- Others leave what is ours alone, and no run that was asked to stop is let go on. -/
structure Drifts (mine : Uuid → Prop) (before after : Arena σ) : Prop where
  given : after.given = before.given
  past : after.past = before.past
  cancelled
    : ∀ token, before.supervisor.isCancelled token → after.supervisor.isCancelled token
  alone : ∀ id, mine id → LeftAlone id before.store after.store

namespace Drifts

variable {mine : Uuid → Prop} {first middle last : Arena σ}

theorem refl (arena : Arena σ) : Drifts mine arena arena :=
  ⟨rfl, rfl, fun _ cancelled => cancelled, fun id _ => .refl id _⟩

theorem trans (one : Drifts mine first middle) (two : Drifts mine middle last)
    : Drifts mine first last where
  given := two.given.trans one.given
  past := two.past.trans one.past
  cancelled token cancelled := two.cancelled token (one.cancelled token cancelled)
  alone id ours := (one.alone id ours).trans (two.alone id ours)

/-- What is ours and finished stays so. -/
theorem isFinished (drifts : Drifts mine first last) {id : Uuid} (ours : mine id)
    (ended : IsFinished id first.store)
    : IsFinished id last.store :=
  ended.unchanged ((drifts.alone id ours).finished ended)

end Drifts

/-- Where runs take place. -/
def running (mine : Uuid → Prop) : Realm runCalls (Arena σ) :=
  ⟨Replies mine, Drifts mine, Drifts.refl, Drifts.trans⟩

/-- Where the service works. -/
def serving (mine : Uuid → Prop) : Realm serviceCalls (Arena σ) :=
  ⟨Serves mine, Drifts mine, Drifts.refl, Drifts.trans⟩

-----------------------------------------------------------------------------------------
-- Replies read backwards
-----------------------------------------------------------------------------------------

section

variable {mine : Uuid → Prop} {before later : Arena σ}

/-- A call that the store refuses leaves the store. -/
theorem answered_of_refused {call : StoreCall} {reason : StoreError} {arena : Arena σ}
    (refused : (Store.answer call arena.store).1 = .error reason)
    : arena.answered call = arena.after (.store call) (.error reason) := by
  have same := (Ledger.handles call arena.sound).refused refused
  obtain ⟨store, sound, supervisor, given, past⟩ := arena
  simp only [answered, after, same, refused]

/-- A call of the store is granted and has its effect, or it fails and leaves the store. -/
theorem Replies.store_inv {call : StoreCall} {answer : call.Answer}
    (replies : Replies mine (.store call) before answer later)
    : (∃ result,
        answer = .ok result
        ∧ later = before.answered call
        ∧ later.past = before.past ++ [⟨.store call, answer⟩]
        ∧ call.Effect result before.store later.store)
      ∨ ∃ reason, answer = .error reason ∧ later = before.after (.store call) answer := by
  have handled := Ledger.handles call before.sound
  cases replies with
  | store =>
      cases answered : (Store.answer call before.store).1 with
      | ok result =>
          refine Or.inl ⟨result, rfl, rfl, ?_, handled.effect answered⟩
          rw [← answered]
          rfl
      | error reason =>
          exact Or.inr ⟨reason, rfl, answered_of_refused answered⟩
  | fault _ reason => exact Or.inr ⟨reason, rfl, rfl⟩
  | quiet _ quiet => exact quiet.elim

theorem Replies.quiet_inv {call : RunCall} {answer : call.Answer} (quiet : call.IsQuiet)
    (replies : Replies mine call before answer later)
    : later = before.after call answer := by
  cases replies with
  | quiet => rfl
  | _ => exact quiet.elim

theorem Replies.emit_inv {event : Event} {answer : Unit}
    (replies : Replies mine (.emit event) before answer later)
    : later = before.after (.emit event) () := by
  cases replies with
  | emit => rfl
  | quiet _ quiet => exact quiet.elim

theorem Replies.isCancelled_inv {token : Token} {answer : Bool}
    (replies : Replies mine (.isCancelled token) before answer later)
    : answer = before.supervisor.isCancelled token
      ∧ later = before.after (.isCancelled token) answer := by
  cases replies with
  | isCancelled => exact ⟨rfl, rfl⟩
  | quiet _ quiet => exact quiet.elim

theorem Replies.fresh_inv {id : Uuid} (replies : Replies mine .freshId before id later)
    : mine id
      ∧ id ∉ before.given
      ∧ Books.Unused before.store id
      ∧ later = { before.after .freshId id with given := id :: before.given } := by
  cases replies with
  | fresh _ _ ours new unused => exact ⟨ours, new, unused, rfl⟩
  | quiet _ quiet => exact quiet.elim

/-- What a store becomes when it grants a call is sound. -/
theorem sound_of_granted {call : StoreCall} {arena : Arena σ} {result : call.Result} {store : σ}
    (granted : Store.answer call arena.store = (.ok result, store))
    : Books.Sound store := by
  obtain rfl : (Store.answer call arena.store).2 = store := congrArg Prod.snd granted
  exact (Ledger.handles call arena.sound).sound

/-- A call is granted as the store works it out. -/
theorem Replies.granted (call : StoreCall) (arena : Arena σ) {result : call.Result} {store : σ}
    (granted : Store.answer call arena.store = (.ok result, store))
    : Replies mine (.store call) arena (.ok result)
        { arena.after (.store call) (.ok result) with
          store := store
          sound := sound_of_granted granted } := by
  have replies : Replies mine (.store call) arena _ _ := .store call arena
  have left : arena.answered call
      = { arena.after (.store call) (.ok result) with
          store := store
          sound := sound_of_granted granted } := by
    simp only [answered, after, granted]
  rwa [left, granted] at replies

theorem Replies.looked (token : Token) (arena : Arena σ) {answer : Bool}
    (same : arena.supervisor.isCancelled token = answer)
    : Replies mine (.isCancelled token) arena answer (arena.after (.isCancelled token) answer) :=
  same ▸ .isCancelled token arena

/-- Whatever is answered to the run, no stop is taken back and the call is in the past. -/
theorem Replies.grows {call : RunCall} {answer : call.Answer}
    (replies : Replies mine call before answer later)
    : later.supervisor = before.supervisor ∧ later.past = before.past ++ [⟨call, answer⟩] := by
  cases replies <;> exact ⟨rfl, rfl⟩

end

-----------------------------------------------------------------------------------------
-- Requests to stop
-----------------------------------------------------------------------------------------

/-- A request to stop an execution leaves every execution alone but for the flag that it may
raise, by cases on whether it is granted.
-/
theorem leftAlone_requestStop {store : σ} (sound : Books.Sound store) (wanted id : Uuid)
    : LeftAlone id store (Store.answer (.requestStop wanted) store).2 := by
  have handled := Ledger.handles (.requestStop wanted) sound
  cases answered : (Store.answer (.requestStop wanted) store).1 with
  | error reason =>
      rw [handled.refused answered]
      exact .refl id store
  | ok result =>
      obtain ⟨⟨old, held, unfinished, raised⟩, roll, unused⟩ := handled.effect answered
      by_cases here : wanted = id
      · subst here
        refine ⟨Or.inr ⟨old, held, unfinished, raised⟩, roll, unused wanted, ?_⟩
        rintro ⟨standing, held', terminal⟩
        rw [held, Option.some.injEq] at held'
        exact absurd (held' ▸ terminal) unfinished
      · have same : Unchanged id store _ := handled.frame here
        exact ⟨Or.inl same.standing, same.roll, unused id, fun _ => same⟩

/-- So it is one of the things that others may do. -/
theorem drifts_requestStop (mine : Uuid → Prop) (arena : Arena σ) (id : Uuid)
    : Drifts mine arena { arena.answered (.requestStop id) with past := arena.past } where
  given := rfl
  past := rfl
  cancelled _ cancelled := cancelled
  alone other _ := leftAlone_requestStop arena.sound id other

end Arena

end Harvest

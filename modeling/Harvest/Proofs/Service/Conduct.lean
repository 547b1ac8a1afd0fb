import Harvest.Proofs.Run.Conduct

/-! How the service conducts itself over any store. Whatever it asks for, an execution that is
finished does not change, and the identifiers that it was given stay its own until it uses them.
-/

namespace Harvest

/-- The call is about the list of runs and has nothing to do with the store. -/
def ServiceCall.IsOwn : ServiceCall → Prop
  | .run _ => False
  | _ => True

/-- The call touches no execution and none of its phases. -/
def RunCall.IsIdle : RunCall → Prop
  | .store call => call.IsIdle
  | _ => True

theorem ask_idle (call : RunCall) (idle : call.IsIdle) : (RunM.ask call).Only RunCall.IsIdle :=
  .ask idle .done

namespace Arena

open Realm Program ServiceM

variable {σ : Type} [Ledger σ] {mine : Uuid → Prop} {arena : Arena σ} {ids : List Uuid}
  {finished : Uuid} {α β ε : Type} {wanted : β → Arena σ → Prop}
  {keeps : (call : ServiceCall) → Arena σ → call.Answer → Arena σ → Prop}

-----------------------------------------------------------------------------------------
-- Finished executions
-----------------------------------------------------------------------------------------

/-- If the execution is finished, the call does not change it. -/
def Preserves (finished : Uuid) (call : ServiceCall) (before : Arena σ) (_ : call.Answer)
    (later : Arena σ) : Prop :=
  IsFinished finished before.store → Unchanged finished before.store later.store

theorem unchanged_of_spares {call : StoreCall} {before : Arena σ}
    (spares : call.Spares finished before.store)
    : Unchanged finished before.store (before.answered call).store :=
  (Ledger.handles call before.sound).frame spares

/-- What a call spares is unchanged, whatever is answered. -/
theorem Replies.spared {call : StoreCall} {before later : Arena σ} {answer : call.Answer}
    (replies : Replies mine (.store call) before answer later) {id : Uuid}
    (spares : call.Spares id before.store)
    : Unchanged id before.store later.store := by
  cases replies with
  | store => exact unchanged_of_spares spares
  | _ => exact .refl id before.store

/-- An idle call leaves every execution. -/
theorem Replies.unchanged {call : RunCall} {before later : Arena σ} {answer : call.Answer}
    (replies : Replies mine call before answer later) (idle : call.IsIdle) (id : Uuid)
    : Unchanged id before.store later.store := by
  cases call with
  | store call => exact replies.spared (idle.spares id before.store)
  | _ =>
      cases replies
      all_goals exact .refl id before.store

/-- A call that leaves what is finished when it is granted preserves it; a refusal leaves all. -/
theorem preserves_of_leaves {call : StoreCall}
    (leaves
      : ∀ before,
          Drifts mine arena before
          → IsFinished finished before.store
          → Unchanged finished before.store (before.answered call).store)
    : ∀ before answer later,
        Drifts mine arena before
        → Replies mine (.store call) before answer later
        → Preserves finished (.run (.store call)) before answer later := by
  intro before answer later drifts replies
  rcases replies.store_inv with ⟨_, _, rfl, _⟩ | ⟨_, _, rfl⟩
  · exact leaves before drifts
  · exact fun _ => .refl finished before.store

/-- A call that spares what is finished preserves it. -/
theorem preserves_of_spares {call : StoreCall} (spares : ∀ store : σ, call.Spares finished store)
    : ∀ before answer later,
        Drifts mine arena before
        → Replies mine (.store call) before answer later
        → Preserves finished (.run (.store call)) before answer later :=
  fun before _ _ _ replies _ => replies.spared (spares before.store)

/-- An idle call preserves what is finished. -/
theorem preserves_of_idle {call : RunCall} (idle : call.IsIdle)
    : ∀ (before : Arena σ) answer later,
        Replies mine call before answer later
        → Preserves finished (.run call) before answer later :=
  fun _ _ _ replies _ => replies.unchanged idle finished

/-- A run that keeps its promise preserves what is finished, by cases on the call. -/
theorem preserves_of_proper {charge : Run.Charge} {call : RunCall} {before later : Arena σ}
    {answer : call.Answer} (replies : Replies mine call before answer later)
    (proper : charge.Proper call before answer later)
    : Preserves finished (.run call) before answer later := by
  intro ended
  cases replies with
  | store call => exact proper.1.unchanged before.sound ended
  | fresh => exact proper.elim
  | _ => exact .refl finished before.store

/-- A safe run is safe as a part of the service, by induction over the run. -/
theorem safe_ofRun {keeps : (call : RunCall) → Arena σ → call.Answer → Arena σ → Prop}
    {promised : (call : ServiceCall) → Arena σ → call.Answer → Arena σ → Prop}
    {program : RunM α} {wanted : α → Arena σ → Prop}
    (safe : (Arena.running mine).Safe keeps wanted program arena)
    (kept
      : ∀ {call before answer later},
          Replies mine call before answer later
          → keeps call before answer later
          → promised (.run call) before answer later)
    : (Arena.serving mine).Safe promised wanted (ofRun program) arena := by
  induction program generalizing arena with
  | done value => exact safe
  | ask call next ih =>
      intro before drifts answer later serves
      cases serves with
      | run replies =>
          obtain ⟨keep, rest⟩ := safe before drifts answer later replies
          exact ⟨kept replies keep, ih answer rest⟩

/-- What is about the list of runs leaves the store. -/
theorem safe_alone (call : ServiceCall) (own : call.IsOwn) {next : call.Answer → ServiceM β}
    (safe
      : ∀ before answer later,
          Drifts mine arena before
          → later.store = before.store
          → (Arena.serving mine).Safe (Preserves finished) wanted (next answer) later)
    : (Arena.serving mine).Safe (Preserves finished) wanted ((ask call).bind next) arena := by
  intro before drifts answer later serves
  have same : later.store = before.store := by
    cases serves with
    | run => exact own.elim
    | _ => rfl
  exact ⟨fun _ => same ▸ .refl finished before.store, safe before answer later drifts same⟩

/-- The store is asked something that keeps a promise; it grants or refuses. -/
theorem safe_asked (call : StoreCall) {next : call.Answer → ServiceM β}
    (kept
      : ∀ before answer later,
          Drifts mine arena before
          → Replies mine (.store call) before answer later
          → keeps (.run (.store call)) before answer later)
    (granted
      : ∀ before result,
          Drifts mine arena before
          → call.Effect result before.store (before.answered call).store
          → (Arena.serving mine).Safe keeps wanted (next (.ok result)) (before.answered call))
    (refused
      : ∀ before reason,
          Drifts mine arena before
          → (Arena.serving mine).Safe keeps wanted (next (.error reason))
              (before.after (.store call) (.error reason)))
    : (Arena.serving mine).Safe keeps wanted ((ofRun (RunM.store call)).bind next) arena := by
  intro before drifts answer later serves
  cases serves with
  | run replies =>
      refine ⟨kept before answer later drifts replies, ?_⟩
      rcases replies.store_inv with ⟨result, rfl, rfl, _, effect⟩ | ⟨reason, rfl, rfl⟩
      · exact granted before result drifts effect
      · exact refused before reason drifts

/-- The store is asked, and a refusal is the end. -/
theorem safe_stored {wrap : StoreError → ε} (call : StoreCall)
    {next : call.Result → ExceptT ε ServiceM β} {wanted : Except ε β → Arena σ → Prop}
    (kept
      : ∀ before answer later,
          Drifts mine arena before
          → Replies mine (.store call) before answer later
          → keeps (.run (.store call)) before answer later)
    (refused : ∀ reason later, wanted (.error reason) later)
    (granted
      : ∀ before result,
          Drifts mine arena before
          → call.Effect result before.store (before.answered call).store
          → (Arena.serving mine).Safe keeps wanted (ExceptT.run (next result))
              (before.answered call))
    : (Arena.serving mine).Safe keeps wanted (ExceptT.run (stored wrap call >>= next)) arena := by
  refine safe_asked call kept granted ?_
  intro before reason _ later _
  exact refused _ later

theorem safe_now {next : Time.Instant → ServiceM β}
    (kept
      : ∀ before time later,
          Replies mine (.task .now) before time later
          → keeps (.run (.task .now)) before time later)
    (safe
      : ∀ before time,
          Drifts mine arena before
          → (Arena.serving mine).Safe keeps wanted (next time) (before.after (.task .now) time))
    : (Arena.serving mine).Safe keeps wanted (now.bind next) arena := by
  intro before drifts time later serves
  cases serves with
  | run replies =>
      refine ⟨kept before time later replies, ?_⟩
      obtain rfl := replies.quiet_inv (by trivial)
      exact safe before time drifts

/-- What is finished is finished when a safe part has ended, by induction over the part. -/
theorem safe_finished {program : ServiceM β} (ours : mine finished)
    (safe : (Arena.serving mine).Safe (Preserves finished) wanted program arena)
    (ended : IsFinished finished arena.store)
    : (Arena.serving mine).Safe (Preserves finished)
        (fun value later => wanted value later ∧ IsFinished finished later.store)
        program arena := by
  induction program generalizing arena with
  | done value => exact fun later drifts => ⟨safe later drifts, drifts.isFinished ours ended⟩
  | ask call next ih =>
      intro before drifts answer later serves
      obtain ⟨preserves, rest⟩ := safe before drifts answer later serves
      have still := drifts.isFinished ours ended
      exact ⟨preserves, ih answer rest (still.unchanged (preserves still))⟩

-----------------------------------------------------------------------------------------
-- Reserved identifiers
-----------------------------------------------------------------------------------------

/-- The identifiers are ours, were given out here and are not used yet. -/
structure Reserved (mine : Uuid → Prop) (ids : List Uuid) (arena : Arena σ) : Prop where
  distinct : ids.Nodup
  ours : ∀ id ∈ ids, mine id
  given : ∀ id ∈ ids, id ∈ arena.given
  unused : ∀ id ∈ ids, Books.Unused arena.store id

/-- Others do not use what was given out here. -/
theorem Reserved.drift {later : Arena σ} (reserved : Reserved mine ids arena)
    (drifts : Drifts mine arena later)
    : Reserved mine ids later where
  distinct := reserved.distinct
  ours := reserved.ours
  given id member := drifts.given ▸ reserved.given id member
  unused id member := (drifts.alone id (reserved.ours id member)).unused (reserved.unused id member)

theorem Reserved.after (reserved : Reserved mine ids arena) (call : RunCall) (answer : call.Answer)
    : Reserved mine ids (arena.after call answer) :=
  ⟨reserved.distinct, reserved.ours, reserved.given, reserved.unused⟩

/-- A fresh identifier is reserved with the others. -/
theorem safe_freshId (reserved : Reserved mine ids arena) {next : Uuid → ServiceM β}
    (kept
      : ∀ before id later,
          Replies mine .freshId before id later
          → keeps (.run .freshId) before id later)
    (safe
      : ∀ id later,
          Reserved mine (id :: ids) later
          → (Arena.serving mine).Safe keeps wanted (next id) later)
    : (Arena.serving mine).Safe keeps wanted (freshId.bind next) arena := by
  intro before drifts id later serves
  have free := reserved.drift drifts
  cases serves with
  | run replies =>
      refine ⟨kept before id later replies, ?_⟩
      obtain ⟨ours, new, unused, rfl⟩ := replies.fresh_inv
      refine safe id _ ⟨?_, ?_, ?_, ?_⟩
      · exact List.nodup_cons.mpr ⟨fun old => new (free.given id old), free.distinct⟩
      · exact List.forall_mem_cons.mpr ⟨ours, free.ours⟩
      · refine List.forall_mem_cons.mpr ⟨List.mem_cons_self, fun other member => ?_⟩
        exact List.mem_cons_of_mem _ (free.given other member)
      · exact List.forall_mem_cons.mpr ⟨unused, free.unused⟩

/-- A record under reserved identifiers has nothing to do with an execution that is there. -/
theorem Reserved.apart (reserved : Reserved mine ids arena) {id : Uuid} (member : id ∈ ids)
    {other : Uuid} {standing : Standing}
    (held : Books.standing? arena.store other = some standing)
    : id ≠ other := by
  rintro rfl
  rw [Ledger.unused (reserved.unused id member)] at held
  cases held

end Arena

end Harvest

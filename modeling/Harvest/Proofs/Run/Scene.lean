import Harvest.Proofs.Program.Realm
import Harvest.Proofs.Store.Records
import Harvest.Service.Basic

/-! Where runs take place: a store in memory that answers every call as it is asked to, and
everything else that may answer anything. Others keep what goes by identifiers that were given
out here, except that they may request stops.
-/

namespace Harvest

/-- A store, the identifiers that were given out, and what has been asked so far. -/
structure Scene where
  store : Memory
  given : List Uuid
  past : List (Happening runCalls)

/-- The calls that have no part in the store. -/
def RunCall.IsOutside : RunCall → Prop
  | .store _ => False
  | .freshId => False
  | _ => True

namespace Scene

/-- The scene with one more call in its past. -/
def after (scene : Scene) (call : RunCall) (answer : call.Answer) : Scene :=
  { scene with past := scene.past ++ [⟨call, answer⟩] }

/-- The scene of a store before anything was asked. -/
def start (store : Memory) : Scene := ⟨store, [], []⟩

/-- The same scene, its past forgotten. -/
def anew (scene : Scene) : Scene := { scene with past := [] }

/-- Others keep what goes by the identifiers that were given out. -/
structure Drifts (before after : Scene) : Prop where
  given : after.given = before.given
  past : after.past = before.past
  kept : ∀ id ∈ before.given, Memory.Keeps id before.store after.store

/-- What may be answered to the calls of a run, and what scene that leaves. -/
inductive Replies : (call : RunCall) → Scene → call.Answer → Scene → Prop where
  | store (call : StoreCall) (scene : Scene)
      : Replies (.store call) scene (Memory.answer call scene.store).1
          { scene.after (.store call) (Memory.answer call scene.store).1 with
            store := (Memory.answer call scene.store).2 }
  | fresh (id : Uuid) (scene : Scene) (new : id ∉ scene.given) (unused : scene.store.Unused id)
      : Replies .freshId scene id
          { scene.after .freshId id with given := id :: scene.given }
  | outside (call : RunCall) (outside : call.IsOutside) (answer : call.Answer) (scene : Scene)
      : Replies call scene answer (scene.after call answer)

/-- What may be answered to the calls of the service; its own calls leave the store. -/
inductive Serves : (call : ServiceCall) → Scene → call.Answer → Scene → Prop where
  | run {call : RunCall} {before after : Scene} {answer : call.Answer}
      (replies : Replies call before answer after)
      : Serves (.run call) before answer after
  | enlist (id : Uuid) (token : Token) (scene : Scene) : Serves (.enlist id) scene token scene
  | dismiss (id : Uuid) (scene : Scene) : Serves (.dismiss id) scene () scene
  | cancel (id : Uuid) (scene : Scene) : Serves (.cancel id) scene () scene
  | spawn (id : Uuid) (token : Token) (scene : Scene) : Serves (.spawn id token) scene () scene

/-- A scene drifts to itself. -/
theorem Drifts.refl (scene : Scene) : Drifts scene scene := ⟨rfl, rfl, fun id _ => .refl id _⟩

/-- What drifts twice has drifted. -/
theorem Drifts.trans {first middle last : Scene} (one : Drifts first middle)
    (two : Drifts middle last)
    : Drifts first last where
  given := two.given.trans one.given
  past := two.past.trans one.past
  kept id member := (one.kept id member).trans (two.kept id (one.given ▸ member))

/-- The scene shows an execution and its phases, whose identifiers were given out here. -/
structure Shows (scene : Scene) (execution : Execution) (records : List PhaseRecord) : Prop where
  stored : scene.store.Shows execution records
  ours : ∀ id ∈ execution.id :: records.map (·.id), id ∈ scene.given

namespace Shows

variable {scene later : Scene} {execution : Execution} {records : List PhaseRecord}

/-- Others leave what is shown. -/
theorem drift (shows' : scene.Shows execution records) (drifts : Drifts scene later)
    : later.Shows execution records where
  stored := by
    refine shows'.stored.of_keeps (drifts.kept _ (shows'.ours _ List.mem_cons_self)) ?_
    intro record member
    have ours : record.id ∈ scene.given :=
      shows'.ours _ (List.mem_cons_of_mem _ (List.mem_map_of_mem member))
    exact (drifts.kept _ ours).phase
  ours id member := drifts.given ▸ shows'.ours id member

/-- What is shown does not depend on the past. -/
theorem after (shows' : scene.Shows execution records) (call : RunCall) (answer : call.Answer)
    : (scene.after call answer).Shows execution records := ⟨shows'.stored, shows'.ours⟩

end Shows

/-- A call of the store is answered in the way that the store works out. -/
theorem Replies.stored (call : StoreCall) (scene : Scene)
    {answer : Except StoreError call.Result} {store : Memory}
    (answered : Memory.answer call scene.store = (answer, store))
    : Replies (.store call) scene answer
        { scene.after (.store call) answer with store := store } := by
  have replies := Replies.store call scene
  rwa [answered] at replies

/-- A call outside the store adds itself to the past and nothing else. -/
theorem Replies.outside_inv {call : RunCall} {before later : Scene} {answer : call.Answer}
    (outside : call.IsOutside) (replies : Replies call before answer later)
    : later = before.after call answer := by
  cases replies with
  | store => exact outside.elim
  | fresh => exact outside.elim
  | outside => rfl

/-- A call of the store is answered by the store. -/
theorem Replies.store_inv {call : StoreCall} {before later : Scene} {answer : call.Answer}
    (replies : Replies (.store call) before answer later)
    : answer = (Memory.answer call before.store).1
      ∧ later = { before.after (.store call) answer with
          store := (Memory.answer call before.store).2 } := by
  cases replies with
  | store => exact ⟨rfl, rfl⟩
  | outside _ outside => exact outside.elim

/-- An identifier is given out that nothing went by. -/
theorem Replies.fresh_inv {before later : Scene} {id : Uuid}
    (replies : Replies .freshId before id later)
    : id ∉ before.given
      ∧ before.store.Unused id
      ∧ later = { before.after .freshId id with given := id :: before.given } := by
  cases replies with
  | fresh _ _ new unused => exact ⟨new, unused, rfl⟩
  | outside _ outside => exact outside.elim

end Scene

/-- The execution and its phases as they are created: nothing has become of them yet, and the
phases are in plan order.
-/
structure IsFresh (execution : Execution) (phases : List PhaseRecord) : Prop where
  pending : execution.status = .pending
  unpaid : execution.credits = 0
  created
    : ∀ phase ∈ phases,
        phase.status = .created
        ∧ phase.startedAt = none
        ∧ phase.inputs = none
        ∧ phase.outputs = none
  sorted : phases.Pairwise fun a b => a.upTo b

/-- Where runs take place. -/
def runRealm : Realm runCalls Scene :=
  ⟨Scene.Replies, Scene.Drifts, Scene.Drifts.refl, Scene.Drifts.trans⟩

/-- Where the service works. -/
def serviceRealm : Realm serviceCalls Scene :=
  ⟨Scene.Serves, Scene.Drifts, Scene.Drifts.refl, Scene.Drifts.trans⟩

end Harvest

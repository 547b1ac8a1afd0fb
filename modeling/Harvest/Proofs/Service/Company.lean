import Harvest.Proofs.Service.Creation
import Harvest.Proofs.Service.Finished
import Harvest.Proofs.Service.Rejection
import Harvest.Proofs.Service.Conduct
import Harvest.Proofs.Store.Growth

/-! Programs in company. Others act on the store between any two calls, as a rule says that they
may, and keep what was reserved; the store may fail where the rule allows it.
-/

namespace Harvest

/-- The scene once the store has answered a call. -/
def Scene.answered (scene : Scene) (call : StoreCall) : Scene :=
  { scene.after (.store call) (Memory.answer call scene.store).1 with
    store := (Memory.answer call scene.store).2 }

/-- What others may do to a store while some identifiers are reserved, whether the store may fail
without doing anything, and which calls it answers at all.
-/
structure Company where
  acts : List Uuid → Memory → Memory → Prop
  mayFail : Prop
  heeds : StoreCall → Memory → Prop
  spares
    : ∀ {given before after},
        acts given before after
        → ∀ id ∈ given, before.Vacant id → after.Vacant id
  still : ∀ given store, acts given store store
  further
    : ∀ {given first middle last},
        acts given first middle
        → acts given middle last
        → acts given first last

namespace Company

variable (company : Company)

/-- What may be answered to the calls of a run, and what that leaves. -/
inductive Replies : (call : RunCall) → Scene → call.Answer → Scene → Prop where
  | store (call : StoreCall) (scene : Scene) (heeded : company.heeds call scene.store)
      : Replies (.store call) scene (Memory.answer call scene.store).1 (scene.answered call)
  | fault (may : company.mayFail) (call : StoreCall) (reason : StoreError) (scene : Scene)
      : Replies (.store call) scene (.error reason) (scene.after (.store call) (.error reason))
  | fresh (id : Uuid) (scene : Scene) (new : id ∉ scene.given) (vacant : scene.store.Vacant id)
      : Replies .freshId scene id { scene.after .freshId id with given := id :: scene.given }
  | outside (call : RunCall) (outside : call.IsOutside) (answer : call.Answer) (scene : Scene)
      : Replies call scene answer (scene.after call answer)

/-- What may be answered to the calls of the service; its own calls leave the scene. -/
inductive Serves : (call : ServiceCall) → Scene → call.Answer → Scene → Prop where
  | run {call : RunCall} {before after : Scene} {answer : call.Answer}
      (replies : company.Replies call before answer after)
      : Serves (.run call) before answer after
  | own (call : ServiceCall) (own : call.IsOwn) (answer : call.Answer) (scene : Scene)
      : Serves call scene answer scene

/-- Others act on the store, and that is all. -/
structure Drifts (before after : Scene) : Prop where
  given : after.given = before.given
  past : after.past = before.past
  acts : company.acts before.given before.store after.store

theorem Drifts.refl (scene : Scene) : company.Drifts scene scene :=
  ⟨rfl, rfl, company.still _ _⟩

variable {company}

theorem Drifts.trans {first middle last : Scene} (one : company.Drifts first middle)
    (two : company.Drifts middle last)
    : company.Drifts first last :=
  ⟨two.given.trans one.given, two.past.trans one.past,
    company.further one.acts (one.given ▸ two.acts)⟩

variable (company)

/-- Where runs take place in company. -/
def runs : Realm runCalls Scene := ⟨company.Replies, company.Drifts, Drifts.refl company, .trans⟩

/-- Where the service works in company. -/
def serves : Realm serviceCalls Scene :=
  ⟨company.Serves, company.Drifts, Drifts.refl company, .trans⟩

variable {company}

-----------------------------------------------------------------------------------------
-- Replies read backwards
-----------------------------------------------------------------------------------------

/-- A call of the store is answered in the way that the store works out. -/
theorem Replies.stored (call : StoreCall) (scene : Scene) (heeded : company.heeds call scene.store)
    {answer : Except StoreError call.Result} {store : Memory}
    (answered : Memory.answer call scene.store = (answer, store))
    : company.Replies (.store call) scene answer
        { scene.after (.store call) answer with store := store } := by
  have replies := Replies.store call scene heeded
  unfold Scene.answered at replies
  rwa [answered] at replies

/-- A call of the store is answered by the store, or the store fails. -/
theorem Replies.store_inv {call : StoreCall} {before later : Scene} {answer : call.Answer}
    (replies : company.Replies (.store call) before answer later)
    : (company.heeds call before.store
        ∧ answer = (Memory.answer call before.store).1
        ∧ later = before.answered call)
      ∨ (company.mayFail
        ∧ ∃ reason, answer = .error reason ∧ later = before.after (.store call) answer) := by
  cases replies with
  | store _ _ heeded => exact Or.inl ⟨heeded, rfl, rfl⟩
  | fault may _ reason => exact Or.inr ⟨may, reason, rfl, rfl⟩
  | outside _ outside => exact outside.elim

theorem Replies.outside_inv {call : RunCall} {before later : Scene} {answer : call.Answer}
    (outside : call.IsOutside) (replies : company.Replies call before answer later)
    : later = before.after call answer := by
  cases replies with
  | store => exact outside.elim
  | fault => exact outside.elim
  | fresh => exact outside.elim
  | outside => rfl

theorem Replies.fresh_inv {before later : Scene} {id : Uuid}
    (replies : company.Replies .freshId before id later)
    : id ∉ before.given
      ∧ before.store.Vacant id
      ∧ later = { before.after .freshId id with given := id :: before.given } := by
  cases replies with
  | fresh _ _ new vacant => exact ⟨new, vacant, rfl⟩
  | outside _ outside => exact outside.elim

/-- Every call adds itself to the past. -/
theorem Replies.past_eq {call : RunCall} {before later : Scene} {answer : call.Answer}
    (replies : company.Replies call before answer later)
    : later.past = before.past ++ [⟨call, answer⟩] := by
  cases replies <;> rfl

theorem Serves.own_inv {call : ServiceCall} {before later : Scene} {answer : call.Answer}
    (own : call.IsOwn) (serves : company.Serves call before answer later)
    : later = before := by
  cases serves with
  | run => exact own.elim
  | own => rfl

/-- A call that the store refuses leaves the store. -/
theorem answered_of_refused {call : StoreCall} {reason : StoreError} {scene : Scene}
    (refused : (Memory.answer call scene.store).1 = .error reason)
    : scene.answered call = scene.after (.store call) (.error reason) := by
  have same : (Memory.answer call scene.store).2 = scene.store := Steady.refused refused
  obtain ⟨store, given, past⟩ := scene
  simp only [Scene.answered, Scene.after, same, refused]

-----------------------------------------------------------------------------------------
-- Safe parts of the service
-----------------------------------------------------------------------------------------

open Realm Program ServiceM

variable {keeps : (call : ServiceCall) → Scene → call.Answer → Scene → Prop} {scene : Scene}
  {α β ε : Type} {wanted : β → Scene → Prop}

/-- A safe run is safe as a part of the service, by induction over the run. -/
theorem safe_ofRun {promised : (call : RunCall) → Scene → call.Answer → Scene → Prop}
    {program : RunM α} {wanted : α → Scene → Prop}
    (safe : company.runs.Safe promised wanted program scene)
    (kept
      : ∀ {call before answer later},
          promised call before answer later
          → keeps (.run call) before answer later)
    : company.serves.Safe keeps wanted (ofRun program) scene := by
  induction program generalizing scene with
  | done value => exact safe
  | ask call next ih =>
      intro before drifts answer later serves
      cases serves with
      | run replies =>
          obtain ⟨keep, rest⟩ := safe before drifts answer later replies
          exact ⟨kept keep, ih answer rest⟩
      | own _ own => exact own.elim

/-- What is about the list of runs leaves the scene. -/
theorem safe_own (call : ServiceCall) (own : call.IsOwn) {next : call.Answer → ServiceM β}
    (kept : ∀ before answer, keeps call before answer before)
    (safe
      : ∀ before answer,
          company.Drifts scene before
          → company.serves.Safe keeps wanted (next answer) before)
    : company.serves.Safe keeps wanted ((ask call).bind next) scene := by
  intro before drifts answer later serves
  obtain rfl := serves.own_inv own
  exact ⟨kept later answer, safe later answer drifts⟩

/-- A call outside the store adds itself to the past and nothing else. -/
theorem safe_outside (call : RunCall) (outside : call.IsOutside) {next : call.Answer → ServiceM β}
    (kept : ∀ before answer, keeps (.run call) before answer (before.after call answer))
    (safe
      : ∀ before answer,
          company.Drifts scene before
          → company.serves.Safe keeps wanted (next answer) (before.after call answer))
    : company.serves.Safe keeps wanted ((ofRun (RunM.ask call)).bind next) scene := by
  intro before drifts answer later serves
  cases serves with
  | run replies =>
      obtain rfl := replies.outside_inv outside
      exact ⟨kept before answer, safe before answer drifts⟩
  | own _ own => exact own.elim

/-- The store is asked: it grants, or it refuses and leaves all as it was. -/
theorem safe_asked {call : StoreCall} {next : call.Answer → ServiceM β}
    (kept
      : ∀ before answer later,
          company.Drifts scene before
          → company.Replies (.store call) before answer later
          → keeps (.run (.store call)) before answer later)
    (granted
      : ∀ before result,
          company.Drifts scene before
          → company.heeds call before.store
          → (Memory.answer call before.store).1 = .ok result
          → company.serves.Safe keeps wanted (next (.ok result)) (before.answered call))
    (refused
      : ∀ before reason,
          company.Drifts scene before
          → (Memory.answer call before.store).1 = .error reason ∨ company.mayFail
          → company.serves.Safe keeps wanted (next (.error reason))
              (before.after (.store call) (.error reason)))
    : company.serves.Safe keeps wanted ((ofRun (RunM.store call)).bind next) scene := by
  intro before drifts answer later serves
  cases serves with
  | run replies =>
      refine ⟨kept before answer later drifts replies, ?_⟩
      rcases replies.store_inv with ⟨heeded, rfl, rfl⟩ | ⟨may, reason, rfl, rfl⟩
      · cases answered : (Memory.answer call before.store).1 with
        | ok result => exact granted before result drifts heeded answered
        | error reason =>
            rw [answered_of_refused answered]
            exact refused before reason drifts (Or.inl answered)
      · exact refused before reason drifts (Or.inr may)
  | own _ own => exact own.elim

/-- The store is asked, and a refusal is the end. -/
theorem safe_stored {wrap : StoreError → ε} {call : StoreCall}
    {next : call.Result → ExceptT ε ServiceM β} {wanted : Except ε β → Scene → Prop}
    (kept
      : ∀ before answer later,
          company.Drifts scene before
          → company.Replies (.store call) before answer later
          → keeps (.run (.store call)) before answer later)
    (granted
      : ∀ before result,
          company.Drifts scene before
          → company.heeds call before.store
          → (Memory.answer call before.store).1 = .ok result
          → company.serves.Safe keeps wanted (ExceptT.run (next result)) (before.answered call))
    (refused
      : ∀ before reason later,
          company.Drifts scene before
          → company.Drifts (before.after (.store call) (.error reason)) later
          → (Memory.answer call before.store).1 = .error reason ∨ company.mayFail
          → wanted (.error (wrap reason)) later)
    : company.serves.Safe keeps wanted (ExceptT.run (stored wrap call >>= next)) scene :=
  safe_asked kept granted fun before reason drifts told later further =>
    refused before reason later drifts further told

-----------------------------------------------------------------------------------------
-- Safe parts of runs
-----------------------------------------------------------------------------------------

section Runs

variable {promised : (call : RunCall) → Scene → call.Answer → Scene → Prop}

/-- A run asks outside the store, which adds to the past and nothing else. -/
theorem safe_tells (call : RunCall) (outside : call.IsOutside) {next : call.Answer → RunM β}
    (kept
      : ∀ before answer,
          company.Drifts scene before
          → promised call before answer (before.after call answer))
    (safe
      : ∀ before answer,
          company.Drifts scene before
          → company.runs.Safe promised wanted (next answer) (before.after call answer))
    : company.runs.Safe promised wanted (.ask call next) scene := by
  intro before drifts answer later replies
  obtain rfl := replies.outside_inv outside
  exact ⟨kept before answer drifts, safe before answer drifts⟩

/-- A run asks the store: it grants, or it refuses and leaves all as it was. -/
theorem safe_asks (call : StoreCall) {next : call.Answer → RunM β}
    (kept
      : ∀ before answer later,
          company.Drifts scene before
          → company.Replies (.store call) before answer later
          → promised (.store call) before answer later)
    (granted
      : ∀ before result,
          company.Drifts scene before
          → company.heeds call before.store
          → (Memory.answer call before.store).1 = .ok result
          → company.runs.Safe promised wanted (next (.ok result)) (before.answered call))
    (refused
      : ∀ before reason,
          company.Drifts scene before
          → (Memory.answer call before.store).1 = .error reason ∨ company.mayFail
          → company.runs.Safe promised wanted (next (.error reason))
              (before.after (.store call) (.error reason)))
    : company.runs.Safe promised wanted (.ask (.store call) next) scene := by
  intro before drifts answer later replies
  refine ⟨kept before answer later drifts replies, ?_⟩
  rcases replies.store_inv with ⟨heeded, rfl, rfl⟩ | ⟨may, reason, rfl, rfl⟩
  · cases answered : (Memory.answer call before.store).1 with
    | ok result => exact granted before result drifts heeded answered
    | error reason =>
        rw [answered_of_refused answered]
        exact refused before reason drifts (Or.inl answered)
  · exact refused before reason drifts (Or.inr may)

/-- A run that is loaded has read its execution, which is not finished, and later its phases; what
is kept by both calls holds when it fails.
-/
theorem safe_load {id : Uuid} (holds : Scene → Prop) {wanted : Except SetupError β → Scene → Prop}
    {next : Execution × Flow × List PhaseRecord → ExceptT SetupError RunM β}
    (stable : ∀ {before after}, company.Drifts before after → holds before → holds after)
    (keeps
      : ∀ {before} {call : StoreCall} (answer : call.Answer),
          call = .getExecution id ∨ call = .listPhases id
          → (answer = (Memory.answer call before.store).1 ∨ ∃ reason, answer = .error reason)
          → holds before
          → holds (before.after (.store call) answer))
    (kept
      : ∀ {before call} {answer : RunCall.Answer (.store call)} {later},
          call = .getExecution id ∨ call = .listPhases id
          → holds before
          → company.Replies (.store call) before answer later
          → promised (.store call) before answer later)
    (loaded
      : ∀ first execution flow last,
          company.Drifts scene first
          → first.store.execution? id = some execution
          → execution.status.isTerminal = false
          → Flow.parse execution.definition = .ok flow
          → company.Drifts (first.answered (.getExecution id)) last
          → holds last
          → company.runs.Safe promised wanted
              (ExceptT.run (next (execution, flow, last.store.planned id)))
              (last.answered (.listPhases id)))
    (failed : ∀ reason later, holds later → wanted (.error reason) later)
    (start : holds scene)
    : company.runs.Safe promised wanted (ExceptT.run (Run.load id >>= next)) scene := by
  have ends {later : Scene} (held : holds later) (reason : SetupError)
      : company.runs.Safe promised wanted (.done (.error reason)) later :=
    fun last drifts => failed reason last (stable drifts held)
  refine safe_asks (.getExecution id) ?_ ?_ ?_
  · exact fun before answer later drifts => kept (Or.inl rfl) (stable drifts start)
  · intro first execution drifts _ told
    change Execution at execution
    have held : holds (first.answered (.getExecution id)) :=
      keeps _ (Or.inl rfl) (Or.inl rfl) (stable drifts start)
    have stored : first.store.execution? id = some execution := Memory.found_of_elim told
    simp only [pure_eq_done, Program.bind, ExceptT.bindCont]
    cases terminal : execution.status.isTerminal with
    | true => exact ends held _
    | false =>
        cases parsed : Flow.parse execution.definition with
        | error reason => exact ends held _
        | ok flow =>
            refine safe_asks (.listPhases id) ?_ ?_ ?_
            · exact fun before answer later drifts => kept (Or.inr rfl) (stable drifts held)
            · intro last phases further _ told
              cases told
              exact loaded first execution flow last drifts stored terminal parsed further
                (stable further held)
            · intro last reason further _
              exact ends (keeps _ (Or.inr rfl) (Or.inr ⟨reason, rfl⟩) (stable further held)) _
  · intro first reason drifts _
    have held := keeps _ (Or.inl rfl) (Or.inr ⟨reason, rfl⟩) (stable drifts start)
    cases reason <;> exact ends held _

end Runs

-----------------------------------------------------------------------------------------
-- Reserved identifiers
-----------------------------------------------------------------------------------------

/-- The identifiers were given out here and nothing goes by them yet. -/
structure Reserved (ids : List Uuid) (scene : Scene) : Prop where
  distinct : ids.Nodup
  given : ∀ id ∈ ids, id ∈ scene.given
  vacant : ∀ id ∈ ids, scene.store.Vacant id

namespace Reserved

variable {ids : List Uuid} {later : Scene}

theorem nil (scene : Scene) : Reserved [] scene :=
  ⟨.nil, List.forall_mem_nil _, List.forall_mem_nil _⟩

/-- Others do not use what was given out here. -/
theorem drift (reserved : Reserved ids scene) (drifts : company.Drifts scene later)
    : Reserved ids later where
  distinct := reserved.distinct
  given id member := drifts.given ▸ reserved.given id member
  vacant id member :=
    company.spares drifts.acts id (reserved.given id member) (reserved.vacant id member)

theorem after (reserved : Reserved ids scene) (call : RunCall) (answer : call.Answer)
    : Reserved ids (scene.after call answer) :=
  ⟨reserved.distinct, reserved.given, reserved.vacant⟩

end Reserved

/-- The scene with one more identifier given out. -/
def withFresh (scene : Scene) (id : Uuid) : Scene :=
  { scene.after .freshId id with given := id :: scene.given }

/-- A fresh identifier is reserved with the others. -/
theorem safe_freshId {ids : List Uuid} (reserved : Reserved ids scene)
    {next : Uuid → ServiceM β}
    (kept : ∀ before id, keeps (.run .freshId) before id (withFresh before id))
    (safe
      : ∀ before id,
          company.Drifts scene before
          → before.store.Vacant id
          → Reserved (id :: ids) (withFresh before id)
          → company.serves.Safe keeps wanted (next id) (withFresh before id))
    : company.serves.Safe keeps wanted (freshId.bind next) scene := by
  intro before drifts id later serves
  have held := reserved.drift drifts
  cases serves with
  | run replies =>
      obtain ⟨new, vacant, rfl⟩ := replies.fresh_inv
      refine ⟨kept before id, safe before id drifts vacant ⟨?_, ?_, ?_⟩⟩
      · exact List.nodup_cons.mpr ⟨fun old => new (held.given id old), held.distinct⟩
      · refine List.forall_mem_cons.mpr ⟨List.mem_cons_self, fun other member => ?_⟩
        exact List.mem_cons_of_mem _ (held.given other member)
      · exact List.forall_mem_cons.mpr ⟨vacant, held.vacant⟩
  | own _ own => exact own.elim

/-- Phase records are made under reserved identifiers, and what holds meanwhile holds after, by
induction over the nodes.
-/
theorem safe_phaseRecords (catalog : Catalog) (execution : Uuid) (nodes : List (Nat × Node))
    (position : Nat) {ids : List Uuid} (reserved : Reserved ids scene) {holds : Scene → Prop}
    (stable : ∀ {before after}, company.Drifts before after → holds before → holds after)
    (fresh : ∀ {before}, holds before → ∀ id, holds (withFresh before id))
    (kept : ∀ before id, keeps (.run .freshId) before id (withFresh before id))
    (start : holds scene)
    : company.serves.Safe keeps
        (fun phases later =>
          Service.PhasesFor catalog execution position nodes phases
          ∧ Reserved (phases.reverse.map PhaseRecord.id ++ ids) later
          ∧ holds later)
        (Service.phaseRecords catalog execution position nodes) scene := by
  induction nodes generalizing position ids scene with
  | nil =>
      intro later drifts
      exact ⟨.nil position, reserved.drift drifts, stable drifts start⟩
  | cons node nodes ih =>
      obtain ⟨number, node⟩ := node
      refine safe_freshId reserved kept fun before id drifts _ reserved => ?_
      refine (ih (position + 1) reserved (fresh (stable drifts start) id)).followed ?_
      rintro phases later ⟨phasesFor, reserved, held⟩ last drifts
      refine ⟨.cons id number position node phasesFor, ?_, stable drifts held⟩
      simpa [PhaseRecord.fresh] using reserved.drift drifts

-----------------------------------------------------------------------------------------
-- Operations and their parts
-----------------------------------------------------------------------------------------

/-- The parts that operations are made of keep a promise, and what holds before holds after. -/
structure Parts (company : Company)
    (keeps : (call : ServiceCall) → Scene → call.Answer → Scene → Prop) (holds : Scene → Prop)
    : Prop where
  stable : ∀ {before after}, company.Drifts before after → holds before → holds after
  own : ∀ {call : ServiceCall}, call.IsOwn → ∀ before answer, keeps call before answer before
  createWorkflow
    : ∀ {scene} user name definition,
        holds scene
        → company.serves.Safe keeps (fun _ => holds)
            (ExceptT.run (Service.createWorkflow user name definition)) scene
  createExecution
    : ∀ {scene} catalog request,
        holds scene
        → company.serves.Safe keeps (fun _ => holds)
            (ExceptT.run (Service.createExecution catalog request)) scene
  execute
    : ∀ {scene} settings id token,
        holds scene
        → company.serves.Safe keeps (fun _ => holds) (ofRun (Run.execute settings id token)) scene
  stop
    : ∀ {scene} id,
        holds scene
        → company.serves.Safe keeps (fun _ => holds) (ExceptT.run (Service.stop id)) scene
  recover
    : ∀ {scene},
        holds scene
        → company.serves.Safe keeps (fun _ => holds) (ExceptT.run Service.recover) scene

namespace Parts

variable {holds : Scene → Prop} (parts : company.Parts keeps holds)

include parts

theorem done (start : holds scene) {value : α}
    : company.serves.Safe keeps (fun _ => holds) (.done value) scene :=
  fun _ drifts => parts.stable drifts start

theorem run (settings : RunSettings) (id : Uuid) (start : holds scene)
    : company.serves.Safe keeps (fun _ => holds) (ExceptT.run (Service.run settings id)) scene := by
  refine safe_own (.enlist id) trivial (parts.own trivial) fun before token drifts => ?_
  refine (parts.execute settings id token (parts.stable drifts start)).followed ?_
  intro outcome later held
  exact safe_own (.dismiss id) trivial (parts.own trivial)
    fun _ _ drifts => parts.done (parts.stable drifts held)

theorem background (settings : RunSettings) (id : Uuid) (token : Token) (start : holds scene)
    : company.serves.Safe keeps (fun _ => holds) (Service.background settings id token) scene := by
  refine (parts.execute settings id token start).followed fun _ later held => ?_
  exact safe_own (.dismiss id) trivial (parts.own trivial)
    fun _ _ drifts => parts.done (parts.stable drifts held)

theorem trigger (settings : RunSettings) (request : RunRequest) (start : holds scene)
    : company.serves.Safe keeps (fun _ => holds)
        (ExceptT.run (Service.trigger settings request)) scene := by
  unfold Service.trigger
  rw [except_bind]
  refine (parts.createExecution settings.catalog request start).followed fun result later held => ?_
  cases result with
  | error reason => exact parts.done held
  | ok execution =>
      refine safe_own (.enlist execution.id) trivial (parts.own trivial) fun _ token drifts => ?_
      have held := parts.stable drifts held
      exact safe_own (.spawn execution.id token) trivial (parts.own trivial)
        fun _ _ drifts => parts.done (parts.stable drifts held)

theorem triggerAndWait (settings : RunSettings) (request : RunRequest) (start : holds scene)
    : company.serves.Safe keeps (fun _ => holds)
        (ExceptT.run (Service.triggerAndWait settings request)) scene := by
  unfold Service.triggerAndWait
  rw [except_bind, except_adapt, bind_bind]
  refine (parts.createExecution settings.catalog request start).followed fun result later held => ?_
  cases result with
  | error reason => exact parts.done held
  | ok execution =>
      change company.serves.Safe _ _ (ExceptT.run (ExceptT.adapt _ _)) _
      rw [except_adapt]
      exact (parts.run settings execution.id held).followed fun _ _ held => parts.done held

/-- Every operation keeps the promise of its parts, by cases on the operation. -/
theorem operation {part : ServiceM α} (operation : Service.IsOperation part) (start : holds scene)
    : company.serves.Safe keeps (fun _ => holds) part scene := by
  cases operation with
  | createWorkflow user name definition => exact parts.createWorkflow user name definition start
  | createExecution catalog request => exact parts.createExecution catalog request start
  | run settings id => exact parts.run settings id start
  | background settings id token => exact parts.background settings id token start
  | trigger settings request => exact parts.trigger settings request start
  | triggerAndWait settings request => exact parts.triggerAndWait settings request start
  | stop id => exact parts.stop id start
  | recover => exact parts.recover start

end Parts

end Company

end Harvest

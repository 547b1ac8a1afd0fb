import Harvest.Proofs.Run.Errands
import Harvest.Proofs.Service.Company
import Harvest.Proofs.Store.Share

/-! Runs that are under way together, over one store in memory. Their calls and the stops of their
executions follow one another in any order, and every run does and leaves what it would if it were
alone.
-/

namespace Harvest

open Program

-----------------------------------------------------------------------------------------
-- Runs of one execution
-----------------------------------------------------------------------------------------

/-- The call of a run is about its execution, whose phases go by some identifiers, and looks under
its own token.
-/
def RunCall.IsOf (id : Uuid) (token : Token) (phases : List Uuid) : RunCall → Prop
  | .store call => call.IsOf id phases
  | .isCancelled looked => looked = token
  | .freshId => False
  | _ => True

/-- What is a run's errand is about its execution. -/
theorem Run.IsErrand.isOf {execution : Execution} {phases : List PhaseRecord} {token : Token}
    {call : RunCall} (errand : IsErrand execution phases token call) {ids : List Uuid}
    (owned : ∀ phase ∈ phases, phase.executionId = execution.id ∧ phase.id ∈ ids)
    : call.IsOf execution.id token ids := by
  cases errand with
  | step step =>
      cases step with
      | @quiet call quiet =>
          cases call with
          | task => trivial
          | uptime => trivial
          | _ => exact quiet.elim
      | emit => trivial
      | look => rfl
      | read => rfl
      | keep member named same =>
          have home := (congrArg Prod.fst same).trans (owned _ member).1
          exact ⟨home, named ▸ (owned _ member).2⟩
      | log member => exact (owned _ member).2
      | count named => exact named
  | move => rfl
  | replace named => exact named
  | note => rfl

/-- Others keep the store sound and the phases of an execution under their identifiers. -/
def beside (id : Uuid) : Company where
  acts given before after :=
    (before.Sound → after.Sound)
    ∧ after.phaseIds id = before.phaseIds id
    ∧ ∀ other ∈ given, before.Vacant other → after.Vacant other
  mayFail := False
  heeds _ _ := True
  spares acts := acts.2.2
  still _ _ := ⟨fun sound => sound, rfl, fun _ _ vacant => vacant⟩
  further one two :=
    ⟨two.1 ∘ one.1, two.2.1.trans one.2.1, fun id member => two.2.2 id member ∘ one.2.2 id member⟩

namespace Ensemble

/-- The call is about the execution as it is stored. -/
def Abides (id : Uuid) (token : Token) (call : RunCall) (before : Scene) (_ : call.Answer)
    (_ : Scene) : Prop :=
  call.IsOf id token (before.store.phaseIds id)

/-- Every call of a run is about its execution, as long as others keep to theirs. -/
theorem abides_execute (settings : RunSettings) (id : Uuid) (token : Token) {scene : Scene}
    (sound : scene.store.Sound)
    : (beside id).runs.Safe (Abides id token) (fun _ _ => True)
        (Run.execute settings id token) scene := by
  rw [Run.execute_eq]
  refine Company.safe_load (fun scene => scene.store.Sound) (fun drifts => drifts.acts.1)
    (fun _ _ _ sound => sound) ?_ ?_ (fun _ _ _ => trivial) sound
  · rintro _ _ _ _ (rfl | rfl) _ _ <;> rfl
  · intro first execution flow last _ held _ _ _ sound
    obtain rfl : execution.id = id := Memory.key_of_find? held
    let listed := last.store.planned execution.id
    let owns (scene : Scene) : Prop :=
      scene.store.Sound
      ∧ ∀ phase ∈ listed,
          phase.executionId = execution.id ∧ phase.id ∈ scene.store.phaseIds execution.id
    have stable : (beside execution.id).runs.Stable owns := fun drifts held =>
      ⟨drifts.acts.1 held.1, drifts.acts.2.1 ▸ held.2⟩
    have start : owns (last.answered (.listPhases execution.id)) := by
      refine ⟨sound, fun phase member => ?_⟩
      have here : phase ∈ last.store.phasesOf execution.id := List.mem_mergeSort.mp member
      exact ⟨(Memory.mem_planned.mp member).2, List.mem_map_of_mem here⟩
    refine ((Run.proceed_errands settings execution.id token flow).safe stable ?_ start).mono
      (fun kept => kept) fun _ _ _ => trivial
    intro call before answer after errand replies held
    have own := errand.isOf held.2
    refine ⟨own, ?_⟩
    cases replies with
    | store call scene =>
        exact ⟨(Memory.handles call held.1).sound, Memory.phaseIds_answer held.1 own _ ▸ held.2⟩
    | fault may => exact may.elim
    | fresh => exact own.elim
    | outside => exact held

end Ensemble

-----------------------------------------------------------------------------------------
-- Runs together
-----------------------------------------------------------------------------------------

/-- A store and the list of runs, with what is left of the run of each execution and what it has
asked so far.
-/
structure Ensemble where
  store : Memory
  supervisor : Supervisor
  voices : Uuid → RunM (Except SetupError RunOutcome)
  heard : Uuid → List (Happening runCalls)

/-- What can happen about an execution. The next call of its run is answered by the store or by the
list of runs, or it has an outcome, as tasks and clocks have; or a stop of the execution makes one
of its calls.
-/
inductive Move where
  | answer
  | outcome (happening : Happening runCalls)
  | request
  | cancel

/-- The calls of a stop are those of the two moves. -/
theorem Service.stop_only (id : Uuid)
    : (ExceptT.run (Service.stop id)).Only fun (call : ServiceCall) =>
        call = .run (.store (.requestStop id)) ∨ call = .cancel id := by
  refine .ask (.inl rfl) fun requested => ?_
  cases requested with
  | ok => exact .ask (.inr rfl) fun _ => .done _
  | error => exact .done _

/-- The call is answered neither by the store nor by the list of runs. -/
def RunCall.IsForeign : RunCall → Prop
  | .task _ => True
  | .uptime => True
  | .emit _ => True
  | _ => False

theorem RunCall.IsForeign.isOutside {call : RunCall} (foreign : call.IsForeign)
    : call.IsOutside := by
  cases call with
  | store => exact foreign.elim
  | freshId => exact foreign.elim
  | _ => trivial

namespace Supervisor

theorem token?_cancel (supervisor : Supervisor) (id other : Uuid)
    : (supervisor.cancel id).token? other = supervisor.token? other := by
  unfold cancel
  split <;> rfl

/-- A run is asked to stop when its execution is. -/
theorem isCancelled_cancel (supervisor : Supervisor) (id : Uuid) (token : Token)
    : (supervisor.cancel id).isCancelled token
      = (supervisor.isCancelled token || supervisor.token? id == some token) := by
  unfold cancel
  cases listed : supervisor.token? id with
  | none => simp
  | some other =>
      simp only [isCancelled, List.contains_cons, Option.some_beq_some]
      rw [Bool.beq_comm]
      cases supervisor.isShut <;> simp [Bool.or_comm]

end Supervisor

namespace Ensemble

/-- The ensemble once a call of a run is answered. -/
def told (ensemble : Ensemble) (id : Uuid) (call : RunCall) (answer : call.Answer)
    (rest : RunM (Except SetupError RunOutcome))
    : Ensemble :=
  { ensemble with
    voices := Function.update ensemble.voices id rest
    heard := Function.update ensemble.heard id (ensemble.heard id ++ [⟨call, answer⟩]) }

/-- The ensemble with another store. -/
def withStore (ensemble : Ensemble) (store : Memory) : Ensemble := { ensemble with store := store }

/-- The run of an execution waits for the answer to a call. -/
def Awaits (ensemble : Ensemble) (id : Uuid) (call : RunCall)
    (next : call.Answer → RunM (Except SetupError RunOutcome))
    : Prop :=
  ensemble.voices id = Program.ask (S := runCalls) call next

/-- What a move about an execution makes of an ensemble. -/
inductive Plays (id : Uuid) : Move → Ensemble → Ensemble → Prop where
  | store {ensemble : Ensemble} {call : StoreCall}
      {next : call.Answer → RunM (Except SetupError RunOutcome)}
      (waits : ensemble.Awaits id (.store call) next)
      : Plays id .answer ensemble
          ((ensemble.told id (.store call) (Memory.answer call ensemble.store).1
            (next (Memory.answer call ensemble.store).1)).withStore
            (Memory.answer call ensemble.store).2)
  | look {ensemble : Ensemble} {token : Token}
      {next : Bool → RunM (Except SetupError RunOutcome)}
      (waits : ensemble.Awaits id (.isCancelled token) next)
      : Plays id .answer ensemble
          (ensemble.told id (.isCancelled token) (ensemble.supervisor.isCancelled token)
            (next (ensemble.supervisor.isCancelled token)))
  | outcome {ensemble : Ensemble} (call : RunCall) (foreign : call.IsForeign)
      {next : call.Answer → RunM (Except SetupError RunOutcome)}
      (waits : ensemble.Awaits id call next) (answer : call.Answer)
      : Plays id (.outcome ⟨call, answer⟩) ensemble (ensemble.told id call answer (next answer))
  | request (ensemble : Ensemble)
      : Plays id .request ensemble
          (ensemble.withStore (Memory.answer (.requestStop id) ensemble.store).2)
  | cancel (ensemble : Ensemble)
      : Plays id .cancel ensemble
          { ensemble with supervisor := ensemble.supervisor.cancel id }

/-- Some moves lead from one ensemble to another. -/
inductive Performs : Ensemble → List (Uuid × Move) → Ensemble → Prop where
  | nil (ensemble : Ensemble) : Performs ensemble [] ensemble
  | cons {id : Uuid} {move : Move} {moves : List (Uuid × Move)} {first middle last : Ensemble}
      (plays : Plays id move first middle) (rest : Performs middle moves last)
      : Performs first ((id, move) :: moves) last

variable {id other : Uuid} {move : Move} {moves : List (Uuid × Move)} {tokens : Uuid → Token}
  {before after first second last : Ensemble}

/-- A move has one result, for a run waits for one call. -/
theorem Plays.unique (one : Plays id move before first) (two : Plays id move before second)
    : first = second := by
  cases one with
  | store waits =>
      cases two with
      | store waits' =>
          cases waits.symm.trans waits'
          rfl
      | look waits' => cases waits.symm.trans waits'
  | look waits =>
      cases two with
      | store waits' => cases waits.symm.trans waits'
      | look waits' =>
          cases waits.symm.trans waits'
          rfl
  | outcome _ _ waits =>
      cases two with
      | outcome _ _ waits' =>
          cases waits.symm.trans waits'
          rfl
  | request =>
      cases two
      rfl
  | cancel =>
      cases two
      rfl

/-- Moves have one result, by induction over them. -/
theorem Performs.unique (one : before.Performs moves first) (two : before.Performs moves second)
    : first = second := by
  induction one with
  | nil =>
      cases two
      rfl
  | cons plays _ ih =>
      cases two with
      | cons plays' rest =>
          obtain rfl := plays.unique plays'
          exact ih rest

-----------------------------------------------------------------------------------------
-- Order among runs
-----------------------------------------------------------------------------------------

/-- What the run of an execution has before it. -/
def scene (ensemble : Ensemble) (id : Uuid) : Scene := ⟨ensemble.store, [], ensemble.heard id⟩

/-- The store is sound, every token is that of one execution, and every run is about its execution.
-/
structure Orderly (tokens : Uuid → Token) (ensemble : Ensemble) : Prop where
  sound : ensemble.store.Sound
  apart : ∀ id other, ensemble.supervisor.token? id = some (tokens other) → id = other
  abides
    : ∀ id,
        (beside id).runs.Safe (Abides id (tokens id)) (fun _ _ => True) (ensemble.voices id)
          (ensemble.scene id)

variable {call : RunCall} {next : call.Answer → RunM (Except SetupError RunOutcome)}
  {answer : call.Answer} {later : Scene}

/-- The call that a run waits for is about its execution, and so is what follows an answer. -/
theorem Orderly.reply (orderly : Orderly tokens before) (waits : before.Awaits id call next)
    (replies : (beside id).Replies call (before.scene id) answer later)
    : call.IsOf id (tokens id) (before.store.phaseIds id)
      ∧ (beside id).runs.Safe (Abides id (tokens id)) (fun _ _ => True) (next answer) later := by
  have safe := orderly.abides id
  rw [waits] at safe
  exact safe _ (Company.Drifts.refl (beside id) _) answer later replies

/-- A run that does not move stays about its execution. -/
theorem Orderly.rest (orderly : Orderly tokens before) (voice : after.voices id = before.voices id)
    (heard : after.heard id = before.heard id) (sound : after.store.Sound)
    (ids : after.store.phaseIds id = before.store.phaseIds id)
    : (beside id).runs.Safe (Abides id (tokens id)) (fun _ _ => True) (after.voices id)
        (after.scene id) := by
  rw [voice]
  exact (orderly.abides id).drift ⟨rfl, heard, fun _ => sound, ids, nofun⟩

/-- Runs stay in order when one of them is answered. -/
theorem Orderly.told (orderly : Orderly tokens before) (waits : before.Awaits id call next)
    {store : Memory}
    (replies
      : (beside id).Replies call (before.scene id) answer
          ⟨store, [], before.heard id ++ [⟨call, answer⟩]⟩)
    (sound : store.Sound) (ids : ∀ other, store.phaseIds other = before.store.phaseIds other)
    : Orderly tokens ((before.told id call answer (next answer)).withStore store) where
  sound := sound
  apart := orderly.apart
  abides other := by
    by_cases same : other = id
    · subst same
      have safe := (orderly.reply waits replies).2
      simpa only [scene, Ensemble.told, withStore, Function.update_self] using safe
    · exact orderly.rest (Function.update_of_ne same ..) (Function.update_of_ne same ..) sound
        (ids other)

/-- Runs stay in order with every move, by cases on the move. -/
theorem Plays.orderly (plays : Plays id move before after) (orderly : Orderly tokens before)
    : Orderly tokens after := by
  cases plays with
  | @store _ call _ waits =>
      have replies : (beside id).Replies (.store call) (before.scene id) _ _ :=
        .store call (before.scene id) trivial
      have own := (orderly.reply waits replies).1
      exact orderly.told waits replies (Memory.handles call orderly.sound).sound
        (Memory.phaseIds_answer orderly.sound own)
  | look waits =>
      exact orderly.told waits (.outside (.isCancelled _) trivial _ _) orderly.sound fun _ => rfl
  | outcome _ foreign waits =>
      exact orderly.told waits (.outside _ foreign.isOutside _ _) orderly.sound fun _ => rfl
  | request =>
      have own : (StoreCall.requestStop id).IsOf id (before.store.phaseIds id) := rfl
      have sound := (Memory.handles (.requestStop id) orderly.sound).sound
      exact ⟨sound, orderly.apart, fun other =>
        orderly.rest rfl rfl sound (Memory.phaseIds_answer orderly.sound own other)⟩
  | cancel =>
      refine ⟨orderly.sound, fun one other listed => orderly.apart one other ?_, orderly.abides⟩
      rwa [Supervisor.token?_cancel] at listed

-----------------------------------------------------------------------------------------
-- Ensembles that agree on an execution
-----------------------------------------------------------------------------------------

/-- Two ensembles agree on an execution: on what its run has asked and has left to do, on whether it
was asked to stop and on what the store has of it.
-/
structure Along (id : Uuid) (token : Token) (one two : Ensemble) : Prop where
  voice : two.voices id = one.voices id
  heard : two.heard id = one.heard id
  listed : two.supervisor.token? id = one.supervisor.token? id
  cancelled : two.supervisor.isCancelled token = one.supervisor.isCancelled token
  shares : Memory.Shares id one.store two.store

namespace Along

variable {token : Token}

theorem refl (ensemble : Ensemble) : Along id token ensemble ensemble :=
  ⟨rfl, rfl, rfl, rfl, .refl id _⟩

theorem symm (along : Along id token first second) : Along id token second first :=
  ⟨along.voice.symm, along.heard.symm, along.listed.symm, along.cancelled.symm,
    along.shares.symm⟩

theorem trans (one : Along id token first second) (two : Along id token second last)
    : Along id token first last :=
  ⟨two.voice.trans one.voice, two.heard.trans one.heard, two.listed.trans one.listed,
    two.cancelled.trans one.cancelled, one.shares.trans two.shares⟩

/-- Ensembles that agree on an execution still do when its run is answered the same. -/
theorem told (along : Along id token first second) (answer : call.Answer)
    (rest : RunM (Except SetupError RunOutcome)) {store store' : Memory}
    (shares : Memory.Shares id store store')
    : Along id token ((first.told id call answer rest).withStore store)
        ((second.told id call answer rest).withStore store') where
  voice := by simp only [Ensemble.told, withStore, Function.update_self]
  heard := by simp only [Ensemble.told, withStore, Function.update_self, along.heard]
  listed := along.listed
  cancelled := along.cancelled
  shares := shares

end Along

/-- A move about one execution leaves all that is of another, by cases on the move. -/
theorem Plays.along_of_ne (plays : Plays other move before after)
    (orderly : Orderly tokens before) (apart : other ≠ id)
    : Along id (tokens id) before after := by
  have told (call : RunCall) (answer : call.Answer) (rest : RunM (Except SetupError RunOutcome))
      {store : Memory} (shares : Memory.Shares id before.store store)
      : Along id (tokens id) before ((before.told other call answer rest).withStore store) :=
    ⟨Function.update_of_ne apart.symm .., Function.update_of_ne apart.symm .., rfl, rfl, shares⟩
  cases plays with
  | @store _ call _ waits =>
      have own := (orderly.reply waits (.store call (before.scene other) trivial)).1
      exact told _ _ _ (Memory.shares_answer_of_ne orderly.sound own apart)
  | look => exact told _ _ _ (.refl id _)
  | outcome => exact told _ _ _ (.refl id _)
  | request =>
      have own : (StoreCall.requestStop other).IsOf other (before.store.phaseIds other) := rfl
      exact ⟨rfl, rfl, rfl, rfl, Memory.shares_answer_of_ne orderly.sound own apart⟩
  | cancel =>
      refine ⟨rfl, rfl, Supervisor.token?_cancel .., ?_, .refl id _⟩
      have unlisted : before.supervisor.token? other ≠ some (tokens id) :=
        fun listed => apart (orderly.apart other id listed)
      rw [Supervisor.isCancelled_cancel, beq_false_of_ne unlisted, Bool.or_false]

/-- A move about an execution can be made wherever all that is of it agrees, and does the same
there, by cases on the move.
-/
theorem Plays.follow (plays : Plays id move first after) (along : Along id (tokens id) first second)
    (orderly : Orderly tokens first) (orderly' : Orderly tokens second)
    : ∃ later, Plays id move second later ∧ Along id (tokens id) after later := by
  cases plays with
  | @store _ call _ waits =>
      have own := (orderly.reply waits (.store call (first.scene id) trivial)).1
      obtain ⟨same, shares⟩ := along.shares.answer orderly.sound orderly'.sound own
      refine ⟨_, .store (along.voice.trans waits), ?_⟩
      rw [same]
      exact along.told _ _ shares
  | @look _ token _ waits =>
      obtain rfl : token = tokens id :=
        (orderly.reply waits (.outside (.isCancelled token) trivial false _)).1
      refine ⟨_, .look (along.voice.trans waits), ?_⟩
      rw [along.cancelled]
      exact along.told _ _ along.shares
  | outcome call foreign waits answer =>
      exact ⟨_, .outcome call foreign (along.voice.trans waits) answer, along.told _ _ along.shares⟩
  | request =>
      have own : (StoreCall.requestStop id).IsOf id (first.store.phaseIds id) := rfl
      have shares := (along.shares.answer orderly.sound orderly'.sound own).2
      exact ⟨_, .request second, along.voice, along.heard, along.listed, along.cancelled, shares⟩
  | cancel =>
      refine ⟨_, .cancel second, along.voice, along.heard, ?_, ?_, along.shares⟩
      · rw [Supervisor.token?_cancel, Supervisor.token?_cancel, along.listed]
      · rw [Supervisor.isCancelled_cancel, Supervisor.isCancelled_cancel, along.cancelled,
          along.listed]

/-- What is performed about an execution can be performed without the moves about others, and comes
to the same for it, by induction over the moves.
-/
theorem Performs.alone (performs : first.Performs moves last) (id : Uuid)
    (along : Along id (tokens id) first second) (orderly : Orderly tokens first)
    (orderly' : Orderly tokens second)
    : ∃ alone,
        second.Performs (moves.filter (·.1 == id)) alone
        ∧ Along id (tokens id) last alone
        ∧ Orderly tokens last
        ∧ Orderly tokens alone := by
  induction performs generalizing second with
  | nil => exact ⟨second, .nil second, along, orderly, orderly'⟩
  | @cons mover move moves first middle last plays _ ih =>
      by_cases own : mover = id
      · subst own
        obtain ⟨later, plays', along⟩ := plays.follow along orderly orderly'
        obtain ⟨alone, performs, ends⟩ :=
          ih along (plays.orderly orderly) (plays'.orderly orderly')
        have kept : ((mover, move) :: moves).filter (·.1 == mover)
            = (mover, move) :: moves.filter (·.1 == mover) :=
          List.filter_cons_of_pos (beq_self_eq_true mover)
        exact ⟨alone, kept ▸ .cons plays' performs, ends⟩
      · have along := (plays.along_of_ne orderly own).symm.trans along
        have left : ((mover, move) :: moves).filter (·.1 == id) = moves.filter (·.1 == id) :=
          List.filter_cons_of_neg (by simpa using own)
        exact left ▸ ih along (plays.orderly orderly) orderly'

end Ensemble

/-- Runs that are under way together do not disturb each other. Whatever moves are made about any
executions and in whatever order, those about one execution can be made alone, with the same
outcomes of its tasks and the same readings of its clocks, and come to one end. The run of the
execution has then asked the same and was answered the same, events and calls of executors included,
and has the same left to do; and the store tells the same of the execution, of its phases and of
their logs, up to the last timestamp.
-/
theorem runs_apart {settings : RunSettings} {tokens : Uuid → Token} {start last : Ensemble}
    {moves : List (Uuid × Move)} (sound : start.store.Sound)
    (begins : ∀ id, start.voices id = Run.execute settings id (tokens id))
    (apart : ∀ id other, start.supervisor.token? id = some (tokens other) → id = other)
    (performs : start.Performs moves last) (id : Uuid)
    : ∃ alone,
        start.Performs (moves.filter (·.1 == id)) alone
        ∧ (∀ other, start.Performs (moves.filter (·.1 == id)) other → other = alone)
        ∧ alone.heard id = last.heard id
        ∧ alone.voices id = last.voices id
        ∧ Unchanged id last.store alone.store := by
  have orderly : Ensemble.Orderly tokens start :=
    ⟨sound, apart, fun id => begins id ▸ Ensemble.abides_execute settings id (tokens id) sound⟩
  obtain ⟨alone, performs', along, orderly', orderly''⟩ :=
    performs.alone id (.refl start) orderly orderly
  exact ⟨alone, performs', fun other performs => performs.unique performs', along.heard,
    along.voice, along.shares.unchanged orderly'.sound orderly''.sound⟩

-----------------------------------------------------------------------------------------
-- Two runs of one workflow
-----------------------------------------------------------------------------------------

namespace Run.Lone

/-- The token of an execution, which is that of no other. -/
def tokenOf (id : Uuid) : Token := ⟨id.bits.toNat⟩

/-- Two executions of the workflow, each with its phase, whose runs have not begun. -/
def duet (definition : String) : Ensemble where
  store :=
    { store definition with
      executions := [execution definition, { execution definition with id := .ofNat 4 }]
      phases := [phase, { phase with id := .ofNat 5, executionId := .ofNat 4 }] }
  supervisor :=
    { Supervisor.empty with
      runs := [(.ofNat 2, tokenOf (.ofNat 2)), (.ofNat 4, tokenOf (.ofNat 4))] }
  voices id := execute settings id (tokenOf id)
  heard _ := []

/-- Both runs load their executions, the second is asked to stop, and the first is marked as
running.
-/
def moves : List (Uuid × Move) :=
  [(.ofNat 2, .answer), (.ofNat 4, .answer), (.ofNat 4, .request), (.ofNat 2, .answer),
    (.ofNat 2, .outcome ⟨.uptime, (0 : Nat)⟩), (.ofNat 2, .outcome ⟨.task .now, time⟩),
    (.ofNat 4, .cancel), (.ofNat 2, .answer)]

/-- Their tokens are their own. -/
theorem duet_apart (definition : String) (id other : Uuid)
    (listed : (duet definition).supervisor.token? id = some (tokenOf other))
    : id = other := by
  obtain ⟨entry, found, same⟩ := Option.map_eq_some_iff.mp listed
  have named : entry.1 = id := by simpa using List.find?_some found
  have own : entry.2 = tokenOf entry.1 := by
    rcases List.mem_cons.mp (List.mem_of_find?_eq_some found) with rfl | last
    · rfl
    · rw [List.mem_singleton.mp last]
  have bits : id.bits.toNat = other.bits.toNat :=
    congrArg Token.number ((named ▸ own).symm.trans same)
  exact congrArg Uuid.mk (BitVec.eq_of_toNat_eq bits)

/-- What is wanted in the end is reached when a move goes first. -/
theorem performs_cons {id : Uuid} {move : Move} {first middle : Ensemble}
    {moves : List (Uuid × Move)} {wanted : Ensemble → Prop}
    (plays : Ensemble.Plays id move first middle)
    (performed : ∃ last, middle.Performs moves last ∧ wanted last)
    : ∃ last, first.Performs ((id, move) :: moves) last ∧ wanted last :=
  performed.imp fun _ performs => ⟨.cons plays performs.1, performs.2⟩

theorem duet_performs {definition : String} {flow : Flow}
    (parsed : Flow.parse definition = .ok flow)
    : ∃ last,
        (duet definition).Performs moves last
        ∧ (last.store.execution? (.ofNat 2)).map Execution.standing
          = some ⟨.running, 0, false, definition⟩
        ∧ (last.store.execution? (.ofNat 4)).map Execution.standing
          = some ⟨.pending, 0, true, definition⟩ := by
  obtain ⟨first, second, loads, lists, goes⟩ :=
    execute_calls (unfinished definition) parsed settings (.ofNat 2) (tokenOf (.ofNat 2))
  refine performs_cons (.store loads) ?_
  refine performs_cons (.store rfl) ?_
  refine performs_cons (.request _) ?_
  refine performs_cons (.store lists) ?_
  refine performs_cons (.outcome .uptime trivial (by exact goes _) (0 : Nat)) ?_
  refine performs_cons (.outcome (.task .now) trivial (by rfl) time) ?_
  refine performs_cons (.cancel _) ?_
  refine performs_cons (.store rfl) ?_
  exact ⟨_, .nil _, rfl, rfl⟩

end Run.Lone

/-- While one of two executions is marked as running the other is asked to stop, and the first is
what it is without that.
-/
theorem runs_apart_duet
    : ∃ definition last alone,
        (Run.Lone.duet definition).Performs Run.Lone.moves last
        ∧ (last.store.execution? (.ofNat 2)).map Execution.standing
          = some ⟨.running, 0, false, definition⟩
        ∧ (last.store.execution? (.ofNat 4)).map Execution.standing
          = some ⟨.pending, 0, true, definition⟩
        ∧ (Run.Lone.duet definition).Performs
            (Run.Lone.moves.filter (·.1 == .ofNat 2)) alone
        ∧ alone.heard (.ofNat 2) = last.heard (.ofNat 2)
        ∧ Unchanged (.ofNat 2) last.store alone.store := by
  obtain ⟨flow, parsed, _⟩ := Service.planned_of_planOf Run.Lone.planned
  obtain ⟨last, performs, running, stopped⟩ := Run.Lone.duet_performs parsed
  have sound : (Run.Lone.duet Run.Lone.flow.text).store.Sound := ⟨by decide, by decide⟩
  obtain ⟨alone, performs', _, heard, _, same⟩ :=
    runs_apart sound (fun _ => rfl) (Run.Lone.duet_apart _) performs (.ofNat 2)
  exact ⟨_, last, alone, performs, running, stopped, performs', heard, same⟩

end Harvest

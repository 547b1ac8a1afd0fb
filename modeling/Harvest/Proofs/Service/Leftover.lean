import Harvest.Proofs.Run.Calm
import Harvest.Proofs.Service.Resting

/-! How a run walks over the phases that an earlier process left, with any mix of statuses. The walk
does not look at the statuses: it asks the store to begin a phase before an executor has its turn,
and where the phase is finished the refusal ends it.
-/

namespace Harvest

-----------------------------------------------------------------------------------------
-- Where a run is attended
-----------------------------------------------------------------------------------------

namespace Arena

variable {σ : Type} [Guard σ]

/-- The store answers the call as it works out. -/
def IsWorkedOut (arena : Arena σ) : (call : RunCall) → call.Answer → Prop
  | .store call, answer => answer = (Store.answer call arena.store).1
  | _, _ => True

/-- Where a run takes place while others leave the records of our phases, over a store that may fail
or not.
-/
def attended (fails : Prop) (mine : Uuid → Prop) : Realm runCalls (Arena σ) :=
  ⟨fun call before answer later =>
      Replies mine call before answer later ∧ (fails ∨ before.IsWorkedOut call answer),
    Rests mine, Rests.refl, Rests.trans⟩

end Arena

namespace Run

open Arena Program Realm RunM

-----------------------------------------------------------------------------------------
-- Phases that are left out
-----------------------------------------------------------------------------------------

section

variable {σ : Type} [Guard σ]

/-- A run has left a phase out so far: the phase is on its roll and its record is as it was found,
and it is none of those that the store let begin.
-/
structure LeftOut (settings : RunSettings) (execution : Uuid) (entry : Entry) (found : σ)
    (phases : List PhaseRecord) (arena : Arena σ) : Prop where
  listed : entry ∈ Books.roll arena.store execution
  record : recordOf entry.id arena.store = recordOf entry.id found
  works : Works settings phases arena.past
  apart : entry.id ∉ phases.map PhaseRecord.id

/-- A run was ended by a phase that it could not begin: it tells so, its execution has failed, and
no phase was begun after it.
-/
structure Halted (execution : Uuid) (entry : Entry) (result : Except SetupError RunOutcome)
    (arena : Arena σ) : Prop where
  told : result = .error (.store (.terminal entry.id.text))
  failed
    : ∃ standing,
        Books.standing? arena.store execution = some standing ∧ standing.status = .failed
  last : ∃ earlier, begun arena.past = earlier ++ [entry.id]

/-- A finished phase that a run may come to, and what the run works with. -/
structure Leftover (σ : Type) [Guard σ] where
  fails : Prop
  mine : Uuid → Prop
  settings : RunSettings
  execution : Uuid
  ours : mine execution
  entry : Entry
  finished : entry.status.isTerminal
  found : σ

end

-----------------------------------------------------------------------------------------
-- Steps that leave the phase out
-----------------------------------------------------------------------------------------

namespace Leftover

variable {σ : Type} [Guard σ] {leftover : Leftover σ} {first middle before later arena : Arena σ}
  {phases : List PhaseRecord} {α β : Type}

/-- The phase was left out so far, and these phases began. -/
def IsOut (leftover : Leftover σ) (phases : List PhaseRecord) (arena : Arena σ) : Prop :=
  LeftOut leftover.settings leftover.execution leftover.entry leftover.found phases arena

/-- What becomes of the execution. -/
def status? (leftover : Leftover σ) (arena : Arena σ) : Option ExecutionStatus :=
  (Books.standing? arena.store leftover.execution).map Standing.status

/-- No phase was asked to begin meanwhile, and the execution is in the status that it was in. -/
structure Stays (leftover : Leftover σ) (first later : Arena σ) : Prop where
  begun : begun later.past = begun first.past
  status : leftover.status? later = leftover.status? first

theorem Stays.refl (arena : Arena σ) : leftover.Stays arena arena := ⟨rfl, rfl⟩

theorem Stays.trans (one : leftover.Stays first middle) (two : leftover.Stays middle later)
    : leftover.Stays first later :=
  ⟨two.begun.trans one.begun, two.status.trans one.status⟩

/-- The part leaves the phase out at each of its calls, and comes to what is wanted. -/
def Spares (leftover : Leftover σ) (wanted : α → Arena σ → Prop) (part : RunM α)
    (arena : Arena σ) : Prop :=
  (Arena.attended leftover.fails leftover.mine).Safe
    (fun _ _ _ later => ∃ phases, leftover.IsOut phases later) wanted part arena

/-- Others leave the phase out. -/
theorem IsOut.drift (out : leftover.IsOut phases first) (rests : Rests leftover.mine first later)
    : leftover.IsOut phases later where
  listed := (rests.alone leftover.execution leftover.ours).roll.symm ▸ out.listed
  record :=
    (rests.records leftover.execution leftover.ours leftover.entry out.listed).trans out.record
  works := rests.past.symm ▸ out.works
  apart := out.apart

theorem stays_drift (rests : Rests leftover.mine first later) : leftover.Stays first later where
  begun := congrArg begun rests.past
  status := by
    rcases (rests.alone leftover.execution leftover.ours).standing
      with same | ⟨old, held, _, raised⟩
    · exact congrArg (Option.map Standing.status) same
    · rw [status?, status?, held, raised]
      rfl

/-- A call beside the work leaves the phase out when it leaves the store. -/
theorem IsOut.beside (out : leftover.IsOut phases before) {happening : Happening runCalls}
    (beside : IsBeside happening) (store : later.store = before.store)
    (past : later.past = before.past ++ [happening])
    : leftover.IsOut phases later where
  listed := store.symm ▸ out.listed
  record := store.symm ▸ out.record
  works := past.symm ▸ out.works.beside beside
  apart := out.apart

/-- A call that spares what is finished leaves the phase on its roll and its record as it was. -/
theorem IsOut.kept (out : leftover.IsOut phases before) {call : StoreCall}
    (spares : call.SparesFinished) {answer : call.Answer}
    (replies : Replies leftover.mine (.store call) before answer later)
    : leftover.entry ∈ Books.roll later.store leftover.execution
      ∧ recordOf leftover.entry.id later.store = recordOf leftover.entry.id leftover.found := by
  cases replies with
  | store =>
      obtain ⟨listed, record⟩ := Guard.lasts before.sound out.listed leftover.finished spares
      exact ⟨listed, record.trans out.record⟩
  | fault => exact ⟨out.listed, out.record⟩
  | quiet _ quiet => exact quiet.elim

/-- A call of the store that begins no phase leaves the phase out. -/
theorem IsOut.asked (out : leftover.IsOut phases before) {call : StoreCall}
    (spares : call.SparesFinished) {answer : call.Answer}
    (beside : IsBeside ⟨.store call, answer⟩)
    (replies : Replies leftover.mine (.store call) before answer later)
    : leftover.IsOut phases later where
  listed := (out.kept spares replies).1
  record := (out.kept spares replies).2
  works := replies.grows.2.symm ▸ out.works.beside beside
  apart := out.apart

/-- A calm call leaves the phase out, by cases on the call. -/
theorem IsOut.calm (out : leftover.IsOut phases before) {call : RunCall} (calm : call.IsCalm)
    {answer : call.Answer} (replies : Replies leftover.mine call before answer later)
    : leftover.IsOut phases later := by
  have beside := isBeside_of_calm calm answer
  have past := replies.grows.2
  cases replies with
  | store call => exact out.asked calm.sparesFinished beside (.store call before)
  | _ => exact out.beside beside rfl past

/-- Nothing else comes of a calm call. -/
theorem stays_calm {call : RunCall} (calm : call.IsCalm) {answer : call.Answer}
    (replies : Replies leftover.mine call before answer later)
    : leftover.Stays before later where
  begun := by rw [replies.grows.2, begun_append, begun_calm calm, List.append_nil]
  status := by
    refine congrArg (Option.map Standing.status) ?_
    cases replies with
    | store => exact calm.standing? before.sound _
    | _ => rfl

/-- A calm part leaves the phase out. -/
theorem spares_calm {part : RunM α} (only : part.Only RunCall.IsCalm)
    (out : leftover.IsOut phases arena)
    : leftover.Spares (fun _ later => leftover.IsOut phases later ∧ leftover.Stays arena later)
        part arena := by
  refine only.safe ?_ ?_ ⟨out, .refl arena⟩
  · rintro before later rests ⟨out, stays⟩
    exact ⟨out.drift rests, stays.trans (stays_drift rests)⟩
  · rintro call before answer later calm ⟨replies, _⟩ ⟨out, stays⟩
    have out' := out.calm calm replies
    exact ⟨⟨phases, out'⟩, out', stays.trans (stays_calm calm replies)⟩

/-- A quiet part leaves the phase out when its calls may come next, by induction over the part. -/
theorem spares_quiet {part : RunM α} (only : part.Only RunCall.IsQuiet)
    (out : leftover.IsOut phases arena)
    (fits
      : ∀ more, part.Begins more → Works leftover.settings phases (arena.past ++ more))
    : leftover.Spares (fun _ later => leftover.IsOut phases later ∧ leftover.Stays arena later)
        part arena := by
  induction only generalizing arena with
  | done value => exact fun later rests => ⟨out.drift rests, stays_drift rests⟩
  | @ask call next quiet _ ih =>
      rintro before rests answer later ⟨replies, _⟩
      obtain rfl := replies.quiet_inv quiet
      have same : before.past = arena.past := rests.past
      have there := out.drift rests
      have out' : leftover.IsOut phases (before.after call answer) := by
        refine ⟨there.listed, there.record, ?_, there.apart⟩
        change Works _ _ (before.past ++ [⟨call, answer⟩])
        rw [same]
        exact fits _ (.ask (.nil _))
      refine ⟨⟨phases, out'⟩, (ih answer out' fun more begins => ?_).mono id ?_⟩
      · change Works _ _ ((before.past ++ [⟨call, answer⟩]) ++ more)
        rw [same, List.append_assoc]
        exact fits _ (.ask begins)
      · rintro _ last ⟨out, stays⟩
        have called : leftover.Stays before (before.after call answer) := by
          refine ⟨?_, rfl⟩
          change begun (before.past ++ _) = _
          rw [begun_append, begun_quiet (List.forall_mem_singleton.mpr quiet), List.append_nil]
        exact ⟨out, ((stays_drift rests).trans called).trans stays⟩

-----------------------------------------------------------------------------------------
-- The walk over the phases
-----------------------------------------------------------------------------------------

/-- The run is under way and was not refused the phase. -/
structure UnderWay (leftover : Leftover σ) (arena : Arena σ) : Prop where
  out : ∃ phases, leftover.IsOut phases arena
  running : leftover.status? arena = some .running
  ahead : leftover.entry.id ∉ begun arena.past

/-- The run was refused the phase: nothing was begun after it, and a store that does not fail has
told that the phase is terminal.
-/
structure Refused (leftover : Leftover σ) (reason : StoreError) (arena : Arena σ) : Prop where
  out : ∃ phases, leftover.IsOut phases arena
  running : leftover.status? arena = some .running
  last : ∃ earlier, begun arena.past = earlier ++ [leftover.entry.id]
  told : leftover.fails ∨ reason = .terminal leftover.entry.id.text

/-- A part of the loop leaves the run under way, or it was refused the phase. -/
def Comes (leftover : Leftover σ) (result : Except StoreError α) (arena : Arena σ) : Prop :=
  leftover.UnderWay arena ∨ ∃ reason, result = .error reason ∧ leftover.Refused reason arena

theorem UnderWay.stays (way : leftover.UnderWay first)
    (out : ∃ phases, leftover.IsOut phases later) (stays : leftover.Stays first later)
    : leftover.UnderWay later :=
  ⟨out, stays.status.trans way.running, stays.begun.symm ▸ way.ahead⟩

theorem UnderWay.drift (way : leftover.UnderWay first)
    (rests : Rests leftover.mine first later)
    : leftover.UnderWay later :=
  way.stays (way.out.imp fun _ out => out.drift rests) (stays_drift rests)

theorem Refused.stays {reason : StoreError} (refused : leftover.Refused reason first)
    (out : ∃ phases, leftover.IsOut phases later) (stays : leftover.Stays first later)
    : leftover.Refused reason later :=
  ⟨out, stays.status.trans refused.running, stays.begun.symm ▸ refused.last, refused.told⟩

theorem Comes.stays {result : Except StoreError α} (comes : leftover.Comes result first)
    (out : ∃ phases, leftover.IsOut phases later) (stays : leftover.Stays first later)
    : leftover.Comes result later :=
  comes.imp (·.stays out stays) fun ⟨reason, same, refused⟩ =>
    ⟨reason, same, refused.stays out stays⟩

theorem Comes.out {result : Except StoreError α} (comes : leftover.Comes result arena)
    : ∃ phases, leftover.IsOut phases arena := by
  rcases comes with way | ⟨_, _, refused⟩
  · exact way.out
  · exact refused.out

theorem Comes.drift {result : Except StoreError α} (comes : leftover.Comes result first)
    (rests : Rests leftover.mine first later)
    : leftover.Comes result later :=
  comes.stays (comes.out.imp fun _ out => out.drift rests) (stays_drift rests)

/-- A refusal is the end of any part of the loop. -/
theorem Comes.error {reason : StoreError}
    (comes : leftover.Comes (.error reason : Except StoreError α) arena)
    : leftover.Comes (.error reason : Except StoreError β) arena :=
  comes.imp_right fun ⟨other, same, refused⟩ =>
    ⟨other, congrArg Except.error (Except.error.inj same), refused⟩

/-- A part of the loop that was not refused anything leaves the run under way. -/
theorem Comes.underWay {value : α}
    (comes : leftover.Comes (.ok value : Except StoreError α) arena)
    : leftover.UnderWay arena :=
  comes.resolve_right fun ⟨_, same, _⟩ => nomatch same

/-- A calm part may come first. -/
theorem UnderWay.calmly (way : leftover.UnderWay arena) {part : RunM α}
    (only : part.Only RunCall.IsCalm) {next : α → RunM β} {wanted : β → Arena σ → Prop}
    (rest
      : ∀ value later, leftover.UnderWay later → leftover.Spares wanted (next value) later)
    : leftover.Spares wanted (part.bind next) arena := by
  obtain ⟨phases, out⟩ := way.out
  refine Safe.followed (spares_calm only out) ?_
  rintro value later ⟨out', stays⟩
  exact rest value later (way.stays ⟨phases, out'⟩ stays)

/-- The store refuses to begin the phase; unless it fails, it tells why. -/
theorem IsOut.refused (out : leftover.IsOut phases before) {record : PhaseRecord}
    (named : record.id = leftover.entry.id) {answer : (StoreCall.updatePhase record).Answer}
    (replies
      : (Arena.attended leftover.fails leftover.mine).replies (.store (.updatePhase record)) before
          answer later)
    : ∃ reason,
        answer = .error reason
        ∧ (leftover.fails ∨ reason = .terminal leftover.entry.id.text) := by
  obtain ⟨replies, worked⟩ := replies
  have refuses := Guard.refuses before.sound out.listed leftover.finished named
  cases replies with
  | store => exact ⟨_, refuses, Or.inr rfl⟩
  | fault _ reason =>
      refine ⟨reason, rfl, worked.imp_right fun same => ?_⟩
      exact Except.error.inj (Eq.trans same refuses)
  | quiet _ quiet => exact quiet.elim

/-- Writing a phase leaves the status of its execution. -/
theorem status?_updatePhase {record : PhaseRecord}
    {answer : (StoreCall.updatePhase record).Answer}
    (replies : Replies leftover.mine (.store (.updatePhase record)) before answer later)
    : leftover.status? later = leftover.status? before := by
  refine congrArg (Option.map Standing.status) ?_
  rcases replies.store_inv with ⟨_, _, _, _, effect⟩ | ⟨_, _, rfl⟩
  · exact effect.1 leftover.execution
  · rfl

/-- The run asks the store to begin a phase. Only another phase is begun; a refusal is the end. -/
theorem UnderWay.begin (way : leftover.UnderWay arena) {phase : PhaseRecord}
    {time : Time.Instant} {inputs : String}
    {next : (StoreCall.updatePhase (phase.begun time inputs)).Result → LoopM α}
    {env : Environment}
    (granted
      : ∀ phases later,
          leftover.IsOut (phases ++ [phase]) later
          → leftover.UnderWay later
          → leftover.Spares (fun outcome later => leftover.Comes outcome.1 later)
              (LoopM.on (next ()) env) later)
    : leftover.Spares (fun outcome later => leftover.Comes outcome.1 later)
        (LoopM.on (stored (.updatePhase (phase.begun time inputs)) >>= next) env) arena := by
  rintro before rests answer later replies
  change Except StoreError Unit at answer
  replace way := way.drift rests
  obtain ⟨phases, out⟩ := way.out
  have spares : (StoreCall.updatePhase (phase.begun time inputs)).SparesFinished := trivial
  have running := (status?_updatePhase replies.1).trans way.running
  have asked : begun later.past = begun before.past ++ [phase.id] := by
    rw [replies.1.grows.2, begun_append]
    rfl
  have unbegun {reason : StoreError} (same : answer = .error reason)
      : leftover.IsOut phases later := by
    subst same
    exact out.asked spares (fun ⟨_, ok⟩ => nomatch ok) replies.1
  by_cases same : phase.id = leftover.entry.id
  · have named : (phase.begun time inputs).id = leftover.entry.id := same
    obtain ⟨reason, rfl, told⟩ := out.refused named replies
    have out' : ∃ phases, leftover.IsOut phases later := ⟨phases, unbegun rfl⟩
    have last : ∃ earlier, begun later.past = earlier ++ [leftover.entry.id] :=
      ⟨begun before.past, same ▸ asked⟩
    refine ⟨out', fun final rests => Comes.drift (Or.inr ⟨reason, rfl, ?_⟩) rests⟩
    exact ⟨out', running, last, told⟩
  · have ahead : leftover.entry.id ∉ begun later.past := by
      rw [asked, List.mem_append, List.mem_singleton, not_or]
      exact ⟨way.ahead, Ne.symm same⟩
    cases answer with
    | ok =>
        obtain ⟨listed, record⟩ := out.kept spares replies.1
        have works : Works leftover.settings (phases ++ [phase]) later.past :=
          replies.1.grows.2.symm ▸ out.works.begins phase time inputs
        have apart : leftover.entry.id ∉ (phases ++ [phase]).map PhaseRecord.id := by
          rw [List.map_append, List.mem_append, List.map_singleton, List.mem_singleton, not_or]
          exact ⟨out.apart, Ne.symm same⟩
        have out' : leftover.IsOut (phases ++ [phase]) later := ⟨listed, record, works, apart⟩
        exact ⟨⟨_, out'⟩, granted phases later out' ⟨⟨_, out'⟩, running, ahead⟩⟩
    | error reason =>
        have out' : ∃ phases, leftover.IsOut phases later := ⟨phases, unbegun rfl⟩
        have way : leftover.UnderWay later := ⟨out', running, ahead⟩
        exact ⟨out', fun last rests => Or.inl (way.drift rests)⟩

/-- A phase is run, or the run is refused the phase that is left out. -/
theorem UnderWay.runPhase (way : leftover.UnderWay arena) (flow : Flow) (phase : PhaseRecord)
    (env : Environment)
    : leftover.Spares (fun outcome later => leftover.Comes outcome.1 later)
        (LoopM.on (Run.runPhase leftover.settings flow phase) env) arena := by
  rw [runPhase_eq, on_inLoop_bind]
  refine way.calmly calm_uptime fun start arena way => ?_
  rw [on_modifyGet_bind, on_inLoop_bind]
  refine way.calmly (calm_errorEntries _) fun log arena way => ?_
  rw [on_get_bind, on_inLoop_bind]
  refine way.calmly calm_now fun time arena way => ?_
  refine way.begin fun phases arena out way => ?_
  rw [on_inLoop_bind]
  refine Safe.followed (spares_calm (calm_tell _) out) ?_
  rintro _ later ⟨out, stays⟩
  replace way := way.stays ⟨_, out⟩ stays
  rw [on_inLoop_bind]
  refine Safe.followed
    (spares_quiet (perform_quiet ..) out fun more begins => out.works.executes begins) ?_
  rintro ⟨success, log, left⟩ later ⟨out, stays⟩
  replace way := way.stays ⟨_, out⟩ stays
  refine Safe.mono (spares_calm (calm_settle ..) out) id ?_
  rintro _ later ⟨out, stays⟩
  exact Or.inl (way.stays ⟨_, out⟩ stays)

/-- What becomes of an execution when its record is replaced. -/
theorem status?_updateExecution {record : Execution} (named : record.id = leftover.execution)
    {answer : (StoreCall.updateExecution record).Answer}
    (replies : Replies leftover.mine (.store (.updateExecution record)) before answer later)
    : answer = .ok () ∧ leftover.status? later = some record.status
      ∨ ∃ reason, answer = .error reason ∧ leftover.status? later = leftover.status? before := by
  rcases replies.store_inv with ⟨_, rfl, _, _, effect⟩ | ⟨reason, rfl, rfl⟩
  · obtain ⟨⟨_, _, _, _, _, updated⟩, _⟩ := effect
    refine Or.inl ⟨rfl, ?_⟩
    rw [status?, ← named, updated]
    rfl
  · exact Or.inr ⟨reason, rfl, rfl⟩

/-- What the run has cost so far is put on record, or that is refused. -/
theorem UnderWay.count (way : leftover.UnderWay before) {record : Execution}
    (named : record.id = leftover.execution) (unfinished : record.status = .running)
    {answer : (StoreCall.updateExecution record).Answer}
    (replies : Replies leftover.mine (.store (.updateExecution record)) before answer later)
    : leftover.UnderWay later where
  out := by
    have spares : (StoreCall.updateExecution record).SparesFinished := trivial
    exact way.out.imp fun _ out => out.asked spares (fun _ => rfl) replies
  running := by
    rcases status?_updateExecution named replies with ⟨_, status⟩ | ⟨_, _, status⟩
    · exact status.trans (congrArg some unfinished)
    · exact status.trans way.running
  ahead := by
    rw [replies.grows.2, begun_append]
    simpa [begun, started?] using way.ahead

/-- The walk goes on until the run is refused the phase, or it comes to an end before, by induction
over the phases that are left.
-/
theorem UnderWay.runPhases (way : leftover.UnderWay arena) {known : Execution}
    (named : known.id = leftover.execution) (flow : Flow) (token : Token)
    (credits phasesRun : Nat) (phases : List PhaseRecord) (env : Environment)
    : leftover.Spares (fun outcome later => leftover.Comes outcome.1 later)
        (LoopM.on (Run.runPhases leftover.settings known flow token credits phasesRun phases) env)
        arena := by
  induction phases generalizing credits phasesRun arena env with
  | nil => exact fun later rests => Or.inl (way.drift rests)
  | cons phase phases ih =>
      unfold Run.runPhases
      rw [on_bind]
      refine way.calmly (calm_stopRequested ..) ?_
      rintro ⟨result, left⟩ arena way
      cases result with
      | error reason => exact fun later rests => Or.inl (way.drift rests)
      | ok stop =>
          cases stop with
          | true => exact fun later rests => Or.inl (way.drift rests)
          | false =>
              change leftover.Spares _ (LoopM.on (Run.runPhase _ _ _ >>= _) _) _
              rw [on_bind]
              refine Safe.followed (way.runPhase flow phase left) ?_
              rintro ⟨result, left⟩ arena comes
              cases result with
              | error reason => exact fun later rests => comes.error.drift rests
              | ok result =>
                  obtain ⟨success, cost⟩ := result
                  have way := comes.underWay
                  cases success with
                  | false => exact fun later rests => Or.inl (way.drift rests)
                  | true =>
                      let record : Execution := { known with
                        status := .running
                        credits := addCredits credits cost }
                      have named' : record.id = leftover.execution := named
                      rintro before rests answer later ⟨replies, _⟩
                      have way := (way.drift rests).count named' rfl replies
                      refine ⟨way.out, ?_⟩
                      cases answer with
                      | ok result => exact ih way _ _ left
                      | error reason => exact fun later rests => Or.inl (way.drift rests)

end Leftover

end Run

end Harvest

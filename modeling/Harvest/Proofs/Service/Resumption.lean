import Harvest.Proofs.Service.Leftover
import Harvest.Proofs.Service.Opening

/-! How a run ends that finds a finished phase on the roll of its execution. It leaves the phase
out; over a store that does not fail, a run that comes to the phase fails its execution and tells
that the phase is terminal.
-/

namespace Harvest.Run

open Arena Program Realm RunM

namespace Leftover

variable {σ : Type} [Guard σ] {leftover : Leftover σ} {first middle before later arena : Arena σ}
  {phases : List PhaseRecord}

-----------------------------------------------------------------------------------------
-- The end of a run
-----------------------------------------------------------------------------------------

/-- The record of an execution that is under way is replaced, unless the store fails. -/
theorem fails_of_unrecorded (running : leftover.status? before = some .running)
    {record : Execution} (named : record.id = leftover.execution) {reason : StoreError}
    (worked
      : leftover.fails
        ∨ before.IsWorkedOut (.store (.updateExecution record)) (.error reason))
    : leftover.fails := by
  refine worked.resolve_right fun same => ?_
  obtain ⟨standing, held, status⟩ := Option.map_eq_some_iff.mp running
  have isOpen : IsOpen record.id before.store := by
    refine ⟨standing, named ▸ held, ?_⟩
    rw [status]
    decide
  cases (Archive.updates before.sound isOpen).symm.trans same.symm

/-- These phases were asked to begin and no more; unless the store fails, a run has told what it is
to tell, and its execution is in a status for good.
-/
structure Closes (leftover : Leftover σ) (phases : List PhaseRecord) (asked : List Uuid)
    (told : Prop) (status : ExecutionStatus) (arena : Arena σ) : Prop where
  out : leftover.IsOut phases arena
  begun : begun arena.past = asked
  recorded : leftover.fails ∨ told ∧ leftover.status? arena = some status

theorem Closes.stays {asked : List Uuid} {told accepted : Prop} {status : ExecutionStatus}
    (closes : leftover.Closes phases asked told status first) (fits : told → accepted)
    (out : leftover.IsOut phases later) (stays : leftover.Stays first later)
    : leftover.Closes phases asked accepted status later :=
  ⟨out, stays.begun.trans closes.begun,
    closes.recorded.imp_right fun ⟨told, same⟩ => ⟨fits told, stays.status.trans same⟩⟩

theorem Closes.drift {asked : List Uuid} {told accepted : Prop} {status : ExecutionStatus}
    (closes : leftover.Closes phases asked told status first) (fits : told → accepted)
    (rests : Rests leftover.mine first later)
    : leftover.Closes phases asked accepted status later :=
  closes.stays fits (closes.out.drift rests) (stays_drift rests)

/-- An execution is brought to its end: first its record, then all that tells of it. -/
theorem spares_finalize (out : leftover.IsOut phases arena)
    (running : leftover.status? arena = some .running) {known : Execution}
    (named : known.id = leftover.execution) (status : ExecutionStatus) (credits : Nat)
    (stopped : Bool) (start : Nat)
    : leftover.Spares
        (fun result later =>
          leftover.Closes phases (begun arena.past) (∃ finished, result = .ok finished) status
            later)
        (finalize known status credits stopped start) arena := by
  refine Safe.followed (spares_calm calm_now out) ?_
  rintro time noted ⟨out, first⟩
  let finished : Execution := { known with
    status := status
    completedAt := some time
    credits := credits
    stopRequested := known.stopRequested || stopped }
  have named' : finished.id = leftover.execution := named
  rintro before rests answer later ⟨replies, worked⟩
  have first := first.trans (stays_drift rests)
  have spares : (StoreCall.updateExecution finished).SparesFinished := trivial
  have out := (out.drift rests).asked spares (fun _ => rfl) replies
  refine ⟨⟨phases, out⟩, ?_⟩
  have asked : begun later.past = begun arena.past := by
    rw [replies.grows.2, begun_append, first.begun]
    exact List.append_nil _
  rcases status?_updateExecution named' replies with ⟨rfl, recorded⟩ | ⟨reason, rfl, _⟩
  · have closes : leftover.Closes phases (begun arena.past) True status later :=
      ⟨out, asked, Or.inr ⟨trivial, recorded⟩⟩
    refine Safe.followed (spares_calm calm_uptime out) ?_
    rintro ended _ ⟨out, one⟩
    refine Safe.followed (spares_calm (calm_tell _) out) ?_
    rintro _ _ ⟨out, two⟩
    refine Safe.followed (spares_calm (calm_noteLastRun ..) out) ?_
    rintro _ _ ⟨out, three⟩ last rests
    exact (closes.stays id out ((one.trans two).trans three)).drift (fun _ => ⟨_, rfl⟩) rests
  · have fails := fails_of_unrecorded (first.status.trans running) named' worked
    exact fun last rests => Closes.drift ⟨out, asked, Or.inl fails⟩ id rests

/-- A run whose loop ended with a refusal fails its execution and tells of the refusal. -/
theorem spares_abort (out : leftover.IsOut phases arena)
    (running : leftover.status? arena = some .running) {known : Execution}
    (named : known.id = leftover.execution) (reason : StoreError) (start : Nat)
    : leftover.Spares
        (fun result later =>
          leftover.Closes phases (begun arena.past) (result = .error (.store reason)) .failed later)
        (abort known reason start) arena := by
  have reads : (RunM.ask (.store (.getExecution known.id))).Only RunCall.IsCalm := only_ask trivial
  refine Safe.followed (spares_calm reads out) ?_
  rintro current read ⟨out, stays⟩
  have ends (credits : Nat) (stopped : Bool) :=
    spares_finalize out (stays.status.trans running) named .failed credits stopped start
  rw [stays.begun] at ends
  cases current <;>
  · refine Safe.followed (ends _ _) ?_
    rintro result later closes
    cases result with
    | ok finished => exact fun last rests => closes.drift (fun _ => rfl) rests
    | error other => exact fun last rests => closes.drift (fun ⟨_, no⟩ => nomatch no) rests

theorem spares_conclude (out : leftover.IsOut phases arena)
    (running : leftover.status? arena = some .running) {known : Execution}
    (named : known.id = leftover.execution) (summary : Summary) (start : Nat)
    : leftover.Spares
        (fun _ later => ∃ status, leftover.Closes phases (begun arena.past) True status later)
        (conclude known summary start) arena := by
  let status := if summary.ending == .finished then ExecutionStatus.completed else .failed
  refine Safe.followed (spares_finalize out running named status summary.credits
    (summary.ending == .stopped) start) ?_
  rintro result later closes
  cases result <;>
    exact fun last rests => ⟨_, closes.drift (fun _ => trivial) rests⟩

/-- How a run ends: if it was refused the phase, it was ended by it, unless the store fails. -/
def Ends (leftover : Leftover σ) (result : Except SetupError RunOutcome) (arena : Arena σ)
    : Prop :=
  (∃ phases, leftover.IsOut phases arena)
  ∧ (leftover.entry.id ∈ begun arena.past
    → leftover.fails ∨ Halted leftover.execution leftover.entry result arena)

/-- A run that was not refused the phase may end as it likes. -/
theorem ends_of_ahead {result : Except SetupError RunOutcome}
    (out : ∃ phases, leftover.IsOut phases arena) (ahead : leftover.entry.id ∉ begun arena.past)
    : leftover.Ends result arena :=
  ⟨out, fun reached => absurd reached ahead⟩

/-- A run that was refused the phase has told so, and has failed. -/
theorem Refused.ends {reason : StoreError} (refused : leftover.Refused reason arena)
    {result : Except SetupError RunOutcome}
    (closes
      : leftover.Closes phases (begun arena.past) (result = .error (.store reason)) .failed later)
    : leftover.Ends result later := by
  refine ⟨⟨phases, closes.out⟩, fun _ => ?_⟩
  rcases refused.told with fails | rfl
  · exact Or.inl fails
  · refine closes.recorded.imp_right fun ⟨told, failed⟩ => ?_
    obtain ⟨standing, held, status⟩ := Option.map_eq_some_iff.mp failed
    exact ⟨told, ⟨standing, held, status⟩, closes.begun.symm ▸ refused.last⟩

/-- What the walk came to is brought to its end. -/
theorem spares_windUp {looped : Except StoreError Summary} (comes : leftover.Comes looped arena)
    {known : Execution} (named : known.id = leftover.execution) (start : Nat)
    : leftover.Spares leftover.Ends (windUp known start looped) arena := by
  cases looped with
  | ok summary =>
      have way := comes.underWay
      obtain ⟨phases, out⟩ := way.out
      refine Safe.mono (spares_conclude out way.running named summary start) id ?_
      rintro result later ⟨status, closes⟩
      exact ends_of_ahead ⟨phases, closes.out⟩ (closes.begun.symm ▸ way.ahead)
  | error reason =>
      rcases comes with way | ⟨_, ⟨⟩, refused⟩
      · obtain ⟨phases, out⟩ := way.out
        refine Safe.mono (spares_abort out way.running named reason start) id ?_
        rintro result later closes
        exact ends_of_ahead ⟨phases, closes.out⟩ (closes.begun.symm ▸ way.ahead)
      · obtain ⟨phases, out⟩ := refused.out
        refine Safe.mono (spares_abort out refused.running named reason start) id ?_
        exact fun result later closes => refused.ends closes

-----------------------------------------------------------------------------------------
-- The start of a run
-----------------------------------------------------------------------------------------

/-- What a run has loaded is the execution that it was asked for. -/
def Loads (leftover : Leftover σ) (phases : List PhaseRecord) (first : Arena σ)
    (result : Except SetupError (Execution × Flow × List PhaseRecord)) (arena : Arena σ)
    : Prop :=
  leftover.IsOut phases arena
  ∧ leftover.Stays first arena
  ∧ ∀ loaded, result = .ok loaded → loaded.1.id = leftover.execution

/-- A run reads its execution and its phases. -/
theorem spares_load (out : leftover.IsOut phases arena)
    : leftover.Spares (leftover.Loads phases arena) (ExceptT.run (load leftover.execution))
        arena := by
  rintro before rests answer later ⟨replies, _⟩
  have calm : (RunCall.store (.getExecution leftover.execution)).IsCalm := trivial
  replace out := (out.drift rests).calm calm replies
  have stays := (stays_drift rests).trans (stays_calm calm replies)
  refine ⟨⟨phases, out⟩, ?_⟩
  have ended (reason : SetupError) {later : Arena σ} (out : leftover.IsOut phases later)
      (stays : leftover.Stays arena later)
      : leftover.Spares (leftover.Loads phases arena) (.done (.error reason)) later :=
    fun last rests => ⟨out.drift rests, stays.trans (stays_drift rests), nofun⟩
  rcases replies.store_inv with ⟨current, rfl, _, _, effect⟩ | ⟨reason, rfl, _⟩
  · change Execution at current
    obtain ⟨_, named, _⟩ := effect
    simp only [pure_eq_done, Program.bind, ExceptT.bindCont]
    cases current.status.isTerminal with
    | true => exact ended _ out stays
    | false =>
        cases Flow.parse current.definition with
        | error reason => exact ended _ out stays
        | ok flow =>
            have lists : (RunM.store (.listPhases leftover.execution)).Only RunCall.IsCalm :=
              only_ask trivial
            refine Safe.followed (spares_calm lists out) ?_
            rintro listed later ⟨out, more⟩
            have stays := stays.trans more
            cases listed with
            | error reason => exact ended _ out stays
            | ok phases =>
                intro last rests
                refine ⟨out.drift rests, stays.trans (stays_drift rests), ?_⟩
                rintro _ ⟨⟩
                exact named
  · cases reason <;> exact ended _ out stays

/-- What a run has marked is under way; until then it begins no phase. -/
def Marked (leftover : Leftover σ) (result : Except SetupError Execution) (arena : Arena σ)
    : Prop :=
  (∃ phases, leftover.IsOut phases arena)
  ∧ leftover.entry.id ∉ begun arena.past
  ∧ ∀ known,
      result = .ok known
      → known.id = leftover.execution ∧ leftover.status? arena = some .running

theorem Marked.stays {result : Except SetupError Execution}
    (marked : leftover.Marked result first) (out : ∃ phases, leftover.IsOut phases later)
    (stays : leftover.Stays first later)
    : leftover.Marked result later := by
  obtain ⟨_, ahead, known⟩ := marked
  refine ⟨out, stays.begun.symm ▸ ahead, fun execution same => ?_⟩
  obtain ⟨named, running⟩ := known execution same
  exact ⟨named, stays.status.trans running⟩

theorem Marked.drift {result : Except SetupError Execution}
    (marked : leftover.Marked result first) (rests : Rests leftover.mine first later)
    : leftover.Marked result later :=
  marked.stays (marked.1.imp fun _ out => out.drift rests) (stays_drift rests)

/-- A run marks its execution as running, and its phases as waiting. A finished one does not
wait. -/
theorem spares_markRunning (out : leftover.IsOut phases arena)
    (ahead : leftover.entry.id ∉ begun arena.past) {execution : Execution}
    (named : execution.id = leftover.execution)
    : leftover.Spares leftover.Marked (ExceptT.run (markRunning execution)) arena := by
  unfold markRunning
  rw [except_lift_bind]
  refine Safe.followed (spares_calm calm_now out) ?_
  rintro time noted ⟨out, first⟩
  have named' : (started execution time).id = leftover.execution := named
  rintro before rests answer later ⟨replies, _⟩
  have first := first.trans (stays_drift rests)
  have spares : (StoreCall.updateExecution (started execution time)).SparesFinished := trivial
  have out := (out.drift rests).asked spares (fun _ => rfl) replies
  refine ⟨⟨phases, out⟩, ?_⟩
  have ahead : leftover.entry.id ∉ begun later.past := by
    rw [replies.grows.2, begun_append, first.begun]
    simpa [begun, started?] using ahead
  have ended (reason : SetupError) {later : Arena σ} (out : leftover.IsOut phases later)
      (ahead : leftover.entry.id ∉ begun later.past)
      : leftover.Spares leftover.Marked (.done (.error reason)) later := by
    intro last rests
    refine Marked.drift ⟨⟨phases, out⟩, ahead, ?_⟩ rests
    rintro _ ⟨⟩
  rcases status?_updateExecution named' replies with ⟨rfl, running⟩ | ⟨reason, rfl, _⟩
  · have marked : leftover.Marked (.ok (started execution time)) later := by
      refine ⟨⟨phases, out⟩, ahead, ?_⟩
      rintro _ ⟨⟩
      exact ⟨named', running⟩
    have waits
        : (RunM.store (.setPhaseStatuses execution.id .created .pending)).Only RunCall.IsCalm :=
      only_ask (show ¬ PhaseStatus.created.isTerminal by decide)
    refine Safe.followed (spares_calm waits out) ?_
    rintro moved middle ⟨out, one⟩
    cases moved with
    | error reason => exact ended _ out (one.begun.symm ▸ ahead)
    | ok count =>
        change leftover.Spares _
          (ExceptT.run (liftM (noteLastRun (started execution time) .running) >>= fun _ =>
            pure (started execution time))) _
        rw [except_lift_bind]
        refine Safe.followed (spares_calm (calm_noteLastRun ..) out) ?_
        rintro _ noted ⟨out, two⟩ last rests
        exact (marked.stays ⟨phases, out⟩ (one.trans two)).drift rests
  · exact ended _ out ahead

-----------------------------------------------------------------------------------------
-- The whole run
-----------------------------------------------------------------------------------------

/-- A run that has marked its execution walks over its phases and comes to its end. -/
theorem UnderWay.proceed (way : leftover.UnderWay arena) {known : Execution}
    (named : known.id = leftover.execution) (flow : Flow) (token : Token) (start : Nat)
    (phases : List PhaseRecord)
    : leftover.Spares leftover.Ends
        ((LoopM.on (Run.runPhases leftover.settings known flow token 0 0 phases) .empty).bind
          fun (looped, env) => ExceptT.run (do
            if leftover.settings.closesBrowser then release env
            ExceptT.mk (windUp known start looped))) arena := by
  refine Safe.followed (way.runPhases named flow token 0 0 phases .empty) ?_
  rintro ⟨looped, env⟩ walked comes
  cases leftover.settings.closesBrowser with
  | false => exact spares_windUp comes named start
  | true =>
      obtain ⟨begun', out⟩ := comes.out
      change leftover.Spares _ (ExceptT.run (liftM (release env) >>= _)) _
      rw [except_lift_bind]
      refine Safe.followed
        (spares_quiet (release_quiet env) out fun more begins => out.works.closes begins) ?_
      rintro _ closed ⟨out, stays⟩
      exact spares_windUp (comes.stays ⟨begun', out⟩ stays) named start

/-- A run leaves the phase out, and is ended by it when it is refused it. -/
theorem spares_execute (out : leftover.IsOut [] arena) (unbegun : begun arena.past = [])
    (token : Token)
    : leftover.Spares leftover.Ends (execute leftover.settings leftover.execution token)
        arena := by
  have ended (reason : SetupError) {later : Arena σ} (out : ∃ phases, leftover.IsOut phases later)
      (ahead : leftover.entry.id ∉ begun later.past)
      : leftover.Spares leftover.Ends (.done (.error reason)) later := by
    intro last rests
    refine ends_of_ahead (out.imp fun _ out => out.drift rests) ?_
    rwa [(stays_drift rests).begun]
  unfold execute
  rw [except_bind]
  refine Safe.followed (spares_load out) ?_
  rintro result read ⟨out, stays, loads⟩
  have ahead : leftover.entry.id ∉ begun read.past := by simp [stays.begun, unbegun]
  cases result with
  | error reason => exact ended reason ⟨_, out⟩ ahead
  | ok loaded =>
      obtain ⟨execution, flow, phases⟩ := loaded
      have named : execution.id = leftover.execution := loads _ rfl
      simp only
      rw [except_lift_bind]
      refine Safe.followed (spares_calm calm_uptime out) ?_
      rintro start timed ⟨out, stays⟩
      rw [except_bind]
      refine Safe.followed (spares_markRunning out (stays.begun.symm ▸ ahead) named) ?_
      rintro result marked ⟨⟨begun', out⟩, ahead, marks⟩
      cases result with
      | error reason => exact ended reason ⟨_, out⟩ ahead
      | ok known =>
          obtain ⟨named, running⟩ := marks known rfl
          have way : leftover.UnderWay marked := ⟨⟨begun', out⟩, running, ahead⟩
          simp only
          rw [except_lift_bind]
          refine way.calmly calm_now fun time later way => ?_
          rw [except_lift_bind]
          refine way.calmly (calm_emit _) fun _ later way => ?_
          rw [except_lift_bind]
          exact way.proceed named flow token start phases

end Leftover

variable {σ : Type} [Guard σ] {fails : Prop} {mine : Uuid → Prop}

/-- Whatever an earlier process left of an execution, a run of it leaves each finished phase on its
roll out: at every moment the record is as it was found, and no executor has worked on the phase.
Over a store that does not fail, a run that comes to such a phase is ended by it.
-/
theorem finished_phase_left_out {settings : RunSettings} {execution : Uuid} {token : Token}
    {entry : Entry} {before later : Arena σ} {rest : RunM (Except SetupError RunOutcome)}
    (ours : mine execution) (listed : entry ∈ Books.roll before.store execution)
    (finished : entry.status.isTerminal)
    (run
      : (Arena.attended fails mine).Reaches (execute settings execution token, before.anew)
          (rest, later))
    : (∃ phases, LeftOut settings execution entry before.store phases later)
      ∧ (¬ fails
        → ∀ result,
            rest = .done result
            → entry.id ∈ begun later.past
            → Halted execution entry result later) := by
  let leftover : Leftover σ :=
    ⟨fails, mine, settings, execution, ours, entry, finished, before.store⟩
  have out : leftover.IsOut [] before.anew := ⟨listed, rfl, .none, List.not_mem_nil⟩
  have safe := leftover.spares_execute out rfl token
  have stable : (Arena.attended fails mine).Stable fun arena =>
      ∃ phases, leftover.IsOut phases arena :=
    fun rests out => out.imp fun _ out => out.drift rests
  refine ⟨safe.invariant stable id ⟨_, out⟩ run, ?_⟩
  rintro unfailing result rfl reached
  exact ((Safe.ended safe run).2 reached).resolve_left unfailing

-----------------------------------------------------------------------------------------
-- A run that is ended by its first phase
-----------------------------------------------------------------------------------------

namespace Resumed

/-- The first phase of an execution, which an earlier process completed. -/
def phase : PhaseRecord :=
  { PhaseRecord.fresh (.ofNat 3) (.ofNat 2) 1 0 "Launch" .launchBrowser "" with
    status := .completed
    credits := 1 }

/-- The second phase, which was not begun. -/
def next : PhaseRecord := .fresh (.ofNat 4) (.ofNat 2) 2 0 "Launch" .launchBrowser ""

/-- The execution as its process left it: at work. -/
def execution (definition : String) : Execution :=
  { Lone.execution definition with status := .running, credits := 1 }

def store (definition : String) : Memory :=
  { Lone.store definition with executions := [execution definition], phases := [phase, next] }

theorem sound (definition : String) : Books.Sound (store definition) :=
  ⟨List.nodup_singleton (execution definition).id,
    show [phase.id, next.id].Nodup by decide⟩

theorem listed (definition : String)
    : Memory.answer (.listPhases (.ofNat 2)) (store definition)
      = (.ok [phase, next], store definition) := by
  change (Except.ok (List.mergeSort [phase, next] PhaseRecord.upTo), store definition) = _
  rw [List.mergeSort_of_pairwise (by simp [phase, next, PhaseRecord.fresh, PhaseRecord.upTo])]
  rfl

/-- The run is refused the first phase. The definition is a variable here, so that no step of the
run reads the graph.
-/
theorem halted {definition : String} {flow : Flow} (parsed : Flow.parse definition = .ok flow)
    : ∃ result later,
        (Arena.attended False fun _ => True).Reaches
            (execute Lone.settings (.ofNat 2) ⟨0⟩,
              Arena.anew ⟨store definition, sound definition, .empty, [], []⟩)
            (.done result, later)
        ∧ phase.id ∈ begun later.past := by
  have unfinished : (execution definition).status.isTerminal = false := rfl
  obtain ⟨first, second, loads, lists, goes⟩ :=
    execute_calls unfinished parsed Lone.settings (.ofNat 2) ⟨0⟩
  refine ⟨?result, ?later, ?run, ?reached⟩
  case run =>
    rw [loads]
    refine .reply ⟨.granted (.getExecution (.ofNat 2)) _ rfl, Or.inr rfl⟩ ?_
    rw [lists]
    refine .reply ⟨.granted (.listPhases (.ofNat 2)) _ (listed definition),
      Or.inr (congrArg Prod.fst (listed definition)).symm⟩ ?_
    rw [goes]
    refine .reply ⟨.quiet .uptime trivial (0 : Nat) _, Or.inr trivial⟩ ?_
    refine .reply ⟨.quiet (.task .now) trivial Lone.time _, Or.inr trivial⟩ ?_
    refine .reply ⟨.granted (.updateExecution _) _ rfl, Or.inr rfl⟩ ?_
    refine .reply ⟨.granted (.setPhaseStatuses (.ofNat 2) .created .pending) _ rfl, Or.inr rfl⟩ ?_
    refine .reply ⟨.granted (.recordLastRunStatus _ _ .running) _ rfl, Or.inr rfl⟩ ?_
    refine .reply ⟨.quiet (.task .now) trivial Lone.time _, Or.inr trivial⟩ ?_
    refine .reply ⟨.emit _ _, Or.inr trivial⟩ ?_
    refine .reply ⟨.looked ⟨0⟩ _ rfl, Or.inr trivial⟩ ?_
    refine .reply ⟨.granted (.getExecution (.ofNat 2)) _ rfl, Or.inr rfl⟩ ?_
    -- the node of the phase cannot be read, which is noted with the time
    refine .reply ⟨.quiet .uptime trivial (0 : Nat) _, Or.inr trivial⟩ ?_
    refine .reply ⟨.quiet (.task .now) trivial Lone.time _, Or.inr trivial⟩ ?_
    refine .reply ⟨.quiet (.task .now) trivial Lone.time _, Or.inr trivial⟩ ?_
    refine .reply ⟨.fault (.updatePhase _) (.terminal phase.id.text) _, Or.inr rfl⟩ ?_
    refine .reply ⟨.granted (.getExecution (.ofNat 2)) _ rfl, Or.inr rfl⟩ ?_
    refine .reply ⟨.quiet (.task .now) trivial Lone.time _, Or.inr trivial⟩ ?_
    refine .reply ⟨.granted (.updateExecution _) _ rfl, Or.inr rfl⟩ ?_
    refine .reply ⟨.quiet .uptime trivial (0 : Nat) _, Or.inr trivial⟩ ?_
    refine .reply ⟨.quiet (.task .now) trivial Lone.time _, Or.inr trivial⟩ ?_
    refine .reply ⟨.emit _ _, Or.inr trivial⟩ ?_
    refine .reply ⟨.granted (.recordLastRunStatus _ _ .failed) _ rfl, Or.inr rfl⟩ ?_
    exact .refl
  case reached =>
    simp [Arena.after, Arena.anew, begun, started?]

end Resumed

/-- A run of an execution that another process left after its first phase is ended by that phase. -/
theorem finished_phase_left_out_resumed
    : ∃ (before later : Arena Memory) (result : Except SetupError RunOutcome),
        Resumed.phase.entry ∈ Books.roll before.store (.ofNat 2)
        ∧ Resumed.phase.entry.status.isTerminal
        ∧ (Arena.attended False fun _ => True).Reaches
            (execute Lone.settings (.ofNat 2) ⟨0⟩, before.anew) (.done result, later)
        ∧ (∃ phases,
            LeftOut Lone.settings (.ofNat 2) Resumed.phase.entry before.store phases later)
        ∧ Halted (.ofNat 2) Resumed.phase.entry result later := by
  obtain ⟨flow, parsed, _⟩ := Service.planned_of_planOf Lone.planned
  revert parsed
  generalize Lone.flow.text = definition
  intro parsed
  obtain ⟨result, later, run, reached⟩ := Resumed.halted parsed
  have listed : Resumed.phase.entry ∈ Books.roll (Resumed.store definition) (.ofNat 2) :=
    List.mem_map_of_mem (Memory.mem_planned.mpr ⟨List.mem_cons_self, rfl⟩)
  obtain ⟨out, halts⟩ := finished_phase_left_out trivial listed rfl run
  exact ⟨_, later, result, listed, rfl, run, out, halts id result rfl reached⟩

end Harvest.Run

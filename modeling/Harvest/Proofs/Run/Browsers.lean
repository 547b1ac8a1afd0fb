import Harvest.Proofs.Except
import Harvest.Proofs.Executor.Standard
import Harvest.Proofs.Run.Errands
import Harvest.Proofs.Run.Turn

/-! Browsers are closed. A run holds on to one browser at a time, and at its end it closes the one
that it still holds; so a launched browser is closed unless another launch takes its place.
-/

namespace Harvest

-----------------------------------------------------------------------------------------
-- Environments
-----------------------------------------------------------------------------------------

namespace Run

open Program RunM

/-- Wiring keeps the browser, by induction over the declared inputs. -/
theorem browser_wireInputs (flow : Flow) (node : Node) (params : List TaskParam)
    (env : Environment)
    : (wireInputs flow node params env).2.browser = env.browser := by
  induction params generalizing env with
  | nil => rfl
  | cons param params ih =>
      unfold wireInputs
      split
      · exact ih env
      · split
        · exact ih _
        · exact ih env

/-- A phase begins with the browser that the one before left. -/
theorem browser_prepared (catalog : Catalog) (flow : Flow) (phase : PhaseRecord)
    (env : Environment)
    : (prepared catalog flow phase env).browser = env.browser := by
  unfold prepared enter
  split
  · rfl
  · unfold prepareNode
    split
    · rfl
    · exact browser_wireInputs ..

-----------------------------------------------------------------------------------------
-- Parts of a run
-----------------------------------------------------------------------------------------

/-- What a part of a run does about browsers: it hands on the one that is due to be closed, and
asks for so many at most.
-/
structure Minds (bound : Nat) (before : Option BrowserId) (calls : List (Happening runCalls))
    (after : Option BrowserId) : Prop where
  handed : HandsOn before (tasksIn calls) after
  launches : (tasksIn calls).countP isLaunch ≤ bound

section

variable {bound more : Nat} {before middle after : Option BrowserId}
  {calls rest : List (Happening runCalls)}

/-- One part after another. -/
theorem Minds.trans (one : Minds bound before calls middle) (two : Minds more middle rest after)
    : Minds (bound + more) before (calls ++ rest) after where
  handed due same := by
    rw [tasksIn_append, List.foldl_append]
    exact two.handed _ (one.handed due same)
  launches := by
    rw [tasksIn_append, List.countP_append]
    exact Nat.add_le_add one.launches two.launches

theorem Minds.mono (minds : Minds bound before calls after) (fits : bound ≤ more)
    : Minds more before calls after :=
  ⟨minds.handed, minds.launches.trans fits⟩

/-- Calls that no browser hears of are minor. -/
theorem Aside.minor (aside : Aside calls) : ∀ happening ∈ tasksIn calls, happening.1.IsMinor := by
  intro happening member
  have offline := aside.offline happening member
  obtain ⟨call, answer⟩ := happening
  cases call with
  | browser call => exact absurd rfl (offline call)
  | _ => trivial

theorem Aside.minds (aside : Aside calls) (held : Option BrowserId) : Minds 0 held calls held where
  handed due same := by rwa [foldl_dueAfter_of_minor aside.minor]
  launches := (countP_isLaunch_of_minor aside.minor).le

end

-----------------------------------------------------------------------------------------
-- Phases
-----------------------------------------------------------------------------------------

/-- How many of the phases launch a browser. -/
def launching (phases : List PhaseRecord) : Nat :=
  phases.countP (·.taskType = .launchBrowser)

section

variable {settings : RunSettings} {tasks : TaskSettings} {flow : Flow} {phase : PhaseRecord}
  {env left : Environment} {log kept : Log} {calls : List (Happening runCalls)}

/-- The work of a phase hands on the browser that is due, and only a launching one launches any. -/
theorem Worked.minds {node : Json.Decoded Node} {success : Bool}
    (registry : settings.registry = Registry.standard tasks)
    (worked : Worked settings phase node log env calls (success, kept, left))
    : Minds (launching [phase]) env.browser calls left.browser := by
  cases worked with
  | unreadable _ => exact ⟨fun _ same => same, Nat.zero_le _⟩
  | unknown aside _ _ => exact (aside.minds env.browser).mono (Nat.zero_le _)
  | @done parsed executor inner verdict work calls _ _ _ _ found ends aside =>
      rw [registry] at found
      have contract := standard_contract found _ _ _ ends
      have own : Minds (launching [phase]) env.browser (inner.map asked) work.browser := by
        refine ⟨?_, ?_⟩
        · rw [tasksIn_map_asked]
          exact contract.handed
        · rw [tasksIn_map_asked, launching, List.countP_singleton]
          simpa using contract.launches
      exact own.trans (aside.minds work.browser)

theorem Ran.minds {outcome : Except StoreError (Bool × Nat) × Environment}
    (registry : settings.registry = Registry.standard tasks)
    (ran : Ran settings flow phase env calls outcome)
    : Minds (launching [phase]) env.browser calls outcome.2.browser := by
  have begins := browser_prepared settings.catalog flow phase env
  cases ran with
  | unbegun aside =>
      change Minds _ _ _ (prepared settings.catalog flow phase env).browser
      rw [begins]
      exact (aside.minds env.browser).mono (Nat.zero_le _)
  | @lost before _ _ _ _ _ _ _ first worked last =>
      have opens : Minds 0 env.browser before env.browser := first.minds env.browser
      exact ((opens.trans (begins ▸ worked.minds registry)).trans (last.minds _)).mono (by omega)
  | @ended before _ _ _ _ _ left _ _ _ first _ worked last =>
      have opens : Minds 0 env.browser before env.browser := first.minds env.browser
      have tells (event : Event) : Minds 0 left.browser [⟨.emit event, ()⟩] left.browser :=
        ⟨fun _ same => same, Nat.zero_le _⟩
      have works := (opens.trans (begins ▸ worked.minds registry)).trans (last.minds _)
      exact (works.trans (tells _)).mono (by omega)

/-- A look whether to stop is beside the work. -/
theorem always_stopRequested (execution : Uuid) (token : Token) (env : Environment)
    : (LoopM.on (stopRequested execution token) env).Always fun calls outcome =>
        Aside calls ∧ outcome.2 = env := by
  unfold stopRequested
  refine always_inLoop_bind.mpr (always_ask.mpr fun (cancelled : Bool) => always_done.mpr ?_)
  cases cancelled with
  | true => exact always_done.mpr ⟨by simp [RunCall.IsAside], rfl⟩
  | false =>
      refine always_stored_bind (fun current => always_done.mpr ?_) fun reason => ?_
      · exact ⟨by simp [RunCall.IsAside], rfl⟩
      · exact ⟨by simp [RunCall.IsAside], rfl⟩

/-- A walk over phases hands on the browser that is due, by induction over the phases. -/
theorem always_runPhases (registry : settings.registry = Registry.standard tasks)
    (execution : Execution) (token : Token) (credits phasesRun : Nat) (phases : List PhaseRecord)
    (env : Environment)
    : (LoopM.on (runPhases settings execution flow token credits phasesRun phases) env).Always
        fun calls outcome => Minds (launching phases) env.browser calls outcome.2.browser := by
  induction phases generalizing credits phasesRun env with
  | nil => exact always_done.mpr ⟨fun _ same => same, Nat.zero_le _⟩
  | cons phase phases ih =>
      unfold runPhases
      rw [on_bind]
      refine always_bind.mpr (Always.mono (always_stopRequested _ _ _) ?_)
      rintro calls ⟨stopped, _⟩ ⟨looks, rfl⟩
      have share : launching (phase :: phases) = launching [phase] + launching phases := by
        rw [launching, ← List.singleton_append, List.countP_append]
        rfl
      have looked {held : Option BrowserId} : Minds (launching (phase :: phases)) held calls held :=
        (looks.minds held).mono (Nat.zero_le _)
      cases stopped with
      | error reason => exact always_done.mpr (by simpa using looked)
      | ok stop =>
          cases stop with
          | true => exact always_done.mpr (by simpa using looked)
          | false =>
              change (LoopM.on (runPhase settings flow phase >>= _) _).Always _
              rw [on_bind]
              refine always_bind.mpr (Always.mono (always_runPhase _ _ _ _) ?_)
              rintro work ⟨ran, left⟩ went
              have minds := (looks.minds _).trans (went.minds registry)
              have soFar :=
                minds.mono (by omega : 0 + launching [phase] ≤ launching (phase :: phases))
              cases ran with
              | error reason => exact always_done.mpr (by simpa using soFar)
              | ok result =>
                  obtain ⟨success, cost⟩ := result
                  cases success with
                  | false => exact always_done.mpr (by simpa using soFar)
                  | true =>
                      have counts (call : StoreCall) (answer : call.Answer)
                          : Minds 0 left.browser [⟨.store call, answer⟩] left.browser :=
                        Aside.minds (by simp [RunCall.IsAside]) _
                      refine always_stored_bind (fun stored => Always.mono (ih _ _ _) ?_)
                        fun reason => ?_
                      · intro more outcome rest
                        have whole :=
                          (minds.trans (counts (.updateExecution _) (.ok stored))).trans rest
                        rw [Nat.add_zero, Nat.zero_add, ← share] at whole
                        simpa using whole
                      · simpa using soFar.trans (counts (.updateExecution _) (.error reason))

end

-----------------------------------------------------------------------------------------
-- The whole run
-----------------------------------------------------------------------------------------

/-- What a run left open is asked to close. -/
theorem always_release (env : Environment)
    : (release env).Always fun calls _ => Minds 0 env.browser calls none := by
  obtain ⟨nodes, held, page⟩ := env
  have closing : (release ⟨nodes, held, none⟩).Always fun calls _ => Minds 0 held calls none := by
    cases held with
    | none => exact always_done.mpr ⟨fun _ same => same, Nat.le_refl 0⟩
    | some browser =>
        refine always_ask.mpr fun answer => always_done.mpr ⟨fun due same => ?_, Nat.le_refl 0⟩
        left
        change (if due = some browser then none else due) = none
        rcases same with rfl | rfl <;> simp
  -- what is asked of the page is minor
  have after (call : BrowserCall) (minor : (TaskCall.browser call).IsMinor) (answer : call.Answer)
      {part : RunM Unit} (always : part.Always fun calls _ => Minds 0 held calls none)
      : part.Always fun calls _ =>
          Minds 0 held (⟨.task (.browser call), answer⟩ :: calls) none := by
    have asked : ∀ happening ∈ tasksIn [⟨.task (.browser call), answer⟩], happening.1.IsMinor := by
      simpa [tasksIn] using minor
    have first : Minds 0 held [⟨.task (.browser call), answer⟩] held :=
      ⟨fun due same => by rwa [foldl_dueAfter_of_minor asked],
        (countP_isLaunch_of_minor asked).le⟩
    exact always.mono fun calls _ rest => first.trans rest
  cases page with
  | none => exact closing
  | some page =>
      have last (answer : Except BrowserError Unit) :=
        after (.closePage page) trivial answer closing
      refine always_ask.mpr fun (closed : Bool) => ?_
      cases closed with
      | true => exact after (.isClosed page) trivial true closing
      | false => exact after (.isClosed page) trivial false (always_ask.mpr last)

/-- A run that is loaded has listed its phases. -/
theorem always_load (id : Uuid)
    : (ExceptT.run (load id)).Always fun calls outcome =>
        Aside calls
        ∧ match outcome with
          | .ok (_, _, phases) => ⟨.store (.listPhases id), .ok phases⟩ ∈ calls
          | .error _ => True := by
  refine always_ask.mpr fun answer => ?_
  cases answer with
  | error reason => cases reason <;> exact always_done.mpr ⟨by simp [RunCall.IsAside], trivial⟩
  | ok execution =>
      simp only [pure_eq_done, Program.bind, ExceptT.bindCont]
      cases execution.status.isTerminal with
      | true => exact always_done.mpr ⟨by simp [RunCall.IsAside], trivial⟩
      | false =>
      cases Flow.parse execution.definition with
      | error reason => exact always_done.mpr ⟨by simp [RunCall.IsAside], trivial⟩
      | ok flow =>
          refine always_ask.mpr fun answer => ?_
          cases answer with
          | error reason => exact always_done.mpr ⟨by simp [RunCall.IsAside], trivial⟩
          | ok phases =>
              exact always_done.mpr ⟨by simp [RunCall.IsAside], List.mem_cons_of_mem _ (by simp)⟩

theorem markRunning_aside (execution : Execution)
    : (ExceptT.run (markRunning execution)).Only RunCall.IsAside := by
  refine .ask trivial fun time => .ask trivial fun updated => ?_
  cases updated with
  | error reason => exact .done _
  | ok _ =>
      refine .ask trivial fun moved => ?_
      cases moved with
      | error reason => exact .done _
      | ok _ => exact .ask trivial fun _ => .done _

theorem finalize_aside (execution : Execution) (status : ExecutionStatus) (credits : Nat)
    (stopped : Bool) (start : Nat)
    : (finalize execution status credits stopped start).Only RunCall.IsAside := by
  refine .ask trivial fun time => .ask trivial fun updated => ?_
  cases updated with
  | error reason => exact .done _
  | ok _ =>
      refine .ask trivial fun _ => .ask trivial fun _ => .ask trivial fun _ => ?_
      exact .ask trivial fun _ => .done _

/-- The end of a run is beside its work. -/
theorem windUp_aside (execution : Execution) (start : Nat) (looped : Except StoreError Summary)
    : (windUp execution start looped).Only RunCall.IsAside := by
  cases looped with
  | ok summary =>
      refine (finalize_aside ..).bind fun result => ?_
      cases result <;> exact .done _
  | error reason =>
      refine (only_ask trivial).bind fun current => Only.bind ?_ fun result => ?_
      · cases current <;> exact finalize_aside ..
      · cases result <;> exact .done _

/-- A run that was loaded holds no browser at its end. -/
theorem always_proceed {settings : RunSettings} {tasks : TaskSettings}
    (registry : settings.registry = Registry.standard tasks)
    (closes : settings.closesBrowser = true) (id : Uuid) (token : Token) (execution : Execution)
    (flow : Flow) (phases : List PhaseRecord)
    : (ExceptT.run (proceed settings id token (execution, flow, phases))).Always fun calls _ =>
        Minds (launching phases) none calls none := by
  unfold proceed
  rw [except_lift_bind]
  refine always_bind.mpr (always_ask.mpr fun start => always_done.mpr ?_)
  rw [except_bind]
  refine always_bind.mpr ((markRunning_aside execution).always.mono fun marked result marks => ?_)
  have opens (start : Nat) : Aside (⟨.uptime, start⟩ :: marked) := aside_cons.mpr ⟨trivial, marks⟩
  cases result with
  | error reason =>
      refine always_done.mpr ?_
      simpa using ((opens start).minds none).mono (Nat.zero_le _)
  | ok running =>
      dsimp only
      rw [except_lift_bind]
      refine always_bind.mpr (always_ask.mpr fun time => always_done.mpr ?_)
      rw [except_lift_bind]
      refine always_bind.mpr (always_ask.mpr fun told => always_done.mpr ?_)
      rw [except_lift_bind]
      refine always_bind.mpr (Always.mono (always_runPhases registry running token 0 0 phases _) ?_)
      rintro walk ⟨looped, env⟩ walked
      rw [if_pos closes, except_lift_bind]
      refine always_bind.mpr (Always.mono (always_release env) fun released _ freed => ?_)
      refine (windUp_aside running start looped).always.mono fun last _ ends => ?_
      have begins : Aside (⟨.uptime, start⟩ :: marked
          ++ [⟨.task .now, time⟩, ⟨.emit (.executionStarted id running.workflowId phases.length
            time), told⟩]) :=
        aside_append.mpr ⟨opens start, by simp [RunCall.IsAside]⟩
      have whole := (((begins.minds none).trans walked).trans freed).trans (Aside.minds ends none)
      simpa using whole

/-- A run holds no browser at its end, and launches no more than the phases that it listed. -/
theorem always_execute {settings : RunSettings} {tasks : TaskSettings}
    (registry : settings.registry = Registry.standard tasks)
    (closes : settings.closesBrowser = true) (id : Uuid) (token : Token)
    : (execute settings id token).Always fun calls _ =>
        ∃ phases,
          (phases = [] ∨ ⟨.store (.listPhases id), .ok phases⟩ ∈ calls)
          ∧ Minds (launching phases) none calls none := by
  rw [execute_eq, except_bind]
  refine always_bind.mpr ((always_load id).mono fun calls loaded ⟨aside, listed⟩ => ?_)
  cases loaded with
  | error reason =>
      refine always_done.mpr ⟨[], Or.inl rfl, ?_⟩
      rw [List.append_nil]
      exact aside.minds none
  | ok loaded =>
      obtain ⟨execution, flow, phases⟩ := loaded
      refine (always_proceed registry closes id token execution flow phases).mono ?_
      intro more _ minds
      refine ⟨phases, Or.inr (List.mem_append_left _ listed), ?_⟩
      simpa using (aside.minds none).trans minds

-----------------------------------------------------------------------------------------
-- Browsers that were launched
-----------------------------------------------------------------------------------------

/-- A browser was launched. -/
def launched (browser : BrowserId) : Happening runCalls :=
  ⟨.task (.browser .launch), (.ok browser : Except BrowserError BrowserId)⟩

/-- The browsers that were launched, in order. -/
def launches (calls : List (Happening runCalls)) : List BrowserId :=
  calls.filterMap fun
    | ⟨.task (.browser .launch), answer⟩ => (answer : Except BrowserError BrowserId).toOption
    | _ => none

/-- The browsers that were asked to close, in order. -/
def closings (calls : List (Happening runCalls)) : List BrowserId :=
  calls.filterMap fun
    | ⟨.task (.browser (.closeBrowser browser)), _⟩ => some browser
    | _ => none

section

variable {calls : List (Happening runCalls)} {browser : BrowserId}

/-- A browser is launched where one of the calls has launched it. -/
theorem launched_mem (member : browser ∈ launches calls) : launched browser ∈ calls := by
  obtain ⟨happening, here, same⟩ := List.mem_filterMap.mp member
  split at same
  case h_1 answer =>
    obtain rfl : answer = .ok browser := eq_ok_of_toOption same
    exact here
  case h_2 => cases same

/-- A browser that was due and no longer is was asked to close, or another was launched, by
induction over the calls.
-/
theorem closed_or_replaced (spent : (tasksIn calls).foldl dueAfter (some browser) = none)
    : browser ∈ closings calls ∨ launches calls ≠ [] := by
  induction calls with
  | nil => cases spent
  | cons happening calls ih =>
      obtain ⟨call, answer⟩ := happening
      cases call with
      | task task =>
          cases task with
          | browser call =>
              cases call with
              | launch =>
                  cases answer with
                  | ok other => exact Or.inr (List.cons_ne_nil _ _)
                  | error reason => exact ih spent
              | closeBrowser other =>
                  change (tasksIn calls).foldl dueAfter
                    (if some browser = some other then none else some browser) = none at spent
                  change browser ∈ other :: closings calls ∨ launches calls ≠ []
                  by_cases same : browser = other
                  · exact Or.inl (same ▸ List.mem_cons_self)
                  · rw [if_neg (same ∘ Option.some.inj)] at spent
                    exact (ih spent).imp_left (List.mem_cons_of_mem other)
              | _ => exact ih spent
          | _ => exact ih spent
      | _ => exact ih spent

end

/-- Browsers are closed unless they are replaced. Whatever is answered to a run of the standard
tasks that closes the browser it left open, and however it ends, each browser that it launched is
asked to close afterwards or another one is launched; and all are asked to close when at most one
of the phases launches a browser.
-/
theorem browsers_closed {settings : RunSettings} {tasks : TaskSettings}
    (registry : settings.registry = Registry.standard tasks)
    (closes : settings.closesBrowser = true) {id : Uuid} {token : Token}
    {calls : List (Happening runCalls)} {result : Except SetupError RunOutcome}
    (ends : (execute settings id token).Ends calls result)
    : (∀ before browser after,
          calls = before ++ launched browser :: after
          → browser ∈ closings after ∨ launches after ≠ [])
      ∧ ((∀ phases, ⟨.store (.listPhases id), .ok phases⟩ ∈ calls → launching phases ≤ 1)
        → ∀ browser ∈ launches calls, browser ∈ closings calls) := by
  obtain ⟨phases, listed, minds⟩ := always_execute registry closes id token calls result ends
  have each (before : List (Happening runCalls)) (browser : BrowserId)
      (after : List (Happening runCalls)) (order : calls = before ++ launched browser :: after)
      : browser ∈ closings after ∨ launches after ≠ [] := by
    refine closed_or_replaced ?_
    have spent := minds.handed none (Or.inl rfl)
    rw [or_self, order, tasksIn_append, List.foldl_append] at spent
    exact spent
  refine ⟨each, fun once browser here => ?_⟩
  obtain ⟨before, after, order⟩ := List.append_of_mem (launched_mem here)
  rcases each before browser after order with closing | again
  · rw [order, closings, List.filterMap_append]
    exact List.mem_append_right _ closing
  · have bound : launching phases ≤ 1 := by
      rcases listed with rfl | listed
      · exact Nat.zero_le 1
      · exact once phases listed
    have twice : 2 ≤ (tasksIn calls).countP isLaunch := by
      obtain ⟨other, another⟩ := List.exists_mem_of_ne_nil _ again
      obtain ⟨middle, rest, later⟩ := List.append_of_mem (launched_mem another)
      have counts (browser : BrowserId) (calls : List (Happening runCalls))
          : (tasksIn (launched browser :: calls)).countP isLaunch
            = (tasksIn calls).countP isLaunch + 1 :=
        List.countP_cons_of_pos rfl
      rw [order, tasksIn_append, List.countP_append, counts, later, tasksIn_append,
        List.countP_append, counts]
      omega
    have launches := minds.launches
    omega

-----------------------------------------------------------------------------------------
-- Two launches
-----------------------------------------------------------------------------------------

namespace Double

/-- A node that launches a browser. -/
def first : String :=
  "\x7b\"id\":\"a\",\"data\":\x7b\"type\":\"LAUNCH_BROWSER\","
    ++ "\"inputs\":\x7b\"Website Url\":\"/a\"\x7d\x7d\x7d"

/-- Another one. -/
def second : String :=
  "\x7b\"id\":\"b\",\"data\":\x7b\"type\":\"LAUNCH_BROWSER\","
    ++ "\"inputs\":\x7b\"Website Url\":\"/b\"\x7d\x7d\x7d"

def definition (nodes : List String) : String :=
  "\x7b\"nodes\":[" ++ ",".intercalate nodes ++ "],\"edges\":[]\x7d"

def execution (nodes : List String) : Execution :=
  .fresh (.ofNat 2) (.ofNat 1) ⟨0, 0, 0⟩ "user" (definition nodes)

def phases (nodes : List String) : List PhaseRecord :=
  nodes.mapIdx fun i text =>
    .fresh (.ofNat (i + 3)) (.ofNat 2) (i + 1) i "Launch" .launchBrowser text

def settings : RunSettings := ⟨.standard, .standard .usual, true⟩

/-- A store that has the execution and its phases, and grants every update. -/
def keep (nodes : List String) : (call : StoreCall) → call.Answer
  | .getExecution _ => .ok (execution nodes)
  | .listPhases _ => .ok (phases nodes)
  | .updateExecution _ => .ok ()
  | .setPhaseStatuses _ _ _ => .ok nodes.length
  | .recordLastRunStatus _ _ _ => .ok ()
  | .updatePhase _ => .ok ()
  | .appendLogs _ _ => .ok ()
  | _ => .error (.database .rowMissing)

/-- What a run comes to, and its calls. -/
def ran (nodes : List String)
    : Except SetupError RunOutcome × List (Happening runCalls) :=
  (execute settings (.ofNat 2) ⟨0⟩).run (noting (answering obliging (keep nodes))) []

theorem ran_once : launches (ran [first]).2 = [⟨0⟩] := by
  decide +kernel

theorem ran_twice
    : launches (ran [first, second]).2 = [⟨0⟩, ⟨1⟩]
      ∧ closings (ran [first, second]).2 = [⟨1⟩] := by
  decide +kernel

end Double

/-- A second launch leaves the first browser open, and a single one is closed. -/
theorem browsers_closed_double
    : (∃ before browser after result,
        (execute Double.settings (.ofNat 2) ⟨0⟩).Ends (before ++ launched browser :: after) result
        ∧ browser ∉ closings (before ++ launched browser :: after)
        ∧ launches after ≠ [])
      ∧ ∃ calls result browser,
          (execute Double.settings (.ofNat 2) ⟨0⟩).Ends calls result
          ∧ browser ∈ launches calls
          ∧ browser ∈ closings calls := by
  have ends (nodes : List String)
      : (execute Double.settings (.ofNat 2) ⟨0⟩).Ends (Double.ran nodes).2 (Double.ran nodes).1
        ∧ ∀ phases,
          ⟨.store (.listPhases (.ofNat 2)), .ok phases⟩ ∈ (Double.ran nodes).2
          → phases = Double.phases nodes := by
    obtain ⟨calls, noted, ends, answered⟩ :=
      ends_run (answering obliging (Double.keep nodes))
        (execute Double.settings (.ofNat 2) ⟨0⟩) []
    change (Double.ran nodes).2 = calls at noted
    refine ⟨noted ▸ ends, fun phases listed => ?_⟩
    obtain ⟨before, same⟩ := answered _ (noted ▸ listed)
    exact Except.ok.inj same
  constructor
  · obtain ⟨run, _⟩ := ends [Double.first, Double.second]
    obtain ⟨opened, closed⟩ := Double.ran_twice
    generalize Double.ran [Double.first, Double.second] = ran at run opened closed
    obtain ⟨result, calls⟩ := ran
    have here : ⟨0⟩ ∈ launches calls := opened ▸ List.mem_cons_self
    have left : (⟨0⟩ : BrowserId) ∉ closings calls := by
      rw [closed]
      decide
    obtain ⟨before, after, rfl⟩ := List.append_of_mem (launched_mem here)
    rcases (browsers_closed rfl rfl run).1 before ⟨0⟩ after rfl with closing | again
    · rw [closings, List.filterMap_append] at left
      exact absurd (List.mem_append_right _ closing) left
    · exact ⟨before, ⟨0⟩, after, result, run, left, again⟩
  · obtain ⟨run, listed⟩ := ends [Double.first]
    have opened := Double.ran_once
    have once : launching (Double.phases [Double.first]) ≤ 1 := by decide
    generalize Double.phases [Double.first] = phases at listed once
    generalize Double.ran [Double.first] = ran at run opened listed
    obtain ⟨result, calls⟩ := ran
    have here : ⟨0⟩ ∈ launches calls := opened ▸ List.mem_cons_self
    refine ⟨calls, result, ⟨0⟩, run, here, ?_⟩
    exact (browsers_closed rfl rfl run).2 (fun found member => listed found member ▸ once) ⟨0⟩ here

end Run

end Harvest

import Harvest.Proofs.Except
import Harvest.Proofs.Executor.Standard
import Harvest.Proofs.Run.Turn

/-! Failures are explained. A standard task that refuses has logged an error, and a failed phase is
told with the last error of its log; the exception are paginations that only saw pages without the
wanted elements.
-/

namespace Harvest

/-- There is no last error where no error was logged. -/
theorem Log.lastError?_eq_none {log : Log} : log.lastError? = none ↔ ¬ log.hasErrors = true := by
  simp [Log.lastError?, Log.hasErrors]

@[simp] theorem Log.hasErrors_append (log more : Log)
    : Log.hasErrors (log ++ more) = (log.hasErrors || more.hasErrors) :=
  List.any_append

namespace Run

section

variable {settings : RunSettings} {tasks : TaskSettings} {flow : Flow} {phase : PhaseRecord}
  {env left : Environment} {log kept : Log}

/-- No page is visited by calls beside the work of a phase. -/
theorem Aside.quiet {calls : List (Happening runCalls)} (aside : Aside calls)
    : ∀ happening ∈ tasksIn calls, ¬ happening.1.IsVisit ∧ Misses happening := by
  intro happening member
  have offline := aside.offline happening member
  obtain ⟨call, answer⟩ := happening
  cases call with
  | browser call => exact absurd rfl (offline call)
  | _ => exact ⟨id, trivial⟩

/-- The work of a standard task that failed has added an error to the log, or the pages that it saw
were all without the wanted elements.
-/
theorem Worked.explained {node : Json.Decoded Node} {work : List (Happening runCalls)}
    (registry : settings.registry = Registry.standard tasks)
    (worked : Worked settings phase node log env work (false, kept, left))
    : (∃ reason, node = .error reason) ∧ kept = log
      ∨ (kept.hasErrors = true
        ↔ log.hasErrors = true ∨ ¬ (phase.taskType = .pagination ∧ Barren (tasksIn work))) := by
  cases worked with
  | unreadable unread => exact Or.inl ⟨⟨_, unread⟩, rfl⟩
  | unknown _ missing _ =>
      rw [registry] at missing
      cases type : phase.taskType <;> rw [type] at missing <;> cases missing
  | @done parsed executor inner verdict work calls _ entries _ read found ends aside told logged
      broke =>
      rw [registry] at found
      have contract := standard_contract found _ _ _ ends
      have barren : Barren (tasksIn (inner.map asked ++ calls)) ↔ Barren inner := by
        have framed : Barren ([] ++ inner ++ tasksIn calls) ↔ Barren inner :=
          barren_between aside.quiet
        simpa using framed
      obtain ⟨added, grown⟩ := contract.extended.log
      have whole : kept.hasErrors = true
          ↔ (log.hasErrors = true ∨ Log.hasErrors added = true) ∨ entries.hasErrors = true := by
        rw [logged, grown]
        simp only [Log.hasErrors_append, Bool.or_eq_true]
        rfl
      refine Or.inr ?_
      rw [barren, whole, broke]
      cases verdict with
      | ok success =>
          have refused : success = false := by simpa using told
          have errs := contract.explained (congrArg _ refused)
          rw [Workspace.errs_iff grown] at errs
          simp [errs]
      | error halt =>
          have other : phase.taskType ≠ .pagination := fun pages => by
            obtain ⟨_, ok⟩ := contract.whole pages
            cases ok
          simp [other]

/-- A failed phase is told with an error, unless its inputs were wired and its task was a pagination
that only saw pages without the wanted elements.
-/
theorem Ran.explained {calls : List (Happening runCalls)} {credits : Nat}
    (registry : settings.registry = Registry.standard tasks)
    (ran : Ran settings flow phase env calls (.ok (false, credits), left))
    : ∃ before message time,
        calls
          = before ++ [⟨.emit (.phaseFailed phase.executionId phase.id
              (nodeId (Node.parse phase.node)) message time), ()⟩]
        ∧ (message = none
          ↔ (enter settings.catalog flow (Node.parse phase.node) env).1 = []
            ∧ phase.taskType = .pagination
            ∧ Barren (tasksIn calls)) := by
  cases ran with
  | @ended before work after log kept _ _ _ millis time first messages worked last =>
      refine ⟨before ++ work ++ after, kept.lastError?, time, rfl, ?_⟩
      have barren
          : Barren (tasksIn (before ++ work ++ after ++ [⟨.emit (ending phase false credits millis
              kept time), ()⟩])) ↔ Barren (tasksIn work) := by
        have quiet := List.forall_mem_append.mpr ⟨first.quiet, last.quiet⟩
        rw [tasksIn_append, tasksIn_append, tasksIn_append]
        change Barren (_ ++ []) ↔ _
        rw [List.append_nil]
        exact barren_between quiet
      rw [Log.lastError?_eq_none, barren]
      rcases worked.explained registry with ⟨⟨reason, unread⟩, rfl⟩ | told
      · rw [messages, unread]
        simp [enter]
      · rw [told, messages]
        tauto

end

/-- Failures are explained, but for one kind. A standard task that ends with false has added an
error to its log, and a failed phase is told with an error, unless the task is a pagination that
opened all its pages and saw none of the wanted elements.
-/
theorem failures_explained (tasks : TaskSettings)
    : (∀ (t : TaskType) (executor : Executor) (work left : Workspace)
        (calls : List (Happening taskCalls)),
        Registry.standard tasks t = some executor
        → ((ExceptT.run executor).run work).Ends calls (.ok false, left)
        → ∃ added,
            left.log = work.log ++ added
            ∧ (Log.hasErrors added = true ↔ ¬ (t = .pagination ∧ Barren calls)))
      ∧ ∀ (settings : RunSettings) (flow : Flow) (phase : PhaseRecord) (env left : Environment)
          (calls : List (Happening runCalls)) (credits : Nat),
          settings.registry = Registry.standard tasks
          → (LoopM.on (runPhase settings flow phase) env).Ends calls (.ok (false, credits), left)
          → ∃ before message time,
              calls
                = before ++ [⟨.emit (.phaseFailed phase.executionId phase.id
                    (nodeId (Node.parse phase.node)) message time), ()⟩]
              ∧ (message = none
                ↔ (enter settings.catalog flow (Node.parse phase.node) env).1 = []
                  ∧ phase.taskType = .pagination
                  ∧ Barren (tasksIn calls)) := by
  constructor
  · intro t executor work left calls standard ends
    have contract := standard_contract standard work _ _ ends
    obtain ⟨added, log⟩ := contract.extended.log
    refine ⟨added, log, ?_⟩
    rw [← Workspace.errs_iff log]
    exact contract.explained rfl
  · intro settings flow phase env left calls credits registry ends
    exact (always_runPhase settings flow phase env _ _ ends).explained registry

-----------------------------------------------------------------------------------------
-- A silent failure
-----------------------------------------------------------------------------------------

namespace Blank

open Program

/-- A pagination of one page. -/
def text : String :=
  "\x7b\"id\":\"pages\",\"data\":\x7b\"type\":\"PAGINATION\","
    ++ "\"inputs\":\x7b\"Base URL\":\"/posts\","
    ++ "\"Pagination Sign\":\"?page=\",\"Start Page\":\"1\",\"End Page\":\"1\","
    ++ "\"Element Selector\":\"a\",\"Attribute to Extract\":\"href\"\x7d\x7d\x7d"

def phase : PhaseRecord := .fresh (.ofNat 3) (.ofNat 2) 2 1 "Pages" .pagination text

def settings : RunSettings := ⟨.standard, .standard .usual, true⟩

def env : Environment := ⟨[], some ⟨0⟩, some ⟨⟨0⟩, 0⟩⟩

/-- A driver whose pages show none of the wanted elements. -/
def browse : (call : BrowserCall) → List (Happening runCalls) → call.Answer
  | .waitFor _ selector _, _ => (.error (.elementNotFound selector) : Except BrowserError Unit)
  | call, past => obliging call past

/-- A store that keeps phases and logs. -/
def keep : (call : StoreCall) → call.Answer
  | .updatePhase _ => .ok ()
  | .appendLogs _ _ => .ok ()
  | _ => .error (.database .rowMissing)

/-- The call tells of a failed phase without an error. -/
def isSilent : Happening runCalls → Bool
  | ⟨.emit (.phaseFailed _ _ _ none _), _⟩ => true
  | _ => false

/-- What the phase comes to, and its calls. -/
def ran : (Except StoreError (Bool × Nat) × Environment) × List (Happening runCalls) :=
  (LoopM.on (runPhase settings .empty phase) env).run (noting (answering browse keep)) []

theorem ran_silent
    : ran.1.1.toOption = some (false, 0) ∧ ran.2.getLast?.any isSilent = true := by
  decide +kernel

end Blank

open Program in
/-- A task without its inputs logs why it refuses, and a pagination whose only page does not show
the wanted element fails without a word.
-/
theorem failures_explained_blank
    : (∃ calls left added,
        ((ExceptT.run Executor.navigateUrl).run (Environment.empty.lend "visit" [])).Ends calls
          (.ok false, left)
        ∧ left.log = added
        ∧ Log.hasErrors added = true)
      ∧ ∃ calls left before time,
          (LoopM.on (runPhase Blank.settings .empty Blank.phase) Blank.env).Ends calls
            (.ok (false, 0), left)
          ∧ calls
            = before ++ [⟨.emit (.phaseFailed (.ofNat 2) (.ofNat 3)
                (nodeId (Node.parse Blank.text)) none time), ()⟩]
          ∧ Barren (tasksIn calls) := by
  obtain ⟨refusals, failures⟩ := failures_explained .usual
  constructor
  · have ends : ((ExceptT.run Executor.navigateUrl).run (Environment.empty.lend "visit" [])).Ends
        [⟨.now, (⟨0, 0, 0⟩ : Time.Instant)⟩] _ := .ask (.done _)
    obtain ⟨added, log, errors⟩ := refusals .navigateUrl _ _ _ _ rfl ends
    exact ⟨_, _, added, ends, log, errors.mpr nofun⟩
  · obtain ⟨calls, noted, ends, _⟩ :=
      ends_run (answering Blank.browse Blank.keep)
        (LoopM.on (runPhase Blank.settings .empty Blank.phase) Blank.env) []
    change Blank.ran.2 = calls at noted
    change Program.Ends _ calls Blank.ran.1 at ends
    obtain ⟨failed, silent⟩ := Blank.ran_silent
    generalize Blank.ran = ran at noted ends failed silent
    obtain ⟨⟨outcome, left⟩, past⟩ := ran
    obtain rfl : outcome = .ok (false, 0) := eq_ok_of_toOption failed
    obtain rfl : past = calls := noted
    have registry : Blank.settings.registry = Registry.standard .usual := rfl
    obtain ⟨before, message, time, order, told⟩ := failures _ _ _ _ _ _ _ registry ends
    have wordless : message = none := by
      rw [order] at silent
      cases message with
      | none => rfl
      | some message => simp [Blank.isSilent] at silent
    obtain ⟨_, _, barren⟩ := told.mp wordless
    exact ⟨past, left, before, time, ends, wordless ▸ order, barren⟩

end Run

end Harvest

import Harvest.Executor.Basic
import Harvest.Proofs.Program.Always

/-! Parts of tasks, one rule for each way of making them. However its calls are answered, a part
that begins in a workspace comes to what is wanted of its calls, of its value or why it broke off,
and of the workspace that it leaves.
-/

namespace Harvest.TaskM

/-- What may be wanted of a part of a task. -/
abbrev Wanted (α : Type) : Type :=
  List (Happening taskCalls) → Except Halt α → Workspace → Prop

variable {α β : Type} {work : Workspace}

/-- A part that begins in a workspace comes to what is wanted. -/
def Always (part : TaskM α) (work : Workspace) (wanted : Wanted α) : Prop :=
  ((ExceptT.run part).run work).Always fun calls outcome => wanted calls outcome.1 outcome.2

/-- More may be accepted than was wanted. -/
theorem Always.mono {part : TaskM α} {wanted accepted : Wanted α}
    (always : part.Always work wanted)
    (fits : ∀ calls result left, wanted calls result left → accepted calls result left)
    : part.Always work accepted :=
  Program.Always.mono always fun calls outcome => fits calls outcome.1 outcome.2

-----------------------------------------------------------------------------------------
-- Ends, calls and sequences
-----------------------------------------------------------------------------------------

theorem always_pure {value : α} {wanted : Wanted α}
    : (pure value : TaskM α).Always work wanted ↔ wanted [] (.ok value) work :=
  Program.always_done

theorem always_throw {halt : Halt} {wanted : Wanted α}
    : (throw halt : TaskM α).Always work wanted ↔ wanted [] (.error halt) work :=
  Program.always_done

/-- A part that breaks off is the end of a sequence; else what follows begins where it left. -/
theorem always_bind {part : TaskM α} {next : α → TaskM β} {wanted : Wanted β}
    : (part >>= next).Always work wanted
      ↔ part.Always work fun calls result left =>
          match result with
          | .ok value => (next value).Always left fun more => wanted (calls ++ more)
          | .error halt => wanted calls (.error halt) left := by
  change (Program.bind _ _).Always _ ↔ _
  rw [Program.always_bind]
  refine forall₃_congr fun calls outcome _ => ?_
  obtain ⟨result, left⟩ := outcome
  cases result with
  | ok value => rfl
  | error halt => exact Program.always_done.trans (by simp)

/-- A call may be answered in any way. -/
theorem always_ask {call : TaskCall} {wanted : Wanted call.Answer}
    : (ask call).Always work wanted ↔ ∀ answer, wanted [⟨call, answer⟩] (.ok answer) work := by
  change (Program.ask _ _).Always _ ↔ _
  rw [Program.always_ask]
  exact forall_congr' fun answer => Program.always_done

theorem always_get {wanted : Wanted Workspace}
    : (get : TaskM Workspace).Always work wanted ↔ wanted [] (.ok work) work :=
  Program.always_done

theorem always_modify {f : Workspace → Workspace} {wanted : Wanted PUnit}
    : (modify f : TaskM PUnit).Always work wanted ↔ wanted [] (.ok ⟨⟩) (f work) :=
  Program.always_done

/-- A failure of the browser breaks the task off. -/
theorem always_orHalt {answer : Except BrowserError α} {wanted : Wanted α}
    : (orHalt answer).Always work wanted
      ↔ match answer with
        | .ok value => wanted [] (.ok value) work
        | .error reason => wanted [] (.error (.error (.browser reason))) work := by
  cases answer <;> exact Program.always_done

-----------------------------------------------------------------------------------------
-- The log
-----------------------------------------------------------------------------------------

/-- An entry is made at the time that is told. -/
theorem always_log {level : LogLevel} {message : String} {wanted : Wanted Unit}
    : (log level message).Always work wanted
      ↔ ∀ time : Time.Instant,
          wanted [⟨.now, time⟩] (.ok ()) (work.record level message time) := by
  change (ask .now >>= fun time => modify _).Always work wanted ↔ _
  rw [always_bind, always_ask]
  exact forall_congr' fun time => always_modify

theorem always_info {message : String} {wanted : Wanted Unit}
    : (info message).Always work wanted
      ↔ ∀ time : Time.Instant,
          wanted [⟨.now, time⟩] (.ok ()) (work.record .info message time) :=
  always_log

theorem always_error {message : String} {wanted : Wanted Unit}
    : (error message).Always work wanted
      ↔ ∀ time : Time.Instant,
          wanted [⟨.now, time⟩] (.ok ()) (work.record .error message time) :=
  always_log

/-- A refusal leaves an error behind the log. -/
theorem always_refuse {message : String} {wanted : Wanted Bool}
    : (refuse message).Always work wanted
      ↔ ∀ time : Time.Instant,
          wanted [⟨.now, time⟩] (.ok false) (work.record .error message time) := by
  unfold refuse
  simp only [always_bind, always_error, always_pure, List.append_nil]

-----------------------------------------------------------------------------------------
-- Inputs, outputs and the page
-----------------------------------------------------------------------------------------

theorem always_input? {name : String} {wanted : Wanted (Option TaskValue)}
    : (input? name).Always work wanted ↔ wanted [] (.ok (work.input? name)) work :=
  Program.always_done

theorem always_inputText? {name : String} {wanted : Wanted (Option String)}
    : (inputText? name).Always work wanted ↔ wanted [] (.ok (work.inputText? name)) work :=
  Program.always_done

/-- A text is read, or its absence is logged. -/
theorem always_requireText {name : String} {wanted : Wanted (Option String)}
    : (requireText name).Always work wanted
      ↔ (∀ text, work.inputText? name = some text → wanted [] (.ok (some text)) work)
        ∧ (work.inputText? name = none
          → ∀ time : Time.Instant,
              wanted [⟨.now, time⟩] (.ok none)
                (work.record .error ("input->" ++ name ++ " is not defined") time)) := by
  unfold requireText
  rw [always_bind, always_inputText?]
  cases work.inputText? name with
  | some text => simp only [always_pure]; simp
  | none => simp only [always_bind, always_error, always_pure]; simp

/-- The page of the run is there, or its absence is logged. -/
theorem always_requirePage {wanted : Wanted (Option PageId)}
    : requirePage.Always work wanted
      ↔ (∀ page, work.page = some page → wanted [] (.ok (some page)) work)
        ∧ (work.page = none
          → ∀ time : Time.Instant,
              wanted [⟨.now, time⟩] (.ok none)
                (work.record .error "No browser page available" time)) := by
  unfold requirePage
  rw [always_bind, always_get]
  cases here : work.page with
  | some page => simp only [here, always_pure]; simp
  | none => simp only [here, always_bind, always_error, always_pure]; simp

theorem always_output {name : String} {value : TaskValue} {wanted : Wanted Unit}
    : (output name value).Always work wanted ↔ wanted [] (.ok ()) (work.setOutput name value) :=
  Program.always_done

theorem always_outputText {name text : String} {wanted : Wanted Unit}
    : (outputText name text).Always work wanted
      ↔ wanted [] (.ok ()) (work.setOutput name (.text text)) :=
  Program.always_done

theorem always_passPage {wanted : Wanted Unit}
    : passPage.Always work wanted ↔ wanted [] (.ok ()) (work.setOutput Slot.webPage .browser) :=
  Program.always_done

end Harvest.TaskM

import Harvest.Executor.Basic
import Harvest.Proofs.Named
import Harvest.Proofs.Program.Realm

/-! Tasks that touch nothing but their context. Such a task may do anything in any order, but
only through what a context offers: the inputs and outputs of its own node, the shared browser
and page, its log, and calls to the outside.
-/

namespace Harvest

-----------------------------------------------------------------------------------------
-- Contexts
-----------------------------------------------------------------------------------------

/-- What a context offers to the task of a node. -/
inductive ContextCall where
  | node
  | input (name : String)
  | output (name : String) (value : TaskValue)
  | browser
  | setBrowser (browser : Option BrowserId)
  | page
  | setPage (page : Option PageId)
  | log
  | setLog (log : Log)
  | task (call : TaskCall)

namespace ContextCall

/-- What is answered to a call of a context. -/
def Answer : ContextCall → Type
  | node => String
  | input _ => Option TaskValue
  | browser => Option BrowserId
  | page => Option PageId
  | log => Log
  | task call => call.Answer
  | _ => Unit

/-- What a context makes of a call. -/
def serve : (call : ContextCall) → StateT Workspace (Program taskCalls) call.Answer
  | node => return (← get).node
  | input name => return (← get).input? name
  | output name value => modify fun work => work.setOutput name value
  | browser => return (← get).browser
  | setBrowser handle => modify fun work => { work with browser := handle }
  | page => return (← get).page
  | setPage handle => modify fun work => { work with page := handle }
  | log => return (← get).log
  | setLog entries => modify fun work => { work with log := entries }
  | task call => StateT.lift (Program.call (S := taskCalls) call)

/-- What may be answered to a call of a context, and the workspace that is left. -/
inductive Served : (call : ContextCall) → Workspace → call.Answer → Workspace → Prop where
  | node (work : Workspace) : Served node work work.node work
  | input (name : String) (work : Workspace)
      : Served (input name) work (work.input? name) work
  | output (name : String) (value : TaskValue) (work : Workspace)
      : Served (output name value) work () (work.setOutput name value)
  | browser (work : Workspace) : Served browser work work.browser work
  | setBrowser (browser : Option BrowserId) (work : Workspace)
      : Served (setBrowser browser) work () { work with browser := browser }
  | page (work : Workspace) : Served page work work.page work
  | setPage (page : Option PageId) (work : Workspace)
      : Served (setPage page) work () { work with page := page }
  | log (work : Workspace) : Served log work work.log work
  | setLog (log : Log) (work : Workspace) : Served (setLog log) work () { work with log := log }
  | task (call : TaskCall) (answer : call.Answer) (work : Workspace)
      : Served (task call) work answer work

end ContextCall

/-- The calls of contexts. -/
abbrev contextCalls : Signature := ⟨ContextCall, ContextCall.Answer⟩

/-- What a task does with its context. -/
abbrev Behaviour := Program contextCalls (Except Halt Bool)

/-- What a task did with its context, call by call. -/
abbrev Trace := List (Happening contextCalls)

namespace Trace

/-- The values that were put on outputs, in order. -/
def writes (trace : Trace) : Values :=
  trace.filterMap fun
    | ⟨.output name value, _⟩ => some (name, value)
    | _ => none

/-- The value that was put on an output last. -/
def lastWritten? (trace : Trace) (name : String) : Option TaskValue :=
  Named.get? name trace.writes.reverse

/-- The calls to the outside, in order. -/
def outside (trace : Trace) : List (Happening taskCalls) :=
  trace.filterMap fun
    | ⟨.task call, answer⟩ => some ⟨call, answer⟩
    | _ => none

end Trace

namespace Behaviour

/-- The behaviour in a workspace that serves as its context. -/
def within : Behaviour → StateT Workspace (Program taskCalls) (Except Halt Bool)
  | .done verdict => pure verdict
  | .ask call next => call.serve >>= fun answer => within (next answer)

/-- The executor that behaves in a way. -/
def executor (behaviour : Behaviour) : Executor := ExceptT.mk behaviour.within

/-- A behaviour comes to its end in a workspace, call by call. -/
inductive Session : Behaviour → Workspace → Trace → Except Halt Bool → Workspace → Prop where
  | done (verdict : Except Halt Bool) (work : Workspace)
      : Session (.done verdict) work [] verdict work
  | ask {call : ContextCall} {next : call.Answer → Behaviour} {answer : call.Answer}
      {work middle last : Workspace} {trace : Trace} {verdict : Except Halt Bool}
      (served : call.Served work answer middle)
      (rest : Session (next answer) middle trace verdict last)
      : Session (.ask call next) work (⟨call, answer⟩ :: trace) verdict last

/-- An executor that comes to its end has gone through a session of its behaviour, by induction
over the behaviour.
-/
theorem session_of_ends {behaviour : Behaviour} {work last : Workspace}
    {calls : List (Happening taskCalls)} {verdict : Except Halt Bool}
    (ends : (behaviour.within.run work).Ends calls (verdict, last))
    : ∃ trace : Trace, behaviour.Session work trace verdict last ∧ trace.outside = calls := by
  induction behaviour generalizing work calls with
  | done verdict =>
      cases ends
      exact ⟨[], .done _ _, rfl⟩
  | ask call next ih =>
      have inside {answer : call.Answer} {middle : Workspace}
          (served : call.Served work answer middle)
          (outside : ∀ trace : Trace, Trace.outside (⟨call, answer⟩ :: trace) = trace.outside)
          (ends : ((within (next answer)).run middle).Ends calls (verdict, last))
          : ∃ trace : Trace,
              Session (.ask call next) work trace verdict last ∧ trace.outside = calls := by
        obtain ⟨trace, session, same⟩ := ih answer ends
        exact ⟨_, .ask served session, (outside trace).trans same⟩
      cases call with
      | task call =>
          have ends : (Program.ask (S := taskCalls) call fun answer =>
              (within (next answer)).run work).Ends calls (verdict, last) := ends
          cases ends with
          | ask ends =>
              obtain ⟨trace, session, same⟩ := ih _ ends
              exact ⟨_, .ask (.task call _ work) session, congrArg _ same⟩
      | node => exact inside (.node work) (fun _ => rfl) ends
      | input name => exact inside (.input name work) (fun _ => rfl) ends
      | output name value => exact inside (.output name value work) (fun _ => rfl) ends
      | browser => exact inside (.browser work) (fun _ => rfl) ends
      | setBrowser browser => exact inside (.setBrowser browser work) (fun _ => rfl) ends
      | page => exact inside (.page work) (fun _ => rfl) ends
      | setPage page => exact inside (.setPage page work) (fun _ => rfl) ends
      | log => exact inside (.log work) (fun _ => rfl) ends
      | setLog log => exact inside (.setLog log work) (fun _ => rfl) ends

/-- What a session leaves: the node and its inputs as they were, and what was put on its outputs,
by induction over the session.
-/
theorem Session.leaves {behaviour : Behaviour} {work last : Workspace} {trace : Trace}
    {verdict : Except Halt Bool} (session : behaviour.Session work trace verdict last)
    : last.node = work.node
      ∧ last.inputs = work.inputs
      ∧ last.outputs
        = trace.writes.foldl (fun acc (name, value) => Named.put name value acc) work.outputs := by
  induction session with
  | done verdict work => exact ⟨rfl, rfl, rfl⟩
  | ask served rest ih =>
      cases served <;> exact ih

end Behaviour

end Harvest

import Harvest.Command.Arguments
import Harvest.Command.Folder
import Harvest.Command.Report
import Harvest.Executor.Standard
import Harvest.Rehearsal.World
import Harvest.Service.Supervise
import Harvest.Store.Memory
import Harvest.Store.Tables
import Harvest.Task.Standard

/-! What the commands do. They read and write files and print lines; a failure is told with the
chain of its causes. No browser server is in reach, so that no browser can be launched.
-/

namespace Harvest.Command

open Rehearsal Time

/-- Why a command fails. -/
inductive CommandError where
  | unreadable (path : String) (reason : FileError)
  | unwritable (reason : FileError)
  | definition (reason : Json.DecodeError)
  | planning (reason : PlanError)
  | service (reason : ServiceError)
  | incomplete (execution : Uuid)

/-- The causes of a database fault in words, from the fault itself on. -/
def faultChain (fault : DatabaseFault) : List String :=
  let lead := "error returned from database: "
  fault.message :: (if fault.message.startsWith lead
    then [String.ofList (fault.message.toList.drop lead.length)] else [])

/-- The causes of a refusal of the store in words, from the refusal itself on. -/
def storeChain (reason : StoreError) : List String :=
  reason.message :: match reason with
    | .database fault => faultChain fault
    | _ => []

namespace CommandError

/-- A failure and its causes in words. -/
def chain : CommandError → List String
  | .unreadable path reason => ["reading " ++ path, reason.message]
  | .unwritable reason => [reason.message]
  | .definition reason => [reason.message]
  | .planning reason => [reason.message]
  | .incomplete execution => ["execution " ++ execution.text ++ " did not complete"]
  | .service reason =>
      match reason with
      | .trigger (.planning cause) => [reason.message, cause.message]
      | .trigger (.store cause) => reason.message :: storeChain cause
      | .setup (.store cause) => reason.message :: storeChain cause
      | .store cause => storeChain cause
      | _ => [reason.message]

/-- A text with a lead before its first line and as many spaces before the others. -/
def indented (lead text : String) : String :=
  lead ++ ("\n" ++ String.ofList (List.replicate lead.length ' ')).intercalate
    (text.splitOn "\n")

/-- The wording of the causes; several are numbered. -/
def causesText : List String → String
  | [] => ""
  | [cause] => "\n\nCaused by:\n" ++ indented "    " cause
  | causes => "\n\nCaused by:" ++ String.join (causes.zipIdx.map fun (cause, i) =>
      "\n" ++ indented ("    " ++ toString i ++ ": ") cause)

/-- The wording of a failure with its causes. -/
def text (e : CommandError) : String :=
  "Error: " ++ (e.chain.head?.getD "") ++ causesText e.chain.tail ++ "\n"

end CommandError

/-- What a command can ask for. -/
inductive DeskCall where
  | print (line : String)
  | read (path : String)
  | write (path text : String)
  /-- Whether a database can be kept in a file. -/
  | canKeep (path : String)
  /-- The present time and a number that no earlier command had. -/
  | begin

/-- What is answered to the call of a command. -/
def DeskCall.Answer : DeskCall → Type
  | .print _ => Unit
  | .read _ => Except FileError String
  | .write _ _ => Except FileError Unit
  | .canKeep _ => Bool
  | .begin => Instant × Nat

/-- The calls of commands. -/
def deskCalls : Signature := ⟨DeskCall, DeskCall.Answer⟩

/-- A part of a command. -/
abbrev CommandM := ExceptT CommandError (Program deskCalls)

/-- Makes a call. -/
def ask (call : DeskCall) : CommandM call.Answer :=
  ExceptT.lift (Program.call (S := deskCalls) call)

/-- Prints lines. -/
def printLines (lines : List String) : CommandM Unit := lines.forM fun line => ask (.print line)

/-- Goes on with a value, or fails for a reason. -/
def orFail {ε α : Type} (wrap : ε → CommandError) : Except ε α → CommandM α
  | .ok value => return value
  | .error reason => throw (wrap reason)

/-- The text of a workflow file. -/
def load (file : String) : CommandM String := do
  let answer : Except FileError String ← ask (.read file)
  orFail (.unreadable file) answer

/-- Prints the plan of a workflow file. -/
def printPlan (file : String) : CommandM Unit := do
  let flow ← orFail .definition (Flow.parse (← load file))
  let found ← orFail .planning (flow.plan .standard)
  printLines (planLines .standard found)

/-- A workflow to begin with: it launches a browser, reads a heading and closes the browser. -/
def exampleFlow : Flow where
  nodes :=
    [⟨"launch", .launchBrowser, [(Slot.websiteUrl, .string "https://example.com")], []⟩,
      ⟨"html", .pageToHtml, [], []⟩,
      ⟨"heading", .extractText, [(Slot.selector, .string "h1")], []⟩,
      ⟨"close", .closeBrowser, [], []⟩]
  edges :=
    [⟨"launch", Slot.webPage, "html", Slot.webPage⟩, ⟨"html", Slot.html, "heading", Slot.html⟩,
      ⟨"html", Slot.webPage, "close", Slot.webPage⟩]
  viewport := none

/-- Writes the example to a file. -/
def writeExample (output : String) : CommandM Unit := do
  let answer : Except FileError Unit ← ask (.write output exampleFlow.toJson.indented)
  orFail .unwritable answer
  printLines ["✨ Created example workflow: " ++ output, "", "Run it with:",
    "  scrape run --file " ++ output]

/-! ## Runs -/

/-- The user on whose behalf the command line runs workflows. -/
def commandUser : String := "cli"

/-- The name of the workflow in a file: the name of the file without its last ending. -/
def workflowName (file : String) : String :=
  match (Folder.steps file).getLast? with
  | none => "workflow"
  | some name =>
      if name == ".." then "workflow"
      else
        let parts := name.splitOn "."
        let stem := ".".intercalate parts.dropLast
        if stem.isEmpty then name else stem

/-- The text after a beginning that may come any number of times, at most as often as it fits. -/
def trimStart (lead : List Char) : (fuel : Nat) → List Char → List Char
  | 0, cs => cs
  | fuel + 1, cs =>
      if !lead.isEmpty && lead.isPrefixOf cs then trimStart lead fuel (cs.drop lead.length)
      else cs

/-- The file of the database at an address; one in memory has none. -/
def databaseFile? (address : String) : Option String :=
  let cs := trimStart "sqlite://".toList address.length address.toList
  let cs := (trimStart "sqlite:".toList address.length cs).takeWhile (· != '?')
  if cs.isEmpty || cs == ":memory:".toList then none else some (String.ofList cs)

/-- What is told of a browser that cannot be launched. -/
def unreachable (settings : TaskSettings) : String :=
  "error sending request for url (" ++ Text.trimSlashes settings.webDriver ++ "/session)"

/-- The world of a run: the standard tasks, and no browser. -/
def worldOf {σ : Type} (settings : TaskSettings) (store : σ) (epoch : Instant) (seed : Nat)
    : World σ where
  settings := ⟨.standard, .standard settings, true⟩
  store := store
  faults := []
  calls := []
  bus := .usual
  supervisor := .empty
  browsers := .ofScript
    { BrowserScript.blank with launchError := some (.launch (unreachable settings)) }
  workers := []
  exports := ⟨false, []⟩
  actions := []
  epoch := epoch
  readings := 0
  issued := seed

/-- The answer to a call of the service in a world that keeps the events, the latest first. -/
def answer {σ : Type} [Store σ] (call : ServiceCall) (w : World σ × List Event)
    : call.Answer × World σ × List Event :=
  let (world, events) := w
  let (value, world) := (world.startService call).2.finishService 0 call
  match call with
  | .run (.emit event) => (value, world, event :: events)
  | _ => (value, world, events)

/-- Does a part of the service and prints the events on the way. -/
def perform {σ α : Type} [Store σ] (w : World σ) (p : ExceptT ServiceError ServiceM α)
    : CommandM (α × World σ) := do
  let (value, w, events) := Program.run (fun (c : ServiceCall) => answer c) p.run (w, [])
  printLines (events.reverse.map eventLine)
  return (← orFail .service value, w)

/-- Prints what is known of phases. -/
def printPhases {σ : Type} [Store σ] (w : World σ) : List PhaseRecord → CommandM Unit
  | [] => return ()
  | phase :: phases => do
      let (details, w) ← perform w (Service.phaseDetails phase.id)
      printLines (detailLines details)
      printPhases w phases

/-- Runs a workflow in a world and prints how it went. -/
def runIn {σ : Type} [Store σ] (w : World σ) (name definition : String) : CommandM Unit := do
  let (workflow, w) ← perform w (Service.createWorkflow commandUser name definition)
  let (outcome, w) ← perform w
    (Service.triggerAndWait w.settings ⟨workflow.id, commandUser, definition⟩)
  printLines (outcomeLines outcome)
  let (report, w) ← perform w (Service.report outcome.execution)
  printPhases w report.phases
  if outcome.status != .completed then throw (.incomplete outcome.execution)

/-- Runs a workflow file. -/
def runFile (options : RunOptions) : CommandM Unit := do
  ask (.print ("🚀 Loading workflow from: " ++ options.file))
  let definition ← load options.file
  let name := workflowName options.file
  let (epoch, seed) ← (ask .begin : CommandM (Instant × Nat))
  match options.database with
  | none => runIn (worldOf options.settings Memory.empty epoch seed) name definition
  | some address =>
      if let some file := databaseFile? address then
        let keeps : Bool ← ask (.canKeep file)
        if !keeps then throw (.service (.store (.database .cannotOpen)))
      runIn (worldOf options.settings Tables.empty epoch seed) name definition

/-- Does a command. -/
def execute : Command → CommandM Unit
  | .plan file => printPlan file
  | .run options => runFile options
  | .tasks => printLines (catalogLines .standard)
  | .init output => writeExample output

/-- The exit code of an invocation, and what is told of its failure. -/
def respond (invocation : Invocation) : Program deskCalls (Nat × String) := do
  match invocation with
  | .wrong => return (2, HelpTopic.everything.text)
  | .help topic =>
      let _ ← ((topic.text.splitOn "\n").dropLast.forM fun line =>
        (Program.call (S := deskCalls) (.print line) : Program deskCalls Unit))
      return (0, "")
  | .perform command =>
      match ← (execute command).run with
      | .ok () => return (0, "")
      | .error e => return (1, e.text)

end Harvest.Command

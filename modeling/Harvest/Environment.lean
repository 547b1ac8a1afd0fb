import Harvest.Browser.Basic
import Harvest.Record.Basic
import Harvest.Value

/-! What one run shares: the values on the inputs and outputs of its nodes, and its browser and
page. One task at a time borrows the part of its node, and nothing it does reaches the values
of another node.
-/

namespace Harvest

open Time

/-- Values by the names of inputs or outputs. -/
abbrev Values := List (String × TaskValue)

/-- The values on the inputs and outputs of a node. -/
structure Slots where
  inputs : Values
  outputs : Values
deriving Repr, Inhabited

/-- A node without values. -/
def Slots.empty : Slots := ⟨[], []⟩

/-- Values as a record of the texts in which they are kept. -/
def Values.keptText (values : Values) : String :=
  (Json.object (values.map fun (name, value) => (name, .string value.kept))).compact

/-- Log entries in order of arrival. -/
abbrev Log := List LogEntry

/-- An error was logged. -/
def Log.hasErrors (log : Log) : Bool := log.any (·.level == .error)

/-- The message of the last error that was logged. -/
def Log.lastError? (log : Log) : Option String :=
  (log.reverse.find? (·.level == .error)).map (·.message)

/-- What one run shares. -/
structure Environment where
  nodes : List (String × Slots)
  browser : Option BrowserId
  page : Option PageId
deriving Repr, Inhabited

/-- What a task may touch: the values of its node, the shared handles and its log. -/
structure Workspace where
  node : String
  inputs : Values
  outputs : Values
  browser : Option BrowserId
  page : Option PageId
  log : Log
deriving Repr, Inhabited

namespace Environment

/-- The environment of a run that starts. -/
def empty : Environment := ⟨[], none, none⟩

/-- The values of a node, if it has been prepared or given any. -/
def slots? (env : Environment) (node : String) : Option Slots := Named.get? node env.nodes

/-- The values of a node; a node that is not known has none. -/
def slots (env : Environment) (node : String) : Slots := (env.slots? node).getD .empty

/-- The environment with the values of a node replaced. -/
def setSlots (env : Environment) (node : String) (slots : Slots) : Environment :=
  { env with nodes := Named.put node slots env.nodes }

/-- Clears the values of a node before it runs. -/
def prepare (env : Environment) (node : String) : Environment := env.setSlots node .empty

/-- The value on an input. -/
def input? (env : Environment) (node name : String) : Option TaskValue :=
  Named.get? name (env.slots node).inputs

/-- The value on an output. -/
def output? (env : Environment) (node name : String) : Option TaskValue :=
  Named.get? name (env.slots node).outputs

/-- Puts a value on an input. -/
def setInput (env : Environment) (node name : String) (value : TaskValue) : Environment :=
  let slots := env.slots node
  env.setSlots node { slots with inputs := Named.put name value slots.inputs }

/-- Puts a value on an output. -/
def setOutput (env : Environment) (node name : String) (value : TaskValue) : Environment :=
  let slots := env.slots node
  env.setSlots node { slots with outputs := Named.put name value slots.outputs }

/-- The environment without a browser and a page. -/
def withoutHandles (env : Environment) : Environment :=
  { env with browser := none, page := none }

/-- What the task of a node borrows. -/
def lend (env : Environment) (node : String) (log : Log) : Workspace :=
  ⟨node, (env.slots node).inputs, (env.slots node).outputs, env.browser, env.page, log⟩

/-- The environment after a task has given back what it borrowed. -/
def takeBack (env : Environment) (work : Workspace) : Environment :=
  { env.setSlots work.node ⟨(env.slots work.node).inputs, work.outputs⟩ with
    browser := work.browser
    page := work.page }

end Environment

namespace Workspace

/-- The value on an input. -/
def input? (work : Workspace) (name : String) : Option TaskValue := Named.get? name work.inputs

/-- The text on an input, unless it is empty. -/
def inputText? (work : Workspace) (name : String) : Option String :=
  ((work.input? name).bind TaskValue.asText?).filter (!·.isEmpty)

/-- Puts a value on an output. -/
def setOutput (work : Workspace) (name : String) (value : TaskValue) : Workspace :=
  { work with outputs := Named.put name value work.outputs }

/-- Adds a log entry. -/
def record (work : Workspace) (level : LogLevel) (message : String) (time : Instant)
    : Workspace :=
  { work with log := work.log ++ [⟨level, message, time⟩] }

end Workspace

end Harvest

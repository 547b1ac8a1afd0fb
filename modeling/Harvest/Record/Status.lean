import Harvest.Json.Decoder

/-! The statuses that executions and phases move through, and the small enumerations of the
records. Completed and failed are the terminal statuses.
-/

namespace Harvest

/-- How far an execution has come. -/
inductive ExecutionStatus where
  | pending
  | running
  | completed
  | failed
deriving DecidableEq, Repr, Inhabited

namespace ExecutionStatus

/-- The name of a status. -/
def name : ExecutionStatus → String
  | pending => "PENDING"
  | running => "RUNNING"
  | completed => "COMPLETED"
  | failed => "FAILED"

/-- Statuses by their names. -/
def options : List (String × ExecutionStatus) :=
  [pending, running, completed, failed].map fun s => (s.name, s)

/-- The status of a name. -/
def parse? (s : String) : Option ExecutionStatus := Named.get? s options

/-- A status that is never left. -/
def isTerminal (s : ExecutionStatus) : Bool := s == completed || s == failed

/-- A status as a value. -/
def toJson (s : ExecutionStatus) : Json := .string s.name

/-- Reads a status. -/
def decode : Json.Decoder ExecutionStatus := Json.Decoder.variant options

end ExecutionStatus

/-- How far a phase has come. -/
inductive PhaseStatus where
  | created
  | pending
  | running
  | completed
  | failed
deriving DecidableEq, Repr, Inhabited

namespace PhaseStatus

/-- The name of a status. -/
def name : PhaseStatus → String
  | created => "CREATED"
  | pending => "PENDING"
  | running => "RUNNING"
  | completed => "COMPLETED"
  | failed => "FAILED"

/-- Statuses by their names. -/
def options : List (String × PhaseStatus) :=
  [created, pending, running, completed, failed].map fun s => (s.name, s)

/-- The status of a name. -/
def parse? (s : String) : Option PhaseStatus := Named.get? s options

/-- A status that is never left. -/
def isTerminal (s : PhaseStatus) : Bool := s == completed || s == failed

/-- A status as a value. -/
def toJson (s : PhaseStatus) : Json := .string s.name

/-- Reads a status. -/
def decode : Json.Decoder PhaseStatus := Json.Decoder.variant options

end PhaseStatus

/-- What started an execution. -/
inductive Trigger where
  | manual
  | cron
deriving DecidableEq, Repr, Inhabited

namespace Trigger

/-- The name of a trigger. -/
def name : Trigger → String
  | manual => "MANUAL"
  | cron => "CRON"

/-- Triggers by their names. -/
def options : List (String × Trigger) := [manual, cron].map fun t => (t.name, t)

/-- The trigger of a name. -/
def parse? (s : String) : Option Trigger := Named.get? s options

/-- A trigger as a value. -/
def toJson (t : Trigger) : Json := .string t.name

/-- Reads a trigger. -/
def decode : Json.Decoder Trigger := Json.Decoder.variant options

end Trigger

/-- The weight of a log entry. -/
inductive LogLevel where
  | info
  | error
deriving DecidableEq, Repr, Inhabited

namespace LogLevel

/-- The name of a level in tables and on the console. -/
def name : LogLevel → String
  | info => "info"
  | error => "error"

/-- The level of a name. -/
def parse? (s : String) : Option LogLevel :=
  Named.get? s ([info, error].map fun l => (l.name, l))

/-- Levels by the names they have in values. -/
def options : List (String × LogLevel) := [("INFO", info), ("ERROR", error)]

/-- A level as a value. -/
def toJson : LogLevel → Json
  | info => .string "INFO"
  | error => .string "ERROR"

/-- Reads a level. -/
def decode : Json.Decoder LogLevel := Json.Decoder.variant options

end LogLevel

end Harvest

import Harvest.Rehearsal.World

/-! Sessions with the service in a rehearsed world. Workflows, executions and phases get short
labels in the order in which they come, and accounts of a session tell them by their labels.
-/

namespace Harvest.Rehearsal

/-- A session: the world in time, and what has a label. -/
structure Session (σ : Type) where
  line : Timeline serviceCalls (World σ)
  workflows : List Uuid
  /-- The number of executions that have a label. -/
  executions : Nat
  labels : List (String × Uuid)
  /-- A run in the background ends at once when it was started. -/
  isPrompt : Bool

namespace Session

variable {σ : Type} [Store σ]

/-- A session that begins, with one listener on the bus. -/
def start (w : World σ) (isPrompt : Bool) : Session σ :=
  ⟨⟨0, [], { w with bus := w.bus.subscribe.2 }⟩, [], 0, [], isPrompt⟩

/-- The world of a session. -/
def world (s : Session σ) : World σ := s.line.state

/-- The session with another world. -/
def setWorld (s : Session σ) (w : World σ) : Session σ :=
  { s with line := { s.line with state := w } }

/-- The identifier that a label stands for, or a text of its own; else the nil identifier. -/
def identifier (s : Session σ) (name : String) : Uuid :=
  ((Named.get? name s.labels).orElse fun _ => Uuid.parse? name).getD .nil

/-- Does a part of the service. -/
def perform {α : Type} (s : Session σ) (p : ServiceM α) : α × Session σ :=
  let (value, line) := Timeline.foreground World.host p s.line
  (value, { s with line := line })

/-- Asks the store, which may fail. -/
def tryStore (s : Session σ) (call : StoreCall) : call.Answer × Session σ :=
  let (answer, w) := s.world.tryStore call
  (answer, s.setWorld w)

/-- Asks the store past the faults. -/
def askStore (s : Session σ) (call : StoreCall) : call.Answer × Session σ :=
  let (answer, w) := s.world.askStore call
  (answer, s.setWorld w)

/-- Lets time pass. -/
def pass (s : Session σ) (millis : Nat) : Session σ :=
  { s with line := s.line.pass World.host millis }

/-- Lets a run go on that was started in the background. -/
def settle (s : Session σ) : Session σ :=
  if s.isPrompt then { s with line := s.line.exhaust World.host } else s.pass 1

/-- The number of runs in the background. -/
def active (s : Session σ) : Nat :=
  s.line.jobs.length + s.world.supervisor.waiting.length

/-- Asks all runs to stop, and waits for them up to a number of milliseconds. -/
def shutDown (s : Session σ) (grace : Nat) : Session σ :=
  let s := s.setWorld { s.world with supervisor := s.world.supervisor.shut }
  { s with line := s.line.await World.host grace }

/-- Gives a workflow its label. -/
def nameWorkflow (s : Session σ) (id : Uuid) : Session σ :=
  { s with workflows := s.workflows ++ [id],
           labels := s.labels ++ [("W" ++ toString (s.workflows.length + 1), id)] }

/-- The phases of an execution, none when they cannot be read. -/
def phasesOf (s : Session σ) (execution : Uuid) : List PhaseRecord :=
  match (s.askStore (.listPhases execution)).1 with
  | .ok phases => phases
  | .error _ => []

/-- The executions of a workflow by age, none when they cannot be read. -/
def executionsOf (s : Session σ) (workflow : Uuid) : List Execution :=
  match (s.askStore (.listExecutions workflow)).1 with
  | .ok executions => List.mergeSort executions Execution.upTo
  | .error _ => []

/-- Gives an execution and its phases their labels. -/
def nameExecution (s : Session σ) (id : Uuid) : Session σ :=
  if s.labels.any (·.2 == id) then s
  else
    let label := "X" ++ toString (s.executions + 1)
    let phases := (s.phasesOf id).zipIdx.map fun (phase, i) =>
      (label ++ ".P" ++ toString i, phase.id)
    { s with executions := s.executions + 1, labels := s.labels ++ (label, id) :: phases }

/-- Gives new executions their labels. -/
def nameExecutions (s : Session σ) : Session σ :=
  s.workflows.foldl (fun s workflow =>
    (s.executionsOf workflow).foldl (fun s e => s.nameExecution e.id) s) s

/-- The label of an identifier at the start of a text, and what follows it. -/
def labelAt? (s : Session σ) (cs : List Char) : Option (String × List Char) := do
  let id ← Uuid.ofGroups? (cs.take 36)
  let (label, _) ← s.labels.find? (·.2 == id)
  return (label, cs.drop 36)

/-- Characters with identifiers replaced by their labels, in at most `fuel` steps. -/
def labelled (s : Session σ) : (fuel : Nat) → List Char → List Char
  | 0, cs => cs
  | _, [] => []
  | fuel + 1, c :: cs =>
      match if (Text.hexValue? c).isSome then s.labelAt? (c :: cs) else none with
      | some (label, rest) => label.toList ++ labelled s fuel rest
      | none => c :: labelled s fuel cs

/-- A text with identifiers replaced by their labels. -/
def labelText (s : Session σ) (text : String) : String :=
  String.ofList (s.labelled text.length text.toList)

end Session

end Harvest.Rehearsal

import Harvest.Record.Basic

/-! Events tell listeners how a run goes on. Each belongs to one execution and carries the
time at which it was sent.
-/

namespace Harvest

open Time

/-- Something that happened in a run. -/
inductive Event where
  | executionStarted (execution workflow : Uuid) (phases : Nat) (time : Instant)
  | phaseStarted (execution phase : Uuid) (node : String) (taskType : TaskType) (time : Instant)
  | phaseCompleted (execution phase : Uuid) (node : String) (credits millis : Nat)
      (time : Instant)
  | phaseFailed (execution phase : Uuid) (node : String) (error : Option String)
      (time : Instant)
  | executionFinished (execution : Uuid) (status : ExecutionStatus) (credits millis : Nat)
      (time : Instant)
deriving DecidableEq, Repr, Inhabited

namespace Event

/-- The execution that an event belongs to. -/
def execution : Event → Uuid
  | executionStarted e _ _ _ => e
  | phaseStarted e _ _ _ _ => e
  | phaseCompleted e _ _ _ _ _ => e
  | phaseFailed e _ _ _ _ => e
  | executionFinished e _ _ _ _ => e

/-- An event as a value under the name of its kind. -/
def toJson : Event → Json
  | executionStarted e w phases t =>
      .object [("type", .string "ExecutionStarted"), ("execution_id", e.toJson),
        ("workflow_id", w.toJson), ("phases", .nat phases), ("timestamp", t.toJson)]
  | phaseStarted e p node taskType t =>
      .object [("type", .string "PhaseStarted"), ("execution_id", e.toJson),
        ("phase_id", p.toJson), ("node_id", .string node), ("task_type", taskType.toJson),
        ("timestamp", t.toJson)]
  | phaseCompleted e p node credits millis t =>
      .object [("type", .string "PhaseCompleted"), ("execution_id", e.toJson),
        ("phase_id", p.toJson), ("node_id", .string node), ("credits", .nat credits),
        ("duration_ms", .nat millis), ("timestamp", t.toJson)]
  | phaseFailed e p node error t =>
      .object [("type", .string "PhaseFailed"), ("execution_id", e.toJson),
        ("phase_id", p.toJson), ("node_id", .string node),
        ("error", Json.orNull .string error), ("timestamp", t.toJson)]
  | executionFinished e status credits millis t =>
      .object [("type", .string "ExecutionFinished"), ("execution_id", e.toJson),
        ("status", status.toJson), ("credits_consumed", .nat credits),
        ("duration_ms", .nat millis), ("timestamp", t.toJson)]

/-- The kinds of events, each with the fields that come with it. -/
def kinds : List (String × Json.Shape Event) :=
  [("ExecutionStarted",
      executionStarted <$> .required "execution_id" Uuid.decode
        <*> .required "workflow_id" Uuid.decode <*> .required "phases" (.natural 64 "usize")
        <*> .required "timestamp" Instant.decode),
   ("PhaseStarted",
      phaseStarted <$> .required "execution_id" Uuid.decode
        <*> .required "phase_id" Uuid.decode <*> .required "node_id" .string
        <*> .required "task_type" TaskType.decode <*> .required "timestamp" Instant.decode),
   ("PhaseCompleted",
      phaseCompleted <$> .required "execution_id" Uuid.decode
        <*> .required "phase_id" Uuid.decode <*> .required "node_id" .string
        <*> .required "credits" .nat32 <*> .required "duration_ms" .nat64
        <*> .required "timestamp" Instant.decode),
   ("PhaseFailed",
      phaseFailed <$> .required "execution_id" Uuid.decode
        <*> .required "phase_id" Uuid.decode <*> .required "node_id" .string
        <*> .optional "error" .string <*> .required "timestamp" Instant.decode),
   ("ExecutionFinished",
      executionFinished <$> .required "execution_id" Uuid.decode
        <*> .required "status" ExecutionStatus.decode
        <*> .required "credits_consumed" .nat32 <*> .required "duration_ms" .nat64
        <*> .required "timestamp" Instant.decode)]

/-- The fields of a kind, from the draft of its name. -/
def kindOf : Json.Draft → Json.Decoded (String × Json.Shape Event)
  | .string (.ok name) => do return (name, ← Json.Decoder.select kinds name)
  | draft => Json.Decoder.mismatch "variant identifier" draft

/-- The member that names the kind, and the other members. -/
def splitKind : List (Except Json.SyntaxError String × Json.Draft)
    → Json.Decoded (Option Json.Draft × List (Except Json.SyntaxError String × Json.Draft))
  | [] => return (none, [])
  | (key, item) :: members => do
      let name ← Json.Decoder.name key
      let (kind, rest) ← splitKind members
      if name == "type" then
        if kind.isSome then throw (.duplicateField "type")
        return (some item, rest)
      else return (kind, (key, item) :: rest)

/-- Reads an event, as a record with its kind among the members or as a list that starts with
the kind.
-/
def decode : Json.Decoder Event := fun mode draft =>
  match draft with
  | .object members closing => do
      Json.Decoder.opens mode
      let (kind, rest) ← splitKind members
      Json.Decoder.closed closing
      match kind with
      | none => throw (.missingField "type")
      | some kind =>
          let (_, shape) ← kindOf kind
          shape.decodeMembers mode.inner rest none
  | .array items closing => do
      Json.Decoder.opens mode
      Json.Decoder.closed closing
      match items with
      | [] => throw (.missingField "type")
      | kind :: rest =>
          let (name, shape) ← kindOf kind
          let short n := .invalidLength n ("struct variant ExecutionEvent::" ++ name
            ++ " with " ++ Json.Shape.elements shape.probes.length)
          let (event, left) ← shape.fromItems mode.inner short 0 rest
          if left.isEmpty then return event
          else throw (.invalidLength rest.length
            (Json.Shape.elements shape.probes.length ++ " in sequence"))
  | draft => Json.Decoder.mismatch "internally tagged enum ExecutionEvent" draft

end Event

end Harvest

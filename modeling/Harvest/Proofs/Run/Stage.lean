import Harvest.Proofs.Run.Scene
import Harvest.Run.Loop

/-! How far a run has come. A stage says which phases were visited, what each of them did to the
environment, and what exactly the store shows of the execution meanwhile.
-/

namespace Harvest.Run

open Time

-----------------------------------------------------------------------------------------
-- Visited phases
-----------------------------------------------------------------------------------------

/-- A phase that a run has started, with the environment in which its task begins. -/
structure Opening where
  phase : PhaseRecord
  env : Environment
  startedAt : Instant

/-- A phase that a run has brought to its end: the calls of its work, its verdict, its log and
the environment that it left.
-/
structure Visit extends Opening where
  calls : List (Happening runCalls)
  success : Bool
  log : Log
  left : Environment
  completedAt : Instant

/-- A phase that waits for its turn. -/
def queued (phase : PhaseRecord) : PhaseRecord := { phase with status := .pending }

/-- The environment in which the task of a phase begins. -/
def prepared (catalog : Catalog) (flow : Flow) (phase : PhaseRecord) (env : Environment)
    : Environment :=
  (enter catalog flow (Node.parse phase.node) env).2

namespace Opening

/-- The node of a phase, as it is told. -/
def nodeId (opening : Opening) : String := Run.nodeId (Node.parse opening.phase.node)

/-- The record of a phase that runs. -/
def running (opening : Opening) : PhaseRecord :=
  { opening.phase with
    status := .running
    startedAt := some opening.startedAt
    inputs := some (slotsText opening.env opening.nodeId Slots.inputs) }

end Opening

namespace Visit

/-- What a visited phase cost. -/
def cost (catalog : Catalog) (visit : Visit) : Nat :=
  if visit.success then catalog.credits visit.phase.taskType else 0

/-- The record of a phase that has ended. -/
def finished (catalog : Catalog) (visit : Visit) : PhaseRecord :=
  { visit.running with
    status := if visit.success then .completed else .failed
    completedAt := some visit.completedAt
    outputs := some (slotsText visit.left visit.nodeId Slots.outputs)
    credits := visit.cost catalog }

end Visit

/-- What some visited phases cost together. -/
def total (catalog : Catalog) (visits : List Visit) : Nat :=
  visits.foldl (fun sum visit => addCredits sum (visit.cost catalog)) 0

section

variable (settings : RunSettings) (flow : Flow)

/-- A visit does what its phase is for: it prepares the environment and performs the work. -/
structure Visited (env : Environment) (visit : Visit) : Prop where
  prepared : visit.env = prepared settings.catalog flow visit.phase env
  performed
    : ∃ log,
        (perform settings visit.phase (Node.parse visit.phase.node) log visit.env).Ends
          visit.calls (visit.success, visit.log, visit.left)

/-- Phases are visited one after another, each in the environment that the one before left,
and all of them succeed.
-/
inductive Walked : List Visit → Environment → Prop where
  | start : Walked [] .empty
  | visit {visits : List Visit} {visit : Visit} {env : Environment} (walked : Walked visits env)
      (visited : Visited settings flow env visit) (succeeds : visit.success = true)
      : Walked (visits ++ [visit]) visit.left

/-- All visited phases succeeded, by induction over the walk. -/
theorem Walked.succeeds {settings : RunSettings} {flow : Flow} {visits : List Visit}
    {env : Environment} (walked : Walked settings flow visits env)
    : ∀ visit ∈ visits, visit.success = true := by
  induction walked with
  | start => simp
  | visit _ _ succeeds ih =>
      intro visit member
      rcases List.mem_append.mp member with early | last
      · exact ih visit early
      · exact List.mem_singleton.mp last ▸ succeeds

end

-----------------------------------------------------------------------------------------
-- Stages
-----------------------------------------------------------------------------------------

/-- How a run ended, with what it wrote into the record of the execution. -/
structure Closing where
  status : ExecutionStatus
  completedAt : Instant
  stopped : Bool

/-- How far a run has come. The phases of the rest are meant as they were created. -/
inductive Stage where
  /-- Nothing is written yet. -/
  | created
  /-- The execution runs, and its phases do not wait yet. -/
  | marked (startedAt : Instant)
  /-- The visited phases are done with, and no other is started. -/
  | between (startedAt : Instant) (visits : List Visit) (rest : List PhaseRecord)
  /-- A phase runs. -/
  | within (startedAt : Instant) (visits : List Visit) (opening : Opening)
      (rest : List PhaseRecord)
  /-- A phase has ended, and its cost is not counted yet. -/
  | behind (startedAt : Instant) (visits : List Visit) (visit : Visit)
      (rest : List PhaseRecord)
  /-- The execution has ended. -/
  | ended (startedAt : Instant) (visits : List Visit) (rest : List PhaseRecord)
      (closing : Closing)

namespace Stage

/-- The phases that have ended. -/
def visits : Stage → List Visit
  | created => []
  | marked _ => []
  | between _ visits _ => visits
  | within _ visits _ _ => visits
  | behind _ visits visit _ => visits ++ [visit]
  | ended _ visits _ _ => visits

/-- The phases wait, if nothing else has become of them. -/
def IsQueued : Stage → Prop
  | created => False
  | marked _ => False
  | _ => True

section

variable (settings : RunSettings) (flow : Flow) (execution : Execution)
  (phases : List PhaseRecord)

/-- The record of the execution at a stage, up to stops that were requested. -/
def record : Stage → Execution
  | created => execution
  | marked time => { execution with status := .running, startedAt := some time }
  | between time visits _ => counted time visits
  | within time visits _ _ => counted time visits
  | behind time visits _ _ => counted time visits
  | ended time visits _ closing =>
      { counted time visits with
        status := closing.status
        completedAt := some closing.completedAt
        stopRequested := execution.stopRequested || closing.stopped }
where
  /-- The record of an execution that runs and has cost something. -/
  counted (time : Instant) (visits : List Visit) : Execution :=
    { execution with
      status := .running
      startedAt := some time
      credits := total settings.catalog visits }

/-- The records of the phases at a stage, in plan order. -/
def records : Stage → List PhaseRecord
  | created => phases
  | marked _ => phases
  | between _ visits rest =>
      visits.map (Visit.finished settings.catalog) ++ rest.map queued
  | within _ visits opening rest =>
      visits.map (Visit.finished settings.catalog) ++ opening.running :: rest.map queued
  | behind _ visits visit rest =>
      visits.map (Visit.finished settings.catalog)
        ++ visit.finished settings.catalog :: rest.map queued
  | ended _ visits rest _ =>
      visits.map (Visit.finished settings.catalog) ++ rest.map queued

/-- The stages that a run can be at: the phases are visited in order, and a run ends when all
are done, when one fails, or when it was asked to stop before the next one.
-/
inductive Sound : Stage → Prop where
  | created : Sound .created
  | marked (time : Instant) : Sound (.marked time)
  | between {time : Instant} {visits : List Visit} {rest : List PhaseRecord}
      {env : Environment} (walked : Walked settings flow visits env)
      (order : phases = visits.map (·.phase) ++ rest)
      : Sound (.between time visits rest)
  | within {time : Instant} {visits : List Visit} {opening : Opening}
      {rest : List PhaseRecord} {env : Environment} (walked : Walked settings flow visits env)
      (opened : opening.env = prepared settings.catalog flow opening.phase env)
      (order : phases = visits.map (·.phase) ++ opening.phase :: rest)
      : Sound (.within time visits opening rest)
  | behind {time : Instant} {visits : List Visit} {visit : Visit} {rest : List PhaseRecord}
      {env : Environment} (walked : Walked settings flow visits env)
      (visited : Visited settings flow env visit)
      (order : phases = visits.map (·.phase) ++ visit.phase :: rest)
      : Sound (.behind time visits visit rest)
  | completed {time : Instant} {visits : List Visit} {env : Environment} {at' : Instant}
      (walked : Walked settings flow visits env) (order : phases = visits.map (·.phase))
      : Sound (.ended time visits [] ⟨.completed, at', false⟩)
  | failed {time : Instant} {visits : List Visit} {visit : Visit} {rest : List PhaseRecord}
      {env : Environment} {at' : Instant} (walked : Walked settings flow visits env)
      (visited : Visited settings flow env visit) (fails : visit.success = false)
      (order : phases = visits.map (·.phase) ++ visit.phase :: rest)
      : Sound (.ended time (visits ++ [visit]) rest ⟨.failed, at', false⟩)
  | stopped {time : Instant} {visits : List Visit} {rest : List PhaseRecord}
      {env : Environment} {at' : Instant} (walked : Walked settings flow visits env)
      (left : rest ≠ []) (order : phases = visits.map (·.phase) ++ rest)
      : Sound (.ended time visits rest ⟨.failed, at', true⟩)

end

/-- What one write of a run makes of a stage. -/
inductive Next : Stage → Stage → Prop where
  | mark (time : Instant) : Next .created (.marked time)
  | queue (time : Instant) (phases : List PhaseRecord)
      : Next (.marked time) (.between time [] phases)
  | start (time : Instant) (visits : List Visit) (opening : Opening) (rest : List PhaseRecord)
      : Next (.between time visits (opening.phase :: rest)) (.within time visits opening rest)
  | finish (time : Instant) (visits : List Visit) (visit : Visit) (rest : List PhaseRecord)
      : Next (.within time visits visit.toOpening rest) (.behind time visits visit rest)
  | count (time : Instant) (visits : List Visit) (visit : Visit) (rest : List PhaseRecord)
      : Next (.behind time visits visit rest) (.between time (visits ++ [visit]) rest)
  | fail (time : Instant) (visits : List Visit) (visit : Visit) (rest : List PhaseRecord)
      (closing : Closing)
      : Next (.behind time visits visit rest) (.ended time (visits ++ [visit]) rest closing)
  | close (time : Instant) (visits : List Visit) (rest : List PhaseRecord) (closing : Closing)
      : Next (.between time visits rest) (.ended time visits rest closing)

end Stage

end Harvest.Run

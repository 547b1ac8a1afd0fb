import Harvest.Proofs.Run.Progress
import Harvest.Proofs.Run.Whole
import Harvest.Proofs.Service.Conduct
import Harvest.Proofs.Store.MemoryLedger

/-! How executions come to be in any store. What is created stands in the books as it was made, with
its phases on its roll, and nothing that is finished has changed meanwhile.
-/

namespace Harvest

namespace Arena

open Realm Program ServiceM Service

variable {σ : Type} [Ledger σ] {mine : Uuid → Prop} {arena : Arena σ} {ids : List Uuid}
  {finished : Uuid}

/-- The store has the books of an execution and its phases as they were made, but for a stop. -/
structure Opened (execution : Execution) (phases : List PhaseRecord) (arena : Arena σ) : Prop where
  standing
    : ∃ stop,
        Books.standing? arena.store execution.id
          = some { execution.standing with stopRequested := stop }
  roll : Books.roll arena.store execution.id = phases.map PhaseRecord.entry

/-- Others leave what was opened. -/
theorem Opened.leftAlone {execution : Execution} {phases : List PhaseRecord} {later : Arena σ}
    (opened : Opened execution phases arena)
    (alone : LeftAlone execution.id arena.store later.store)
    : Opened execution phases later where
  standing := by
    obtain ⟨stop, held⟩ := opened.standing
    rcases alone.standing with same | ⟨old, held', _, raised⟩
    · exact ⟨stop, same.trans held⟩
    · rw [held, Option.some.injEq] at held'
      subst held'
      exact ⟨true, raised⟩
  roll := alone.roll.trans opened.roll

theorem Opened.unchanged {execution : Execution} {phases : List PhaseRecord} {later : Arena σ}
    (opened : Opened execution phases arena)
    (same : Unchanged execution.id arena.store later.store)
    : Opened execution phases later where
  standing := opened.standing.imp fun _ held => same.standing.trans held
  roll := same.roll.trans opened.roll

/-- The execution and its phases are made of a request, and their identifiers are reserved. -/
structure Drafted (mine : Uuid → Prop) (catalog : Catalog) (request : RunRequest)
    (execution : Execution) (phases : List PhaseRecord) (arena : Arena σ) : Prop where
  created : ∃ flow plan, Created catalog request flow plan execution phases
  reserved : Reserved mine (phases.reverse.map PhaseRecord.id ++ [execution.id]) arena

/-- What was made of a request stands as it was made. -/
structure Filed (mine : Uuid → Prop) (catalog : Catalog) (request : RunRequest)
    (execution : Execution) (phases : List PhaseRecord) (arena : Arena σ) : Prop where
  ours : mine execution.id
  created : ∃ flow plan, Created catalog request flow plan execution phases
  opened : Opened execution phases arena

section

variable {catalog : Catalog} {request : RunRequest} {execution : Execution}
  {phases : List PhaseRecord} {later : Arena σ}

namespace Drafted

theorem own (drafted : Drafted mine catalog request execution phases arena)
    : mine execution.id ∧ Books.Unused arena.store execution.id := by
  have member : execution.id ∈ phases.reverse.map PhaseRecord.id ++ [execution.id] :=
    List.mem_append_right _ List.mem_cons_self
  exact ⟨drafted.reserved.ours _ member, drafted.reserved.unused _ member⟩

theorem phase (drafted : Drafted mine catalog request execution phases arena)
    {phase : PhaseRecord} (member : phase ∈ phases)
    : phase.executionId = execution.id ∧ Books.Unused arena.store phase.id := by
  obtain ⟨flow, plan, created⟩ := drafted.created
  refine ⟨(created.phasesFor.fresh member).1, drafted.reserved.unused _ ?_⟩
  exact List.mem_append_left _ (List.mem_map_of_mem (List.mem_reverse.mpr member))

/-- Writing what was drafted has nothing to do with an execution that is there. -/
theorem spares (drafted : Drafted mine catalog request execution phases arena) {other : Uuid}
    {standing : Standing} (held : Books.standing? arena.store other = some standing)
    : (StoreCall.createExecution execution phases).Spares other arena.store := by
  have apart : execution.id ≠ other :=
    drafted.reserved.apart (List.mem_append_right _ List.mem_cons_self) held
  refine ⟨apart, fun phase member => ?_⟩
  obtain ⟨owned, unused⟩ := drafted.phase member
  exact ⟨owned ▸ apart, unused⟩

/-- What was drafted stands in the books as it was made, once it is written. -/
theorem filed (drafted : Drafted mine catalog request execution phases arena)
    (effect : (StoreCall.createExecution execution phases).Effect () arena.store later.store)
    : Filed mine catalog request execution phases later := by
  obtain ⟨ours, unused⟩ := drafted.own
  obtain ⟨flow, plan, created⟩ := drafted.created
  have distinct : (phases.map PhaseRecord.id).Nodup := by
    have reversed := (List.nodup_append.mp drafted.reserved.distinct).1
    rwa [List.map_reverse, List.nodup_reverse] at reversed
  have ordered := created.phasesFor.precedes (Flow.numbers_rising created.planned)
  obtain ⟨stands, roll⟩ := effect unused (fun phase => drafted.phase) distinct ordered
  exact ⟨ours, ⟨flow, plan, created⟩, ⟨_, stands⟩, roll⟩

end Drafted

namespace Filed

theorem drift (filed : Filed mine catalog request execution phases arena)
    (drifts : Drifts mine arena later)
    : Filed mine catalog request execution phases later :=
  ⟨filed.ours, filed.created, filed.opened.leftAlone (drifts.alone _ filed.ours)⟩

theorem unchanged (filed : Filed mine catalog request execution phases arena)
    (same : Unchanged execution.id arena.store later.store)
    : Filed mine catalog request execution phases later :=
  ⟨filed.ours, filed.created, filed.opened.unchanged same⟩

theorem anew (filed : Filed mine catalog request execution phases arena)
    : Filed mine catalog request execution phases arena.anew :=
  ⟨filed.ours, filed.created, filed.opened.standing, filed.opened.roll⟩

end Filed

end

/-- Phase records are made under reserved identifiers, by induction over the nodes. -/
theorem safe_phaseRecords (catalog : Catalog) (execution : Uuid) (nodes : List (Nat × Node))
    (position : Nat) (reserved : Reserved mine ids arena)
    {keeps : (call : ServiceCall) → Arena σ → call.Answer → Arena σ → Prop}
    (kept
      : ∀ before id later,
          Replies mine .freshId before id later
          → keeps (.run .freshId) before id later)
    : (Arena.serving mine).Safe keeps
        (fun phases later =>
          PhasesFor catalog execution position nodes phases
          ∧ Reserved mine (phases.reverse.map PhaseRecord.id ++ ids) later)
        (phaseRecords catalog execution position nodes) arena := by
  induction nodes generalizing position ids arena with
  | nil =>
      intro later drifts
      exact ⟨.nil position, reserved.drift drifts⟩
  | cons node nodes ih =>
      obtain ⟨number, node⟩ := node
      refine safe_freshId reserved kept fun id later reserved => ?_
      refine (ih (position + 1) reserved).followed ?_
      rintro phases later ⟨phasesFor, reserved⟩ last drifts
      refine ⟨.cons id number position node phasesFor, ?_⟩
      simpa [PhaseRecord.fresh] using reserved.drift drifts

/-- What is created stands as it was made. All calls are idle but one, which writes what was drafted
under reserved identifiers.
-/
theorem safe_creation (catalog : Catalog) (request : RunRequest) (arena : Arena σ)
    {keeps : (call : ServiceCall) → Arena σ → call.Answer → Arena σ → Prop}
    (idle
      : ∀ {call : RunCall},
          call.IsIdle
          → ∀ before answer later,
              Replies mine call before answer later
              → keeps (.run call) before answer later)
    (writes
      : ∀ {execution phases} before answer later,
          Drafted mine catalog request execution phases before
          → Replies mine (.store (.createExecution execution phases)) before answer later
          → keeps (.run (.store (.createExecution execution phases))) before answer later)
    : (Arena.serving mine).Safe keeps
        (fun result later =>
          ∀ execution,
            result = .ok execution
            → ∃ phases, Filed mine catalog request execution phases later)
        (ExceptT.run (createExecution catalog request)) arena := by
  have refused (reason : TriggerError) (later : Arena σ)
      : ∀ execution,
          (.error reason : Except TriggerError Execution) = .ok execution
          → ∃ phases, Filed mine catalog request execution phases later :=
    fun _ same => by cases same
  have asked (call : StoreCall) (here : (RunCall.store call).IsIdle) {arena : Arena σ}
      (before : Arena σ) (answer : call.Answer) (later : Arena σ) (_ : Drifts mine arena before)
      (replies : Replies mine (.store call) before answer later)
      : keeps (.run (.store call)) before answer later :=
    idle here before answer later replies
  let known : StoreCall := .getWorkflow request.workflow
  refine safe_stored known (asked known trivial) refused ?_
  intro before workflow _ _
  change Workflow at workflow
  cases foreign : workflow.userId != request.user with
  | true => exact fun later _ => refused _ later
  | false =>
      simp only [Bool.false_eq_true, if_false]
      rw [except_bind]
      cases outcome : planOf catalog request.definition with
      | error reason => exact fun later _ => refused _ later
      | ok plan =>
          obtain ⟨flow, parsed, planned⟩ := planned_of_planOf outcome
          change (Arena.serving mine).Safe _ _ (ExceptT.run (liftM freshId >>= _)) _
          rw [except_lift_bind]
          refine safe_freshId ⟨.nil, nofun, nofun, nofun⟩ (idle trivial) fun id later reserved => ?_
          rw [except_lift_bind]
          refine safe_now (idle trivial) fun before time drifts => ?_
          replace reserved := (reserved.drift drifts).after (.task .now) time
          rw [except_lift_bind]
          let execution := Execution.fresh id workflow.id time request.user request.definition
          refine (safe_phaseRecords catalog id plan.nodes 0 reserved (idle trivial)).followed ?_
          rintro phases later ⟨phasesFor, reserved⟩
          have created : Created catalog request flow plan execution phases :=
            ⟨parsed, planned, rfl, phasesFor.isFresh rfl rfl (Flow.numbers_rising planned),
              phasesFor⟩
          -- others leave reserved identifiers alone, so the store is given new ones only
          have drafted (before : Arena σ) (drifts : Drifts mine later before)
              : Drafted mine catalog request execution phases before :=
            ⟨⟨flow, plan, created⟩, reserved.drift drifts⟩
          refine safe_stored (.createExecution execution phases) ?_ refused ?_
          · intro before answer later drifts
            exact writes before answer later (drafted before drifts)
          intro before _ drifts effect
          have filed : Filed mine catalog request execution phases (before.answered _) :=
            (drafted before drifts).filed effect
          let note : StoreCall :=
            .recordLastRunStart workflow.id execution.id .pending execution.createdAt
          refine safe_stored note (asked note trivial) refused fun before _ drifts _ => ?_
          have same : Unchanged execution.id before.store (before.answered note).store :=
            unchanged_of_spares trivial
          intro last drifts' _ returned
          cases returned
          exact ⟨phases, ((filed.drift drifts).unchanged same).drift drifts'⟩

/-- Nothing that is finished changes while an execution is created. -/
theorem safe_createExecution (finished : Uuid) (catalog : Catalog) (request : RunRequest)
    (arena : Arena σ)
    : (Arena.serving mine).Safe (Preserves finished)
        (fun result later =>
          ∀ execution,
            result = .ok execution
            → ∃ phases, Filed mine catalog request execution phases later)
        (ExceptT.run (createExecution catalog request)) arena := by
  refine safe_creation catalog request arena preserves_of_idle ?_
  rintro execution phases before answer later drafted replies ⟨standing, held, _⟩
  exact replies.spared (drafted.spares held)

theorem filed_of_made {catalog : Catalog} {request : RunRequest} {execution : Execution}
    {before created : Arena σ}
    (made
      : (Arena.serving mine).Reaches (ExceptT.run (createExecution catalog request), before)
          (.done (.ok execution), created))
    : ∃ phases, Filed mine catalog request execution phases created :=
  (safe_createExecution execution.id catalog request before).ended made execution rfl

/-- Whatever was written of a request stands as it was made. -/
def Files (mine : Uuid → Prop) (catalog : Catalog) (request : RunRequest) (arena : Arena σ)
    : Prop :=
  ∀ execution phases,
    (⟨.store (.createExecution execution phases), .ok ()⟩ : Happening runCalls) ∈ arena.past
    → Filed mine catalog request execution phases arena

/-- Once an execution is written it stands as it was made, wherever its making is left, by induction
over the steps.
-/
theorem files_of_reaches {catalog : Catalog} {request : RunRequest} {before later : Arena σ}
    (fresh : before.past = []) {rest : ServiceM (Except TriggerError Execution)}
    (reached
      : (Arena.serving mine).Reaches (ExceptT.run (createExecution catalog request), before)
          (rest, later))
    : Files mine catalog request later := by
  let files (arena : Arena σ) : Prop := Files mine catalog request arena
  let keeps (call : ServiceCall) (before : Arena σ) (_ : call.Answer) (later : Arena σ) : Prop :=
    files before → files later
  have idle {call : RunCall} (idle : call.IsIdle) (before : Arena σ) (answer : call.Answer)
      (later : Arena σ) (replies : Replies mine call before answer later)
      : keeps (.run call) before answer later := by
    intro files execution phases written
    rw [replies.grows.2] at written
    rcases List.mem_append.mp written with early | last
    · exact (files execution phases early).unchanged (replies.unchanged idle execution.id)
    · cases List.mem_singleton.mp last
      exact idle.elim
  have writes {drafted : Execution} {records : List PhaseRecord} (before : Arena σ)
      (answer : (StoreCall.createExecution drafted records).Answer) (later : Arena σ)
      (draft : Drafted mine catalog request drafted records before)
      (replies : Replies mine (.store (.createExecution drafted records)) before answer later)
      : keeps (.run (.store (.createExecution drafted records))) before answer later := by
    intro files execution phases written
    rw [replies.grows.2] at written
    rcases List.mem_append.mp written with early | last
    · have filed := files execution phases early
      obtain ⟨stop, held⟩ := filed.opened.standing
      exact filed.unchanged (replies.spared (draft.spares held))
    · cases List.mem_singleton.mp last
      rcases replies.store_inv with ⟨_, _, _, _, effect⟩ | ⟨_, refused, _⟩
      · exact draft.filed effect
      · cases refused
  have safe := @safe_creation σ _ mine catalog request before keeps idle writes
  refine safe.preserved files ?_ (fun _ kept => kept) ?_ reached
  · intro here there drifts files execution phases written
    exact (files execution phases (drifts.past ▸ written)).drift drifts
  · intro execution phases written
    rw [fresh] at written
    cases written

end Arena

-----------------------------------------------------------------------------------------
-- Runs of new executions
-----------------------------------------------------------------------------------------

namespace Service.PhasesFor

variable {catalog : Catalog} {execution : Uuid} {position : Nat} {nodes : List (Nat × Node)}
  {phases : List PhaseRecord}

/-- The phases have the tasks of the nodes, by induction over the nodes. -/
theorem taskTypes (phasesFor : PhasesFor catalog execution position nodes phases)
    : phases.map PhaseRecord.taskType = nodes.map fun node => node.2.taskType := by
  induction phasesFor with
  | nil _ => rfl
  | cons id number position node _ ih => rw [List.map_cons, List.map_cons, ih]; rfl

/-- No phase has cost anything, by induction over the nodes. -/
theorem unpaid (phasesFor : PhasesFor catalog execution position nodes phases)
    {phase : PhaseRecord} (member : phase ∈ phases)
    : phase.credits = 0 := by
  induction phasesFor with
  | nil _ => cases member
  | cons id number position node _ ih =>
      rcases List.mem_cons.mp member with rfl | later
      · rfl
      · exact ih later

end Service.PhasesFor

namespace Run.Charge

variable {σ : Type} [Ledger σ] {mine : Uuid → Prop} {charge : Charge} {settings : RunSettings}
  {request : RunRequest} {execution : Execution} {flow : Flow} {plan : Plan}

/-- The charge is that of the first run of an execution, by the plan of its graph. -/
structure IsNew (charge : Charge) (flow : Flow) (plan : Plan) : Prop where
  pending : charge.standing.status = .pending
  unpaid : charge.standing.credits = 0
  parsed : Flow.parse charge.standing.definition = .ok flow
  planned : flow.plan charge.catalog = .ok plan
  waits : ∀ entry ∈ charge.queue, entry.status = .pending ∧ entry.credits = 0
  taskTypes : charge.queue.map Entry.taskType = plan.nodes.map fun node => node.2.taskType

/-- A run of a new execution is not refused. -/
theorem IsNew.not_refuses (new : charge.IsNew flow plan) {id : Uuid} {reason : SetupError}
    : ¬ Refuses id charge.standing reason := by
  intro refuses
  cases refuses with
  | finished terminal =>
      rw [new.pending] at terminal
      cases terminal
  | unreadable unparsed =>
      rw [new.parsed] at unparsed
      cases unparsed

/-- What a new execution is run with. -/
theorem isNew_of_opened {phases : List PhaseRecord} {arena : Arena σ}
    (created : Service.Created settings.catalog request flow plan execution phases)
    (opened : Arena.Opened execution phases arena) (catalog : charge.catalog = settings.catalog)
    (named : charge.execution = execution.id) (suits : charge.Suits arena)
    : charge.IsNew flow plan := by
  obtain ⟨stop, held⟩ := opened.standing
  have standing := suits.standing _ (named ▸ held)
  have queue : charge.queue = phases.map fun phase => waiting phase.entry := by
    rw [suits.queue, named, opened.roll, List.map_map]
    rfl
  have waits : ∀ phase ∈ phases, waiting phase.entry = { phase.entry with status := .pending } := by
    intro phase member
    obtain ⟨_, status, _⟩ := created.phasesFor.fresh member
    exact if_pos status
  refine ⟨?_, ?_, ?_, ?_, ?_, ?_⟩
  · rw [← standing]
    exact created.fresh.pending
  · rw [← standing]
    exact created.fresh.unpaid
  · rw [← standing]
    exact (congrArg Flow.parse created.definition).trans created.parsed
  · rw [catalog]
    exact created.planned
  · intro entry member
    rw [queue] at member
    obtain ⟨phase, here, rfl⟩ := List.mem_map.mp member
    rw [waits phase here]
    exact ⟨rfl, created.phasesFor.unpaid here⟩
  · rw [queue, List.map_map, ← created.phasesFor.taskTypes]
    refine List.map_congr_left fun phase here => ?_
    rw [Function.comp_apply, waits phase here]
    rfl

/-- A run of what was made of a request has a charge: it finds phases that were just made. -/
theorem exists_charge {phases : List PhaseRecord} {arena : Arena σ}
    (filed : Arena.Filed mine settings.catalog request execution phases arena) (token : Token)
    : ∃ (charge : Charge) (flow : Flow) (plan : Plan),
        charge.catalog = settings.catalog
        ∧ charge.execution = execution.id
        ∧ charge.token = token
        ∧ Flow.parse request.definition = .ok flow
        ∧ charge.Suits arena
        ∧ charge.IsNew flow plan
        ∧ ∀ entry ∈ charge.roll, entry.status = .created := by
  obtain ⟨flow, plan, created⟩ := filed.created
  obtain ⟨charge, catalog, named, rfl, suits⟩ :=
    exists_suits settings.catalog execution.id token arena
  have new := isNew_of_opened created filed.opened catalog named suits
  refine ⟨charge, flow, plan, catalog, named, rfl, created.parsed, suits, new, ?_⟩
  rw [suits.roll, named, filed.opened.roll]
  intro entry member
  obtain ⟨phase, here, rfl⟩ := List.mem_map.mp member
  exact (created.phasesFor.fresh here).2.1

/-- A run of an execution that was created has a charge, and it is safe. -/
theorem exists_isNew {before created : Arena σ}
    (made
      : (Arena.serving mine).Reaches
          (ExceptT.run (Service.createExecution settings.catalog request), before)
          (.done (.ok execution), created))
    (token : Token)
    : mine execution.id
      ∧ ∃ (charge : Charge) (flow : Flow) (plan : Plan),
          charge.catalog = settings.catalog
          ∧ charge.execution = execution.id
          ∧ charge.token = token
          ∧ Flow.parse request.definition = .ok flow
          ∧ charge.Suits created.anew
          ∧ charge.IsNew flow plan
          ∧ (Arena.running mine).Safe charge.Proper (charge.Comes [])
              (execute settings execution.id token) created.anew := by
  obtain ⟨phases, filed⟩ := Arena.filed_of_made made
  obtain ⟨charge, flow, plan, catalog, named, rfl, parsed, suits, new, _⟩ :=
    exists_charge filed.anew token
  refine ⟨filed.ours, charge, flow, plan, catalog, named, rfl, parsed, suits, new, ?_⟩
  rw [← named]
  exact safe_execute (named ▸ filed.ours) catalog.symm suits

end Run.Charge

-----------------------------------------------------------------------------------------
-- An execution of one phase, opened and run where the service was shut
-----------------------------------------------------------------------------------------

namespace Run.Lone

open Realm Service

/-- The arena of a service that was shut, before anything was asked. -/
def ground : Arena Memory := ⟨⟨[workflow], [], [], []⟩, ⟨.nil, .nil⟩, .shut .empty, [], []⟩

/-- The same arena with any list of runs. -/
def groundUnder (supervisor : Supervisor) : Arena Memory := { ground with supervisor := supervisor }

theorem opened_under (supervisor : Supervisor)
    : ∃ sound past,
        (Arena.serving fun _ => True).Reaches
          (ExceptT.run (createExecution settings.catalog request), groundUnder supervisor)
          (.done (.ok (execution flow.text)),
            ⟨store flow.text, sound, supervisor, [.ofNat 3, .ofNat 2], past⟩) := by
  apply Exists.intro
  apply Exists.intro
  refine .reply (.run (.store (.getWorkflow (.ofNat 1)) _)) ?_
  change (Arena.serving fun _ => True).Reaches
    (ExceptT.run (ExceptT.mk (pure (planOf catalog flow.text)) >>= _), _) _
  rw [Program.except_bind, planned]
  refine .reply (.run (.fresh (.ofNat 2) _ trivial ?_ ⟨rfl, rfl, rfl⟩)) ?_
  · simp [Arena.answered, Arena.after, groundUnder, ground]
  refine .reply (.run (.quiet (.task .now) trivial time _)) ?_
  refine .reply (.run (.fresh (.ofNat 3) _ trivial ?_ ⟨rfl, rfl, rfl⟩)) ?_
  · simp only [Arena.answered, Arena.after, groundUnder, ground]
    decide
  refine .reply (.run (.store (.createExecution (execution flow.text) [phase]) _)) ?_
  refine .reply (.run (.store (.recordLastRunStart (.ofNat 1) (.ofNat 2) .pending time) _)) ?_
  exact .refl

theorem opened
    : ∃ sound past,
        (Arena.serving fun _ => True).Reaches
          (ExceptT.run (createExecution settings.catalog request), ground)
          (.done (.ok (execution flow.text)),
            ⟨store flow.text, sound, .shut .empty, [.ofNat 3, .ofNat 2], past⟩) :=
  opened_under (.shut .empty)

theorem listed (definition : String)
    : Store.answer (.listPhases (.ofNat 2)) (store definition)
      = (.ok [phase], store definition) := by
  change (Except.ok (List.mergeSort [phase] PhaseRecord.upTo), store definition) = _
  rw [List.mergeSort_singleton]
  rfl

/-- A run of it reads the execution and its phase first. The definition is a variable here, so that
no step of the run reads the graph.
-/
theorem loaded {definition : String} {flow : Flow} (parsed : Flow.parse definition = .ok flow)
    (sound : Books.Sound (store definition)) (supervisor : Supervisor)
    (past : List (Happening runCalls))
    : (Arena.running fun _ => True).Reaches
        (ExceptT.run (load (execution definition).id),
          Arena.anew ⟨store definition, sound, supervisor, [.ofNat 3, .ofNat 2], past⟩)
        (.done (.ok (execution definition, flow, [phase])),
          ⟨store definition, sound, supervisor, [.ofNat 3, .ofNat 2],
            [⟨.store (.getExecution (.ofNat 2)), .ok (execution definition)⟩,
              ⟨.store (.listPhases (.ofNat 2)), .ok [phase]⟩]⟩) := by
  obtain ⟨first, second, loads, lists, ends⟩ :=
    load_calls (unfinished definition) parsed (execution definition).id
  rw [loads]
  refine .reply (.granted (.getExecution (.ofNat 2)) _ rfl) ?_
  change (Arena.running fun _ => True).Reaches (first (.ok (execution definition)), _) _
  rw [lists]
  refine .reply (.granted (.listPhases (.ofNat 2)) _ (listed definition)) ?_
  change (Arena.running fun _ => True).Reaches (second (.ok [phase]), _) _
  rw [ends]
  exact .refl

/-- A run of it ends before its phase, and the store refuses nothing. -/
theorem halted {definition : String} {flow : Flow} (parsed : Flow.parse definition = .ok flow)
    (sound : Books.Sound (store definition)) (past : List (Happening runCalls))
    : ∃ outcome later,
        (Arena.running fun _ => True).Reaches
          (execute settings (execution definition).id ⟨0⟩,
            Arena.anew ⟨store definition, sound, .shut .empty, [.ofNat 3, .ofNat 2], past⟩)
          (.done (.ok outcome), later)
        ∧ ∀ happening ∈ later.past, IsGranted happening := by
  refine ⟨?outcome, ?later, ?run, ?granted⟩
  case run =>
    refine Program.reaches_bind (loaded parsed sound (.shut .empty) past) ?_
    refine .reply (.quiet .uptime trivial (0 : Nat) _) ?_
    refine .reply (.quiet (.task .now) trivial time _) ?_
    refine .reply (.granted (.updateExecution _) _ rfl) ?_
    refine .reply (.granted (.setPhaseStatuses (.ofNat 2) .created .pending) _ rfl) ?_
    refine .reply (.granted (.recordLastRunStatus _ _ .running) _ rfl) ?_
    refine .reply (.quiet (.task .now) trivial time _) ?_
    refine .reply (.emit _ _) ?_
    refine .reply (.looked ⟨0⟩ _ rfl) ?_
    refine .reply (.quiet (.task .now) trivial time _) ?_
    refine .reply (.granted (.updateExecution _) _ rfl) ?_
    refine .reply (.quiet .uptime trivial (0 : Nat) _) ?_
    refine .reply (.quiet (.task .now) trivial time _) ?_
    refine .reply (.emit _ _) ?_
    refine .reply (.granted (.recordLastRunStatus _ _ .failed) _ rfl) ?_
    exact .refl
  case granted =>
    simp only [Arena.after, List.nil_append, List.cons_append, List.forall_mem_cons]
    and_intros <;> first | trivial | exact fun _ => ⟨_, rfl⟩ | exact List.forall_mem_nil _

end Run.Lone

end Harvest

import Harvest.Proofs.Flow.Snapshot
import Harvest.Proofs.Plan.Order
import Harvest.Proofs.Service.Crowd

/-! The phases of an execution are its plan. What is stored of a plan is listed in its order and
read back as its nodes, and a later run hands the tasks over in that order.
-/

namespace Harvest

open Json Realm Program RunM

-----------------------------------------------------------------------------------------
-- What is stored of a plan
-----------------------------------------------------------------------------------------

/-- A node that was read back tells what another node says, as far as real numbers come back from
their own texts.
-/
structure Node.Recalls (node back : Node) : Prop where
  id : back.id = node.id
  taskType : back.taskType = node.taskType
  extra : node.Exact → back.extra = node.extra
  literal : node.Exact → ∀ name, back.literal? name = node.literal? name

/-- What is stored of a node that fits is read back as that node. -/
theorem Node.recalls_of_fits {node : Node} (fits : node.Fits depthLimit)
    : ∃ back, Node.parse node.text = .ok back ∧ node.Recalls back := by
  refine ⟨node.reread, Node.parse_text fits, rfl, rfl, fun exact' => ?_, fun exact' name => ?_⟩
  · rw [Node.reread_of_exact exact']
  · rw [Node.reread_of_exact exact']

namespace Service

/-- A record is what is stored of a planned node at a position. -/
structure Stores (catalog : Catalog) (execution : Uuid) (entry : (Nat × Node) × Nat)
    (phase : PhaseRecord) : Prop where
  execution : phase.executionId = execution
  status : phase.status = .created
  number : phase.number = entry.1.1
  position : phase.position = entry.2
  taskType : phase.taskType = entry.1.2.taskType
  name : phase.name = label catalog entry.1.2.taskType
  node : ∃ back, Node.parse phase.node = .ok back ∧ entry.1.2.Recalls back

/-- The task type of a phase and what is stored of its node. -/
def work (phase : PhaseRecord) : TaskType × String := (phase.taskType, phase.node)

namespace PhasesFor

variable {catalog : Catalog} {execution : Uuid} {position : Nat} {nodes : List (Nat × Node)}
  {phases : List PhaseRecord}

/-- The phases that are made for nodes are stored in their order, by induction over the nodes. -/
theorem stores (phasesFor : PhasesFor catalog execution position nodes phases)
    (fits : ∀ entry ∈ nodes, entry.2.Fits depthLimit)
    : List.Forall₂ (Stores catalog execution) (nodes.zipIdx position) phases := by
  induction phasesFor with
  | nil => exact .nil
  | cons id number position node _ ih =>
      obtain ⟨here, later⟩ := List.forall_mem_cons.mp fits
      exact .cons ⟨rfl, rfl, rfl, rfl, rfl, rfl, Node.recalls_of_fits here⟩ (ih later)

/-- Their work is that of the nodes. -/
theorem works (phasesFor : PhasesFor catalog execution position nodes phases)
    : phases.map work = nodes.map fun entry => (entry.2.taskType, entry.2.text) := by
  induction phasesFor with
  | nil => rfl
  | cons id number position node _ ih => exact congrArg (_ :: ·) ih

end PhasesFor

/-- Phases that are the same for good have the same work. -/
theorem works_of_cores {listed phases : List PhaseRecord}
    (same : listed.map PhaseRecord.core = phases.map PhaseRecord.core)
    : listed.map work = phases.map work := by
  let onCore (core : Uuid × Uuid × Nat × Nat × String × TaskType × String) : TaskType × String :=
    core.2.2.2.2.2
  have of_core (phases : List PhaseRecord)
      : phases.map work = (phases.map PhaseRecord.core).map onCore := by
    rw [List.map_map]
    rfl
  rw [of_core, same, ← of_core]

/-- Phases that have the work of some nodes are read back as these, by induction over the nodes. -/
theorem recalled_of_works {nodes : List (Nat × Node)} {listed : List PhaseRecord}
    (works : listed.map work = nodes.map fun entry => (entry.2.taskType, entry.2.text))
    (fits : ∀ entry ∈ nodes, entry.2.Fits depthLimit)
    : List.Forall₂
        (fun entry phase => ∃ back, Node.parse phase.node = .ok back ∧ entry.2.Recalls back)
        nodes listed := by
  induction nodes generalizing listed with
  | nil =>
      obtain rfl : listed = [] := List.map_eq_nil_iff.mp works
      exact .nil
  | cons entry nodes ih =>
      obtain ⟨phase, listed, rfl, here, works⟩ := List.map_eq_cons_iff.mp works
      obtain ⟨fit, fits⟩ := List.forall_mem_cons.mp fits
      obtain ⟨_, node⟩ := Prod.mk.inj here
      exact .cons (node ▸ Node.recalls_of_fits fit) (ih works fits)

end Service

/-- The phases that are listed stay for good what they are, in their order. -/
theorem Memory.Grows.planned {before after : Memory} (grows : before.Grows after) {id : Uuid}
    (there : (before.execution? id).isSome)
    : (after.planned id).map PhaseRecord.core = (before.planned id).map PhaseRecord.core := by
  -- the order looks at nothing but what is for good
  let upTo (a b : Uuid × Uuid × Nat × Nat × String × TaskType × String) : Bool :=
    decide (a.2.2.1 < b.2.2.1) || (a.2.2.1 == b.2.2.1
      && (decide (a.2.2.2.1 < b.2.2.2.1) || (a.2.2.2.1 == b.2.2.2.1
        && decide (a.1.bits ≤ b.1.bits))))
  have sorted (m : Memory)
      : (m.planned id).map PhaseRecord.core
        = ((m.phasesOf id).map PhaseRecord.core).mergeSort upTo :=
    List.map_mergeSort fun _ _ _ _ => rfl
  rw [sorted, sorted, grows.rolls id there]

-----------------------------------------------------------------------------------------
-- What runs hand over
-----------------------------------------------------------------------------------------

/-- The task hands nothing over. -/
def TaskCall.IsOwn : TaskCall → Prop
  | .delegate _ _ => False
  | _ => True

/-- The executors tell of themselves: each begins with handing its task over, and hands over nothing
else.
-/
def Registry.Announces (registry : Registry) : Prop :=
  ∀ t executor, registry t = some executor
  → ∀ work, ∃ next,
      (ExceptT.run executor).run work = Program.ask (S := taskCalls) (.delegate t work.node) next
      ∧ ∀ report, (next report).Only TaskCall.IsOwn

/-- The call neither hands a task over nor lists phases. -/
def RunCall.IsMute : RunCall → Prop
  | .task call => call.IsOwn
  | .store (.listPhases _) => False
  | _ => True

namespace Handing

open Run

/-- The task that a call has handed over: its type and its node. -/
def handed? : Happening runCalls → Option (TaskType × String)
  | ⟨.task (.delegate t node), _⟩ => some (t, node)
  | _ => none

/-- The tasks that were handed over, in order. -/
def handed (past : List (Happening runCalls)) : List (TaskType × String) := past.filterMap handed?

/-- Some tasks were handed over, and whenever the phases of an execution were listed they were the
ones that it has for good.
-/
structure Told (id : Uuid) (phases : List PhaseRecord) (tasks : List (TaskType × String))
    (scene : Scene)
    : Prop where
  handed : handed scene.past = tasks
  listed
    : ∀ listed : List PhaseRecord,
        ⟨.store (.listPhases id), .ok listed⟩ ∈ scene.past
        → listed.map PhaseRecord.core = phases.map PhaseRecord.core


variable {id : Uuid} {phases : List PhaseRecord} {tasks all : List (TaskType × String)}
  {scene later : Scene} {execution : Execution} {α β : Type}

/-- What was told stays told. -/
theorem Told.drift (told : Told id phases tasks scene) (drifts : crowd.Drifts scene later)
    : Told id phases tasks later :=
  ⟨drifts.past ▸ told.handed, drifts.past ▸ told.listed⟩

/-- A call that is no listing adds what it hands over, if anything. -/
theorem Told.further (told : Told id phases tasks scene) (call : RunCall) (answer : call.Answer)
    (past : later.past = scene.past ++ [⟨call, answer⟩])
    (other : call ≠ .store (.listPhases id))
    : Told id phases (tasks ++ (handed? ⟨call, answer⟩).toList) later where
  handed := by
    have last : [⟨call, answer⟩].filterMap handed? = (handed? ⟨call, answer⟩).toList := by
      cases outcome : handed? ⟨call, answer⟩ <;> simp [outcome]
    rw [Handing.handed, past, List.filterMap_append, last, ← told.handed]
    rfl
  listed listed member := by
    rw [past, List.mem_append, List.mem_singleton] at member
    rcases member with early | last
    · exact told.listed listed early
    · exact absurd (congrArg Sigma.fst last).symm other

/-- A mute call adds nothing. -/
theorem Told.mute (told : Told id phases tasks scene) {call : RunCall} (mute : call.IsMute)
    {answer : call.Answer} (past : later.past = scene.past ++ [⟨call, answer⟩])
    : Told id phases tasks later := by
  have nothing : handed? ⟨call, answer⟩ = none := by
    cases call with
    | task call =>
        cases call with
        | delegate => exact mute.elim
        | _ => rfl
    | _ => rfl
  have further := told.further call answer past (by rintro rfl; exact mute)
  rwa [nothing, Option.toList_none, List.append_nil] at further

/-- Some of the tasks were handed over, in order from the first. -/
def Faithful (id : Uuid) (phases : List PhaseRecord) (all : List (TaskType × String))
    (scene : Scene) : Prop :=
  ∃ tasks, tasks <+: all ∧ Told id phases tasks scene

/-- Every call leaves it so. -/
def KeepsFaith (id : Uuid) (phases : List PhaseRecord) (all : List (TaskType × String))
    (call : RunCall) (_ : Scene) (_ : call.Answer) (later : Scene) : Prop :=
  Faithful id phases all later

/-- What is done without a word tells nothing. -/
theorem safe_mute {part : RunM α} (only : part.Only RunCall.IsMute)
    (told : Told id phases tasks scene) (among : tasks <+: all)
    : crowd.runs.Safe (KeepsFaith id phases all) (fun _ later => Told id phases tasks later) part
        scene := by
  refine only.safe (fun drifts told => told.drift drifts) (fun mute replies told => ?_) told
  have kept := told.mute mute replies.past_eq
  exact ⟨⟨tasks, among, kept⟩, kept⟩

theorem safe_ends (told : Told id phases tasks scene) (among : tasks <+: all) {value : α}
    : crowd.runs.Safe (KeepsFaith id phases all) (fun _ later => Faithful id phases all later)
        (.done value) scene :=
  fun _ drifts => ⟨tasks, among, told.drift drifts⟩

/-- A part of the loop that is mute goes first, and its refusal is the end. -/
theorem safe_mute_bind {part : LoopM α} {next : α → LoopM β} {env : Environment}
    (only : (LoopM.on part env).Only RunCall.IsMute) (told : Told id phases tasks scene)
    (among : tasks <+: all) {wanted : Except StoreError β × Environment → Scene → Prop}
    (ends : ∀ reason left later, Told id phases tasks later → wanted (.error reason, left) later)
    (rest
      : ∀ value left later,
          Told id phases tasks later
          → crowd.runs.Safe (KeepsFaith id phases all) wanted (LoopM.on (next value) left) later)
    : crowd.runs.Safe (KeepsFaith id phases all) wanted (LoopM.on (part >>= next) env) scene := by
  rw [on_bind]
  refine (safe_mute only told among).followed ?_
  rintro ⟨result, left⟩ later told
  cases result with
  | ok value => exact rest value left later told
  | error reason => exact fun last drifts => ends reason left last (told.drift drifts)

-----------------------------------------------------------------------------------------
-- The work of phases
-----------------------------------------------------------------------------------------

/-- The work of a phase hands its task over, unless nobody is there to do it. -/
theorem safe_perform {settings : RunSettings} (announces : settings.registry.Announces)
    (phase : PhaseRecord) (node : Node) (log : Log) (env : Environment)
    (told : Told id phases tasks scene) (among : tasks ++ [(phase.taskType, node.id)] <+: all)
    : crowd.runs.Safe (KeepsFaith id phases all)
        (fun result later =>
          Told id phases (tasks ++ [(phase.taskType, node.id)]) later
          ∨ Told id phases tasks later ∧ result.1 = false)
        (perform settings phase (.ok node) log env) scene := by
  have already : tasks <+: all := (List.prefix_append ..).trans among
  unfold perform
  cases known : settings.registry phase.taskType with
  | none =>
      refine (safe_mute (errorEntries_asks trivial _) told already).followed ?_
      exact fun entries _ told _ drifts => Or.inr ⟨told.drift drifts, rfl⟩
  | some executor =>
      obtain ⟨next, first, own⟩ := announces _ _ known (env.lend node.id log)
      simp only [runTask, first]
      have spoken {before : Scene} (report : Report) (drifts : crowd.Drifts scene before)
          : Told id phases (tasks ++ [(phase.taskType, node.id)])
              (before.after (.task (.delegate phase.taskType node.id)) report) :=
        (told.drift drifts).further (.task (.delegate phase.taskType node.id)) report rfl nofun
      refine Company.safe_tells (.task (.delegate phase.taskType node.id)) trivial ?_ ?_
      · exact fun before report drifts => ⟨_, among, spoken report drifts⟩
      · intro before report drifts
        have asks (call : TaskCall) (own : call.IsOwn)
            : (RunM.ask (.task call)).Only RunCall.IsMute :=
          only_ask own
        have mute : (RunM.ofTask (next report)).Only RunCall.IsMute := .embed_of asks (own report)
        refine (safe_mute mute (spoken report drifts) among).followed ?_
        rintro ⟨verdict, work⟩ later told
        cases verdict with
        | ok success => exact fun _ drifts => Or.inl (told.drift drifts)
        | error halt =>
            refine (safe_mute (errorEntries_asks trivial _) told among).followed ?_
            exact fun _ _ told _ drifts => Or.inl (told.drift drifts)

theorem tell_mute (event : Time.Instant → Event)
    : (do emit (event (← now)) : RunM Unit).Only RunCall.IsMute :=
  .ask trivial fun _ => .ask trivial .done

theorem stopRequested_mute (execution : Uuid) (token : Token) (env : Environment)
    : (LoopM.on (stopRequested execution token) env).Only RunCall.IsMute := by
  unfold stopRequested
  refine only_bind (only_inLoop (only_ask trivial)) fun cancelled _ => ?_
  cases cancelled with
  | true => exact .done _
  | false => exact only_bind (only_stored trivial) fun _ _ => .done _

/-- The end of a phase hands nothing over, and tells whether the phase succeeded. -/
theorem safe_settle (settings : RunSettings) (phase : PhaseRecord) (node : String) (start : Nat)
    (success : Bool) (log : Log) (left env : Environment) (told : Told id phases tasks scene)
    (among : tasks <+: all)
    : crowd.runs.Safe (KeepsFaith id phases all)
        (fun result later =>
          Told id phases tasks later ∧ ∀ done cost, result.1 = .ok (done, cost) → done = success)
        (LoopM.on (settle settings phase node start success log left) env) scene := by
  have ends (reason : StoreError) (left : Environment) (later : Scene)
      (told : Told id phases tasks later)
      : Told id phases tasks later
        ∧ ∀ (done : Bool) (cost : Nat), Except.error reason = .ok (done, cost) → done = success :=
    ⟨told, nofun⟩
  unfold settle
  refine safe_mute_bind (.done _) told among ends fun _ _ _ told => ?_
  refine safe_mute_bind (only_inLoop (only_ask (by trivial))) told among ends
    fun time _ _ told => ?_
  refine safe_mute_bind (only_stored (by trivial)) told among ends fun _ _ _ told => ?_
  refine safe_mute_bind (only_stored (by trivial)) told among ends fun _ _ _ told => ?_
  refine safe_mute_bind (only_inLoop (only_ask (by trivial))) told among ends fun _ _ _ told => ?_
  refine safe_mute_bind (only_inLoop ((only_ask (by trivial)).bind fun time => ?_)) told among ends
    fun _ _ _ told => ?_
  · split <;> exact only_ask (by trivial)
  · exact fun last drifts => ⟨told.drift drifts, fun done cost same => by cases same; rfl⟩

/-- A phase whose node can be read hands its task over, or it does not succeed. -/
theorem safe_runPhase {settings : RunSettings} (announces : settings.registry.Announces)
    (flow : Flow) {phase : PhaseRecord} {node : Node} (parsed : Node.parse phase.node = .ok node)
    (told : Told id phases tasks scene) (among : tasks ++ [(phase.taskType, node.id)] <+: all)
    (env : Environment)
    : crowd.runs.Safe (KeepsFaith id phases all)
        (fun result later =>
          Told id phases (tasks ++ [(phase.taskType, node.id)]) later
          ∨ Told id phases tasks later ∧ ∀ cost, result.1 ≠ .ok (true, cost))
        (LoopM.on (runPhase settings flow phase) env) scene := by
  have already : tasks <+: all := (List.prefix_append ..).trans among
  rw [runPhase_eq, on_inLoop_bind]
  refine (safe_mute (only_ask (by trivial)) told already).followed fun start _ told => ?_
  rw [on_modifyGet_bind, on_inLoop_bind]
  refine (safe_mute (errorEntries_asks trivial _) told already).followed fun log _ told => ?_
  rw [on_get_bind, on_inLoop_bind]
  refine (safe_mute (only_ask (by trivial)) told already).followed fun time _ told => ?_
  refine safe_mute_bind (only_stored (by trivial)) told already
    (fun reason _ later told => Or.inr ⟨told, nofun⟩) fun _ env _ told => ?_
  rw [on_inLoop_bind]
  refine (safe_mute (tell_mute fun _ => _) told already).followed fun _ _ told => ?_
  rw [on_inLoop_bind, parsed]
  refine (safe_perform announces phase node log _ told among).followed ?_
  rintro ⟨success, log, left⟩ later (told | ⟨told, rfl⟩)
  · exact (safe_settle settings _ _ start success log left env told among).mono
      (fun kept => kept) fun _ _ ends => Or.inl ends.1
  · refine (safe_settle settings _ _ start false log left env told already).mono
      (fun kept => kept) ?_
    exact fun _ _ ends => Or.inr ⟨ends.1, fun cost same => by cases ends.2 _ _ same⟩

/-- A walk hands over the tasks of its phases one after another and stops at the first that does not
succeed, by induction over the phases that are left.
-/
theorem safe_runPhases {settings : RunSettings} (announces : settings.registry.Announces)
    (known : Execution) (flow : Flow) (token : Token) {left : List PhaseRecord}
    {todo : List (Nat × Node)}
    (works : left.map Service.work = todo.map fun entry => (entry.2.taskType, entry.2.text))
    (readable
      : ∀ entry ∈ todo, ∃ back, Node.parse entry.2.text = .ok back ∧ back.id = entry.2.id)
    (told : Told id phases tasks scene)
    (among : tasks ++ todo.map (fun entry => (entry.2.taskType, entry.2.id)) <+: all)
    (credits phasesRun : Nat) (env : Environment)
    : crowd.runs.Safe (KeepsFaith id phases all)
        (fun _ later => Faithful id phases all later)
        (LoopM.on (runPhases settings known flow token credits phasesRun left) env) scene := by
  induction todo generalizing left tasks credits phasesRun env scene with
  | nil =>
      obtain rfl : left = [] := List.map_eq_nil_iff.mp works
      exact safe_ends told (by simpa using among)
  | cons entry todo ih =>
      obtain ⟨phase, left, rfl, work, works⟩ := List.map_eq_cons_iff.mp works
      obtain ⟨⟨back, parsed, named⟩, readable⟩ := List.forall_mem_cons.mp readable
      obtain ⟨taskType, node⟩ := Prod.mk.inj work
      have already : tasks <+: all := (List.prefix_append ..).trans among
      rw [List.map_cons, List.append_cons, ← named, ← taskType] at among
      have here : tasks ++ [(phase.taskType, back.id)] <+: all :=
        (List.prefix_append ..).trans among
      unfold runPhases
      refine safe_mute_bind (stopRequested_mute ..) told already
        (fun _ _ later told => ⟨tasks, already, told⟩) fun stopped env _ told => ?_
      cases stopped with
      | true => exact safe_ends told already
      | false =>
          change crowd.runs.Safe _ _ (LoopM.on (runPhase settings flow phase >>= _) env) _
          rw [on_bind]
          refine (safe_runPhase announces flow (node ▸ parsed) told here env).followed ?_
          rintro ⟨result, env⟩ later (told | ⟨told, fails⟩)
          · rcases result with reason | ⟨success, cost⟩
            · exact safe_ends told here
            · cases success with
              | false => exact safe_ends told here
              | true =>
                  refine safe_mute_bind (only_stored (by trivial)) told here
                    (fun _ _ later told => ⟨_, here, told⟩) fun _ env _ told => ?_
                  exact ih works readable told among _ _ env
          · rcases result with reason | ⟨success, cost⟩
            · exact safe_ends told already
            · cases success with
              | false => exact safe_ends told already
              | true => exact absurd rfl (fails cost)

-----------------------------------------------------------------------------------------
-- Whole runs
-----------------------------------------------------------------------------------------

theorem finalize_mute (execution : Execution) (status : ExecutionStatus) (credits : Nat)
    (stopped : Bool) (start : Nat)
    : (finalize execution status credits stopped start).Only RunCall.IsMute := by
  refine .ask trivial fun time => .ask trivial fun answer => ?_
  cases answer with
  | error reason => exact .done _
  | ok _ =>
      refine .ask trivial fun _ => .ask trivial fun _ => .ask trivial fun _ => ?_
      exact .ask trivial fun _ => .done _

theorem conclude_mute (execution : Execution) (summary : Summary) (start : Nat)
    : (conclude execution summary start).Only RunCall.IsMute := by
  refine (finalize_mute execution _ summary.credits _ start).bind fun result => ?_
  cases result <;> exact .done _

theorem abort_mute (execution : Execution) (reason : StoreError) (start : Nat)
    : (abort execution reason start).Only RunCall.IsMute := by
  refine (only_ask trivial).bind fun current => Only.bind ?_ fun result => ?_
  · cases current <;> exact finalize_mute ..
  · cases result <;> exact .done _

theorem markRunning_mute (execution : Execution)
    : (ExceptT.run (markRunning execution)).Only RunCall.IsMute := by
  refine only_lift_bind (only_ask trivial) fun time => ?_
  refine only_except_bind (only_asked trivial) fun _ => ?_
  refine only_except_bind (only_asked trivial) fun _ => ?_
  exact only_lift_bind ((only_ask trivial).bind fun _ => .done _) fun _ => .done _

/-- Reading the execution and its phases adds at most a listing of what it has for good. -/
theorem Told.reads (told : Told id phases tasks scene) {call : StoreCall} {answer : call.Answer}
    (reading : call = .getExecution id ∨ call = .listPhases id)
    (answered : answer = (Memory.answer call scene.store).1 ∨ ∃ reason, answer = .error reason)
    (past : later.past = scene.past ++ [⟨.store call, answer⟩])
    (same : (scene.store.planned id).map PhaseRecord.core = phases.map PhaseRecord.core)
    : Told id phases tasks later := by
  rcases reading with rfl | rfl
  · have mute : (RunCall.store (.getExecution id)).IsMute := trivial
    exact told.mute mute past
  · refine ⟨?_, fun listed member => ?_⟩
    · rw [past, Handing.handed, List.filterMap_append, ← told.handed]
      exact List.append_nil _
    · rw [past] at member
      rcases List.mem_append.mp member with early | last
      · exact told.listed listed early
      · cases List.mem_singleton.mp last
        rcases answered with known | ⟨reason, refused⟩
        · rwa [Except.ok.inj known]
        · cases refused

/-- A run of an execution hands over the tasks of its plan, one after another from the first,
whatever has become of the store since.
-/
theorem safe_execute {settings : RunSettings} (announces : settings.registry.Announces)
    {base : Memory} (there : (base.execution? id).isSome)
    (listed : (base.planned id).map PhaseRecord.core = phases.map PhaseRecord.core)
    {nodes : List (Nat × Node)}
    (works : phases.map Service.work = nodes.map fun entry => (entry.2.taskType, entry.2.text))
    (readable
      : ∀ entry ∈ nodes, ∃ back, Node.parse entry.2.text = .ok back ∧ back.id = entry.2.id)
    (token : Token) (grows : base.Grows scene.store) (told : Told id phases [] scene)
    : crowd.runs.Safe
        (KeepsFaith id phases (nodes.map fun entry => (entry.2.taskType, entry.2.id)))
        (fun _ later =>
          Faithful id phases (nodes.map fun entry => (entry.2.taskType, entry.2.id)) later)
        (execute settings id token) scene := by
  let all := nodes.map fun entry => (entry.2.taskType, entry.2.id)
  let start (scene : Scene) : Prop := base.Grows scene.store ∧ Told id phases [] scene
  have none : [] <+: all := List.nil_prefix
  have same {scene : Scene} (grows : base.Grows scene.store)
      : (scene.store.planned id).map PhaseRecord.core = phases.map PhaseRecord.core :=
    (grows.planned there).trans listed
  rw [execute_eq]
  refine Company.safe_load start ?_ ?_ ?_ ?_ ?_ ⟨grows, told⟩
  · exact fun drifts held => ⟨held.1.trans drifts.acts.1, held.2.drift drifts⟩
  · exact fun answer reading answered held =>
      ⟨held.1, held.2.reads reading answered rfl (same held.1)⟩
  · intro before call answer later reading held replies
    refine ⟨[], none, held.2.reads reading ?_ replies.past_eq (same held.1)⟩
    rcases replies.store_inv with ⟨_, known, _⟩ | ⟨_, reason, refused, _⟩
    · exact Or.inl known
    · exact Or.inr ⟨reason, refused⟩
  · intro first execution flow last _ _ _ _ _ held
    have told : Told id phases [] (last.answered (.listPhases id)) :=
      held.2.reads (Or.inr rfl) (Or.inl rfl) rfl (same held.1)
    have loaded : (last.store.planned id).map Service.work
        = nodes.map fun entry => (entry.2.taskType, entry.2.text) := by
      rw [Service.works_of_cores (same held.1), works]
    unfold proceed
    refine safe_lift_bind (safe_mute (only_ask (by trivial)) told none) fun start _ told => ?_
    rw [except_bind]
    refine (safe_mute (markRunning_mute execution) told none).followed fun marked _ told => ?_
    cases marked with
    | error reason => exact safe_ends told none
    | ok known =>
        refine safe_lift_bind (safe_mute (only_ask (by trivial)) told none) fun _ _ told => ?_
        refine safe_lift_bind (safe_mute (only_ask (by trivial)) told none) fun _ _ told => ?_
        refine safe_lift_bind (safe_runPhases announces known flow token loaded readable told
          List.prefix_rfl 0 0 .empty) ?_
        rintro ⟨looped, left⟩ later ⟨tasks, among, told⟩
        have ending {later : Scene} (told : Told id phases tasks later)
            : crowd.runs.Safe (KeepsFaith id phases all)
                (fun _ later => Faithful id phases all later) (windUp known start looped)
                later := by
          have safe {part : RunM (Except SetupError RunOutcome)} (only : part.Only RunCall.IsMute)
              : crowd.runs.Safe (KeepsFaith id phases all)
                  (fun _ later => Faithful id phases all later) part later :=
            (safe_mute only told among).mono (fun kept => kept) fun _ _ told => ⟨tasks, among, told⟩
          cases looped with
          | ok summary => exact safe (conclude_mute known summary start)
          | error reason => exact safe (abort_mute known reason start)
        cases settings.closesBrowser with
        | false => exact ending told
        | true =>
            exact safe_lift_bind (safe_mute (release_asks (fun _ => trivial) left) told among)
              fun _ _ told => ending told
  · exact fun reason later held => ⟨[], none, held.2⟩

end Handing

namespace Service

/-- The phases of an execution are the plan of its graph: one phase that has not started for each
planned node, listed in the order of the plan with the number of its layer and its place in the
whole, and each is read back as its node. Whatever has been added to the store since, and whichever
calls of it fail, every later run lists phases that are read back as these nodes and hands their
tasks over in this order, each at most once.
-/
theorem phases_are_plan {catalog : Catalog} {request : RunRequest} {scene created : Scene}
    {execution : Execution}
    (made
      : serviceRealm.Reaches (ExceptT.run (createExecution catalog request), scene)
          (.done (.ok execution), created))
    : ∃ flow plan phases,
        Flow.parse request.definition = .ok flow
        ∧ flow.plan catalog = .ok plan
        ∧ (Memory.answer (.listPhases execution.id) created.store).1 = .ok phases
        ∧ List.Forall₂ (Stores catalog execution.id) plan.nodes.zipIdx phases
        ∧ ∀ {settings : RunSettings} {token : Token} {before later : Scene}
            {rest : RunM (Except SetupError RunOutcome)},
            settings.registry.Announces
            → created.store.Grows before.store
            → crowd.runs.Reaches (Run.execute settings execution.id token, before.anew)
                (rest, later)
            → (∀ listed : List PhaseRecord,
                  ⟨.store (.listPhases execution.id), .ok listed⟩ ∈ later.past
                  → List.Forall₂
                      (fun entry phase =>
                        ∃ back, Node.parse phase.node = .ok back ∧ entry.2.Recalls back)
                      plan.nodes listed)
              ∧ Handing.handed later.past
                <+: plan.nodes.map (fun entry => (entry.2.taskType, entry.2.id))
              ∧ ((Handing.handed later.past).map (·.2)).Nodup := by
  obtain ⟨flow, plan, phases, creation, shown⟩ :=
    (safe_createExecution catalog request scene).ended made execution rfl
  have fits (entry : Nat × Node) (member : entry ∈ plan.nodes) : entry.2.Fits depthLimit :=
    Flow.fits_of_parse creation.parsed _ (Flow.mem_of_plan creation.planned member)
  have listed : created.store.planned execution.id = phases := by
    rw [Memory.planned, shown.stored.listed, List.mergeSort_of_pairwise creation.fresh.sorted]
  have works := creation.phasesFor.works
  refine ⟨flow, plan, phases, creation.parsed, creation.planned, congrArg _ listed,
    creation.phasesFor.stores fits, ?_⟩
  intro settings token before later rest announces grows reached
  have there : (created.store.execution? execution.id).isSome := by
    obtain ⟨stop, held⟩ := shown.stored.held
    exact Option.isSome_iff_exists.mpr ⟨_, held⟩
  have readable (entry : Nat × Node) (member : entry ∈ plan.nodes)
      : ∃ back, Node.parse entry.2.text = .ok back ∧ entry.2.Recalls back :=
    Node.recalls_of_fits (fits entry member)
  have grown : created.store.Grows before.anew.store := grows
  have silent : Handing.Told execution.id phases [] before.anew :=
    ⟨rfl, fun _ member => (List.not_mem_nil member).elim⟩
  have safe := Handing.safe_execute announces there (congrArg _ listed) works
    (fun entry member => (readable entry member).imp fun _ read => ⟨read.1, read.2.id⟩) token
    grown silent
  have stable : crowd.runs.Stable (Handing.Faithful execution.id phases
      (plan.nodes.map fun entry => (entry.2.taskType, entry.2.id))) := by
    rintro _ _ drifts ⟨tasks, among, told⟩
    exact ⟨tasks, among, told.drift drifts⟩
  obtain ⟨tasks, among, told⟩ :=
    safe.invariant stable (fun kept => kept) ⟨[], List.nil_prefix, silent⟩ reached
  rw [told.handed]
  refine ⟨fun listing member => ?_, among, ?_⟩
  · have same := works_of_cores (told.listed listing member)
    exact recalled_of_works (same.trans works) fits
  · have distinct := Flow.distinct_of_plan creation.planned
    have ids := (among.map (·.2)).sublist
    rw [List.map_map] at ids
    exact distinct.sublist ids

end Service

-----------------------------------------------------------------------------------------
-- An execution of one phase that is handed over
-----------------------------------------------------------------------------------------

namespace Run.Lone

open Run

/-- An executor that hands its task over and is content. -/
def handing (t : TaskType) : Executor := do
  let _ ← TaskM.ask (.delegate t (← get).node)
  return true

def manned : RunSettings := ⟨catalog, fun t => some (handing t), false⟩

theorem announces : manned.registry.Announces := by
  rintro t _ ⟨rfl⟩ work
  exact ⟨fun _ => .done (.ok true, work), rfl, fun _ => .done _⟩

/-- Its node is read back as it is. -/
theorem snapshot : Node.parse phase.node = .ok (.bare "a" .launchBrowser) := by
  have fits : (Node.bare "a" .launchBrowser).Fits depthLimit :=
    ⟨⟨.nil, List.forall_mem_nil _⟩, ⟨.nil, List.forall_mem_nil _⟩, List.forall_mem_nil _⟩
  exact Node.parse_text fits

/-- Its phase is prepared without complaints. -/
theorem unhindered (flow : Flow) (env : Environment)
    : (enter manned.catalog flow (Node.parse phase.node) env).1 = [] := by
  rw [snapshot]
  rfl

/-- The phase is started and hands its task over. -/
theorem hands {flow : Flow} {scene : Scene} (held : scene.store.phases = [queued phase])
    : ∃ rest later,
        crowd.runs.Reaches (LoopM.on (runPhase manned flow phase) .empty, scene) (rest, later)
        ∧ Handing.handed later.past
          = Handing.handed scene.past ++ [(.launchBrowser, "a")] := by
  let left := (enter catalog flow (Node.parse phase.node) .empty).2
  let begun := phase.begun time (slotsText left (nodeId (Node.parse phase.node)) Slots.inputs)
  have answered : Memory.answer (.updatePhase begun) scene.store
      = (.ok (), { scene.store with phases := [begun] }) := by
    obtain ⟨⟨workflows, executions, phases, logs⟩, given, past⟩ := scene
    obtain rfl : phases = [queued phase] := held
    rfl
  apply Exists.intro
  apply Exists.intro
  refine ⟨?_, ?_⟩
  · rw [runPhase_eq, on_inLoop_bind]
    refine .reply (.outside .uptime trivial (0 : Nat) _) ?_
    change crowd.runs.Reaches (LoopM.on (modifyGet _ >>= _) _, _) _
    rw [on_bind]
    change crowd.runs.Reaches
      (LoopM.on (inLoop (errorEntries (enter manned.catalog flow (Node.parse phase.node) .empty).1)
        >>= _) left, _) _
    rw [unhindered, on_inLoop_bind]
    change crowd.runs.Reaches (LoopM.on (get >>= _) left, _) _
    rw [on_bind]
    change crowd.runs.Reaches (LoopM.on (inLoop RunM.now >>= _) left, _) _
    rw [on_inLoop_bind]
    refine .reply (.outside (.task .now) trivial time _) ?_
    refine .reply (.stored (.updatePhase begun) _ trivial answered) ?_
    refine .reply (.outside (.task .now) trivial time _) ?_
    refine .reply (.outside (.emit _) trivial () _) ?_
    rw [snapshot]
    refine .reply (.outside (.task (.delegate .launchBrowser "a")) trivial ⟨[], [], .ok true⟩ _) ?_
    exact .refl
  · simp only [Handing.handed, Scene.after, List.append_assoc, List.filterMap_append]
    rfl

/-- A later run hands its task over. The definition is a variable here, so that no step of the run
reads the graph.
-/
theorem handed {definition : String} {flow : Flow} (parsed : Flow.parse definition = .ok flow)
    : ∃ rest later,
        crowd.runs.Reaches
          (execute manned (.ofNat 2) ⟨0⟩, ⟨store definition, [.ofNat 3, .ofNat 2], []⟩)
          (rest, later)
        ∧ Handing.handed later.past = [(.launchBrowser, "a")] := by
  have listed : Memory.answer (.listPhases (.ofNat 2)) (store definition)
      = (.ok [phase], store definition) := by
    change (Except.ok (List.mergeSort [phase] PhaseRecord.upTo), store definition) = _
    rw [List.mergeSort_singleton]
    rfl
  have waits : ∃ next scene,
      crowd.runs.Reaches
        (execute manned (.ofNat 2) ⟨0⟩, ⟨store definition, [.ofNat 3, .ofNat 2], []⟩)
        ((LoopM.on (runPhase manned flow phase) .empty).bind next, scene)
      ∧ scene.store.phases = [queued phase]
      ∧ Handing.handed scene.past = [] := by
    obtain ⟨first, second, loads, lists, goes⟩ :=
      execute_calls (unfinished definition) parsed manned (.ofNat 2) ⟨0⟩
    rw [loads]
    apply Exists.intro
    apply Exists.intro
    refine ⟨?_, ?_⟩
    · refine .reply (.stored (.getExecution (.ofNat 2)) _ trivial rfl) ?_
      change crowd.runs.Reaches (first (.ok (execution definition)), _) _
      rw [lists]
      refine .reply (.stored (.listPhases (.ofNat 2)) _ trivial listed) ?_
      rw [goes]
      refine .reply (.outside .uptime trivial (0 : Nat) _) ?_
      refine .reply (.outside (.task .now) trivial time _) ?_
      refine .reply (.stored (.updateExecution _) _ trivial rfl) ?_
      refine .reply (.stored (.setPhaseStatuses (.ofNat 2) .created .pending) _ trivial rfl) ?_
      refine .reply (.stored (.recordLastRunStatus _ _ .running) _ trivial rfl) ?_
      refine .reply (.outside (.task .now) trivial time _) ?_
      refine .reply (.outside (.emit _) trivial () _) ?_
      refine .reply (.outside (.isCancelled ⟨0⟩) trivial false _) ?_
      refine .reply (.stored (.getExecution (.ofNat 2)) _ trivial rfl) ?_
      change crowd.runs.Reaches
        (Program.bind _ (Program.bind _
          (LoopM.on (runPhase manned flow phase >>= _) .empty)), _) _
      rw [on_bind, Program.bind_bind, Program.bind_bind]
      exact .refl
    · exact ⟨rfl, rfl⟩
  obtain ⟨next, scene, reached, held, silent⟩ := waits
  obtain ⟨rest, later, run, told⟩ := hands held
  exact ⟨_, later, reached.trans (run.bind next), told.trans (congrArg (· ++ _) silent)⟩

end Run.Lone

/-- An execution of one phase is created, and a run of it hands its task over. -/
theorem Service.phases_are_plan_lone
    : ∃ (created : Scene) (flow : Flow) (plan : Plan) (phases : List PhaseRecord)
        (rest : RunM (Except SetupError RunOutcome)) (later : Scene),
        serviceRealm.Reaches
          (ExceptT.run (createExecution Run.Lone.catalog Run.Lone.request),
            .start ⟨[Run.Lone.workflow], [], [], []⟩)
          (.done (.ok (Run.Lone.execution Run.Lone.flow.text)), created)
        ∧ flow.plan Run.Lone.catalog = .ok plan
        ∧ List.Forall₂ (Stores Run.Lone.catalog (.ofNat 2)) plan.nodes.zipIdx phases
        ∧ crowd.runs.Reaches (Run.execute Run.Lone.manned (.ofNat 2) ⟨0⟩, created.anew)
            (rest, later)
        ∧ Handing.handed later.past = [(.launchBrowser, "a")]
        ∧ Handing.handed later.past
          <+: plan.nodes.map (fun entry => (entry.2.taskType, entry.2.id)) := by
  obtain ⟨past, made⟩ := Run.Lone.created
  obtain ⟨flow, parsed, _⟩ := planned_of_planOf Run.Lone.planned
  obtain ⟨rest, later, run, told⟩ := Run.Lone.handed parsed
  obtain ⟨flow, plan, phases, _, planned, _, stores, runs⟩ := phases_are_plan made
  obtain ⟨_, among, _⟩ := runs Run.Lone.announces (.refl _) run
  exact ⟨_, flow, plan, phases, rest, later, made, planned, stores, run, told, among⟩

end Harvest

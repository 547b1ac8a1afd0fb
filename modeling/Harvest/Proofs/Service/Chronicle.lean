import Harvest.Proofs.Service.Crowd

/-! What workflows tell of their last runs. The summary of a workflow is set when an execution of it
is made, and it follows the status of that execution with one call of delay.
-/

namespace Harvest

open Realm Program Relation

-----------------------------------------------------------------------------------------
-- Nobody but those who request stops
-----------------------------------------------------------------------------------------

namespace Memory

/-- Stops were requested, and nothing else was done. -/
def Stopped : Memory → Memory → Prop :=
  ReflTransGen fun before after => ∃ id, after = (Memory.answer (.requestStop id) before).2

/-- Requests for stops are what others may do. -/
theorem Stopped.acts {before after : Memory} (stopped : Stopped before after) (given : List Uuid)
    : crowd.acts given before after := by
  induction stopped with
  | refl => exact crowd.still _ _
  | @tail middle last _ step ih =>
      obtain ⟨id, rfl⟩ := step
      have respects : (StoreCall.requestStop id).Respects middle := trivial
      have adds := adds_answer respects
      refine crowd.further ih ⟨adds.grows respects, fun tidy => tidy.answer respects, ?_⟩
      exact fun _ _ vacant => adds.vacant vacant List.not_mem_nil

end Memory

/-- Others request stops and do nothing else, and the store does not fail. -/
def stops : Company where
  acts _ := Memory.Stopped
  mayFail := False
  heeds _ _ := True
  spares {given} _ _ stopped := (stopped.acts given).2.2
  still _ _ := .refl
  further := .trans

/-- The same company at a store that answers only what respects it. -/
def polite : Company := { stops with heeds := fun call store => call.Respects store }

/-- A program that is known to respect the store has nothing to fear from one that answers other
calls too, by induction over the program.
-/
theorem safe_of_polite {α : Type} {program : ServiceM α} {scene : Scene}
    {keeps : (call : ServiceCall) → Scene → call.Answer → Scene → Prop}
    {accepted wanted : α → Scene → Prop}
    (respectful : crowd.serves.Safe Crowd.Respectful accepted program scene)
    (safe : polite.serves.Safe keeps wanted program scene)
    : stops.serves.Safe keeps wanted program scene := by
  induction program generalizing scene with
  | done value => exact fun later drifts => safe later ⟨drifts.given, drifts.past, drifts.acts⟩
  | ask call next ih =>
      intro before drifts answer later serves
      have among : crowd.Drifts scene before :=
        ⟨drifts.given, drifts.past, drifts.acts.acts scene.given⟩
      have crowded : crowd.Serves call before answer later := by
        cases serves with
        | own _ own => exact .own _ own _ _
        | run replies =>
            cases replies with
            | store call => exact .run (.store call _ trivial)
            | fault may => exact may.elim
            | fresh _ _ new vacant => exact .run (.fresh _ _ new vacant)
            | outside _ outside => exact .run (.outside _ outside _ _)
      obtain ⟨respects, rest⟩ := respectful before among answer later crowded
      have served : polite.Serves call before answer later := by
        cases serves with
        | own _ own => exact .own _ own _ _
        | run replies =>
            cases replies with
            | store call => exact .run (.store call _ respects.1)
            | fault may => exact may.elim
            | fresh _ _ new vacant => exact .run (.fresh _ _ new vacant)
            | outside _ outside => exact .run (.outside _ outside _ _)
      obtain ⟨kept, further⟩ :=
        safe before ⟨drifts.given, drifts.past, drifts.acts⟩ answer later served
      exact ⟨kept, ih answer rest further⟩

-----------------------------------------------------------------------------------------
-- What was made
-----------------------------------------------------------------------------------------

/-- The execution that a call has made. -/
def made? : Happening runCalls → Option Execution
  | ⟨.store (.createExecution e _), .ok ()⟩ => some e
  | _ => none

/-- The executions that were made, in order. -/
def made (past : List (Happening runCalls)) : List Execution := past.filterMap made?

/-- The execution of a workflow that was made last. -/
def latest? (past : List (Happening runCalls)) (workflow : Uuid) : Option Execution :=
  (made past).reverse.find? (·.workflowId == workflow)

/-- A call that makes nothing adds nothing. -/
theorem made_snoc {past : List (Happening runCalls)} {happening : Happening runCalls}
    (none' : made? happening = none)
    : made (past ++ [happening]) = made past := by
  simp [made, none']

/-- The call makes no execution. -/
def StoreCall.MakesNothing : StoreCall → Prop
  | .createExecution _ _ => False
  | _ => True

theorem made?_of_makesNothing {call : StoreCall} (nothing : call.MakesNothing)
    (answer : call.Answer)
    : made? ⟨.store call, answer⟩ = none := by
  cases call with
  | createExecution => exact nothing.elim
  | _ => rfl

theorem made?_refused (call : StoreCall) (reason : StoreError)
    : made? ⟨.store call, .error reason⟩ = none := by
  cases call <;> rfl

theorem made?_outside {call : RunCall} (outside : call.IsOutside) (answer : call.Answer)
    : made? ⟨call, answer⟩ = none := by
  cases call with
  | store => exact outside.elim
  | _ => rfl

-----------------------------------------------------------------------------------------
-- Summaries
-----------------------------------------------------------------------------------------

/-- A workflow tells what was made of it last and what has become of it; the status may be behind
for an execution that is owing.
-/
inductive Noted (owing : Option Uuid) (past : List (Happening runCalls)) (store : Memory)
    (w : Workflow)
    : Prop where
  | never (nothing : latest? past w.id = none) (id : w.lastRunId = none)
      (time : w.lastRunAt = none) (status : w.lastRunStatus = none)
      : Noted owing past store w
  | last {e stored : Execution} (latest : latest? past w.id = some e)
      (held : store.execution? e.id = some stored) (id : w.lastRunId = some e.id)
      (time : w.lastRunAt = some e.createdAt)
      (status : owing = some e.id ∨ w.lastRunStatus = some stored.status)
      : Noted owing past store w

/-- What was made is stored, and all workflows tell of it, but one may be late. -/
structure Chronicle (late owing : Option Uuid) (scene : Scene) : Prop where
  tidy : scene.store.Tidy
  stored
    : ∀ e ∈ made scene.past,
        ∃ stored, scene.store.execution? e.id = some stored ∧ stored.fixed = e.fixed
  noted
    : ∀ id w,
        scene.store.workflow? id = some w
        → late ≠ some id
        → Noted owing scene.past scene.store w

/-- The later store has the same workflows and the same executions, each with its status unless it
is owing.
-/
structure Shifts (owing : Option Uuid) (before after : Memory) : Prop where
  workflows : after.workflows = before.workflows
  executions
    : ∀ id stored,
        before.execution? id = some stored
        → ∃ later,
            after.execution? id = some later
            ∧ later.fixed = stored.fixed
            ∧ (owing = some id ∨ later.status = stored.status)

namespace Shifts

variable {owing : Option Uuid} {first middle last : Memory}

theorem of_eq (workflows : last.workflows = first.workflows)
    (executions : last.executions = first.executions)
    : Shifts owing first last := by
  refine ⟨workflows, fun id stored held => ⟨stored, ?_, rfl, Or.inr rfl⟩⟩
  rw [Memory.execution?, executions]
  exact held

theorem trans (one : Shifts owing first middle) (two : Shifts owing middle last)
    : Shifts owing first last := by
  refine ⟨two.workflows.trans one.workflows, fun id stored held => ?_⟩
  obtain ⟨next, held, fixed, status⟩ := one.executions id stored held
  obtain ⟨later, held, fixed', status'⟩ := two.executions id next held
  refine ⟨later, held, fixed'.trans fixed, ?_⟩
  rcases status with owed | same
  · exact Or.inl owed
  · exact status'.imp_right (·.trans same)

/-- Putting an execution in place of itself, with what is for good the same. -/
theorem putExecution {e stored : Execution} (held : first.execution? e.id = some stored)
    (fixed : e.fixed = stored.fixed) (status : owing = some e.id ∨ e.status = stored.status)
    : Shifts owing first (first.putExecution e) := by
  refine ⟨rfl, fun id old found => ?_⟩
  by_cases same : e.id = id
  · subst same
    rw [held, Option.some.injEq] at found
    subst found
    exact ⟨e, Memory.find?_insert_self Execution.id e _, fixed, status⟩
  · exact ⟨old, (Memory.find?_insert_of_ne Execution.id same _).trans found, rfl, Or.inr rfl⟩

end Shifts

/-- Requesting stops shifts nothing else. -/
theorem Memory.Stopped.shifts {before after : Memory} (stopped : Stopped before after)
    : Shifts none before after := by
  induction stopped with
  | refl => exact .of_eq rfl rfl
  | @tail middle last _ step ih =>
      obtain ⟨id, rfl⟩ := step
      refine ih.trans ?_
      change Shifts none middle (middle.requestStop id).2
      rcases middle.requestStop_cases id with ⟨_, same⟩ | ⟨stored, held, _, same⟩
      · exact .of_eq (by rw [same]) (by rw [same])
      · rw [same]
        obtain rfl : stored.id = id := Memory.key_of_find? held
        exact .putExecution (e := { stored with stopRequested := true }) held rfl (Or.inr rfl)

/-- The call leaves workflows and executions. -/
def StoreCall.IsAside : StoreCall → Prop
  | .createWorkflow _ | .createExecution _ _ | .updateExecution _ | .requestStop _ => False
  | .recordLastRunStart _ _ _ _ | .recordLastRunStatus _ _ _ => False
  | _ => True

theorem shifts_aside {call : StoreCall} (aside : call.IsAside) (m : Memory)
    : Shifts none m (Memory.answer call m).2 := by
  cases call with
  | createWorkflow | createExecution | updateExecution | requestStop | recordLastRunStart
  | recordLastRunStatus => exact aside.elim
  | updatePhase p =>
      change Shifts none m (m.updatePhase p).2
      rcases m.updatePhase_cases p with ⟨_, same⟩ | ⟨_, _, _, same⟩ <;> rw [same] <;>
        exact .of_eq rfl rfl
  | appendLogs id entries =>
      rcases m.appendLogs_cases id entries with ⟨_, same⟩ | same <;> rw [same] <;>
        exact .of_eq rfl rfl
  | _ => exact .of_eq rfl rfl

/-- The execution is stored with the status that the record says. -/
def Stands (e : Execution) (scene : Scene) : Prop :=
  ∃ stored,
    scene.store.execution? e.id = some stored ∧ stored.fixed = e.fixed ∧ stored.status = e.status

variable {late owing owed : Option Uuid} {scene later : Scene} {e : Execution}

theorem Stands.shifts (stands : Stands e scene) (shifts : Shifts none scene.store later.store)
    : Stands e later := by
  obtain ⟨stored, held, fixed, status⟩ := stands
  obtain ⟨next, held, fixed', status'⟩ := shifts.executions _ _ held
  exact ⟨next, held, fixed'.trans fixed, (status'.resolve_left (by simp)).trans status⟩

namespace Chronicle

-----------------------------------------------------------------------------------------
-- Calls beside
-----------------------------------------------------------------------------------------

/-- What is told stays true while nothing is made and executions keep their status. -/
theorem shifts (chronicle : Chronicle late owing scene)
    (shifts : Shifts owed scene.store later.store) (tidy : later.store.Tidy)
    (same : made later.past = made scene.past) (among : owing = none ∨ owed = none)
    : Chronicle late (owing.or owed) later where
  tidy := tidy
  stored e member := by
    obtain ⟨stored, held, fixed⟩ := chronicle.stored e (same ▸ member)
    obtain ⟨next, held, fixed', _⟩ := shifts.executions _ _ held
    exact ⟨next, held, fixed'.trans fixed⟩
  noted id w found apart := by
    have latest (id : Uuid) : latest? later.past id = latest? scene.past id := by
      rw [latest?, latest?, same]
    rw [Memory.workflow?, shifts.workflows] at found
    cases chronicle.noted id w found apart with
    | never nothing id time status => exact .never ((latest w.id).trans nothing) id time status
    | last made held id time status =>
        obtain ⟨next, held, _, status'⟩ := shifts.executions _ _ held
        refine .last ((latest w.id).trans made) held id time ?_
        rcases status with owes | told
        · simp [owes]
        · rcases status' with owes | same
          · rcases among with rfl | rfl
            · simp [owes]
            · cases owes
          · exact Or.inr (told.trans (congrArg some same.symm))

/-- The same while no execution changes its status. -/
theorem still (chronicle : Chronicle late owing scene)
    (shifts : Shifts none scene.store later.store) (tidy : later.store.Tidy)
    (same : made later.past = made scene.past)
    : Chronicle late owing later := by
  have kept := chronicle.shifts shifts tidy same (Or.inr rfl)
  rwa [Option.or_none] at kept

/-- A call outside the store, or one that it refuses, makes nothing. -/
theorem after (chronicle : Chronicle late owing scene) (call : RunCall) (answer : call.Answer)
    (nothing : made? ⟨call, answer⟩ = none)
    : Chronicle late owing (scene.after call answer) :=
  chronicle.still (.of_eq rfl rfl) chronicle.tidy (made_snoc nothing)

theorem withFresh (chronicle : Chronicle late owing scene) (id : Uuid)
    : Chronicle late owing (Company.withFresh scene id) :=
  chronicle.still (.of_eq rfl rfl) chronicle.tidy (made_snoc rfl)

theorem drift (chronicle : Chronicle late owing scene) (drifts : polite.Drifts scene later)
    : Chronicle late owing later :=
  chronicle.still drifts.acts.shifts ((drifts.acts.acts scene.given).2.1 chronicle.tidy)
    (congrArg made drifts.past)

theorem aside (chronicle : Chronicle late owing scene) {call : StoreCall} (aside : call.IsAside)
    (respects : call.Respects scene.store)
    : Chronicle late owing (scene.answered call) := by
  refine chronicle.still (shifts_aside aside scene.store) (chronicle.tidy.answer respects) ?_
  refine made_snoc (made?_of_makesNothing ?_ _)
  cases call with
  | createExecution => exact aside.elim
  | _ => trivial

-----------------------------------------------------------------------------------------
-- The status of an execution
-----------------------------------------------------------------------------------------

/-- An update that is granted leaves the execution owing. -/
theorem update (chronicle : Chronicle late none scene)
    (respects : (StoreCall.updateExecution e).Respects scene.store)
    (granted : (Memory.answer (.updateExecution e) scene.store).1 = .ok ())
    : Chronicle late (some e.id) (scene.answered (.updateExecution e))
      ∧ Stands e (scene.answered (.updateExecution e)) := by
  rcases scene.store.updateExecution_cases e with ⟨_, same⟩ | ⟨stored, held, _, same⟩
  · exact absurd ((congrArg Prod.fst same).symm.trans granted) nofun
  · let kept := { e with stopRequested := stored.stopRequested || e.stopRequested }
    have left : (scene.answered (.updateExecution e)).store = scene.store.putExecution kept :=
      congrArg Prod.snd same
    refine ⟨chronicle.shifts ?_ (chronicle.tidy.answer respects) (made_snoc rfl) (Or.inl rfl), ?_⟩
    · rw [left]
      exact .putExecution (e := kept) held (respects stored held) (Or.inl rfl)
    · rw [Stands, left]
      exact ⟨kept, Memory.find?_insert_self Execution.id kept _, rfl, rfl⟩

/-- An update that agrees with the status changes nothing that is told. -/
theorem keep (chronicle : Chronicle late none scene) (stands : Stands e scene) {next : Execution}
    (named : next.id = e.id) (same : next.status = e.status)
    (respects : (StoreCall.updateExecution next).Respects scene.store)
    : Chronicle late none (scene.answered (.updateExecution next))
      ∧ Stands e (scene.answered (.updateExecution next)) := by
  have shifts : Shifts none scene.store (scene.answered (.updateExecution next)).store := by
    change Shifts none scene.store (scene.store.updateExecution next).2
    rcases scene.store.updateExecution_cases next with ⟨_, same⟩ | ⟨stored, held, _, left⟩
    · exact .of_eq (by rw [same]) (by rw [same])
    · rw [left]
      obtain ⟨other, there, _, status⟩ := stands
      rw [← named, held, Option.some.injEq] at there
      refine .putExecution (e := { next with stopRequested := _ }) held (respects stored held)
        (Or.inr ?_)
      exact same.trans (there ▸ status.symm)
  exact ⟨chronicle.still shifts (chronicle.tidy.answer respects) (made_snoc rfl),
    stands.shifts shifts⟩

/-- What was made last of a workflow was made and is of that workflow. -/
theorem mem_made {past : List (Happening runCalls)} {id : Uuid} (latest : latest? past id = some e)
    : e ∈ made past ∧ e.workflowId = id := by
  refine ⟨List.mem_reverse.mp (List.mem_of_find?_eq_some latest), ?_⟩
  simpa using List.find?_some latest

/-- Only the workflow of an execution can be behind for it. -/
theorem caughtUp (chronicle : Chronicle late (some e.id) scene) (stands : Stands e scene)
    {w : Workflow} (noted : Noted (some e.id) scene.past scene.store w)
    (apart : w.id = e.workflowId → w.lastRunId ≠ some e.id)
    : Noted none scene.past scene.store w := by
  cases noted with
  | never nothing id time status => exact .never nothing id time status
  | @last made _ latest held id time status =>
      refine .last latest held id time (Or.inr (status.resolve_left fun owes => ?_))
      obtain ⟨member, parent⟩ := mem_made latest
      obtain ⟨stored, there, fixed⟩ := chronicle.stored made member
      obtain ⟨other, found, fixed', _⟩ := stands
      rw [Option.some.injEq] at owes
      rw [← owes, found, Option.some.injEq] at there
      have same : made.workflowId = e.workflowId := by
        have both : made.fixed = e.fixed := fixed.symm.trans (there ▸ fixed')
        exact congrArg Prod.fst both
      exact apart (parent.symm.trans same) (owes ▸ id)

/-- What was made is told when every workflow tells it of the executions as they are. -/
theorem retold (chronicle : Chronicle late owing scene)
    (executions : later.store.executions = scene.store.executions)
    (past : made later.past = made scene.past) (tidy : later.store.Tidy)
    (noted
      : ∀ id w, later.store.workflow? id = some w → Noted owed scene.past scene.store w)
    : Chronicle none owed later where
  tidy := tidy
  stored e member := by
    rw [Memory.execution?, executions]
    exact chronicle.stored e (past ▸ member)
  noted id w found _ := by
    have same (id : Uuid) : later.store.execution? id = scene.store.execution? id := by
      rw [Memory.execution?, executions]
      rfl
    cases noted id w found with
    | never nothing id time status =>
        refine .never ?_ id time status
        rwa [latest?, past]
    | last latest held id time status =>
        refine .last ?_ ((same _).trans held) id time status
        rwa [latest?, past]

/-- Telling the workflow brings it up to date, or it has a later execution and is so already. -/
theorem pay (chronicle : Chronicle none (some e.id) scene) (stands : Stands e scene)
    : Chronicle none none (scene.answered (.recordLastRunStatus e.workflowId e.id e.status)) := by
  let call : StoreCall := .recordLastRunStatus e.workflowId e.id e.status
  have respects : call.Respects scene.store := trivial
  have tidy : (scene.answered call).store.Tidy := chronicle.tidy.answer respects
  have others {id : Uuid} {w : Workflow} (found : scene.store.workflow? id = some w)
      (apart : id = e.workflowId → w.lastRunId ≠ some e.id)
      : Noted none scene.past scene.store w := by
    refine chronicle.caughtUp stands (chronicle.noted id w found nofun) ?_
    rwa [Memory.key_of_find? found]
  rcases scene.store.recordLastRunStatus_leaves e.workflowId e.id e.status with
    ⟨same, apart⟩ | ⟨w, held, last, same⟩
  · have left : (scene.answered call).store = scene.store := same
    refine chronicle.retold (congrArg _ left) (made_snoc rfl) tidy fun id w found => ?_
    rw [left] at found
    exact others found fun here => apart w (here ▸ found)
  · let next := { w with lastRunStatus := some e.status }
    have named : w.id = e.workflowId := Memory.key_of_find? held
    have left : (scene.answered call).store = scene.store.putWorkflow next := same
    refine chronicle.retold (by rw [left]; rfl) (made_snoc rfl) tidy fun id other found => ?_
    rw [left, Memory.workflow?_putWorkflow] at found
    split at found
    · obtain rfl := Option.some.inj found
      cases chronicle.noted e.workflowId w held nofun with
      | never _ none' => cases none'.symm.trans last
      | @last made stored latest there id time _ =>
          have same : made.id = e.id := Option.some.inj (id.symm.trans last)
          obtain ⟨other, standing, _, status⟩ := stands
          rw [← same, there, Option.some.injEq] at standing
          exact .last latest there id time (Or.inr (by rw [standing, status]))
    · next apart => exact others found fun here => absurd (named.trans here.symm) apart

-----------------------------------------------------------------------------------------
-- New records
-----------------------------------------------------------------------------------------

/-- A workflow that is saved has nothing to tell, for nothing was made of it. -/
theorem save (chronicle : Chronicle none none scene) {w : Workflow}
    (respects : (StoreCall.createWorkflow w).Respects scene.store) (id : w.lastRunId = none)
    (time : w.lastRunAt = none) (status : w.lastRunStatus = none)
    : Chronicle none none (scene.answered (.createWorkflow w)) := by
  refine chronicle.retold rfl (made_snoc rfl) (chronicle.tidy.answer respects)
    fun other found held => ?_
  rw [show (scene.answered (.createWorkflow w)).store = scene.store.putWorkflow w from rfl,
    Memory.workflow?_putWorkflow] at held
  split at held
  · obtain rfl := Option.some.inj held
    refine .never ?_ id time status
    cases latest : latest? scene.past w.id with
    | none => rfl
    | some e =>
        obtain ⟨member, parent⟩ := mem_made latest
        obtain ⟨stored, there, fixed⟩ := chronicle.stored e member
        obtain ⟨home, found, _⟩ := chronicle.tidy.owned stored (List.mem_of_find?_eq_some there)
        have same : stored.workflowId = w.id := (congrArg Prod.fst fixed).trans parent
        rw [same, show scene.store.workflow? w.id = none from respects] at found
        cases found
  · exact chronicle.noted other found held nofun

/-- What was made of a workflow once an execution is made: that one, or what was made before. -/
theorem latest?_create (past : List (Happening runCalls)) (phases : List PhaseRecord) (id : Uuid)
    : latest? (past ++ [⟨.store (.createExecution e phases), .ok ()⟩]) id
      = if e.workflowId = id then some e else latest? past id := by
  have more : made (past ++ [⟨.store (.createExecution e phases), .ok ()⟩]) = made past ++ [e] := by
    simp [made, made?]
  rw [latest?, more, List.reverse_append]
  change List.find? _ (e :: (made past).reverse) = _
  rw [List.find?_cons]
  by_cases same : e.workflowId = id
  · simp [same]
  · rw [if_neg same, beq_eq_false_iff_ne.mpr same]
    rfl

/-- An execution that is made leaves its workflow late. -/
theorem create (chronicle : Chronicle none none scene) {phases : List PhaseRecord}
    (respects : (StoreCall.createExecution e phases).Respects scene.store)
    : Chronicle (some e.workflowId) none (scene.answered (.createExecution e phases))
      ∧ Stands e (scene.answered (.createExecution e phases))
      ∧ latest? (scene.answered (.createExecution e phases)).past e.workflowId = some e := by
  let call : StoreCall := .createExecution e phases
  have past : made (scene.answered call).past = made scene.past ++ [e] := by
    change made (scene.past ++ [⟨.store call, .ok ()⟩]) = _
    simp [made, made?, call]
  have workflows : (scene.answered call).store.workflows = scene.store.workflows :=
    Memory.workflows_foldl_putPhase phases _
  have executions : (scene.answered call).store.executions
      = Memory.insert Execution.id e scene.store.executions :=
    Memory.executions_foldl_putPhase phases _
  have here : (scene.answered call).store.execution? e.id = some e := by
    rw [Memory.execution?, executions]
    exact Memory.find?_insert_self Execution.id e _
  have there {id : Uuid} {stored : Execution} (held : scene.store.execution? id = some stored)
      : (scene.answered call).store.execution? id = some stored := by
    have apart : e.id ≠ id := by
      rintro rfl
      cases respects.1.symm.trans held
    rw [Memory.execution?, executions]
    exact (Memory.find?_insert_of_ne Execution.id apart _).trans held
  refine ⟨⟨chronicle.tidy.answer respects, fun other member => ?_, fun id w found apart => ?_⟩,
    ⟨e, here, rfl, rfl⟩, ?_⟩
  · rw [past, List.mem_append, List.mem_singleton] at member
    rcases member with old | rfl
    · obtain ⟨stored, held, fixed⟩ := chronicle.stored other old
      exact ⟨stored, there held, fixed⟩
    · exact ⟨other, here, rfl⟩
  · rw [Memory.workflow?, workflows] at found
    have named : w.id = id := Memory.key_of_find? found
    have same : latest? (scene.answered call).past w.id = latest? scene.past w.id := by
      refine (latest?_create scene.past phases w.id).trans (if_neg fun same => ?_)
      exact apart (congrArg some (same.trans named))
    cases chronicle.noted id w found (Option.some_ne_none id).symm with
    | never nothing id time status => exact .never (same.trans nothing) id time status
    | last latest held id time status => exact .last (same.trans latest) (there held) id time status
  · exact (latest?_create scene.past phases _).trans (if_pos rfl)

/-- The start of the last execution is told. -/
theorem start (chronicle : Chronicle (some e.workflowId) none scene) (stands : Stands e scene)
    (latest : latest? scene.past e.workflowId = some e)
    : Chronicle none none
        (scene.answered (.recordLastRunStart e.workflowId e.id e.status e.createdAt)) := by
  let call : StoreCall := .recordLastRunStart e.workflowId e.id e.status e.createdAt
  have respects : call.Respects scene.store := trivial
  have tidy : (scene.answered call).store.Tidy := chronicle.tidy.answer respects
  obtain ⟨stored, standing, _, status⟩ := stands
  cases held : scene.store.workflow? e.workflowId with
  | none =>
      have left : (scene.answered call).store = scene.store := by
        change (scene.store.recordLastRunStart ..).2 = _
        simp [Memory.recordLastRunStart, held]
      refine chronicle.retold (congrArg _ left) (made_snoc rfl) tidy fun id w found => ?_
      rw [left] at found
      refine chronicle.noted id w found ?_
      rintro ⟨rfl⟩
      cases held.symm.trans found
  | some w =>
      let next := { w with
        lastRunId := some e.id, lastRunAt := some e.createdAt, lastRunStatus := some e.status }
      have named : w.id = e.workflowId := Memory.key_of_find? held
      have left : (scene.answered call).store = scene.store.putWorkflow next := by
        change (scene.store.recordLastRunStart ..).2 = _
        simp [Memory.recordLastRunStart, held, next]
      refine chronicle.retold (by rw [left]; rfl) (made_snoc rfl) tidy fun id other found => ?_
      rw [left, Memory.workflow?_putWorkflow] at found
      split at found
      · obtain rfl := Option.some.inj found
        refine .last (named ▸ latest) standing rfl rfl (Or.inr ?_)
        rw [status]
      · next apart =>
          refine chronicle.noted id other found ?_
          rintro ⟨rfl⟩
          exact apart named

end Chronicle

end Harvest

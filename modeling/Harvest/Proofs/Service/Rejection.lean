import Harvest.Proofs.Run.Progress
import Harvest.Proofs.Store.Finished
import Harvest.Service.Supervise

/-! Requests that are rejected. A request that ends with a reason why no execution is made leaves
the store as it was, whichever calls of the store fail. There is one way around this: an execution
that was made stays when the store then fails to note it with its workflow.
-/

namespace Harvest

-----------------------------------------------------------------------------------------
-- Stores that refuse as a whole
-----------------------------------------------------------------------------------------

/-- A store, whatever it holds, is left as it is by the calls that it refuses and by reading
workflows.
-/
class Steady (σ : Type) extends Store σ where
  refused
    : ∀ {call : StoreCall} {store : σ} {reason : StoreError},
        (Store.answer call store).1 = .error reason
        → (Store.answer call store).2 = store
  read : ∀ (id : Uuid) (store : σ), (Store.answer (.getWorkflow id) store).2 = store

/-- A granted call is not refused. -/
theorem not_refused {α σ : Type} {granted : α} {reason : StoreError}
    {answer : Except StoreError α × σ} {store : σ} (same : answer = (.ok granted, store))
    (refused : answer.1 = .error reason)
    : False := by
  rw [same] at refused
  cases refused

instance : Steady Memory where
  read _ _ := rfl
  refused := by
    intro call m reason refused
    cases call with
    | recordLastRunStart w e status time =>
        rcases m.recordLastRunStart_cases w e status time with ⟨_, same⟩ | ⟨_, same⟩
        · exact congrArg Prod.snd same
        · exact (not_refused same refused).elim
    | recordLastRunStatus w e status =>
        rcases m.recordLastRunStatus_cases w e status with ⟨_, same⟩ | ⟨_, same⟩
        · exact congrArg Prod.snd same
        · exact (not_refused same refused).elim
    | updateExecution e =>
        rcases m.updateExecution_cases e with ⟨_, same⟩ | ⟨_, _, _, same⟩
        · exact congrArg Prod.snd same
        · exact (not_refused same refused).elim
    | requestStop id =>
        rcases m.requestStop_cases id with ⟨_, same⟩ | ⟨_, _, _, same⟩
        · exact congrArg Prod.snd same
        · exact (not_refused same refused).elim
    | updatePhase p =>
        rcases m.updatePhase_cases p with ⟨_, same⟩ | ⟨_, _, _, same⟩
        · exact congrArg Prod.snd same
        · exact (not_refused same refused).elim
    | appendLogs id entries =>
        rcases m.appendLogs_cases id entries with ⟨_, same⟩ | same
        · exact congrArg Prod.snd same
        · exact (not_refused same refused).elim
    | createWorkflow w => cases refused
    | createExecution e phases => cases refused
    | setPhaseStatuses id source target => cases refused
    | _ => rfl

namespace Tables

variable {t : Tables} {reason : StoreError}

theorem atomically_refused {change : Except StoreError Tables}
    (refused : (t.atomically change).1 = .error reason)
    : (t.atomically change).2 = t := by
  rcases t.atomically_cases change with ⟨_, same⟩ | ⟨_, _, same⟩
  · exact congrArg Prod.snd same
  · exact (not_refused same refused).elim

theorem changeWorkflow_refused {touched : WorkflowRow → Bool} {change : WorkflowRow → WorkflowRow}
    {refusal : StoreError} (refused : (t.changeWorkflow touched change refusal).1 = .error reason)
    : (t.changeWorkflow touched change refusal).2 = t := by
  rcases t.changeWorkflow_cases touched change refusal with same | ⟨_, same⟩
  · exact congrArg Prod.snd same
  · exact (not_refused same refused).elim

theorem changeExecution_refused {id : Uuid} {change : ExecutionRow → ExecutionRow}
    (refused : (t.changeExecution id change).1 = .error reason)
    : (t.changeExecution id change).2 = t := by
  simp only [changeExecution] at refused ⊢
  split at refused
  · cases refused
  · next unmet => rw [if_neg unmet]

theorem changePhase_refused {id : Uuid} {change : PhaseRow → PhaseRow}
    (refused : (t.changePhase id change).1 = .error reason)
    : (t.changePhase id change).2 = t := by
  simp only [changePhase] at refused ⊢
  split at refused
  · cases refused
  · next unmet => rw [if_neg unmet]

instance : Steady Tables where
  read _ _ := rfl
  refused := by
    intro call t reason refused
    cases call with
    | createWorkflow w => exact atomically_refused refused
    | createExecution e phases => exact atomically_refused refused
    | appendLogs id entries => exact atomically_refused refused
    | recordLastRunStart w e status time => exact changeWorkflow_refused refused
    | recordLastRunStatus w e status => exact changeWorkflow_refused refused
    | updateExecution e => exact changeExecution_refused refused
    | requestStop id => exact changeExecution_refused refused
    | updatePhase p => exact changePhase_refused refused
    | setPhaseStatuses id source target => cases refused
    | _ => rfl

end Tables

-----------------------------------------------------------------------------------------
-- Where requests are made
-----------------------------------------------------------------------------------------

/-- A store that no one else uses, and what has been asked so far. -/
structure Bench (σ : Type) where
  store : σ
  past : List (Happening serviceCalls)

/-- The call is about something other than the store. -/
def ServiceCall.IsBeside : ServiceCall → Prop
  | .run (.store _) => False
  | _ => True

namespace Bench

open Realm Program ServiceM

variable {σ α β ε : Type}

/-- The bench with one more call in its past. -/
def after (bench : Bench σ) (call : ServiceCall) (answer : call.Answer) : Bench σ :=
  { bench with past := bench.past ++ [⟨call, answer⟩] }

/-- What may be answered: the store does what it is asked or fails without doing anything, and other
calls are answered in any way.
-/
inductive Replies [Store σ] : (call : ServiceCall) → Bench σ → call.Answer → Bench σ → Prop where
  | store (call : StoreCall) (bench : Bench σ)
      : Replies (.run (.store call)) bench (Store.answer call bench.store).1
          { bench.after (.run (.store call)) (Store.answer call bench.store).1 with
            store := (Store.answer call bench.store).2 }
  | fault (call : StoreCall) (reason : StoreError) (bench : Bench σ)
      : Replies (.run (.store call)) bench (.error reason)
          (bench.after (.run (.store call)) (.error reason))
  | beside (call : ServiceCall) (beside : call.IsBeside) (answer : call.Answer) (bench : Bench σ)
      : Replies call bench answer (bench.after call answer)

/-- Where requests are made, with no one beside. -/
def realm [Store σ] : Realm serviceCalls (Bench σ) :=
  ⟨Replies, Eq, fun _ => rfl, Eq.trans⟩

/-- Nothing is promised of single calls. -/
def AnyReply (call : ServiceCall) (_ : Bench σ) (_ : call.Answer) (_ : Bench σ) : Prop := True

variable [Steady σ] {bench later : Bench σ}

/-- A call of the store is granted, or it is refused and leaves the store. -/
theorem Replies.store_inv {call : StoreCall} {answer : call.Answer}
    (replies : Replies (.run (.store call)) bench answer later)
    : (∃ result,
        answer = .ok result
        ∧ (Store.answer call bench.store).1 = .ok result
        ∧ later.store = (Store.answer call bench.store).2)
      ∨ ∃ reason,
          answer = .error reason
          ∧ later = bench.after (.run (.store call)) (.error reason) := by
  cases replies with
  | store =>
      cases answered : (Store.answer call bench.store).1 with
      | ok result => exact Or.inl ⟨result, rfl, rfl, rfl⟩
      | error reason =>
          refine Or.inr ⟨reason, rfl, ?_⟩
          rw [Steady.refused answered]
          rfl
  | fault _ reason => exact Or.inr ⟨reason, rfl, rfl⟩
  | beside _ beside => exact beside.elim

theorem Replies.beside_inv {call : ServiceCall} {answer : call.Answer} (beside : call.IsBeside)
    (replies : Replies call bench answer later)
    : later = bench.after call answer := by
  cases replies with
  | beside => rfl
  | _ => exact beside.elim

/-- The store is asked and grants, or refuses, which is the end. -/
theorem safe_asked {wrap : StoreError → ε} {call : StoreCall}
    {next : call.Result → ExceptT ε ServiceM β} {wanted : Except ε β → Bench σ → Prop}
    (refused
      : ∀ reason,
          wanted (.error (wrap reason)) (bench.after (.run (.store call)) (.error reason)))
    (granted
      : ∀ result later,
          (Store.answer call bench.store).1 = .ok result
          → later.store = (Store.answer call bench.store).2
          → realm.Safe AnyReply wanted (ExceptT.run (next result)) later)
    : realm.Safe AnyReply wanted (ExceptT.run (stored wrap call >>= next)) bench := by
  rintro _ rfl answer later replies
  refine ⟨trivial, ?_⟩
  rcases Replies.store_inv replies with ⟨result, rfl, answered, same⟩ | ⟨reason, rfl, rfl⟩
  · exact granted result later answered same
  · rintro _ rfl
    exact refused reason

/-- Parts that ask for other things leave the store, by induction over the part. -/
theorem safe_beside {part : ServiceM α} (only : part.Only ServiceCall.IsBeside)
    : realm.Safe AnyReply (fun _ later => later.store = bench.store) part bench := by
  induction only generalizing bench with
  | done value =>
      rintro _ rfl
      rfl
  | @ask call rest beside _ ih =>
      rintro _ rfl answer later replies
      obtain rfl := Replies.beside_inv beside replies
      have same : (bench.after call answer).store = bench.store := rfl
      exact ⟨trivial, same ▸ ih answer⟩

/-- A part that asks for other things goes first, and the store is as before. -/
theorem safe_lifted {part : ServiceM α} (only : part.Only ServiceCall.IsBeside)
    {next : α → ExceptT ε ServiceM β} {wanted : Except ε β → Bench σ → Prop}
    (rest
      : ∀ value later,
          later.store = bench.store
          → realm.Safe AnyReply wanted (ExceptT.run (next value)) later)
    : realm.Safe AnyReply wanted (ExceptT.run (liftM part >>= next)) bench := by
  rw [except_lift_bind]
  exact (safe_beside only).followed rest

/-- Whatever a program does, nothing need be wanted of it, by induction over the program. -/
theorem safe_any {wanted : α → Bench σ → Prop} (any : ∀ value later, wanted value later)
    (program : ServiceM α)
    : realm.Safe AnyReply wanted program bench := by
  induction program generalizing bench with
  | done value => exact fun later _ => any value later
  | ask call next ih => exact fun before _ answer later _ => ⟨trivial, ih answer⟩

end Bench

-----------------------------------------------------------------------------------------
-- Rejections
-----------------------------------------------------------------------------------------

/-- What is left of a store by a request that is rejected for a reason. -/
inductive Rejected {σ : Type} [Store σ] (store : σ) (reason : TriggerError) (later : Bench σ)
    : Prop where
  /-- All is as before. -/
  | untouched (same : later.store = store)
  /-- An execution was made, but the store refused to note it with its workflow. -/
  | unnoted {execution : Execution} {phases : List PhaseRecord} {refusal : StoreError}
      (told : reason = .store refusal)
      (made : Store.answer (.createExecution execution phases) store = (.ok (), later.store))
      (refused
        : later.past.getLast?
          = some ⟨.run (.store (.recordLastRunStart execution.workflowId execution.id .pending
              execution.createdAt)), .error refusal⟩)

namespace Service

open Realm Program ServiceM Bench

variable {σ : Type} [Steady σ] {bench : Bench σ}

theorem freshId_beside : freshId.Only ServiceCall.IsBeside := .ask trivial .done

theorem now_beside : ServiceM.now.Only ServiceCall.IsBeside := .ask trivial .done

/-- Phase records are made without the store, by induction over the nodes. -/
theorem phaseRecords_beside (catalog : Catalog) (execution : Uuid) (position : Nat)
    (nodes : List (Nat × Node))
    : (phaseRecords catalog execution position nodes).Only ServiceCall.IsBeside := by
  induction nodes generalizing position with
  | nil => exact .done _
  | cons node nodes ih =>
      exact freshId_beside.bind fun id => (ih (position + 1)).bind fun phases => .done _

/-- No execution is left by a request for one that is rejected, unless it could not be noted. -/
theorem safe_rejected (catalog : Catalog) (request : RunRequest) (bench : Bench σ)
    : realm.Safe AnyReply
        (fun result later => ∀ reason, result = .error reason → Rejected bench.store reason later)
        (ExceptT.run (createExecution catalog request)) bench := by
  let wanted (result : Except TriggerError Execution) (later : Bench σ) : Prop :=
    ∀ reason, result = .error reason → Rejected bench.store reason later
  have untouched (reason : TriggerError) (later : Bench σ) (same : later.store = bench.store)
      : wanted (.error reason) later := fun _ _ => .untouched same
  refine safe_asked (fun reason => untouched _ _ rfl) fun workflow read _ same => ?_
  change Workflow at workflow
  replace same : read.store = bench.store := same.trans (Steady.read request.workflow bench.store)
  cases foreign : workflow.userId != request.user with
  | true =>
      rintro _ rfl
      exact untouched _ _ same
  | false =>
      simp only [Bool.false_eq_true, if_false]
      rw [except_bind]
      cases planOf catalog request.definition with
      | error reason =>
          rintro _ rfl
          exact untouched _ _ same
      | ok plan =>
          refine safe_lifted freshId_beside fun id _ same' => ?_
          replace same := same'.trans same
          refine safe_lifted now_beside fun time _ same' => ?_
          replace same := same'.trans same
          refine safe_lifted (phaseRecords_beside ..) fun phases last same' => ?_
          replace same := same'.trans same
          -- Up to here the store is as it was; once the execution is made, one more call can fail.
          let execution := Execution.fresh id workflow.id time request.user request.definition
          refine safe_asked (fun reason => untouched _ _ same) fun _ made granted after => ?_
          have created : Store.answer (.createExecution execution phases) bench.store
              = (.ok (), made.store) := same ▸ Prod.ext granted after.symm
          refine safe_asked (fun refusal reason told => ?_) fun _ later _ _ => ?_
          · cases told
            exact .unnoted rfl created (List.getLast?_concat ..)
          · rintro _ rfl _ ended
            cases ended

/-- A trigger that is rejected is rejected when its execution is to be made. -/
theorem safe_rejected_trigger (settings : RunSettings) (request : RunRequest) (bench : Bench σ)
    : realm.Safe AnyReply
        (fun result later => ∀ reason, result = .error reason → Rejected bench.store reason later)
        (ExceptT.run (trigger settings request)) bench := by
  rw [trigger, except_bind]
  refine (safe_rejected settings.catalog request bench).followed fun result later rejected => ?_
  cases result with
  | error reason =>
      rintro _ rfl _ told
      cases told
      exact rejected reason rfl
  | ok execution =>
      -- What is left to do is to enlist the execution and to spawn its run.
      intro _ _ token _ _
      refine ⟨trivial, ?_⟩
      intro _ _ _ _ _
      refine ⟨trivial, ?_⟩
      rintro _ rfl _ ended
      cases ended

/-- So is one whose run is waited for; the run itself ends in other words. -/
theorem safe_rejected_triggerAndWait (settings : RunSettings) (request : RunRequest)
    (bench : Bench σ)
    : realm.Safe AnyReply
        (fun result later =>
          ∀ reason, result = .error (.trigger reason) → Rejected bench.store reason later)
        (ExceptT.run (triggerAndWait settings request)) bench := by
  rw [triggerAndWait, except_bind, except_adapt, bind_bind]
  refine (safe_rejected settings.catalog request bench).followed fun result later rejected => ?_
  cases result with
  | error reason =>
      rintro _ rfl _ told
      cases told
      exact rejected reason rfl
  | ok execution =>
      change realm.Safe _ _ (ExceptT.run ((run settings execution.id).adapt ServiceError.setup)) _
      rw [except_adapt]
      refine (safe_any (fun _ _ => trivial) _).followed fun result later (_ : True) => ?_
      rintro _ rfl _ told
      cases result <;> cases told

/-- A request for an execution that ends with a reason why none is made, whether or not its run is
started or waited for, leaves the store as it was, whatever the store held and whichever of its
calls failed, but for one case: where it fails to note the execution with its workflow, the
execution is there.
-/
theorem rejected_creates_nothing {settings : RunSettings} {request : RunRequest}
    {before later : Bench σ} {reason : TriggerError}
    (rejected
      : realm.Reaches (ExceptT.run (createExecution settings.catalog request), before)
          (.done (.error reason), later)
        ∨ realm.Reaches (ExceptT.run (trigger settings request), before)
          (.done (.error reason), later)
        ∨ realm.Reaches (ExceptT.run (triggerAndWait settings request), before)
          (.done (.error (.trigger reason)), later))
    : Rejected before.store reason later := by
  rcases rejected with created | triggered | waited
  · exact (safe_rejected settings.catalog request before).ended created reason rfl
  · exact (safe_rejected_trigger settings request before).ended triggered reason rfl
  · exact (safe_rejected_triggerAndWait settings request before).ended waited reason rfl

/-- An execution is there after the store failed to note it with its workflow. -/
theorem rejected_creates_nothing_unnoted
    : ∃ before later : Bench Memory,
        realm.Reaches
            (ExceptT.run (createExecution Run.Lone.settings.catalog Run.Lone.request), before)
            (.done (.error (.store (.database .rowMissing))), later)
        ∧ Rejected before.store (.store (.database .rowMissing)) later
        ∧ later.store ≠ before.store := by
  let before : Bench Memory := ⟨⟨[Run.Lone.workflow], [], [], []⟩, []⟩
  have rejected
      : ∃ later,
          realm.Reaches
              (ExceptT.run (createExecution Run.Lone.settings.catalog Run.Lone.request), before)
              (.done (.error (.store (.database .rowMissing))), later)
          ∧ later.store.executions = [Run.Lone.execution Run.Lone.flow.text] := by
    apply Exists.intro
    apply And.intro
    · refine .reply (.store (.getWorkflow (.ofNat 1)) _) ?_
      change realm.Reaches
        (ExceptT.run (ExceptT.mk (pure (planOf Run.Lone.catalog Run.Lone.flow.text)) >>= _), _) _
      rw [Program.except_bind, Run.Lone.planned]
      refine .reply (.beside (.run .freshId) trivial (.ofNat 2) _) ?_
      refine .reply (.beside (.run (.task .now)) trivial Run.Lone.time _) ?_
      refine .reply (.beside (.run .freshId) trivial (.ofNat 3) _) ?_
      refine .reply (.store (.createExecution (Run.Lone.execution Run.Lone.flow.text)
        [Run.Lone.phase]) _) ?_
      refine .reply (.fault (.recordLastRunStart (.ofNat 1) (.ofNat 2) .pending Run.Lone.time)
        (.database .rowMissing) _) ?_
      exact .refl
    · rfl
  obtain ⟨later, reached, made⟩ := rejected
  refine ⟨before, later, reached, rejected_creates_nothing (.inl reached), ?_⟩
  intro same
  have none : later.store.executions = [] := congrArg Memory.executions same
  rw [made] at none
  cases none

end Service

end Harvest

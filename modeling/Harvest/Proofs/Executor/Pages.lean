import Harvest.Proofs.Executor.Contract
import Harvest.Proofs.Executor.Range

/-! The pages of a pagination. A page that was not read left an error in the log, unless it was
opened and did not show what was waited for; so a pagination that refuses has logged an error unless
all its pages were of that kind.
-/

namespace Harvest

namespace Executor

open TaskM

/-- What reading pages comes to, whether or not one was read: no error and no page that was read
means that all pages missed what was waited for.
-/
structure Reads (work : Workspace) (calls : List (Happening taskCalls)) (read : Bool)
    (left : Workspace) : Prop where
  modest : Modest work calls left
  told : work.Errs left ∨ read = true ↔ ¬ ∀ happening ∈ calls, Misses happening

/-- Reading that only adds to the log is judged by what it adds. -/
theorem reads_of_added {work : Workspace} {calls : List (Happening taskCalls)} {read : Bool}
    {added : Log} (minor : ∀ happening ∈ calls, happening.1.IsMinor)
    (told : Log.hasErrors added = true ∨ read = true ↔ ¬ ∀ happening ∈ calls, Misses happening)
    : Reads work calls read { work with log := work.log ++ added } :=
  ⟨⟨⟨rfl, rfl, added, rfl⟩, minor, rfl⟩, by rw [Workspace.errs_iff rfl, told]⟩

/-- A page is opened, waited for and read, up to the first failure. -/
theorem always_readPage (job : PageJob) (number : Int) (url : String) (work : Workspace)
    : (readPage job number url).Always work fun calls result left =>
        ∃ outcome,
          result = .ok outcome
          ∧ Reads work calls outcome.isOk left
          ∧ ∃ happening ∈ calls, happening.1.IsVisit := by
  unfold readPage
  simp only [always_bind, always_ask, always_info]
  intro start opened
  cases opened with
  | error reason =>
      simp only [always_bind, always_error, always_pure, Workspace.record, List.append_assoc]
      exact fun time => ⟨_, rfl, reads_of_added (by simp [TaskCall.IsMinor])
        (by simp [Log.hasErrors, Misses]), by simp [TaskCall.IsVisit]⟩
  | ok _ =>
      simp only [always_bind, always_ask]
      intro shown
      cases shown with
      | error reason =>
          simp only [always_bind, always_info, always_pure, Workspace.record, List.append_assoc]
          intro time
          refine ⟨_, rfl, reads_of_added (by simp [TaskCall.IsMinor]) ?_,
            by simp [TaskCall.IsVisit]⟩
          refine iff_of_false (by simp [Log.hasErrors, Except.isOk, Except.toBool])
            (not_not.mpr ?_)
          simp only [List.cons_append, List.nil_append, List.forall_mem_cons]
          exact ⟨trivial, rfl, ⟨reason, rfl⟩, trivial, by simp⟩
      | ok _ =>
          simp only [always_bind, always_ask]
          intro read
          cases read with
          | error reason =>
              simp only [always_bind, always_error, always_pure, Workspace.record,
                List.append_assoc]
              exact fun time => ⟨_, rfl, reads_of_added (by simp [TaskCall.IsMinor])
                (by simp [Log.hasErrors, Misses]), by simp [TaskCall.IsVisit]⟩
          | ok found =>
              simp only [always_bind, always_info, Workspace.record, List.append_assoc]
              intro time
              refine always_bind.mpr (always_ask.mpr fun _ => always_pure.mpr ⟨_, rfl, ?_, ?_⟩)
              · exact reads_of_added (by simp [TaskCall.IsMinor])
                  (by simp [Misses, Except.isOk, Except.toBool])
              · simp [TaskCall.IsVisit]

/-- Pages are read one after another, by induction over their numbers. -/
theorem always_readPages (job : PageJob) (address : Int → String) (numbers : List Int)
    (work : Workspace)
    : (readPages job address numbers).Always work fun calls result left =>
        ∃ results,
          result = .ok results
          ∧ Reads work calls (results.any (·.isSuccess)) left
          ∧ (numbers ≠ [] → ∃ happening ∈ calls, happening.1.IsVisit) := by
  induction numbers generalizing work with
  | nil =>
      unfold readPages
      refine always_pure.mpr ⟨[], rfl, ⟨⟨.refl work, by simp, rfl⟩, ?_⟩, absurd rfl⟩
      simp [work.not_errs_self]
  | cons number numbers ih =>
      unfold readPages
      refine always_bind.mpr ((always_readPage job number (address number) work).mono ?_)
      rintro calls _ middle ⟨outcome, rfl, first, happening, here, visits⟩
      refine always_bind.mpr ((ih middle).mono ?_)
      rintro more _ left ⟨results, rfl, rest, _⟩
      refine always_pure.mpr ⟨_, rfl, ⟨?_, ?_⟩, ?_⟩
      · simpa using first.modest.trans rest.modest
      · simp only [Workspace.errs_trans first.modest.extended rest.modest.extended,
          List.append_nil, List.forall_mem_append, not_and_or, List.any_cons, Bool.or_eq_true,
          PageResult.isSuccess, ← first.told, ← rest.told]
        tauto
      · exact fun _ => ⟨happening, List.mem_append_left _ here, visits⟩

/-- A pagination that refuses before it visits a page has logged why. -/
theorem refused_unvisited {work left : Workspace} {calls : List (Happening taskCalls)}
    (modest : Modest work calls left) (errs : work.Errs left)
    (unvisited : ∀ happening ∈ calls, ¬ happening.1.IsVisit)
    : Contract .pagination work calls (.ok false) left := by
  refine ⟨modest.orderly .pagination, fun _ => ⟨_, rfl⟩, fun _ => iff_of_true errs ?_, nofun⟩
  rintro ⟨_, ⟨happening, here, visits⟩, _⟩
  exact unvisited happening here visits

/-- A pagination that has visited its pages succeeds when one of them was read. -/
theorem contract_of_reads {work left : Workspace} {calls : List (Happening taskCalls)}
    {results : List PageResult} {start finish report : String} {time later : Time.Instant}
    (reads : Reads (work.record .info start time) calls (results.any (·.isSuccess)) left)
    (visits : ∃ happening ∈ calls, happening.1.IsVisit)
    : Contract .pagination work (⟨.now, time⟩ :: (calls ++ [⟨.now, later⟩]))
        (.ok ((PageReport.mk results).successes != 0))
        (((left.setOutput Slot.scrapedData (.text report)).setOutput Slot.webPage .browser).record
          .info finish later) := by
  have first : Modest work [⟨.now, time⟩] (work.record .info start time) :=
    (Modest.refl work).record .info start time
  have visited : Modest work (⟨.now, time⟩ :: calls) left := first.trans reads.modest
  have modest := ((visited.setOutput Slot.scrapedData (.text report)).setOutput Slot.webPage
    .browser).record .info finish later
  have succeeds
      : ((PageReport.mk results).successes != 0) = results.any (·.isSuccess) := by
    rw [Bool.eq_iff_iff, bne_iff_ne, PageReport.successes, ← Nat.pos_iff_ne_zero,
      List.countP_pos_iff, List.any_eq_true]
  refine ⟨modest.orderly .pagination, fun _ => ⟨_, rfl⟩, fun fails => ?_, fun _ _ => ?_⟩
  · have unread : results.any (·.isSuccess) = false := by
      rw [← succeeds]
      exact Except.ok.inj fails
    have told : (work.record .info start time).Errs left ↔ ¬ ∀ happening ∈ calls, Misses happening
        := by simpa [unread] using reads.told
    have quiet : ¬ work.Errs (work.record .info start time) := by
      rw [Workspace.errs_recordInfo (.refl work)]
      exact work.not_errs_self
    have barren : Barren (⟨.now, time⟩ :: (calls ++ [⟨.now, later⟩]))
        ↔ ∀ happening ∈ calls, Misses happening := by
      have framed : Barren ([⟨.now, time⟩] ++ calls ++ [⟨.now, later⟩]) ↔ Barren calls :=
        barren_between (by simp [TaskCall.IsVisit, Misses])
      exact framed.trans (and_iff_right visits)
    rw [Workspace.errs_recordInfo ((visited.extended.setOutput _ _).setOutput _ _)]
    change work.Errs left ↔ _
    rw [Workspace.errs_trans first.extended reads.modest.extended, or_iff_right quiet, told,
      barren, and_iff_right rfl]
  · change ∀ name ∈ [Slot.scrapedData, Slot.webPage], _
    simp

/-- A pagination keeps the contract. -/
theorem pagination_contract (settings : TaskSettings) (work : Workspace)
    : (pagination settings).Always work (Contract .pagination work) := by
  refine always_pagination_of (fun _ message time => ?_) fun order of opening begun => ?_
  · exact refused_unvisited ((Modest.refl work).record .error message time)
      (Workspace.Extends.errs (.refl work) message time) (by simp [TaskCall.IsVisit])
  · obtain ⟨_, _, _, _, parsed⟩ := of.range
    refine (always_readPages _ _ _ _).mono ?_
    rintro calls _ left ⟨results, rfl, reads, visits⟩
    exact ⟨results, rfl, fun closing ended =>
      contract_of_reads reads (visits (PageRange.numbers_ne_nil parsed))⟩

end Executor

end Harvest

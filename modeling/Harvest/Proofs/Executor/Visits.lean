import Harvest.Executor.Pagination
import Harvest.Proofs.Executor.Parts
import Harvest.Proofs.Named

/-! What a pagination comes to. It refuses and leaves its outputs as they were, or it visits the
pages of its range one after another and writes a report of what came of each visit.
-/

namespace Harvest

open TaskM

-----------------------------------------------------------------------------------------
-- Visits
-----------------------------------------------------------------------------------------

namespace Executor

/-- The calls of a visit to a page, and what came of it. -/
inductive Visit (job : PageJob) (url : String)
    : List (Happening taskCalls) → Except String (List String) → Prop where
  | unopened {begun ended : Time.Instant} {reason : BrowserError}
      : Visit job url
          [⟨.now, begun⟩, ⟨.browser (.goto job.page url), .error reason⟩, ⟨.now, ended⟩]
          (.error reason.message)
  | unseen {begun ended : Time.Instant} {reason : BrowserError}
      : Visit job url
          [⟨.now, begun⟩, ⟨.browser (.goto job.page url), .ok ()⟩,
            ⟨.browser (.waitFor job.page job.selector job.wait), .error reason⟩, ⟨.now, ended⟩]
          (.error ("Selector not found: " ++ job.selector))
  | unread {begun ended : Time.Instant} {reason : BrowserError}
      : Visit job url
          [⟨.now, begun⟩, ⟨.browser (.goto job.page url), .ok ()⟩,
            ⟨.browser (.waitFor job.page job.selector job.wait), .ok ()⟩,
            ⟨.browser (.extractAll job.page job.selector job.attributeName), .error reason⟩,
            ⟨.now, ended⟩]
          (.error reason.message)
  | read {begun ended : Time.Instant} {found : List String}
      : Visit job url
          [⟨.now, begun⟩, ⟨.browser (.goto job.page url), .ok ()⟩,
            ⟨.browser (.waitFor job.page job.selector job.wait), .ok ()⟩,
            ⟨.browser (.extractAll job.page job.selector job.attributeName), .ok found⟩,
            ⟨.now, ended⟩, ⟨.pause job.delay, ()⟩]
          (.ok found)

/-- The calls of visits to the pages of some numbers, and what came of them. -/
inductive Visits (job : PageJob) (address : Int → String)
    : List Int → List (Happening taskCalls) → List PageResult → Prop where
  | none : Visits job address [] [] []
  | next {number : Int} {numbers : List Int} {calls more : List (Happening taskCalls)}
      {outcome : Except String (List String)} {results : List PageResult}
      (first : Visit job (address number) calls outcome)
      (others : Visits job address numbers more results)
      : Visits job address (number :: numbers) (calls ++ more)
          (⟨number, address number, outcome⟩ :: results)

/-- A page is visited, which leaves the outputs as they were. -/
theorem visit_readPage (job : PageJob) (number : Int) (url : String) (work : Workspace)
    : (readPage job number url).Always work fun calls result left =>
        ∃ outcome, result = .ok outcome ∧ Visit job url calls outcome
          ∧ left.outputs = work.outputs := by
  unfold readPage
  refine always_bind.mpr (always_info.mpr fun begun => always_bind.mpr (always_ask.mpr ?_))
  intro opened
  cases opened with
  | error reason =>
      refine always_bind.mpr (always_error.mpr fun ended => always_pure.mpr ?_)
      exact ⟨_, rfl, .unopened, rfl⟩
  | ok _ =>
  refine always_bind.mpr (always_ask.mpr fun shown => ?_)
  cases shown with
  | error reason =>
      refine always_bind.mpr (always_info.mpr fun ended => always_pure.mpr ?_)
      exact ⟨_, rfl, .unseen, rfl⟩
  | ok _ =>
  refine always_bind.mpr (always_ask.mpr fun read => ?_)
  cases read with
  | error reason =>
      refine always_bind.mpr (always_error.mpr fun ended => always_pure.mpr ?_)
      exact ⟨_, rfl, .unread, rfl⟩
  | ok found =>
      refine always_bind.mpr (always_info.mpr fun ended => ?_)
      refine always_bind.mpr (always_ask.mpr fun _ => always_pure.mpr ?_)
      exact ⟨_, rfl, .read, rfl⟩

/-- Pages are visited in the order of their numbers, by induction over these. -/
theorem visits_readPages (job : PageJob) (address : Int → String) (numbers : List Int)
    (work : Workspace)
    : (readPages job address numbers).Always work fun calls result left =>
        ∃ results, result = .ok results ∧ Visits job address numbers calls results
          ∧ left.outputs = work.outputs := by
  induction numbers generalizing work with
  | nil => exact always_pure.mpr ⟨[], rfl, .none, rfl⟩
  | cons number numbers ih =>
      unfold readPages
      refine always_bind.mpr ((visit_readPage job number (address number) work).mono ?_)
      rintro calls _ middle ⟨outcome, rfl, first, same⟩
      refine always_bind.mpr ((ih middle).mono ?_)
      rintro more _ left ⟨results, rfl, others, unchanged⟩
      refine always_pure.mpr ⟨_, rfl, ?_, unchanged.trans same⟩
      rw [List.append_nil]
      exact .next first others

section

variable {job : PageJob} {address : Int → String}

/-- There is a result for every number, in order. -/
theorem Visits.numbers {numbers : List Int} {calls : List (Happening taskCalls)}
    {results : List PageResult} (visits : Visits job address numbers calls results)
    : results.map (·.number) = numbers := by
  induction visits with
  | none => rfl
  | next _ _ ih => rw [List.map_cons, ih]

/-- A browser always says why it fails. -/
theorem message_ne_empty (reason : BrowserError) : reason.message ≠ "" := by
  have longer {first rest : String} (some : first ≠ "") : first ++ rest ≠ "" :=
    fun none => some (String.append_eq_empty_iff.mp none).1
  cases reason with
  | closed => exact (by decide : "Browser already closed" ≠ "")
  | navigation url reason => exact longer (longer (longer (by decide)))
  | _ => exact longer (by decide)

/-- A visit that fails gives a reason. -/
theorem Visit.reason_ne_empty {url : String} {calls : List (Happening taskCalls)}
    {outcome : Except String (List String)} (visit : Visit job url calls outcome)
    : outcome ≠ .error "" := by
  cases visit with
  | unopened | unread => exact fun none => message_ne_empty _ (Except.error.inj none)
  | unseen =>
      intro none
      exact absurd (String.append_eq_empty_iff.mp (Except.error.inj none)).1 (by decide)
  | read => nofun

theorem Visits.reason_ne_empty {numbers : List Int} {calls : List (Happening taskCalls)}
    {results : List PageResult} (visits : Visits job address numbers calls results)
    : ∀ result ∈ results, result.outcome ≠ .error "" := by
  induction visits with
  | none => nofun
  | next first _ ih => exact List.forall_mem_cons.mpr ⟨first.reason_ne_empty, ih⟩

end

-----------------------------------------------------------------------------------------
-- The ends of a pagination
-----------------------------------------------------------------------------------------

/-- What the inputs and the page of a workspace ask of a pagination. -/
structure PageOrder where
  job : PageJob
  base : String
  sign : String
  range : PageRange

/-- The address of a page. -/
def PageOrder.address (order : PageOrder) (number : Int) : String :=
  order.base ++ order.sign ++ toString number

/-- A workspace asks this of a pagination. -/
structure PageOrder.Of (settings : TaskSettings) (work : Workspace) (order : PageOrder)
    : Prop where
  base : work.inputText? Slot.baseUrl = some order.base
  sign : work.inputText? Slot.paginationSign = some order.sign
  range
    : ∃ first last,
        work.inputText? Slot.startPage = some first
        ∧ work.inputText? Slot.endPage = some last
        ∧ PageRange.parse first last = .ok order.range
  selector : work.inputText? Slot.elementSelector = some order.job.selector
  attributeName : work.inputText? Slot.attributeName = some order.job.attributeName
  page : work.page = some order.job.page
  wait : order.job.wait = settings.pageWait
  delay : order.job.delay = settings.pageDelay

section

variable {settings : TaskSettings} {work : Workspace}

/-- A workspace asks for one thing at most. -/
theorem PageOrder.Of.unique {order other : PageOrder} (of : order.Of settings work)
    (of' : other.Of settings work)
    : order = other := by
  obtain ⟨⟨page, selector, attributeName, wait, delay⟩, base, sign, range⟩ := order
  obtain ⟨first, last, start, finish, parsed⟩ := of.range
  obtain ⟨first', last', start', finish', parsed'⟩ := of'.range
  obtain rfl := Option.some.inj (start.symm.trans start')
  obtain rfl := Option.some.inj (finish.symm.trans finish')
  have job : ⟨page, selector, attributeName, wait, delay⟩ = other.job := by
    rw [PageJob.mk.injEq]
    exact ⟨Option.some.inj (of.page.symm.trans of'.page),
      Option.some.inj (of.selector.symm.trans of'.selector),
      Option.some.inj (of.attributeName.symm.trans of'.attributeName),
      of.wait.trans of'.wait.symm, of.delay.trans of'.delay.symm⟩
  rw [PageOrder.mk.injEq]
  exact ⟨job, Option.some.inj (of.base.symm.trans of'.base),
    Option.some.inj (of.sign.symm.trans of'.sign), Except.ok.inj (parsed.symm.trans parsed')⟩

/-- A pagination that nothing is asked of refuses at once. Another one reads the pages of what is
asked, and writes the report of them.
-/
theorem always_pagination_of {wanted : Wanted Bool}
    (refused
      : (∀ order : PageOrder, ¬ order.Of settings work)
        → ∀ message (time : Time.Instant),
            wanted [⟨.now, time⟩] (.ok false) (work.record .error message time))
    (reported
      : ∀ order : PageOrder,
          order.Of settings work
          → ∀ opening begun,
              (readPages order.job order.address order.range.numbers).Always
                (work.record .info opening begun)
                fun calls result left =>
                  ∃ results,
                    result = .ok results
                    ∧ ∀ closing (ended : Time.Instant),
                        wanted (⟨.now, begun⟩ :: calls ++ [⟨.now, ended⟩])
                          (.ok (PageReport.successes ⟨results⟩ != 0))
                          (((left.setOutput Slot.scrapedData
                              (.text (PageReport.toJson ⟨results⟩).indented)).setOutput
                            Slot.webPage .browser).record .info closing ended))
    : (pagination settings).Always work wanted := by
  have refusal (message : String) (none : ∀ order : PageOrder, ¬ order.Of settings work)
      : (refuse message).Always work wanted :=
    always_refuse.mpr fun time => refused none message time
  have missing (none : ∀ order : PageOrder, ¬ order.Of settings work)
      : pagination.missing.Always work wanted :=
    refusal _ none
  unfold pagination
  rw [always_bind, always_get]
  dsimp only [List.nil_append]
  cases base : work.inputText? Slot.baseUrl with
  | none => exact missing fun order of => nomatch base.symm.trans of.base
  | some base' =>
  cases sign : work.inputText? Slot.paginationSign with
  | none => exact missing fun order of => nomatch sign.symm.trans of.sign
  | some sign' =>
  cases first : work.inputText? Slot.startPage with
  | none =>
      refine missing fun order of => ?_
      obtain ⟨_, _, some, _⟩ := of.range
      exact nomatch first.symm.trans some
  | some first' =>
  cases last : work.inputText? Slot.endPage with
  | none =>
      refine missing fun order of => ?_
      obtain ⟨_, _, _, some, _⟩ := of.range
      exact nomatch last.symm.trans some
  | some last' =>
  cases selector : work.inputText? Slot.elementSelector with
  | none => exact missing fun order of => nomatch selector.symm.trans of.selector
  | some selector' =>
  cases attributeName : work.inputText? Slot.attributeName with
  | none =>
      exact missing fun order of => nomatch attributeName.symm.trans of.attributeName
  | some attributeName' =>
  cases parsed : PageRange.parse first' last' with
  | error reason =>
      simp only [parsed]
      refine refusal reason.message fun order of => ?_
      obtain ⟨_, _, start, finish, range⟩ := of.range
      obtain rfl := Option.some.inj (first.symm.trans start)
      obtain rfl := Option.some.inj (last.symm.trans finish)
      exact nomatch parsed.symm.trans range
  | ok range =>
  simp only [parsed]
  refine always_bind.mpr (always_requirePage.mpr ⟨fun page here => ?_, fun none time => ?_⟩)
  · refine always_bind.mpr (always_info.mpr fun begun => ?_)
    let order : PageOrder :=
      ⟨⟨page, selector', attributeName', settings.pageWait, settings.pageDelay⟩, base', sign',
        range⟩
    have of : order.Of settings work :=
      ⟨base, sign, ⟨first', last', first, last, parsed⟩, selector, attributeName, here, rfl, rfl⟩
    refine always_bind.mpr ((reported order of _ begun).mono ?_)
    rintro calls _ left ⟨results, rfl, ends⟩
    simp only [always_bind, always_outputText, always_passPage, always_info, always_pure]
    exact fun ended => ends _ ended
  · refine always_pure.mpr (refused (fun order of => ?_) _ time)
    exact nomatch none.symm.trans of.page

end

/-- What a pagination comes to. -/
inductive Paged (settings : TaskSettings) (work : Workspace) : Wanted Bool where
  /-- It refuses. -/
  | refused {calls : List (Happening taskCalls)} {left : Workspace}
      (same : left.outputs = work.outputs)
      : Paged settings work calls (.ok false) left
  /-- It reports what came of its visits. -/
  | reported {order : PageOrder} {calls : List (Happening taskCalls)}
      {results : List PageResult} {begun ended : Time.Instant} {left : Workspace}
      (of : order.Of settings work)
      (visits : Visits order.job order.address order.range.numbers calls results)
      (outputs
        : left.outputs
          = Named.put Slot.webPage .browser
              (Named.put Slot.scrapedData (.text (PageReport.toJson ⟨results⟩).indented)
                work.outputs))
      : Paged settings work (⟨.now, begun⟩ :: calls ++ [⟨.now, ended⟩])
          (.ok (PageReport.successes ⟨results⟩ != 0)) left

/-- However its calls are answered, a pagination comes to one of these ends. -/
theorem always_pagination (settings : TaskSettings) (work : Workspace)
    : (pagination settings).Always work (Paged settings work) := by
  refine always_pagination_of (fun _ _ _ => .refused rfl) fun order of opening begun => ?_
  refine (visits_readPages _ _ _ _).mono ?_
  rintro calls _ left ⟨results, rfl, visits, same⟩
  refine ⟨results, rfl, fun closing ended => .reported of visits ?_⟩
  change Named.put _ _ (Named.put _ _ left.outputs) = _
  rw [same]
  rfl

end Executor

end Harvest

import Harvest.Executor.Browsing
import Harvest.Proofs.Executor.Parts
import Mathlib.Data.List.Nodup

/-! What closing a browser comes to. Its open pages are closed in the order in which they are
listed, then the browser itself, up to the first failure; the run gives its handles up only when
everything was closed.
-/

namespace Harvest

open TaskM

namespace Executor

-----------------------------------------------------------------------------------------
-- Pages
-----------------------------------------------------------------------------------------

/-- What is asked about a page that can be dealt with: whether it is closed, and if not to close. -/
def dealtWith (closed : PageId → Bool) (page : PageId) : List (Happening taskCalls) :=
  if closed page then [⟨.browser (.isClosed page), true⟩]
  else [⟨.browser (.isClosed page), false⟩, ⟨.browser (.closePage page), .ok ()⟩]

/-- The calls that close those of some pages that are open, and what came of them: all pages are
dealt with, or those in front of an open one that fails to close.
-/
inductive Sweep (closed : PageId → Bool)
    : List PageId → List (Happening taskCalls) → Except BrowserError Unit → Prop where
  | whole (pages : List PageId) : Sweep closed pages (pages.flatMap (dealtWith closed)) (.ok ())
  | stuck (front : List PageId) {page : PageId} (back : List PageId) (reason : BrowserError)
      (opened : closed page = false)
      : Sweep closed (front ++ page :: back)
          (front.flatMap (dealtWith closed)
            ++ [⟨.browser (.isClosed page), false⟩, ⟨.browser (.closePage page), .error reason⟩])
          (.error reason)

/-- Pages are dealt with as before, whatever is said of another page, which may stand in front. -/
theorem flatMap_dealtWith_cons {pages : List PageId} {page : PageId} (other : page ∉ pages)
    (closed : PageId → Bool) (flag : Bool)
    : (page :: pages).flatMap (dealtWith (Function.update closed page flag))
      = dealtWith (fun _ => flag) page ++ pages.flatMap (dealtWith closed) := by
  have here : dealtWith (Function.update closed page flag) page
      = dealtWith (fun _ => flag) page := by
    rw [dealtWith, dealtWith, Function.update_self]
  have there : pages.flatMap (dealtWith (Function.update closed page flag))
      = pages.flatMap (dealtWith closed) := by
    refine List.flatMap_congr fun next member => ?_
    have apart : next ≠ page := fun same => other (same ▸ member)
    rw [dealtWith, dealtWith, Function.update_of_ne apart]
  rw [List.flatMap_cons, here, there]

/-- Each call about pages that are dealt with is about one of them. -/
theorem mem_flatMap_dealtWith {closed : PageId → Bool} {pages : List PageId}
    {happening : Happening taskCalls}
    : happening ∈ pages.flatMap (dealtWith closed)
      ↔ ∃ page ∈ pages,
          (closed page = true ∧ happening = ⟨.browser (.isClosed page), true⟩)
          ∨ closed page = false
            ∧ (happening = ⟨.browser (.isClosed page), false⟩
              ∨ happening = ⟨.browser (.closePage page), .ok ()⟩) := by
  rw [List.mem_flatMap]
  refine exists_congr fun page => and_congr_right fun _ => ?_
  cases flag : closed page <;> simp [dealtWith, flag]

/-- The pages that were looked at, in order, with whether they were closed. -/
def looks (calls : List (Happening taskCalls)) : List (PageId × Bool) :=
  calls.filterMap fun
    | ⟨.browser (.isClosed page), closed⟩ => some (page, closed)
    | _ => none

/-- The pages that were asked to close, in order. -/
def pageClosings (calls : List (Happening taskCalls)) : List PageId :=
  calls.filterMap fun
    | ⟨.browser (.closePage page), _⟩ => some page
    | _ => none

/-- Why a call failed, if it did. -/
def failureOf : Happening taskCalls → Option BrowserError
  | ⟨.browser (.pages _), .error reason⟩ => some reason
  | ⟨.browser (.closePage _), .error reason⟩ => some reason
  | ⟨.browser (.closeBrowser _), .error reason⟩ => some reason
  | _ => none

/-- The calls came to an outcome: none of them failed, or the last one alone. -/
inductive UpToFailure
    : List (Happening taskCalls) → Except BrowserError Unit → Prop where
  | whole {calls : List (Happening taskCalls)} (fine : ∀ call ∈ calls, failureOf call = none)
      : UpToFailure calls (.ok ())
  | stopped {front : List (Happening taskCalls)} {last : Happening taskCalls}
      {reason : BrowserError} (fine : ∀ call ∈ front, failureOf call = none)
      (failed : failureOf last = some reason)
      : UpToFailure (front ++ [last]) (.error reason)

/-- A call that fails may come alone. -/
theorem UpToFailure.alone {last : Happening taskCalls} {reason : BrowserError}
    (failed : failureOf last = some reason)
    : UpToFailure [last] (.error reason) :=
  List.nil_append [last] ▸ .stopped (List.forall_mem_nil _) failed

/-- Calls that do not fail may come first. -/
theorem UpToFailure.after {calls front : List (Happening taskCalls)}
    {outcome : Except BrowserError Unit} (stops : UpToFailure calls outcome)
    (fine : ∀ call ∈ front, failureOf call = none)
    : UpToFailure (front ++ calls) outcome := by
  cases stops with
  | whole rest => exact .whole fun call member => (List.mem_append.mp member).elim (fine _) (rest _)
  | @stopped middle last reason rest failed =>
      rw [← List.append_assoc]
      exact .stopped (fun call member => (List.mem_append.mp member).elim (fine _) (rest _)) failed

/-- No call about pages that are dealt with fails. -/
theorem failureOf_flatMap_dealtWith (closed : PageId → Bool) (pages : List PageId)
    : ∀ call ∈ pages.flatMap (dealtWith closed), failureOf call = none := by
  intro call member
  obtain ⟨page, _, ⟨_, rfl⟩ | ⟨_, rfl | rfl⟩⟩ := mem_flatMap_dealtWith.mp member <;> rfl

/-- The page was found closed, or it was closed. -/
def Shut (calls : List (Happening taskCalls)) (page : PageId) : Prop :=
  ⟨.browser (.isClosed page), true⟩ ∈ calls
  ∨ ⟨.browser (.closePage page), (.ok () : Except BrowserError Unit)⟩ ∈ calls

section

variable {calls : List (Happening taskCalls)} {page : PageId}

theorem shut_append {more : List (Happening taskCalls)}
    : Shut (calls ++ more) page ↔ Shut calls page ∨ Shut more page := by
  simp only [Shut, List.mem_append]
  exact or_or_or_comm

/-- A list of pages shuts none of them. -/
theorem not_shut_listing {browser : BrowserId} {listing : Except BrowserError (List PageId)}
    : ¬ Shut [⟨.browser (.pages browser), listing⟩] page := by
  rintro (found | closes)
  · cases List.mem_singleton.mp found
  · cases List.mem_singleton.mp closes

/-- An open page that fails to close shuts no page. -/
theorem not_shut_failed {last : PageId} {reason : BrowserError}
    : ¬ Shut [⟨.browser (.isClosed last), false⟩, ⟨.browser (.closePage last), .error reason⟩]
        page := by
  rintro (found | closes)
  · rcases List.mem_cons.mp found with same | late
    · cases same
    · cases List.mem_singleton.mp late
  · rcases List.mem_cons.mp closes with same | late
    · cases same
    · cases List.mem_singleton.mp late

/-- Exactly the pages that are dealt with are shut. -/
theorem shut_flatMap_dealtWith {closed : PageId → Bool} {pages : List PageId}
    : Shut (pages.flatMap (dealtWith closed)) page ↔ page ∈ pages := by
  constructor
  · rintro (member | member) <;>
      obtain ⟨other, among, ⟨_, same⟩ | ⟨_, same | same⟩⟩ := mem_flatMap_dealtWith.mp member <;>
        cases same <;>
          exact among
  · intro member
    cases flag : closed page with
    | true => exact Or.inl (mem_flatMap_dealtWith.mpr ⟨page, member, Or.inl ⟨flag, rfl⟩⟩)
    | false =>
        exact Or.inr (mem_flatMap_dealtWith.mpr ⟨page, member, Or.inr ⟨flag, Or.inr rfl⟩⟩)

end

/-- Pages that are dealt with are looked at, by induction over them. -/
theorem looks_flatMap_dealtWith (closed : PageId → Bool) (pages : List PageId)
    : looks (pages.flatMap (dealtWith closed)) = pages.map fun page => (page, closed page) := by
  induction pages with
  | nil => rfl
  | cons page pages ih =>
      rw [List.flatMap_cons, looks, List.filterMap_append]
      change _ ++ looks (pages.flatMap (dealtWith closed)) = _
      cases flag : closed page <;> simp [dealtWith, flag, ih]

/-- Of pages that are dealt with the open ones are asked to close, by induction over the pages. -/
theorem pageClosings_flatMap_dealtWith (closed : PageId → Bool) (pages : List PageId)
    : pageClosings (pages.flatMap (dealtWith closed)) = pages.filter (!closed ·) := by
  induction pages with
  | nil => rfl
  | cons page pages ih =>
      rw [List.flatMap_cons, pageClosings, List.filterMap_append]
      change _ ++ pageClosings (pages.flatMap (dealtWith closed)) = _
      cases flag : closed page <;> simp [dealtWith, flag, ih]

namespace Sweep

variable {closed : PageId → Bool} {pages : List PageId} {calls : List (Happening taskCalls)}
  {outcome : Except BrowserError Unit} {page : PageId}

/-- Another page may be dealt with first. -/
theorem cons (sweep : Sweep closed pages calls outcome) (other : page ∉ pages) (flag : Bool)
    : Sweep (Function.update closed page flag) (page :: pages)
        (dealtWith (fun _ => flag) page ++ calls) outcome := by
  cases sweep with
  | whole => exact flatMap_dealtWith_cons other closed flag ▸ .whole (page :: pages)
  | @stuck front last back reason opened =>
      have apart : page ∉ front := fun among => other (List.mem_append_left _ among)
      have later : last ≠ page := fun same => other (by simp [same])
      rw [← List.append_assoc, ← flatMap_dealtWith_cons apart closed flag]
      exact .stuck (page :: front) back reason (by rw [Function.update_of_ne later, opened])

/-- All calls of a sweep are about pages. -/
theorem mem_calls (sweep : Sweep closed pages calls outcome) {happening : Happening taskCalls}
    (member : happening ∈ calls)
    : (∃ page flag, happening = ⟨.browser (.isClosed page), flag⟩)
      ∨ ∃ page answer, happening = ⟨.browser (.closePage page), answer⟩ := by
  have dealt {pages : List PageId} (member : happening ∈ pages.flatMap (dealtWith closed))
      : (∃ page flag, happening = ⟨.browser (.isClosed page), flag⟩)
        ∨ ∃ page answer, happening = ⟨.browser (.closePage page), answer⟩ := by
    obtain ⟨page, _, ⟨_, same⟩ | ⟨_, same | same⟩⟩ := mem_flatMap_dealtWith.mp member
    · exact Or.inl ⟨page, _, same⟩
    · exact Or.inl ⟨page, _, same⟩
    · exact Or.inr ⟨page, _, same⟩
  cases sweep with
  | whole => exact dealt member
  | stuck front back reason opened =>
      rcases List.mem_append.mp member with early | late
      · exact dealt early
      · simp only [List.mem_cons, List.not_mem_nil, or_false] at late
        exact late.imp (fun same => ⟨_, _, same⟩) fun same => ⟨_, _, same⟩

/-- A sweep looks at the first of the pages, in their order, and asks the open ones to close. -/
theorem exists_front (sweep : Sweep closed pages calls outcome)
    : ∃ front,
        front <+: pages
        ∧ looks calls = front.map (fun page => (page, closed page))
        ∧ pageClosings calls = front.filter (!closed ·) := by
  cases sweep with
  | whole =>
      exact ⟨pages, List.prefix_rfl, looks_flatMap_dealtWith closed pages,
        pageClosings_flatMap_dealtWith closed pages⟩
  | @stuck front last back reason opened =>
      refine ⟨front ++ [last], ⟨back, by simp⟩, ?_, ?_⟩
      · rw [looks, List.filterMap_append]
        change looks (front.flatMap (dealtWith closed)) ++ _ = _
        simp [looks_flatMap_dealtWith, opened]
      · rw [pageClosings, List.filterMap_append]
        change pageClosings (front.flatMap (dealtWith closed)) ++ _ = _
        simp [pageClosings_flatMap_dealtWith, opened]

/-- A sweep ends at the first call that fails. -/
theorem upToFailure (sweep : Sweep closed pages calls outcome) : UpToFailure calls outcome := by
  have fine := failureOf_flatMap_dealtWith closed
  cases sweep with
  | whole => exact .whole (fine pages)
  | @stuck front last back reason opened =>
      have failed
          : UpToFailure [⟨.browser (.closePage last), .error reason⟩] (.error reason) :=
        .alone rfl
      have looked : failureOf ⟨.browser (.isClosed last), false⟩ = none := rfl
      exact (failed.after (List.forall_mem_singleton.mpr looked)).after (fine front)

/-- A sweep of distinct pages succeeds exactly when all of them are shut. -/
theorem ok_iff (sweep : Sweep closed pages calls outcome) (distinct : pages.Nodup)
    : outcome = .ok () ↔ ∀ page ∈ pages, Shut calls page := by
  cases sweep with
  | whole => exact iff_of_true rfl fun page member => shut_flatMap_dealtWith.mpr member
  | @stuck front last back reason opened =>
      refine iff_of_false nofun fun all => ?_
      have apart : last ∉ front := fun among =>
        (List.nodup_append.mp distinct).2.2 last among last List.mem_cons_self rfl
      rcases shut_append.mp (all last (by simp)) with early | late
      · exact apart (shut_flatMap_dealtWith.mp early)
      · exact not_shut_failed late

end Sweep

/-- Pages are closed one after another, which leaves the workspace as it was; if they are distinct
it is a sweep, by induction over them.
-/
theorem sweep_closePages (pages : List PageId) (work : Workspace)
    : (closePages pages).Always work fun calls result left =>
        ∃ outcome,
          result = .ok outcome
          ∧ left = work
          ∧ (pages.Nodup → ∃ closed, Sweep closed pages calls outcome) := by
  induction pages with
  | nil => exact always_pure.mpr ⟨_, rfl, rfl, fun _ => ⟨fun _ => true, .whole []⟩⟩
  | cons page pages ih =>
      have further (flag : Bool) {calls : List (Happening taskCalls)}
          {outcome : Except BrowserError Unit}
          (others : pages.Nodup → ∃ closed, Sweep closed pages calls outcome)
          (distinct : (page :: pages).Nodup)
          : ∃ closed,
              Sweep closed (page :: pages) (dealtWith (fun _ => flag) page ++ calls) outcome := by
        obtain ⟨other, distinct⟩ := List.nodup_cons.mp distinct
        obtain ⟨closed, sweep⟩ := others distinct
        exact ⟨_, sweep.cons other flag⟩
      unfold closePages
      refine always_bind.mpr (always_ask.mpr fun (closed : Bool) => ?_)
      cases closed with
      | true =>
          refine ih.mono ?_
          rintro calls _ left ⟨outcome, rfl, same, others⟩
          exact ⟨_, rfl, same, further true others⟩
      | false =>
      refine always_bind.mpr (always_ask.mpr fun answer => ?_)
      cases answer with
      | error reason =>
          exact always_pure.mpr
            ⟨_, rfl, rfl, fun _ => ⟨fun _ => false, .stuck [] pages reason rfl⟩⟩
      | ok _ =>
          refine ih.mono ?_
          rintro calls _ left ⟨outcome, rfl, same, others⟩
          exact ⟨_, rfl, same, further false others⟩

-----------------------------------------------------------------------------------------
-- The browser
-----------------------------------------------------------------------------------------

/-- The calls that close a browser of distinct pages and what came of them: its pages are not
listed, or not all of them are dealt with, or it is asked to close at last.
-/
inductive Closure (browser : BrowserId)
    : List (Happening taskCalls) → Except BrowserError Unit → Prop where
  | unlisted (reason : BrowserError)
      : Closure browser [⟨.browser (.pages browser), .error reason⟩] (.error reason)
  | stuck {closed : PageId → Bool} {pages : List PageId} {calls : List (Happening taskCalls)}
      {reason : BrowserError} (distinct : pages.Nodup)
      (sweep : Sweep closed pages calls (.error reason))
      : Closure browser (⟨.browser (.pages browser), .ok pages⟩ :: calls) (.error reason)
  | ended {closed : PageId → Bool} {pages : List PageId} {calls : List (Happening taskCalls)}
      (distinct : pages.Nodup) (sweep : Sweep closed pages calls (.ok ()))
      (answer : Except BrowserError Unit)
      : Closure browser
          (⟨.browser (.pages browser), .ok pages⟩ :: calls
            ++ [⟨.browser (.closeBrowser browser), answer⟩])
          answer

/-- The calls that close a browser: the first of its pages are looked at in their order, those
found open are asked to close, each once, and the browser itself exactly when its pages were listed
and all of them are shut. The first failure is the end.
-/
structure ClosedInTurn (browser : BrowserId) (calls : List (Happening taskCalls))
    (outcome : Except BrowserError Unit) : Prop where
  sequence : Closure browser calls outcome
  stops : UpToFailure calls outcome
  looked
    : ∀ pages,
        ⟨.browser (.pages browser), (.ok pages : Except BrowserError (List PageId))⟩ ∈ calls
        → (looks calls).map (·.1) <+: pages
  opened : pageClosings calls = ((looks calls).filter (!·.2)).map (·.1)
  spared : ∀ page ∈ pageClosings calls, (page, true) ∉ looks calls
  once : (pageClosings calls).Nodup
  ended
    : (∃ answer : Except BrowserError Unit, ⟨.browser (.closeBrowser browser), answer⟩ ∈ calls)
      ↔ ∃ pages,
          ⟨.browser (.pages browser), (.ok pages : Except BrowserError (List PageId))⟩ ∈ calls
          ∧ ∀ page ∈ pages, Shut calls page

/-- No call of a sweep lists pages, so that only those listed before it are. -/
theorem Sweep.eq_of_listed {browser : BrowserId} {closed : PageId → Bool}
    {pages others : List PageId} {calls : List (Happening taskCalls)}
    {outcome : Except BrowserError Unit}
    (sweep : Sweep closed pages calls outcome)
    (listed
      : ⟨.browser (.pages browser), (.ok others : Except BrowserError (List PageId))⟩
          ∈ (⟨.browser (.pages browser), .ok pages⟩ : Happening taskCalls) :: calls)
    : others = pages := by
  rcases List.mem_cons.mp listed with same | among
  · cases same
    rfl
  · obtain ⟨page, flag, same⟩ | ⟨page, answer, same⟩ := sweep.mem_calls among <;> cases same

/-- No call of a sweep closes a browser. -/
theorem Sweep.closeBrowser_notMem {closed : PageId → Bool} {pages : List PageId}
    {calls : List (Happening taskCalls)} {outcome : Except BrowserError Unit}
    (sweep : Sweep closed pages calls outcome) (browser : BrowserId)
    (answer : Except BrowserError Unit)
    : ⟨.browser (.closeBrowser browser), answer⟩ ∉ calls := by
  intro member
  obtain ⟨page, flag, same⟩ | ⟨page, answer, same⟩ := sweep.mem_calls member <;> cases same

namespace Closure

variable {browser : BrowserId} {calls : List (Happening taskCalls)}
  {outcome : Except BrowserError Unit}

/-- The pages are listed at most once, and then the first of them are looked at. -/
theorem exists_front (closure : Closure browser calls outcome)
    : ∃ (closed : PageId → Bool) (front : List PageId),
        front.Nodup
        ∧ looks calls = front.map (fun page => (page, closed page))
        ∧ pageClosings calls = front.filter (!closed ·)
        ∧ ∀ pages,
            ⟨.browser (.pages browser), (.ok pages : Except BrowserError (List PageId))⟩ ∈ calls
            → front <+: pages := by
  cases closure with
  | unlisted reason =>
      refine ⟨fun _ => true, [], .nil, rfl, rfl, fun pages member => List.nil_prefix⟩
  | @stuck closed pages swept reason distinct sweep =>
      obtain ⟨front, first, looked, asked⟩ := sweep.exists_front
      refine ⟨closed, front, distinct.sublist first.sublist, looked, asked, fun others member => ?_⟩
      exact sweep.eq_of_listed member ▸ first
  | @ended closed pages swept distinct sweep answer =>
      obtain ⟨front, first, looked, asked⟩ := sweep.exists_front
      refine ⟨closed, front, distinct.sublist first.sublist, ?_, ?_, fun others member => ?_⟩
      · rw [looks, List.filterMap_append, ← looked]
        exact List.append_nil _
      · rw [pageClosings, List.filterMap_append, ← asked]
        exact List.append_nil _
      · rcases List.mem_append.mp member with early | late
        · exact sweep.eq_of_listed early ▸ first
        · cases List.mem_singleton.mp late

/-- Closing a browser ends at the first call that fails. -/
theorem upToFailure (closure : Closure browser calls outcome) : UpToFailure calls outcome := by
  have listed (pages : List PageId)
      : ∀ call ∈ [(⟨.browser (.pages browser), .ok pages⟩ : Happening taskCalls)],
          failureOf call = none :=
    List.forall_mem_singleton.mpr rfl
  cases closure with
  | unlisted reason => exact .alone rfl
  | @stuck closed pages swept reason distinct sweep => exact sweep.upToFailure.after (listed pages)
  | @ended closed pages swept distinct sweep =>
      have last : UpToFailure [⟨.browser (.closeBrowser browser), outcome⟩] outcome := by
        cases outcome with
        | ok _ => exact .whole (List.forall_mem_singleton.mpr rfl)
        | error reason => exact .alone rfl
      refine last.after fun call member => ?_
      rcases List.mem_cons.mp member with rfl | among
      · rfl
      · cases sweep.upToFailure with
        | whole fine => exact fine call among

/-- The browser is asked to close exactly when its pages were listed and all of them are shut. -/
theorem closeBrowser_iff (closure : Closure browser calls outcome)
    : (∃ answer : Except BrowserError Unit, ⟨.browser (.closeBrowser browser), answer⟩ ∈ calls)
      ↔ ∃ pages,
          ⟨.browser (.pages browser), (.ok pages : Except BrowserError (List PageId))⟩ ∈ calls
          ∧ ∀ page ∈ pages, Shut calls page := by
  cases closure with
  | unlisted reason =>
      refine iff_of_false ?_ ?_
      · rintro ⟨answer, member⟩
        cases List.mem_singleton.mp member
      · rintro ⟨pages, member, _⟩
        cases List.mem_singleton.mp member
  | @stuck closed pages swept reason distinct sweep =>
      refine iff_of_false ?_ ?_
      · rintro ⟨answer, member⟩
        rcases List.mem_cons.mp member with same | among
        · cases same
        · exact sweep.closeBrowser_notMem _ _ among
      · rintro ⟨others, member, shut⟩
        obtain rfl := sweep.eq_of_listed member
        refine nomatch (sweep.ok_iff distinct).mpr fun page listed => ?_
        exact (shut_append.mp (List.singleton_append ▸ shut page listed)).resolve_left
          not_shut_listing
  | @ended closed pages swept distinct sweep =>
      refine iff_of_true ⟨outcome, by simp⟩ ⟨pages, by simp, fun page listed => ?_⟩
      have there := (sweep.ok_iff distinct).mp rfl page listed
      exact shut_append.mpr (Or.inl (List.singleton_append ▸ shut_append.mpr (Or.inr there)))

/-- A browser that is closed up to the first failure is closed in turn. -/
theorem closedInTurn (closure : Closure browser calls outcome)
    : ClosedInTurn browser calls outcome := by
  obtain ⟨closed, front, distinct, looked, asked, first⟩ := closure.exists_front
  refine ⟨closure, closure.upToFailure, ?_, ?_, ?_, ?_, closure.closeBrowser_iff⟩
  · intro pages listed
    simpa [looked, Function.comp_def] using first pages listed
  · simp [looked, asked, List.filter_map, Function.comp_def]
  · intro page member found
    rw [looked] at found
    obtain ⟨_, _, same⟩ := List.mem_map.mp found
    obtain ⟨rfl, shut⟩ := Prod.mk.inj same
    simp [asked, shut] at member
  · exact asked ▸ distinct.filter _

end Closure

/-- Whatever pages were listed were distinct. -/
def ListsDistinct (calls : List (Happening taskCalls)) : Prop :=
  ∀ browser pages,
    ⟨.browser (.pages browser), (.ok pages : Except BrowserError (List PageId))⟩ ∈ calls
    → pages.Nodup

/-- A browser is closed up to the first failure, which leaves the workspace as it was. -/
theorem closure_closeAll (browser : BrowserId) (work : Workspace)
    : (closeAll browser).Always work fun calls result left =>
        ∃ outcome,
          result = .ok outcome
          ∧ left = work
          ∧ (ListsDistinct calls → Closure browser calls outcome) := by
  unfold closeAll
  refine always_bind.mpr (always_ask.mpr fun listing => ?_)
  cases listing with
  | error reason => exact always_pure.mpr ⟨_, rfl, rfl, fun _ => .unlisted reason⟩
  | ok pages =>
      refine always_bind.mpr ((sweep_closePages pages work).mono ?_)
      rintro calls _ left ⟨outcome, rfl, same, swept⟩
      cases outcome with
      | error reason =>
          refine always_pure.mpr ⟨_, rfl, same, fun lists => ?_⟩
          have distinct := lists browser pages (by simp)
          obtain ⟨closed, sweep⟩ := swept distinct
          rw [List.append_nil]
          exact .stuck distinct sweep
      | ok _ =>
          refine always_ask.mpr fun answer => ⟨_, rfl, same, fun lists => ?_⟩
          have distinct := lists browser pages (by simp)
          obtain ⟨closed, sweep⟩ := swept distinct
          exact .ended distinct sweep answer

-----------------------------------------------------------------------------------------
-- The run
-----------------------------------------------------------------------------------------

/-- How closing the browser leaves the workspace: both handles are given up, or both are kept and
the failure is told.
-/
inductive Settles (work : Workspace) (time : Time.Instant)
    : Except BrowserError Unit → Workspace → Prop where
  | cleared
      : Settles work time (.ok ())
          (({ work with browser := none, page := none }.record .info "Browser closed successfully"
            time).setOutput Slot.closureStatus (.text "success"))
  | kept (reason : BrowserError)
      : Settles work time (.error reason)
          ((work.record .error ("Error closing browser: " ++ reason.message) time).setOutput
            Slot.closureStatus (.text ("failed: " ++ reason.message)))

/-- Closing the browser of a run never fails. Without a browser that is told; else its open pages
are closed in turn and then the browser, up to the first failure, and the run keeps both of its
handles exactly if there was one.
-/
theorem closed_up_to_failure (work : Workspace)
    : closeBrowser.Always work fun calls result left =>
        result = .ok true
        ∧ (work.browser = none
          → ∃ time : Time.Instant,
              calls = [⟨.now, time⟩]
              ∧ left
                = (work.record .info "No browser instance found to close" time).setOutput
                    Slot.closureStatus (.text "no_browser_found"))
        ∧ ∀ browser,
            work.browser = some browser
            → ∃ asked outcome, ∃ time : Time.Instant,
                calls = asked ++ [⟨.now, time⟩]
                ∧ Settles work time outcome left
                ∧ (ListsDistinct asked → ClosedInTurn browser asked outcome) := by
  unfold closeBrowser
  refine always_bind.mpr (always_get.mpr ?_)
  dsimp only
  cases held : work.browser with
  | none =>
      refine always_bind.mpr (always_info.mpr fun time => ?_)
      refine always_bind.mpr (always_outputText.mpr (always_pure.mpr ?_))
      exact ⟨rfl, fun _ => ⟨time, rfl, rfl⟩, nofun⟩
  | some browser =>
      refine always_bind.mpr ((closure_closeAll browser work).mono ?_)
      rintro asked _ left ⟨outcome, rfl, rfl, closure⟩
      have inTurn (other : BrowserId) (same : some browser = some other)
          (lists : ListsDistinct asked)
          : ClosedInTurn other asked outcome :=
        Option.some.inj same ▸ (closure lists).closedInTurn
      cases outcome with
      | ok _ =>
          refine always_bind.mpr (always_modify.mpr ?_)
          refine always_bind.mpr (always_info.mpr fun time => ?_)
          refine always_bind.mpr (always_outputText.mpr (always_pure.mpr ?_))
          refine ⟨rfl, nofun, fun other same => ⟨asked, _, time, ?_, ?_, inTurn other same⟩⟩
          · simp
          · exact .cleared
      | error reason =>
          refine always_bind.mpr (always_error.mpr fun time => ?_)
          refine always_bind.mpr (always_outputText.mpr (always_pure.mpr ?_))
          refine ⟨rfl, nofun, fun other same => ⟨asked, _, time, ?_, ?_, inTurn other same⟩⟩
          · simp
          · exact .kept reason

namespace Trio

def browser : BrowserId := ⟨7⟩

def page (number : Nat) : PageId := ⟨browser, number⟩

def work : Workspace where
  node := "close"
  inputs := []
  outputs := []
  browser := some browser
  page := some (page 1)
  log := []

/-- Of three pages the second one is closed already, and the third one fails to close. -/
def asked : List (Happening taskCalls) :=
  [⟨.browser (.pages browser), .ok [page 1, page 2, page 3]⟩,
    ⟨.browser (.isClosed (page 1)), false⟩, ⟨.browser (.closePage (page 1)), .ok ()⟩,
    ⟨.browser (.isClosed (page 2)), true⟩,
    ⟨.browser (.isClosed (page 3)), false⟩,
    ⟨.browser (.closePage (page 3)), .error (.driver "gone")⟩]

theorem listsDistinct : ListsDistinct asked := by
  intro browser pages member
  simp only [asked, List.mem_cons, List.not_mem_nil, or_false] at member
  rcases member with same | same | same | same | same | same <;> cases same
  decide

end Trio

/-- The browser is not asked to close behind the third page, and the run keeps it. -/
theorem closed_up_to_failure_trio
    : ListsDistinct Trio.asked
      ∧ ∃ left outcome, ∃ time : Time.Instant,
          ((ExceptT.run closeBrowser).run Trio.work).Ends (Trio.asked ++ [⟨.now, time⟩])
            (.ok true, left)
          ∧ left.browser = some Trio.browser
          ∧ left.page = some (Trio.page 1)
          ∧ Settles Trio.work time outcome left
          ∧ ClosedInTurn Trio.browser Trio.asked outcome
          ∧ pageClosings Trio.asked = [Trio.page 1, Trio.page 3] := by
  have ends : ((ExceptT.run closeBrowser).run Trio.work).Ends
      (Trio.asked ++ [⟨.now, (⟨0, 0, 0⟩ : Time.Instant)⟩]) _ :=
    .ask (.ask (.ask (.ask (.ask (.ask (.ask (.done _)))))))
  obtain ⟨_, _, held⟩ := closed_up_to_failure Trio.work _ _ ends
  obtain ⟨asked, outcome, time, same, settles, inTurn⟩ := held Trio.browser rfl
  obtain ⟨rfl, last⟩ := List.append_inj' same rfl
  cases last
  exact ⟨Trio.listsDistinct, _, outcome, _, ends, rfl, rfl, settles, inTurn Trio.listsDistinct, rfl⟩

end Executor

end Harvest

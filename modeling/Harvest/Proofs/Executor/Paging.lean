import Harvest.Proofs.Executor.Sheet
import Mathlib.Data.Bool.Count

/-! The report of a pagination against its visits. Every page of the range is visited once, in
ascending order and whatever came of the pages before it, and the report counts and lists what came
of each visit.
-/

namespace Harvest

open TaskM

namespace Executor

-----------------------------------------------------------------------------------------
-- What a page of a report tells
-----------------------------------------------------------------------------------------

/-- The addresses that pages were sent to, in order. -/
def addresses (calls : List (Happening taskCalls)) : List (PageId × String) :=
  calls.filterMap fun
    | ⟨.browser (.goto page url), _⟩ => some (page, url)
    | _ => none

/-- All steps of a visit succeeded: the page was opened, showed what was waited for, and gave a
list.
-/
structure Gives (job : PageJob) (url : String) (calls : List (Happening taskCalls))
    (found : List String) : Prop where
  opened : ⟨.browser (.goto job.page url), (.ok () : Except BrowserError Unit)⟩ ∈ calls
  shown
    : ⟨.browser (.waitFor job.page job.selector job.wait), (.ok () : Except BrowserError Unit)⟩
        ∈ calls
  read
    : ⟨.browser (.extractAll job.page job.selector job.attributeName),
          (.ok found : Except BrowserError (List String))⟩
        ∈ calls

/-- What a page of a report tells of its visit, and whether that is a success. -/
inductive Tells (job : PageJob) (number : Int) (url : String)
    (calls : List (Happening taskCalls)) : Json → Bool → Prop where
  | success {found : List String} (gives : Gives job url calls found)
      : Tells job number url calls
          (.object [("page", .whole number), ("url", .string url), ("status", .string "success"),
            ("results", .array (found.map .string))])
          true
  | failed {reason : String} (barren : ∀ found, ¬ Gives job url calls found)
      (told : reason ≠ "")
      : Tells job number url calls
          (.object [("page", .whole number), ("url", .string url), ("status", .string "failed"),
            ("results", .array []), ("error", .string reason)])
          false

section

variable {job : PageJob} {url : String} {calls : List (Happening taskCalls)}
  {outcome : Except String (List String)}

/-- A visit sends its page to one address. -/
theorem Visit.addresses (visit : Visit job url calls outcome)
    : addresses calls = [(job.page, url)] := by
  cases visit <;> rfl

/-- A visit comes to a list exactly when all its steps succeeded, by cases on where it ended. -/
theorem Visit.gives_iff (visit : Visit job url calls outcome) (found : List String)
    : Gives job url calls found ↔ outcome = .ok found := by
  constructor
  · rintro ⟨opened, shown, read⟩
    cases visit with
    | unopened => nomatch opened
    | unseen => nomatch shown
    | unread => nomatch read
    | read =>
        match read with
        | .tail _ (.tail _ (.tail _ (.head _))) => rfl
  · rintro rfl
    cases visit
    exact ⟨by simp, by simp, by simp⟩

/-- The page of a report tells what came of the visit. -/
theorem Visit.tells (visit : Visit job url calls outcome) (number : Int)
    : Tells job number url calls (PageResult.toJson ⟨number, url, outcome⟩)
        (PageResult.isSuccess ⟨number, url, outcome⟩) := by
  cases outcome with
  | ok found => exact .success ((visit.gives_iff found).mpr rfl)
  | error reason =>
      refine .failed (fun found gives => ?_) fun none => ?_
      · cases (visit.gives_iff found).mp gives
      · exact visit.reason_ne_empty (congrArg Except.error none)

end

-----------------------------------------------------------------------------------------
-- All visits
-----------------------------------------------------------------------------------------

section

variable {job : PageJob} {address : Int → String} {numbers : List Int}
  {calls : List (Happening taskCalls)} {results : List PageResult}

/-- Each page is sent to its address once, by induction over the visits. -/
theorem Visits.addresses (visits : Visits job address numbers calls results)
    : addresses calls = numbers.map fun number => (job.page, address number) := by
  induction visits with
  | none => rfl
  | next first _ ih =>
      rw [List.map_cons, ← ih, Executor.addresses, List.filterMap_append]
      exact congrArg (· ++ _) first.addresses

/-- The calls of all visits fall into those of each visit, by induction over the visits. -/
theorem Visits.parts (visits : Visits job address numbers calls results)
    : ∃ parts : List (List (Happening taskCalls)),
        parts.flatten = calls
        ∧ parts.length = numbers.length
        ∧ ∀ (i : Nat) (number : Int),
            numbers[i]? = some number
            → ∃ part outcome,
                parts[i]? = some part
                ∧ results[i]? = some ⟨number, address number, outcome⟩
                ∧ Visit job (address number) part outcome := by
  induction visits with
  | none => exact ⟨[], rfl, rfl, fun i number here => by simp at here⟩
  | @next number numbers calls more outcome results first others ih =>
      obtain ⟨parts, flat, length, each⟩ := ih
      refine ⟨calls :: parts, by rw [List.flatten_cons, flat],
        by rw [List.length_cons, length, List.length_cons], fun i other here => ?_⟩
      cases i with
      | zero =>
          obtain rfl : number = other := Option.some.inj here
          exact ⟨calls, outcome, rfl, rfl, first⟩
      | succ i => exact each i other here

end

/-- What the node that asks for two pages asks for. -/
def Duo.order : PageOrder := ⟨⟨⟨⟨0⟩, 0⟩, "a", "href", 10000, 200⟩, "/", "?", ⟨1, 2⟩⟩

end Executor

end Harvest

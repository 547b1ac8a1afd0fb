import Harvest.Executor.Basic
import Harvest.Settings

/-! Pagination visits the pages of a range one after another and collects an attribute of
every matching element. A page that fails is reported and does not keep the others from being
visited.
-/

namespace Harvest

/-- Reasons why two texts are no page range. -/
inductive RangeError where
  | notNumbers
  | reversed
  | tooLarge
deriving DecidableEq, Repr

/-- The wording of a reason. -/
def RangeError.message : RangeError → String
  | .notNumbers => "Start Page and End Page must be valid numbers"
  | .reversed => "Start Page cannot be greater than End Page"
  | .tooLarge => "Page range too large. Maximum 50 pages allowed"

/-- A range of page numbers, both ends included. -/
structure PageRange where
  first : Int
  last : Int
deriving DecidableEq, Repr

namespace PageRange

/-- How far the last page may lie behind the first. -/
def widest : Int := 50

/-- A page number that 64 bits hold. -/
def isNumber (n : Int) : Bool := -9223372036854775808 ≤ n && n < 9223372036854775808

/-- The page number that a text spells, blank margins aside. -/
def number? (text : String) : Option Int :=
  (Text.integer? (Text.trim text).toList).filter isNumber

/-- The range between two page numbers in writing. -/
def parse (first last : String) : Except RangeError PageRange :=
  match number? first, number? last with
  | some first, some last =>
      if last < first then throw .reversed
      else if widest < last - first then throw .tooLarge
      else return ⟨first, last⟩
  | _, _ => throw .notNumbers

/-- The number of pages of a range. -/
def size (range : PageRange) : Nat := (range.last - range.first + 1).toNat

/-- The page numbers of a range in ascending order. -/
def numbers (range : PageRange) : List Int :=
  (List.range range.size).map fun (i : Nat) => range.first + i

end PageRange

/-- What came of one page: the attributes that were found, or the reason of the failure. -/
structure PageResult where
  number : Int
  url : String
  outcome : Except String (List String)

namespace PageResult

/-- The page was visited and read. -/
def isSuccess (result : PageResult) : Bool := result.outcome.isOk

/-- A page of a report as a value. -/
def toJson (result : PageResult) : Json :=
  let (status, found, error) := match result.outcome with
    | .ok found => ("success", found, [])
    | .error reason => ("failed", [], [("error", Json.string reason)])
  .object <| [("page", .whole result.number), ("url", .string result.url),
    ("status", .string status), ("results", .array (found.map .string))] ++ error

end PageResult

/-- What came of all pages, in the order of their visits. -/
structure PageReport where
  results : List PageResult

namespace PageReport

/-- The number of pages that were visited and read. -/
def successes (report : PageReport) : Nat := report.results.countP (·.isSuccess)

/-- The number of pages that failed. -/
def failures (report : PageReport) : Nat := report.results.countP (!·.isSuccess)

/-- A report as a value. -/
def toJson (report : PageReport) : Json :=
  .object [("totalPages", .nat report.results.length),
    ("successfulPages", .nat report.successes), ("failedPages", .nat report.failures),
    ("results", .array (report.results.map PageResult.toJson))]

end PageReport

namespace Executor

open TaskM

/-- What a pagination is to do on each page. -/
structure PageJob where
  page : PageId
  selector : String
  attributeName : String
  /-- How long to wait for an element. -/
  wait : Nat
  /-- The pause after a page that was read. -/
  delay : Nat

/-- Visits one page and reads it, or gives the reason why that failed. -/
def readPage (job : PageJob) (number : Int) (url : String)
    : TaskM (Except String (List String)) := do
  info ("Visiting page " ++ toString number ++ ": " ++ url)
  match ← ask (.browser (.goto job.page url)) with
  | .error reason =>
      error ("Failed to process page " ++ toString number ++ ": " ++ reason.message)
      return .error reason.message
  | .ok () =>
      match ← ask (.browser (.waitFor job.page job.selector job.wait)) with
      | .error _ =>
          info ("Selector \"" ++ job.selector ++ "\" not found on page " ++ toString number)
          return .error ("Selector not found: " ++ job.selector)
      | .ok () =>
          match ← ask (.browser (.extractAll job.page job.selector job.attributeName)) with
          | .error reason =>
              error ("Failed to process page " ++ toString number ++ ": " ++ reason.message)
              return .error reason.message
          | .ok found =>
              info ("Page " ++ toString number ++ ": Extracted " ++ toString found.length
                ++ " elements")
              ask (.pause job.delay)
              return .ok found

/-- Visits the pages of some numbers, each at the address that a function gives. -/
def readPages (job : PageJob) (address : Int → String) : List Int → TaskM (List PageResult)
  | [] => return []
  | number :: numbers => do
      let outcome ← readPage job number (address number)
      let results ← readPages job address numbers
      return ⟨number, address number, outcome⟩ :: results

/-- Visits the pages of a range and writes a report; one page that was read is a success. -/
def pagination (settings : TaskSettings) : Executor := do
  let work ← get
  let some base := work.inputText? Slot.baseUrl | missing
  let some sign := work.inputText? Slot.paginationSign | missing
  let some first := work.inputText? Slot.startPage | missing
  let some last := work.inputText? Slot.endPage | missing
  let some selector := work.inputText? Slot.elementSelector | missing
  let some attributeName := work.inputText? Slot.attributeName | missing
  match PageRange.parse first last with
  | .error reason => refuse reason.message
  | .ok range =>
      let some page ← requirePage | return false
      info ("Starting pagination scraping from page " ++ toString range.first ++ " to "
        ++ toString range.last)
      let job := ⟨page, selector, attributeName, settings.pageWait, settings.pageDelay⟩
      let report : PageReport :=
        ⟨← readPages job (fun number => base ++ sign ++ toString number) range.numbers⟩
      outputText Slot.scrapedData report.toJson.indented
      passPage
      info ("Pagination complete. Success: " ++ toString report.successes ++ ", Failed: "
        ++ toString report.failures)
      return report.successes != 0
where
  /-- Refuses a node that lacks an input. -/
  missing : Executor := refuse "Missing required inputs"

end Executor

end Harvest

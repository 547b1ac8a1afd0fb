import Harvest.Proofs.Executor.Exporting
import Harvest.Proofs.Executor.Range
import Harvest.Proofs.Json.Indented
import Harvest.Proofs.Json.Values

/-! The table of a pagination. The report that a pagination writes is read back as it was, and an
export of it has a summary, then page by page a row for every item, and a row for every page that
failed.
-/

namespace Harvest

open TaskM Time

-----------------------------------------------------------------------------------------
-- The rows of a report
-----------------------------------------------------------------------------------------

namespace PageResult

/-- The items that were found on a page. -/
def found (result : PageResult) : List String :=
  match result.outcome with
  | .ok found => found
  | .error _ => []

/-- The row of an item of a page. -/
def itemRow (result : PageResult) (index : Nat) (item : String) : Csv.Row :=
  [("type", "data"), ("totalPages", ""), ("successfulPages", ""), ("failedPages", ""),
    ("timestamp", ""), ("page", toString result.number), ("pageUrl", result.url),
    ("pageStatus", "success"), ("itemIndex", toString index), ("itemValue", item), ("error", "")]

/-- The row of a page that failed for a reason. -/
def errorRow (result : PageResult) (reason : String) : Csv.Row :=
  [("type", "error"), ("totalPages", ""), ("successfulPages", ""), ("failedPages", ""),
    ("timestamp", ""), ("page", toString result.number), ("pageUrl", result.url),
    ("pageStatus", "failed"), ("itemIndex", ""), ("itemValue", ""), ("error", reason)]

/-- The rows of a page. -/
def sheet (result : PageResult) : List Csv.Row :=
  match result.outcome with
  | .ok found => found.zipIdx.map fun (item, index) => result.itemRow (index + 1) item
  | .error reason => [result.errorRow reason]

end PageResult

namespace PageReport

/-- The row that sums a report up. -/
def summaryRow (report : PageReport) (time : Instant) : Csv.Row :=
  [("type", "summary"), ("totalPages", toString report.results.length),
    ("successfulPages", toString report.successes), ("failedPages", toString report.failures),
    ("timestamp", time.textWith "+00:00"), ("page", ""), ("pageUrl", ""), ("pageStatus", ""),
    ("itemIndex", ""), ("itemValue", ""), ("error", "")]

/-- The rows of a report that is exported at a time. -/
def sheet (report : PageReport) (time : Instant) : List Csv.Row :=
  report.summaryRow time :: report.results.flatMap PageResult.sheet

/-- The columns of a report, in the order of their code points. -/
def columns : List String :=
  ["error", "failedPages", "itemIndex", "itemValue", "page", "pageStatus", "pageUrl",
    "successfulPages", "timestamp", "totalPages", "type"]

/-- The number of items that were found on all pages. -/
def items (report : PageReport) : Nat := (report.results.map (·.found.length)).sum

end PageReport

/-- The cell of a whole number is its text. -/
theorem Csv.cellText_whole (n : Int) : cellText (.whole n) = toString n :=
  String.ofList_toList

/-- The rows of a page, as they are made from its value. -/
theorem PageResult.pageRows_toJson (result : PageResult) (told : result.outcome ≠ .error "")
    : Csv.pageRows result.toJson = result.sheet := by
  obtain ⟨number, url, outcome⟩ := result
  cases outcome with
  | error reason =>
      have some : reason.isEmpty = false := by
        rw [Bool.eq_false_iff, ne_eq, String.isEmpty_iff]
        exact fun none => told (congrArg Except.error none)
      have rows : Csv.pageRows (PageResult.toJson ⟨number, url, .error reason⟩)
          = [Csv.reportRow "error"
              [("page", Csv.cellText (.whole number)), ("pageUrl", url), ("pageStatus", "failed"),
                ("error", if reason.isEmpty then "Unknown error" else reason)]] :=
        rfl
      rw [rows, some, Csv.cellText_whole]
      rfl
  | ok found =>
      cases found with
      | nil => rfl
      | cons item items =>
          have rows : Csv.pageRows (PageResult.toJson ⟨number, url, .ok (item :: items)⟩)
              = (((item :: items).map Json.string).zipIdx.map fun item =>
                  Csv.reportRow "data"
                    [("page", Csv.cellText (.whole number)), ("pageUrl", url),
                      ("pageStatus", "success"), ("itemIndex", toString (item.2 + 1)),
                      ("itemValue", Csv.cellText item.1), ("error", "")]) :=
            rfl
          rw [rows, Csv.cellText_whole, List.zipIdx_map, List.map_map]
          rfl

/-- The rows of a report, as they are made from its value. -/
theorem PageReport.rowsOf_toJson (report : PageReport) (time : Instant)
    (told : ∀ result ∈ report.results, result.outcome ≠ .error "")
    : Csv.rowsOf time report.toJson = report.sheet time := by
  have rows : Csv.rowsOf time report.toJson
      = Csv.reportRow "summary"
          [("totalPages", Csv.cellText (.whole report.results.length)),
           ("successfulPages", Csv.cellText (.whole report.successes)),
           ("failedPages", Csv.cellText (.whole report.failures)),
           ("timestamp", time.textWith "+00:00")]
        :: (report.results.map PageResult.toJson).flatMap Csv.pageRows :=
    rfl
  have pages : (report.results.map PageResult.toJson).flatMap Csv.pageRows
      = report.results.flatMap PageResult.sheet := by
    rw [List.flatMap_map]
    exact List.flatMap_congr fun result member => result.pageRows_toJson (told result member)
  rw [rows, pages]
  simp only [Csv.cellText_whole]
  rfl

/-- A page has a row for every item, and one more when it failed. -/
theorem PageResult.length_sheet (result : PageResult)
    : result.sheet.length = result.found.length + if result.isSuccess then 0 else 1 := by
  obtain ⟨number, url, outcome⟩ := result
  cases outcome with
  | error reason => rfl
  | ok found => simp [sheet, PageResult.found, isSuccess, Except.isOk, Except.toBool]

/-- Besides the summary there is a row for every item and for every page that failed, by induction
over the pages.
-/
theorem PageReport.length_sheet (report : PageReport) (time : Instant)
    : (report.sheet time).length = 1 + report.items + report.failures := by
  obtain ⟨results⟩ := report
  simp only [sheet, items, failures, List.length_cons]
  induction results with
  | nil => rfl
  | cons result results ih =>
      rw [List.flatMap_cons, List.length_append, List.map_cons, List.sum_cons, List.countP_cons,
        result.length_sheet]
      cases result.isSuccess <;>
        simp only [Bool.not_true, Bool.not_false, Bool.false_eq_true, if_true, if_false] <;> omega

/-- Every row of a report has the columns of the report. -/
theorem PageReport.mem_row {report : PageReport} {time : Instant} {row : Csv.Row}
    (member : row ∈ report.sheet time) (name : String)
    : name ∈ row.map (·.1) ↔ name ∈ columns := by
  have names : row.map (·.1) = Csv.reportColumns := by
    rcases List.mem_cons.mp member with rfl | later
    · rfl
    · obtain ⟨result, _, here⟩ := List.mem_flatMap.mp later
      unfold PageResult.sheet at here
      split at here
      · obtain ⟨_, _, rfl⟩ := List.mem_map.mp here
        rfl
      · obtain rfl := List.mem_singleton.mp here
        rfl
  have perm : Csv.reportColumns.Perm columns := by decide
  rw [names, perm.mem_iff]

/-- The columns of the rows of a report are those of the report. -/
theorem PageReport.columns_sheet (report : PageReport) (time : Instant)
    : Csv.columns (report.sheet time) = columns := by
  refine Csv.columns_eq (by decide) fun name => ?_
  constructor
  · exact fun here => ⟨_, List.mem_cons_self, (mem_row List.mem_cons_self name).mpr here⟩
  · rintro ⟨row, member, here⟩
    exact (mem_row member name).mp here

-----------------------------------------------------------------------------------------
-- The report in writing
-----------------------------------------------------------------------------------------

namespace PageReport

/-- A report holds no real numbers. -/
theorem reals_toJson (report : PageReport) : report.toJson.reals = [] := by
  obtain ⟨results⟩ := report
  change Json.realsItems (results.map PageResult.toJson) ++ [] = []
  rw [List.append_nil]
  induction results with
  | nil => rfl
  | cons result results ih =>
      obtain ⟨number, url, outcome⟩ := result
      rw [List.map_cons, Json.realsItems, ih, List.append_nil]
      cases outcome with
      | error reason => rfl
      | ok found =>
          change Json.realsItems (found.map .string) ++ [] = []
          rw [Json.realsItems_strings, List.append_nil]

/-- A page with a number of 64 bits fits into a text, on two levels. -/
theorem fits_page {result : PageResult} (number : PageRange.isNumber result.number)
    : result.toJson.Fits 2 := by
  obtain ⟨n, url, outcome⟩ := result
  simp only [PageRange.isNumber, Bool.and_eq_true, decide_eq_true_eq] at number
  have whole : (Json.whole n).Fits 1 := ⟨⟨by omega, by omega⟩, Nat.zero_le _⟩
  have text (s : String) : (Json.string s).Fits 1 := ⟨trivial, Nat.zero_le _⟩
  have list (texts : List String) : (Json.array (texts.map .string)).Fits 1 :=
    Json.fits_strings texts
  refine Json.fits_object_iff.mpr ⟨two_ne_zero, ?_, ?_⟩
  · cases outcome <;> simp
  · cases outcome with
    | error reason => simp [whole, text, show (Json.array []).Fits 1 from list []]
    | ok found => simp [whole, text, list]

/-- A report of few pages with numbers of 64 bits is read back from its indented form. -/
theorem parse_indented {report : PageReport} (few : report.results.length ≤ 51)
    (numbers : ∀ result ∈ report.results, PageRange.isNumber result.number)
    : Json.parse report.toJson.indented = .ok report.toJson := by
  have count {n : Nat} (small : n ≤ report.results.length) : (Json.nat n).Fits 3 :=
    ⟨⟨by omega, by omega⟩, Nat.zero_le _⟩
  have fits : report.toJson.Fits 4 := by
    refine Json.fits_object_iff.mpr ⟨four_ne_zero, by simp, ?_⟩
    have pages : (Json.array (report.results.map PageResult.toJson)).Fits 3 := by
      refine Json.fits_array three_ne_zero ?_
      simpa using fun result member => fits_page (numbers result member)
    simp [count, pages, successes, failures, List.countP_le_length]
  rw [Json.parse_indented fits.1 (fits.2.trans (by decide)), Json.reread_of_exact]
  simp [reals_toJson]

/-- A report is never an empty text. -/
theorem indented_ne_empty (report : PageReport) : report.toJson.indented ≠ "" := by
  intro none
  have chars := congrArg String.toList none
  rw [Json.indented, String.toList_ofList] at chars
  cases chars

/-- A report is an object and no empty list. -/
theorem toJson_ne_nil (report : PageReport) : report.toJson ≠ .array [] := by
  rintro ⟨⟩

end PageReport

-----------------------------------------------------------------------------------------
-- A pagination and an export
-----------------------------------------------------------------------------------------

namespace Executor

/-- Whenever a pagination writes a report, it has visited the pages of its range in order, and an
export of what it wrote asks for one file, which holds the rows of the report: a summary, then page
by page a row for every item, and a row for every page that failed. The row count is one more than
the items and the failed pages.
-/
theorem reports_exported (settings : TaskSettings) {work : Workspace}
    (unwritten : Named.get? Slot.scrapedData work.outputs = none)
    : (pagination settings).Always work fun calls _ left =>
        ∀ value,
          Named.get? Slot.scrapedData left.outputs = some value
          → ∃ order : PageOrder, ∃ report : PageReport, ∃ visited begun ended,
              order.Of settings work
              ∧ calls = ⟨.now, begun⟩ :: visited ++ [⟨.now, ended⟩]
              ∧ Visits order.job order.address order.range.numbers visited report.results
              ∧ ∀ (later : TaskSettings) (next : Workspace),
                  next.input? Slot.dataSource = some value
                  → (csvExport later).Always next fun more result after =>
                      ∃ e : Export, ∃ answer,
                        ⟨.now, e.time⟩ ∈ more
                        ∧ saves more = [((e.name, e.text), answer)]
                        ∧ e.rows = report.sheet e.time
                        ∧ Csv.read? e.text
                          = some (PageReport.columns
                              :: (report.sheet e.time).map (Csv.cells PageReport.columns))
                        ∧ (answer = .ok ()
                          → result = .ok true
                            ∧ Named.get? Slot.rowCount after.outputs
                              = some (.text (toString (1 + report.items + report.failures)))) := by
  refine (always_pagination settings work).mono fun calls result left paged value written => ?_
  cases paged with
  | refused same => exact absurd (same ▸ written) (by simp [unwritten])
  | @reported order visited results begun ended _ of visits outputs =>
  let report : PageReport := ⟨results⟩
  refine ⟨order, report, visited, begun, ended, of, rfl, visits, fun later next input => ?_⟩
  obtain ⟨first, last, _, _, parsed⟩ := of.range
  obtain ⟨few, numbers⟩ := PageRange.numbers_of_parse parsed
  have parsed : Json.parse report.toJson.indented = .ok report.toJson := by
    refine PageReport.parse_indented ?_ fun result member => numbers _ ?_
    · simpa [← visits.numbers] using few
    · rw [← visits.numbers]
      exact List.mem_map_of_mem member
  have text : value = .text report.toJson.indented := by
    rw [outputs, Named.get?_put, if_neg (by decide), Named.get?_put, if_pos rfl] at written
    exact (Option.some.inj written).symm
  have source : next.inputText? Slot.dataSource = some report.toJson.indented := by
    rw [Workspace.inputText?, input, text]
    exact Option.filter_eq_some_iff.mpr ⟨rfl, by simp [report.indented_ne_empty]⟩
  refine (always_exports later source parsed report.toJson_ne_nil).mono ?_
  rintro more _ after ⟨e, answer, data, read, asked, done⟩
  have rows : e.rows = report.sheet e.time := by
    rw [Export.rows, data, report.rowsOf_toJson e.time visits.reason_ne_empty]
  refine ⟨e, answer, read, asked, rows, ?_, fun answered => ?_⟩
  · have filled : ∃ row ∈ report.sheet e.time, row ≠ [] :=
      ⟨report.summaryRow e.time, List.mem_cons_self, List.cons_ne_nil _ _⟩
    rw [Export.text, rows, Csv.read?_render filled, report.columns_sheet e.time]
  · obtain ⟨success, told⟩ := done answered
    exact ⟨success, by rw [told, Export.rowCount_told, rows, report.length_sheet]⟩

namespace Duo

/-- A node that asks for two pages. -/
def work : Workspace where
  node := "n"
  inputs :=
    [(Slot.baseUrl, .text "/"), (Slot.paginationSign, .text "?"), (Slot.startPage, .text "1"),
      (Slot.endPage, .text "2"), (Slot.elementSelector, .text "a"),
      (Slot.attributeName, .text "href")]
  outputs := []
  browser := some ⟨0⟩
  page := some ⟨⟨0⟩, 0⟩
  log := []

def noon : Instant := ⟨0, 43200, 0⟩

/-- Two items are found on the first page, and the second page cannot be opened. -/
def calls : List (Happening taskCalls) :=
  [⟨.now, noon⟩, ⟨.now, noon⟩,
    ⟨.browser (.goto ⟨⟨0⟩, 0⟩ "/?1"), (.ok () : Except BrowserError Unit)⟩,
    ⟨.browser (.waitFor ⟨⟨0⟩, 0⟩ "a" 10000), (.ok () : Except BrowserError Unit)⟩,
    ⟨.browser (.extractAll ⟨⟨0⟩, 0⟩ "a" "href"),
      (.ok ["x", "y"] : Except BrowserError (List String))⟩,
    ⟨.now, noon⟩, ⟨.pause 200, ()⟩, ⟨.now, noon⟩,
    ⟨.browser (.goto ⟨⟨0⟩, 0⟩ "/?2"), (.error .closed : Except BrowserError Unit)⟩,
    ⟨.now, noon⟩, ⟨.now, noon⟩]

/-- With these answers the pagination succeeds and has written something. -/
theorem ends
    : ∃ left value,
        ((ExceptT.run (pagination .usual)).run work).Ends calls (.ok true, left)
        ∧ Named.get? Slot.scrapedData left.outputs = some value :=
  ⟨_, _, .ask (.ask (.ask (.ask (.ask (.ask (.ask (.ask (.ask (.ask (.ask (.done _))))))))))), rfl⟩

end Duo

/-- The report of both pages is written, and an export of it has its rows. -/
theorem reports_exported_duo
    : ∃ left value, ∃ report : PageReport,
        ((ExceptT.run (pagination .usual)).run Duo.work).Ends Duo.calls (.ok true, left)
        ∧ Named.get? Slot.scrapedData left.outputs = some value
        ∧ report.results.map (·.number) = [1, 2]
        ∧ ∀ next : Workspace,
            next.input? Slot.dataSource = some value
            → (csvExport .usual).Always next fun more _ after =>
                ∃ e : Export, ∃ answer,
                  saves more = [((e.name, e.text), answer)]
                  ∧ e.rows = report.sheet e.time
                  ∧ (answer = .ok ()
                    → Named.get? Slot.rowCount after.outputs
                      = some (.text (toString (1 + report.items + report.failures)))) := by
  obtain ⟨left, value, ends, written⟩ := Duo.ends
  obtain ⟨order, report, _, _, _, of, _, visits, exports⟩ :=
    reports_exported .usual rfl _ _ ends value written
  obtain ⟨first, last, one, two, parsed⟩ := of.range
  obtain rfl : "1" = first := Option.some.inj one
  obtain rfl : "2" = last := Option.some.inj two
  have range : ⟨1, 2⟩ = order.range := Except.ok.inj parsed
  refine ⟨left, value, report, ends, written, ?_, fun next input => ?_⟩
  · rw [visits.numbers, ← range]
    rfl
  · refine (exports .usual next input).mono ?_
    rintro more result after ⟨e, answer, _, asked, rows, _, done⟩
    exact ⟨e, answer, asked, rows, fun answered => (done answered).2⟩

end Executor

end Harvest

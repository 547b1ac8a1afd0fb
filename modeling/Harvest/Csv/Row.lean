import Harvest.Json.Printer
import Harvest.Time.Rfc3339

/-! Table rows from data. Nested objects become dotted columns, lists of objects become one row
an object, and a pagination report becomes a summary with a row for every item.
-/

namespace Harvest.Csv

open Time

/-- A row: texts by the names of their columns. -/
abbrev Row := List (String × String)

/-- The text of a value in a cell. -/
def cellText : Json → String
  | .null => ""
  | .string s => s
  | other => other.compact

/-- The text of a member in a cell; the items of a list stand side by side. -/
def leafText : Json → String
  | .array items => ", ".intercalate (items.map cellText)
  | other => cellText other

/-- The column of a member below a column. -/
def columnBelow (column key : String) : String :=
  if column.isEmpty then key else column ++ "." ++ key

mutual

/-- The cells of a value that stands in a column, from left to right. -/
def leaves (column : String) : Json → List (String × String)
  | .object members => memberLeaves column members
  | other => [(column, leafText other)]

/-- The cells of members that stand below a column. -/
def memberLeaves (column : String) : List (String × Json) → List (String × String)
  | [] => []
  | (key, value) :: members =>
      leaves (columnBelow column key) value ++ memberLeaves column members

end

/-- The row of an object; of two cells in one column the later one counts. -/
def flatten (members : Json.Members) : Row := Named.collect (memberLeaves "" members)

/-- The columns of a pagination report. -/
def reportColumns : List String :=
  ["type", "totalPages", "successfulPages", "failedPages", "timestamp", "page", "pageUrl",
    "pageStatus", "itemIndex", "itemValue", "error"]

/-- A row of a pagination report with some of its cells filled. -/
def reportRow (kind : String) (cells : List (String × String)) : Row :=
  (("type", kind) :: cells).foldl (fun row (column, text) => Named.put column text row)
    (reportColumns.map fun column => (column, ""))

/-- The text of a member in a cell, empty when there is none. -/
def memberText (value : Json) (name : String) : String :=
  ((value.member? name).map cellText).getD ""

/-- The cells that say which page a row is about. -/
def pageCells (page : Json) : List (String × String) :=
  [("page", memberText page "page"), ("pageUrl", memberText page "url"),
    ("pageStatus", memberText page "status")]

/-- The rows of one page: one an item, or one for a page that failed without any. -/
def pageRows (page : Json) : List Row :=
  let items := ((page.member? "results").bind Json.asArray?).getD []
  let error := memberText page "error"
  if !items.isEmpty then
    items.zipIdx.map fun (item, index) => reportRow "data" (pageCells page ++
      [("itemIndex", toString (index + 1)), ("itemValue", cellText item), ("error", error)])
  else if memberText page "status" == "failed" then
    [reportRow "error" (pageCells page ++
      [("error", if error.isEmpty then "Unknown error" else error)])]
  else []

/-- The rows of a pagination report that is exported at a time. -/
def reportRows (report : Json) (pages : List Json) (time : Instant) : List Row :=
  reportRow "summary"
      [("totalPages", memberText report "totalPages"),
       ("successfulPages", memberText report "successfulPages"),
       ("failedPages", memberText report "failedPages"),
       ("timestamp", time.textWith "+00:00")]
    :: pages.flatMap pageRows

/-- The data is a list that starts with an object. -/
def startsWithObject : List Json → Bool
  | .object _ :: _ => true
  | _ => false

/-- The row of an item of a list that starts with an object. -/
def itemRow : Json → Row
  | .object members => flatten members
  | other => [("value", cellText other)]

/-- The data is a pagination report, with these pages. -/
def reportPages? (data : Json) : Option (List Json) := (data.member? "results").bind Json.asArray?

/-- The rows of data that is exported at a time. -/
def rowsOf (time : Instant) : Json → List Row
  | .array items =>
      if startsWithObject items then items.map itemRow
      else items.zipIdx.map fun (item, index) =>
        [("index", toString (index + 1)), ("value", cellText item)]
  | .object members =>
      match reportPages? (.object members) with
      | some pages => reportRows (.object members) pages time
      | none => [flatten members]
  | other => [[("value", cellText other)]]

end Harvest.Csv

import Harvest.Csv.Row

/-! The written form of tables: a line with the names of all columns in order, then one line a
row. A cell is quoted when it holds a comma, a quote or a line break.
-/

namespace Harvest.Csv

/-- A character that makes a cell need quotes. -/
def isSpecial (c : Char) : Bool := c == ',' || c == '"' || c == '\n' || c == '\r'

/-- Characters with every quote written twice. -/
def doubled : List Char → List Char
  | [] => []
  | c :: cs => if c == '"' then '"' :: '"' :: doubled cs else c :: doubled cs

/-- A cell in its written form. -/
def field (text : String) : List Char :=
  let cs := text.toList
  if cs.any isSpecial then '"' :: doubled cs ++ ['"'] else cs

/-- A line of cells. -/
def line (cells : List String) : List Char := [','].intercalate (cells.map field)

/-- The names of all columns in the order of their code points. -/
def columns (rows : List Row) : List String :=
  ((rows.flatMap fun row => row.map (·.1)).mergeSort fun a b => !Text.before b a).eraseReps

/-- The cells of a row under given columns, empty where it has none. -/
def cells (columns : List String) (row : Row) : List String :=
  columns.map fun column => (Named.get? column row).getD ""

/-- The table of some rows: the names of the columns, then the cells of each row. -/
def table (rows : List Row) : List (List String) :=
  let names := columns rows
  names :: rows.map (cells names)

/-- The written form of a table of rows. -/
def render (rows : List Row) : String :=
  String.ofList (['\n'].intercalate ((table rows).map line))

end Harvest.Csv

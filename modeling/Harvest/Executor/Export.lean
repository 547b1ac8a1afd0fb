import Harvest.Csv.Table
import Harvest.Executor.Basic
import Harvest.Settings

/-! The export of data as a table. The file name keeps the letters, digits, hyphens and
underscores of the wanted name and ends with the time of the export.
-/

namespace Harvest.Executor

open TaskM Time

/-- A character that a file name keeps. -/
def isNameChar (c : Char) : Bool := c.isAlphanum || c == '-' || c == '_'

/-- The beginning of the name of an export file. -/
def fileStem (wanted : Option String) : String :=
  match (wanted.map Text.trim).filter (!·.isEmpty) with
  | some name => name.map fun c => if isNameChar c then c else '_'
  | none => "scraped-data"

/-- The name of the file of an export at a time. -/
def fileName (wanted : Option String) (time : Instant) : String :=
  fileStem wanted ++ "-" ++ time.fileText ++ ".csv"

/-- Exports the data on an input as a table. -/
def csvExport (settings : TaskSettings) : Executor := do
  let some source ← inputText? Slot.dataSource | refuse "Data Source is required"
  match Json.parse source with
  | .error reason => refuse ("Failed to parse JSON data: " ++ reason.message)
  | .ok data =>
      info "Starting CSV export..."
      let rows := Csv.rowsOf (← ask .now) data
      if rows.isEmpty then refuse "No data to export"
      else
        let name := fileName (← inputText? Slot.fileName) (← ask .now)
        match ← ask (.save name (Csv.render rows)) with
        | .error reason => refuse ("CSV export failed: " ++ reason.message)
        | .ok () =>
            outputText Slot.downloadUrl (Text.trimSlashes settings.downloadBase ++ "/" ++ name)
            outputText Slot.rowCount (toString rows.length)
            info ("CSV exported successfully: " ++ name ++ " (" ++ toString rows.length
              ++ " rows)")
            return true

end Harvest.Executor

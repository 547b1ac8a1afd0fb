import Harvest.Executor.Browsing
import Harvest.Executor.Export
import Harvest.Executor.Extraction
import Harvest.Executor.Pagination
import Harvest.Executor.Script

/-! The standard registry: one executor for every task type. -/

namespace Harvest.Registry

/-- The executor of each task type. -/
def standard (settings : TaskSettings) : Registry
  | .launchBrowser => some Executor.launchBrowser
  | .closeBrowser => some Executor.closeBrowser
  | .pageToHtml => some Executor.pageToHtml
  | .fillInput => some Executor.fillInput
  | .extractText => some Executor.extractText
  | .extractMultiple => some Executor.extractMultiple
  | .navigateUrl => some Executor.navigateUrl
  | .pagination => some (Executor.pagination settings)
  | .csvExport => some (Executor.csvExport settings)
  | .customScript => some (Executor.customScript settings)

end Harvest.Registry

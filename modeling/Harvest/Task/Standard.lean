import Harvest.Task.Basic
import Harvest.Task.Slot

/-! The standard catalog: the tasks of browser automation with their slots and credits. -/

namespace Harvest

namespace TaskParam

/-- An optional parameter without default. -/
def plain (name : String) (kind : ParamKind) : TaskParam :=
  ⟨name, kind, false, none, none⟩

/-- The same parameter, required. -/
def needed (p : TaskParam) : TaskParam := { p with required := true }

/-- The same parameter with a default text. -/
def withDefault (p : TaskParam) (text : String) : TaskParam :=
  { p with default := some (.string text) }

/-- The same parameter with a hint for the person who fills it in. -/
def withHelper (p : TaskParam) (text : String) : TaskParam :=
  { p with helperText := some text }

/-- A text parameter. -/
def text (name : String) : TaskParam := plain name .string

/-- The shared browser page. -/
def webPage : TaskParam := plain Slot.webPage .browser

end TaskParam

namespace Catalog

open TaskParam

/-- The definitions of the standard catalog. -/
def standardDefinitions : List TaskDefinition :=
  [{ taskType := .launchBrowser
     label := "Launch browser"
     isEntryPoint := true
     credits := 5
     inputs := [(text Slot.websiteUrl).needed.withHelper "eg: https://www.google.com"]
     outputs := [webPage] },
   { taskType := .navigateUrl
     label := "Navigate Url"
     isEntryPoint := false
     credits := 2
     inputs := [webPage.needed, (text Slot.url).needed]
     outputs := [webPage] },
   { taskType := .pageToHtml
     label := "Get html from page"
     isEntryPoint := false
     credits := 2
     inputs := [webPage.needed]
     outputs := [text Slot.html, webPage] },
   { taskType := .fillInput
     label := "Fill input"
     isEntryPoint := false
     credits := 1
     inputs := [webPage.needed, (text Slot.selector).needed, (text Slot.value).needed]
     outputs := [webPage] },
   { taskType := .extractText
     label := "Get text from HTML"
     isEntryPoint := false
     credits := 2
     inputs := [(text Slot.html).needed, (text Slot.selector).needed]
     outputs := [text Slot.extractedText] },
   { taskType := .extractMultiple
     label := "Extract multiple elements from HTML"
     isEntryPoint := false
     credits := 3
     inputs :=
       [(text Slot.html).needed,
        (plain Slot.fields .array).needed.withHelper "Define multiple elements to extract"]
     outputs := [text Slot.extractedData] },
   { taskType := .pagination
     label := "Pagination Scraper"
     isEntryPoint := false
     credits := 5
     inputs :=
       [webPage.needed,
        (text Slot.baseUrl).needed.withHelper
          "The base URL for pagination (e.g., https://example.com/posts)",
        ((text Slot.paginationSign).needed.withDefault "?page=").withHelper
          "Pagination parameter (e.g., ?page=, &p=, #page=)",
        (text Slot.startPage).needed.withDefault "1",
        (text Slot.endPage).needed.withDefault "5",
        (text Slot.elementSelector).needed.withHelper
          "CSS selector for elements to extract from each page",
        ((text Slot.attributeName).needed.withDefault "href").withHelper
          "Attribute to extract (e.g., href, textContent, src)"]
     outputs := [text Slot.scrapedData, webPage] },
   { taskType := .csvExport
     label := "Export to CSV"
     isEntryPoint := false
     credits := 1
     inputs :=
       [(text Slot.dataSource).needed.withHelper
          "JSON data from previous node to export as CSV",
        (text Slot.fileName).withDefault ""]
     outputs := [text Slot.downloadUrl, text Slot.rowCount] },
   { taskType := .customScript
     label := "Custom JavaScript"
     isEntryPoint := false
     credits := 3
     inputs :=
       [(text Slot.scriptCode).needed.withHelper "Use 'setResult(value)' to output data.",
        webPage,
        (text Slot.inputData).withHelper "Accessible as 'inputData' inside the script"]
     outputs := [text Slot.result, webPage] },
   { taskType := .closeBrowser
     label := "Close Browser"
     isEntryPoint := false
     credits := 1
     inputs := [webPage.needed]
     outputs := [text Slot.closureStatus] }]

/-- The standard catalog. -/
def standard : Catalog := ofDefinitions standardDefinitions

end Catalog

end Harvest

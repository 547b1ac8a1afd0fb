/-! The names of the inputs and outputs in the standard catalog. -/

namespace Harvest.Slot

/-- The shared browser page. -/
def webPage : String := "Web Page"

/-- Where a launched browser starts. -/
def websiteUrl : String := "Website Url"

/-- Where a page is sent. -/
def url : String := "URL"

/-- The source of a document. -/
def html : String := "Html"

/-- The selector of one element. -/
def selector : String := "Selector"

/-- What is typed into an element. -/
def value : String := "Value"

/-- The text of one element. -/
def extractedText : String := "Extracted Text"

/-- The named selectors of several elements. -/
def fields : String := "Fields"

/-- The texts of several elements. -/
def extractedData : String := "Extracted Data"

/-- The address that page numbers are added to. -/
def baseUrl : String := "Base URL"

/-- What stands between the address and the page number. -/
def paginationSign : String := "Pagination Sign"

/-- The first page number. -/
def startPage : String := "Start Page"

/-- The last page number. -/
def endPage : String := "End Page"

/-- The selector of the elements on each page. -/
def elementSelector : String := "Element Selector"

/-- The attribute read from each element. -/
def attributeName : String := "Attribute to Extract"

/-- The report over all pages. -/
def scrapedData : String := "Scraped Data"

/-- The data of a table. -/
def dataSource : String := "Data Source"

/-- The wanted name of an export file. -/
def fileName : String := "File Name"

/-- Where an export file can be fetched. -/
def downloadUrl : String := "Download URL"

/-- The number of rows of an export. -/
def rowCount : String := "Row Count"

/-- The code of a script. -/
def scriptCode : String := "JavaScript Code"

/-- What a script gets to see. -/
def inputData : String := "Input Data"

/-- What a script gives back. -/
def result : String := "Result"

/-- How the closing of a browser went. -/
def closureStatus : String := "Closure Status"

end Harvest.Slot

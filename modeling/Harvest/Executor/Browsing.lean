import Harvest.Executor.Basic

/-! The tasks that only steer the browser of the run: launching it, moving its page, reading
and filling the page, and closing everything again.
-/

namespace Harvest.Executor

open TaskM

/-- Launches a browser and opens its first page at an address. -/
def launchBrowser : Executor := do
  let some url ← requireText Slot.websiteUrl | return false
  let browser ← orHalt (← ask (.browser .launch))
  modify fun work => { work with browser := some browser }
  info "Browser started successfully"
  let page ← orHalt (← ask (.browser (.newPage browser)))
  modify fun work => { work with page := some page }
  orHalt (← ask (.browser (.goto page url)))
  info ("Opened page at: " ++ url)
  passPage
  return true

/-- Sends the page of the run to an address. -/
def navigateUrl : Executor := do
  let some url ← requireText Slot.url | return false
  let some page ← requirePage | return false
  orHalt (← ask (.browser (.goto page url)))
  info ("visited " ++ url)
  passPage
  return true

/-- Reads the source of the page. -/
def pageToHtml : Executor := do
  let some page ← requirePage | return false
  let html ← orHalt (← ask (.browser (.content page)))
  outputText Slot.html html
  passPage
  return true

/-- Types a text into an element of the page. -/
def fillInput : Executor := do
  let some selector ← requireText Slot.selector | return false
  let some value ← requireText Slot.value | return false
  let some page ← requirePage | return false
  orHalt (← ask (.browser (.typeInto page selector value)))
  passPage
  return true

/-- Closes those of some pages that are open, up to the first that fails to close. -/
def closePages : List PageId → TaskM (Except BrowserError Unit)
  | [] => return .ok ()
  | page :: pages => do
      let closed : Bool ← ask (.browser (.isClosed page))
      if closed then closePages pages
      else
        match ← ask (.browser (.closePage page)) with
        | .ok () => closePages pages
        | .error reason => return .error reason

/-- Closes the open pages of a browser and then the browser, up to the first failure. -/
def closeAll (browser : BrowserId) : TaskM (Except BrowserError Unit) := do
  match ← ask (.browser (.pages browser)) with
  | .error reason => return .error reason
  | .ok pages =>
      match ← closePages pages with
      | .error reason => return .error reason
      | .ok () => ask (.browser (.closeBrowser browser))

/-- Closes the browser of the run. How that went is told on an output; the task never fails. -/
def closeBrowser : Executor := do
  match (← get).browser with
  | none =>
      info "No browser instance found to close"
      outputText Slot.closureStatus "no_browser_found"
  | some browser =>
      match ← closeAll browser with
      | .ok () =>
          modify fun work => { work with browser := none, page := none }
          info "Browser closed successfully"
          outputText Slot.closureStatus "success"
      | .error reason =>
          error ("Error closing browser: " ++ reason.message)
          outputText Slot.closureStatus ("failed: " ++ reason.message)
  return true

end Harvest.Executor

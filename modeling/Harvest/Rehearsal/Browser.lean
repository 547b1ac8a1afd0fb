import Harvest.Browser.Basic

/-! A browser that follows a script. Pages show what the script says of their address, and every
call may fail as the script wants.
-/

namespace Harvest.Rehearsal

/-- What a page does. -/
structure PageScript where
  html : String
  htmlByUrl : List (String × String)
  gotoErrors : List (String × BrowserError)
  contentError : Option BrowserError
  typeErrors : List (String × BrowserError)
  /-- The addresses at which no element is found. -/
  missingOn : List String
  extracted : List String
  extractedByUrl : List (String × List String)
  extractErrors : List (String × BrowserError)
  evaluated : Json
  evaluateError : Option BrowserError
  /-- How long a script takes in milliseconds. -/
  evaluateDelay : Nat
  closeError : Option BrowserError
  closed : Bool
deriving Inhabited

/-- A page on which everything succeeds and nothing is found. -/
def PageScript.blank : PageScript :=
  ⟨"", [], [], none, [], [], [], [], [], .null, none, 0, none, false⟩

/-- What a browser does. -/
structure BrowserScript where
  launchError : Option BrowserError
  newPageError : Option BrowserError
  pagesError : Option BrowserError
  closeError : Option BrowserError
  /-- What every new page does. -/
  page : PageScript
  /-- The pages that a launched browser has from the start. -/
  background : List PageScript
deriving Inhabited

/-- A browser on which everything succeeds. -/
def BrowserScript.blank : BrowserScript := ⟨none, none, none, none, .blank, []⟩

/-- A page: its script, the address it shows and whether it was closed. -/
structure PageState where
  script : PageScript
  url : String
  closed : Bool
deriving Inhabited

/-- The page of a script before it is sent anywhere. -/
def PageState.ofScript (script : PageScript) : PageState := ⟨script, "", script.closed⟩

/-- The launched browsers, each with its pages in order. -/
structure Browsers where
  script : BrowserScript
  pages : List (List PageState)
deriving Inhabited

/-- Fails with an error if there is one. -/
def failing {α : Type} (fault : Option BrowserError) (value : α) : Except BrowserError α :=
  match fault with
  | some reason => .error reason
  | none => .ok value

namespace Browsers

/-- The browsers before any is launched. -/
def ofScript (script : BrowserScript) : Browsers := ⟨script, []⟩

/-- The pages of a browser. -/
def pagesOf (bs : Browsers) (browser : BrowserId) : List PageState :=
  (bs.pages[browser.number]?).getD []

/-- A page; one that is not there is a page of the script. -/
def page (bs : Browsers) (id : PageId) : PageState :=
  ((bs.pagesOf id.browser)[id.number - 1]?).getD (.ofScript bs.script.page)

/-- The browsers with a page changed. -/
def setPage (bs : Browsers) (id : PageId) (change : PageState → PageState) : Browsers :=
  { bs with pages := bs.pages.modify id.browser.number fun pages =>
      pages.modify (id.number - 1) change }

/-- One more browser with the pages it has from the start. -/
def launch (bs : Browsers) : BrowserId × Browsers :=
  (⟨bs.pages.length⟩,
    { bs with pages := bs.pages ++ [bs.script.background.map PageState.ofScript] })

/-- One more page of a browser. -/
def addPage (bs : Browsers) (browser : BrowserId) : PageId × Browsers :=
  (⟨browser, (bs.pagesOf browser).length + 1⟩,
    { bs with pages := bs.pages.modify browser.number fun pages =>
        pages ++ [PageState.ofScript bs.script.page] })

/-- How long the answer to a call takes. -/
def delay (bs : Browsers) : BrowserCall → Nat
  | .evaluate id _ limit => min (bs.page id).script.evaluateDelay limit
  | _ => 0

/-- The answer to a call and the browsers after it. -/
def answer (bs : Browsers) : (call : BrowserCall) → call.Answer × Browsers
  | .launch =>
      match bs.script.launchError with
      | some reason => (.error reason, bs)
      | none =>
          let (id, bs) := bs.launch
          (.ok id, bs)
  | .newPage browser =>
      match bs.script.newPageError with
      | some reason => (.error reason, bs)
      | none =>
          let (id, bs) := bs.addPage browser
          (.ok id, bs)
  | .pages browser =>
      (failing bs.script.pagesError ((List.range (bs.pagesOf browser).length).map fun i =>
        ⟨browser, i + 1⟩), bs)
  | .closeBrowser _ => (failing bs.script.closeError (), bs)
  | .goto id url =>
      match Named.get? url (bs.page id).script.gotoErrors with
      | some reason => (.error reason, bs)
      | none => (.ok (), bs.setPage id fun page => { page with url := url })
  | .content id =>
      let page := bs.page id
      (failing page.script.contentError
        ((Named.get? page.url page.script.htmlByUrl).getD page.script.html), bs)
  | .typeInto id selector _ =>
      (failing (Named.get? selector (bs.page id).script.typeErrors) (), bs)
  | .waitFor id selector _ =>
      let page := bs.page id
      (failing (if page.script.missingOn.contains page.url then some (.elementNotFound selector)
        else none) (), bs)
  | .extractAll id _ _ =>
      let page := bs.page id
      (failing (Named.get? page.url page.script.extractErrors)
        ((Named.get? page.url page.script.extractedByUrl).getD page.script.extracted), bs)
  | .evaluate id _ limit =>
      let page := (bs.page id).script
      if limit < page.evaluateDelay then (none, bs)
      else (some (failing page.evaluateError page.evaluated), bs)
  | .closePage id =>
      match (bs.page id).script.closeError with
      | some reason => (.error reason, bs)
      | none => (.ok (), bs.setPage id fun page => { page with closed := true })
  | .isClosed id => ((bs.page id).closed, bs)

end Browsers

end Harvest.Rehearsal

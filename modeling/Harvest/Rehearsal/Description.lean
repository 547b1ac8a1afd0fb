import Harvest.Executor.Standard
import Harvest.Json.Lookup
import Harvest.Rehearsal.World

/-! Descriptions of rehearsals. What a description does not mention is as plain as can be: nothing
fails, nothing takes time, and every page is empty.
-/

namespace Harvest.Rehearsal

open Time

/-- The browser error that a description stands for. -/
def describedBrowserError (e : Json) : BrowserError :=
  let message := e.textAt "message"
  match e.textAt "kind" with
  | "Launch" => .launch message
  | "Navigation" => .navigation (e.textAt "url") message
  | "ElementNotFound" => .elementNotFound message
  | "Script" => .script message
  | "Closed" => .closed
  | _ => .driver message

/-- The task error that a description stands for. -/
def describedTaskError (e : Json) : TaskError :=
  let message := e.textAt "message"
  match e.textAt "kind" with
  | "Io" => .file (.other message)
  | "Serialization" =>
      match Json.parse message with
      | .error reason => .serialization (.damaged reason)
      | .ok _ => .failed message
  | "Timeout" => .timeout (e.natAt "seconds")
  | "Failed" => .failed message
  | _ => .browser (describedBrowserError e)

/-- The store error that a description stands for. -/
def describedStoreError (e : Json) : StoreError :=
  let message := e.textAt "message"
  match e.textAt "kind" with
  | "NotFound" => .notFound message
  | "Terminal" => .terminal message
  | "Conflict" => .conflict message
  | "Corrupt" => .corrupt message
  | _ => .database .rowMissing

/-- The browser error that a member describes, if there is such a member. -/
def browserErrorAt (value : Json) (name : String) : Option BrowserError :=
  (value.given? name).map describedBrowserError

/-- The browser errors that a member describes by name. -/
def browserErrorsAt (value : Json) (name : String) : List (String × BrowserError) :=
  (value.membersAt name).map fun (key, e) => (key, describedBrowserError e)

/-- The page that a description stands for. -/
def PageScript.ofJson (page : Json) : PageScript where
  html := page.textAt "html"
  htmlByUrl := (page.membersAt "html_by_url").map fun (url, html) =>
    (url, (html.asString?).getD "")
  gotoErrors := browserErrorsAt page "goto_errors"
  contentError := browserErrorAt page "content_error"
  typeErrors := browserErrorsAt page "type_errors"
  missingOn := page.textsAt "missing_on"
  extracted := page.textsAt "extracted"
  extractedByUrl := (page.membersAt "extracted_by_url").map fun (url, items) =>
    (url, ((items.asArray?).getD []).filterMap Json.asString?)
  extractErrors := browserErrorsAt page "extract_errors"
  evaluated := page.valueAt "evaluate"
  evaluateError := browserErrorAt page "evaluate_error"
  evaluateDelay := page.natAt "evaluate_delay_ms"
  closeError := browserErrorAt page "close_error"
  closed := page.flagAt "closed" false

/-- The browser that a description stands for. -/
def BrowserScript.ofJson (browser : Json) : BrowserScript where
  launchError := browserErrorAt browser "launch_error"
  newPageError := browserErrorAt browser "new_page_error"
  pagesError := browserErrorAt browser "pages_error"
  closeError := browserErrorAt browser "close_error"
  page := .ofJson (browser.valueAt "page")
  background := (browser.itemsAt "background").map PageScript.ofJson

/-- The tagged values that a member describes; what is none of them is left out. -/
def valuesAt (value : Json) (name : String) : Values :=
  (value.membersAt name).filterMap fun (key, item) =>
    match Json.decodeTree TaskValue.decode item with
    | .ok v => some (key, v)
    | .error _ => none

/-- The behavior that a description stands for. -/
def Behavior.ofJson (value : Json) : Behavior :=
  match value.textAt "behavior" with
  | "fail" => .fail
  | "error" => .error (describedTaskError (value.valueAt "error"))
  | "panic" => .collapse (some "executor exploded")
  | "panic_string" => .collapse (some ((value.valueAt "error").textAt "message"))
  | "panic_other" => .collapse none
  | "stop" => .stopAll
  | _ => .succeed

/-- The conduct that a description stands for. -/
def Conduct.ofJson (value : Json) : Conduct where
  behavior := .ofJson value
  delay := value.natAt "delay_ms"
  outputs := valuesAt value "outputs"
  logs := (value.itemsAt "logs").map fun entry =>
    let (level, message) := entry.textPair
    ((LogLevel.parse? level).getD .info, message)

/-- The worker that a description stands for. -/
def Worker.ofJson (value : Json) : Worker :=
  ⟨.ofJson value, (value.membersAt "nodes").map fun (node, item) => (node, .ofJson item)⟩

/-- The fault that a description stands for. -/
def Fault.ofJson (value : Json) : Fault :=
  ⟨value.textAt "method", value.natAt "call", describedStoreError (value.valueAt "error")⟩

/-- The settings of tasks that a description stands for. -/
def describedSettings (config : Json) : TaskSettings :=
  { TaskSettings.usual with
    downloadBase := (config.textAt? "download_prefix").getD "/exports"
    pageWait := (config.natAt? "page_wait_ms").getD 10000
    pageDelay := config.natAt "page_delay_ms"
    scriptLimit := (config.natAt? "script_timeout_ms").getD 30000 }

/-- The world that a description stands for, with a catalog, a store and a clock of its own. -/
def World.ofJson {σ : Type} (value : Json) (catalog : Catalog) (store : σ) (epoch : Instant)
    : World σ :=
  let config := value.valueAt "config"
  let workers : Workers := (value.membersAt "fakes").map fun (t, item) => (t, Worker.ofJson item)
  let missing := (value.textsAt "missing").filterMap TaskType.parse?
  let registry := workers.registry missing (.standard (describedSettings config))
  { settings := ⟨catalog, registry, value.flagAt "close_browser" true⟩
    store := store
    faults := (value.itemsAt "faults").map Fault.ofJson
    calls := []
    bus := .usual
    supervisor := .empty
    browsers := .ofScript (.ofJson (value.valueAt "browser"))
    workers := workers
    exports := ⟨config.textAt "export" == "blocked", []⟩
    actions := []
    epoch := epoch
    readings := 0
    issued := 0 }

/-- What was asked of a browser as a value. -/
def callJson : BrowserCall → List Json
  | .launch => [.string "launch"]
  | .newPage _ => [.string "new_page"]
  | .pages _ => [.string "pages"]
  | .closeBrowser _ => [.string "close_browser"]
  | .goto _ url => [.string "goto", .string url]
  | .content _ => [.string "content"]
  | .typeInto _ selector text => [.string "type", .string selector, .string text]
  | .waitFor _ selector limit => [.string "wait", .string selector, .nat limit]
  | .extractAll _ selector name => [.string "extract", .string selector, .string name]
  | .evaluate _ script _ => [.string "evaluate", .string script]
  | .closePage page => [.string "close_page", .nat page.number]
  | .isClosed page => [.string "is_closed", .nat page.number]

/-- An action as a value. -/
def Action.toJson : Action → Json
  | .work node => .array [.string "execute", .string node]
  | .browser call => .array (callJson call)

namespace World

variable {σ : Type}

/-- What was done in a world, the earliest first. -/
def actionsJson (w : World σ) : Json := .array (w.actions.reverse.map Action.toJson)

/-- The files that a world exported. -/
def filesJson (w : World σ) : Json :=
  .object (w.exports.files.map fun (name, text) => (name, .string text))

end World

end Harvest.Rehearsal

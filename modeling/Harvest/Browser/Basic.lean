import Harvest.Json.Basic
import Harvest.Program

/-! What a browser can be asked. Browsers and pages are known by their numbers; whoever
answers the calls keeps the browsers themselves.
-/

namespace Harvest

/-- Reasons why a browser does not do what it is asked. -/
inductive BrowserError where
  | launch (reason : String)
  | navigation (url reason : String)
  | elementNotFound (selector : String)
  | script (reason : String)
  | closed
  | driver (reason : String)
deriving DecidableEq, Repr

/-- The wording of a reason. -/
def BrowserError.message : BrowserError → String
  | .launch reason => "Browser launch failed: " ++ reason
  | .navigation url reason => "Navigation to " ++ url ++ " failed: " ++ reason
  | .elementNotFound selector => "Element not found: " ++ selector
  | .script reason => "Script evaluation failed: " ++ reason
  | .closed => "Browser already closed"
  | .driver reason => "Driver error: " ++ reason

/-- A launched browser. -/
structure BrowserId where
  number : Nat
deriving DecidableEq, Repr, Inhabited

/-- A page of a browser. -/
structure PageId where
  browser : BrowserId
  number : Nat
deriving DecidableEq, Repr, Inhabited

/-- What a browser can be asked. -/
inductive BrowserCall where
  | launch
  | newPage (browser : BrowserId)
  /-- All pages of a browser, those that were closed too. -/
  | pages (browser : BrowserId)
  | closeBrowser (browser : BrowserId)
  | goto (page : PageId) (url : String)
  /-- The source of the document that a page shows. -/
  | content (page : PageId)
  | typeInto (page : PageId) (selector text : String)
  /-- Waits, up to a number of milliseconds, for an element. -/
  | waitFor (page : PageId) (selector : String) (limit : Nat)
  /-- An attribute of every matching element. -/
  | extractAll (page : PageId) (selector attributeName : String)
  /-- The result of a script, or nothing when it takes longer than the limit. -/
  | evaluate (page : PageId) (script : String) (limit : Nat)
  | closePage (page : PageId)
  | isClosed (page : PageId)
deriving DecidableEq, Repr

/-- What a browser answers to a call. -/
def BrowserCall.Answer : BrowserCall → Type
  | .launch => Except BrowserError BrowserId
  | .newPage _ => Except BrowserError PageId
  | .pages _ => Except BrowserError (List PageId)
  | .content _ => Except BrowserError String
  | .extractAll _ _ _ => Except BrowserError (List String)
  | .evaluate _ _ _ => Option (Except BrowserError Json)
  | .isClosed _ => Bool
  | _ => Except BrowserError Unit

/-- The calls of a browser. -/
def browserCalls : Signature := ⟨BrowserCall, BrowserCall.Answer⟩

end Harvest

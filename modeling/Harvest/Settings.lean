/-! What can be set from outside: where exports go and how long browsers are waited for, and
where the gateway listens and keeps its records. Variables override the defaults.
-/

namespace Harvest

/-- The variables of the surroundings, by name. -/
abbrev Variables := String → Option String

/-- What the tasks go by; times are in milliseconds. -/
structure TaskSettings where
  exportDir : String
  /-- The address under which the exports can be fetched. -/
  downloadBase : String
  /-- How long pagination waits for its elements on each page. -/
  pageWait : Nat
  /-- The pause after each page of a pagination. -/
  pageDelay : Nat
  /-- How long a script may take. -/
  scriptLimit : Nat
  webDriver : String
  headless : Bool
deriving DecidableEq, Repr

namespace TaskSettings

/-- The settings when nothing is said. -/
def usual : TaskSettings :=
  ⟨"public/exports", "/exports", 10000, 200, 30000, "http://localhost:4444", true⟩

/-- A word that switches something off. -/
def isOff (word : String) : Bool := word == "0" || word == "false" || word == "no"

/-- The usual settings with those that variables set. -/
def ofVariables (vars : Variables) : TaskSettings :=
  { usual with
    webDriver := (vars "WEBDRIVER_URL").getD usual.webDriver
    exportDir := (vars "EXPORT_DIR").getD usual.exportDir
    headless := ((vars "HEADLESS").map (!isOff ·)).getD usual.headless }

end TaskSettings

/-- What the gateway goes by. -/
structure GatewaySettings where
  bindAddress : String
  database : String
  tasks : TaskSettings
deriving DecidableEq, Repr

/-- The usual settings of the gateway with those that variables set. -/
def GatewaySettings.ofVariables (vars : Variables) : GatewaySettings where
  bindAddress := (vars "BIND_ADDRESS").getD "0.0.0.0:3000"
  database := (vars "DATABASE_URL").getD "sqlite://scrape.db"
  tasks := .ofVariables vars

end Harvest

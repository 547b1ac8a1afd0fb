import Harvest.Executor.Basic
import Harvest.Settings

/-! Scripts of users, run inside the page. A script is wrapped so that the page always answers
with an outcome: whether it ended well, what it set or returned, and what it logged.
-/

namespace Harvest

/-- A line that a script logged. -/
structure ScriptLine where
  level : String
  message : String

/-- How a script ended. -/
structure ScriptOutcome where
  ok : Bool
  returned : Json
  result : Option String
  resultSet : Bool
  error : Option String
  logs : List ScriptLine

namespace ScriptOutcome

/-- The fields of a logged line. -/
def lineShape : Json.Shape ScriptLine :=
  ScriptLine.mk <$> .required "level" .string <*> .required "message" .string

/-- The fields of an outcome. -/
def shape : Json.Shape ScriptOutcome :=
  ScriptOutcome.mk <$> .required "ok" .bool <*> .defaulted "returned" .any .null
    <*> .defaulted "result" (.option .string) none <*> .defaulted "resultSet" .bool false
    <*> .defaulted "error" (.option .string) none
    <*> .defaulted "logs" (.list (lineShape.decode "struct ScriptLog")) []

/-- Reads an outcome. -/
def decode : Json.Decoder ScriptOutcome := shape.decode "struct ScriptOutcome"

/-- The text that goes on the result output, if the script gave anything. -/
def resultText? (outcome : ScriptOutcome) : Option String :=
  if outcome.resultSet then some (outcome.result.getD "")
  else if outcome.returned.isNull then none
  else some outcome.returned.compact

end ScriptOutcome

namespace Executor

open TaskM

/-- What stands before the code of a user, line by line. -/
def scriptHead : List String :=
  ["",
   "const __logs = [];",
   "let __result = null;",
   "let __resultSet = false;",
   "const log = \x7b",
   "  info: (message) => __logs.push("
      ++ "\x7b level: \"info\", message: \"[User Code] \" + message \x7d),",
   "  error: (message) => __logs.push("
      ++ "\x7b level: \"error\", message: \"[User Code] \" + message \x7d),",
   "\x7d;",
   "const console = \x7b",
   "  log: (message) => __logs.push("
      ++ "\x7b level: \"info\", message: \"[Console] \" + JSON.stringify(message) \x7d),",
   "  error: (message) => __logs.push("
      ++ "\x7b level: \"error\", message: \"[Console] \" + JSON.stringify(message) \x7d),",
   "\x7d;",
   "const wait = (ms) => new Promise((resolve) => setTimeout(resolve, Math.min(ms, 30000)));",
   "const setResult = (value) => \x7b",
   "  __result = typeof value === \"string\" ? value : JSON.stringify(value);",
   "  __resultSet = true;",
   "\x7d;",
   "return (async function userScript() \x7b",
   "  try \x7b",
   ""]

/-- What stands after the code of a user, line by line. -/
def scriptTail : List String :=
  ["",
   "  \x7d catch (error) \x7b",
   "    log.error(\"Error in user code: \" + error.message);",
   "    throw error;",
   "  \x7d",
   "\x7d)().then(",
   "  (returned) => (\x7b",
   "    ok: true,",
   "    returned: returned === undefined ? null : returned,",
   "    result: __result,",
   "    resultSet: __resultSet,",
   "    logs: __logs,",
   "  \x7d),",
   "  (error) => (\x7b",
   "    ok: false,",
   "    error: String((error && error.message) || error),",
   "    logs: __logs,",
   "  \x7d),",
   ");",
   ""]

/-- The script that a page gets: the input data, and the code between head and tail. -/
def wrapScript (code : String) (data : Option String) : String :=
  "const inputData = " ++ (Json.orNull Json.string data).compact ++ ";"
    ++ "\n".intercalate scriptHead ++ code ++ "\n".intercalate scriptTail

/-- The level at which a line of a script is logged. -/
def scriptLevel (level : String) : LogLevel := if level == "error" then .error else .info

/-- Logs the lines of a script. -/
def logScript : List ScriptLine → TaskM Unit
  | [] => return ()
  | entry :: entries => do
      log (scriptLevel entry.level) entry.message
      logScript entries

/-- Takes over the outcome of a script. -/
def takeOutcome (outcome : ScriptOutcome) : Executor := do
  logScript outcome.logs
  if !outcome.ok then
    refuse ("JavaScript execution failed: " ++ outcome.error.getD "unknown error")
  else
    info "JavaScript code executed successfully"
    if let some text := outcome.resultText? then outputText Slot.result text
    passPage
    return true

/-- Runs the code on an input inside the page. -/
def customScript (settings : TaskSettings) : Executor := do
  let some code ← inputText? Slot.scriptCode | refuse "JavaScript Code not provided"
  let some page ← requirePage | return false
  let data := (← input? Slot.inputData).map TaskValue.kept
  info "Starting JavaScript code execution"
  match ← ask (.browser (.evaluate page (wrapScript code data) settings.scriptLimit)) with
  | none =>
      refuse ("Code execution timed out after " ++ toString (settings.scriptLimit / 1000)
        ++ " seconds")
  | some (.error reason) => refuse ("JavaScript execution failed: " ++ reason.message)
  | some (.ok value) =>
      match Json.decodeTree ScriptOutcome.decode value with
      | .error reason => throw (.error (.serialization reason))
      | .ok outcome => takeOutcome outcome

end Executor

end Harvest

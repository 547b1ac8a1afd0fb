import Harvest.Settings

/-! The command line: what it can be told to do, and how its help puts it. -/

namespace Harvest

/-- How a workflow file is run. -/
structure RunOptions where
  file : String
  settings : TaskSettings
  /-- Where records are kept; otherwise they are forgotten in the end. -/
  database : Option String
deriving DecidableEq, Repr

/-- What the command line can be told to do. -/
inductive Command where
  | plan (file : String)
  | run (options : RunOptions)
  | tasks
  | init (output : String)
deriving DecidableEq, Repr

/-- What help can be about. -/
inductive HelpTopic where
  | everything
  | plan
  | run
  | tasks
  | init
deriving DecidableEq, Repr

/-- What a list of arguments asks for. -/
inductive Invocation where
  | perform (command : Command)
  | help (topic : HelpTopic)
  /-- The arguments are wrong. -/
  | wrong
deriving DecidableEq, Repr

namespace HelpTopic

/-- The topics that are commands, by their names. -/
def named : List (String × HelpTopic) :=
  [("plan", .plan), ("run", .run), ("tasks", .tasks), ("init", .init)]

/-- Lines with a line end after each. -/
def lines (ls : List String) : String := String.join (ls.map (· ++ "\n"))

/-- The help on a topic. -/
def text : HelpTopic → String
  | .everything => lines
      ["Browser automation workflow CLI", "", "Usage: scrape [OPTIONS] <COMMAND>", "",
        "Commands:", "  plan   Print the phases a workflow graph compiles to",
        "  run    Execute a workflow file", "  tasks  List available task types",
        "  init   Create a new example workflow",
        "  help   Print this message or the help of the given subcommand(s)", "", "Options:",
        "  -v, --verbose  Show debug logs", "  -h, --help     Print help"]
  | .plan => lines
      ["Print the phases a workflow graph compiles to", "",
        "Usage: scrape plan [OPTIONS] <FILE>", "", "Arguments:",
        "  <FILE>  Path to workflow JSON file", "", "Options:",
        "  -v, --verbose  Show debug logs", "  -h, --help     Print help"]
  | .run => lines
      ["Execute a workflow file", "", "Usage: scrape run [OPTIONS] --file <FILE>", "", "Options:",
        "  -f, --file <FILE>", "          Path to workflow JSON file",
        "      --webdriver-url <WEBDRIVER_URL>",
        "          WebDriver server the browser tasks connect to [env: WEBDRIVER_URL=] "
          ++ "[default: http://localhost:4444]",
        "      --export-dir <EXPORT_DIR>",
        "          Directory CSV exports are written to [env: EXPORT_DIR=] "
          ++ "[default: public/exports]",
        "      --database-url <DATABASE_URL>",
        "          Keep run records in this SQLite database instead of memory "
          ++ "[env: DATABASE_URL=]",
        "      --headful", "          Show the browser window", "  -v, --verbose",
        "          Show debug logs", "  -h, --help", "          Print help"]
  | .tasks => lines
      ["List available task types", "", "Usage: scrape tasks [OPTIONS]", "", "Options:",
        "  -v, --verbose  Show debug logs", "  -h, --help     Print help"]
  | .init => lines
      ["Create a new example workflow", "", "Usage: scrape init [OPTIONS]", "", "Options:",
        "  -o, --output <OUTPUT>  Output file path [default: workflow.json]",
        "  -v, --verbose          Show debug logs", "  -h, --help             Print help"]

end HelpTopic

end Harvest

import Harvest.Command.Basic

/-! Invocations from arguments. An option is given once at most, its value may follow an equals sign
or stand alone, and help is given as soon as it is asked for.
-/

namespace Harvest.Command

/-- An option: its long name, its letter, and whether it takes a value, which may be empty. -/
structure OptionRule where
  long : String
  letter : Option Char
  takesValue : Bool
  mayBeEmpty : Bool
deriving DecidableEq, Repr

/-- What was given so far. -/
structure Given where
  flags : List String := []
  values : List (String × String) := []
  words : List String := []
deriving DecidableEq, Repr

/-- What an argument that begins with a hyphen comes to. -/
inductive Step where
  | next (given : Given)
  /-- The value of an option is still to come. -/
  | needs (given : Given) (rule : OptionRule)
  | help
  | wrong

/-- What a list of arguments comes to. -/
inductive Scan where
  | complete (given : Given)
  | help
  | wrong

namespace Given

/-- What was given, and one more option without a value. -/
def addFlag? (given : Given) (rule : OptionRule) : Option Given :=
  if given.flags.contains rule.long then none
  else some { given with flags := rule.long :: given.flags }

/-- What was given, and one more option with its value. -/
def addValue? (given : Given) (rule : OptionRule) (value : String) : Option Given :=
  if given.values.any (·.1 == rule.long) || (value.isEmpty && !rule.mayBeEmpty) then none
  else some { given with values := (rule.long, value) :: given.values }

/-- What was given, and one more word of at most so many. -/
def addWord? (given : Given) (most : Nat) (word : String) : Option Given :=
  if most ≤ given.words.length || word.isEmpty then none
  else some { given with words := given.words ++ [word] }

end Given

/-- The step to what was given. -/
def Step.ofGiven : Option Given → Step
  | some given => .next given
  | none => .wrong

/-- The step of a long option; what stands before it are two hyphens. -/
def longStep (rules : List OptionRule) (given : Given) (text : List Char) : Step :=
  let name := String.ofList (text.takeWhile (· != '='))
  match rules.find? (·.long == name), text.dropWhile (· != '=') with
  | none, [] => if name == "help" then .help else .wrong
  | none, _ => .wrong
  | some rule, [] => if rule.takesValue then .needs given rule else .ofGiven (given.addFlag? rule)
  | some rule, _ :: value =>
      if rule.takesValue then .ofGiven (given.addValue? rule (String.ofList value)) else .wrong

/-- A value right after the letter of its option, perhaps after an equals sign. -/
def attached : List Char → String
  | '=' :: cs => String.ofList cs
  | cs => String.ofList cs

/-- The step of letters; what stands before them is a hyphen. -/
def letterStep (rules : List OptionRule) (given : Given) : List Char → Step
  | [] => .next given
  | c :: cs =>
      match rules.find? (·.letter == some c) with
      | none => if c == 'h' then .help else .wrong
      | some rule =>
          if rule.takesValue then
            if cs.isEmpty then .needs given rule
            else .ofGiven (given.addValue? rule (attached cs))
          else
            match given.addFlag? rule with
            | some given => letterStep rules given cs
            | none => .wrong

/-- The step of an argument that begins with a hyphen. -/
def hyphenStep (rules : List OptionRule) (given : Given) : List Char → Step
  | '-' :: '-' :: text => longStep rules given text
  | '-' :: letters => letterStep rules given letters
  | _ => .wrong

/-- The argument begins with a hyphen and does not end there. -/
def isHyphened (arg : String) : Bool := arg != "-" && arg.toList.head? == some '-'

/-- Scans arguments of which at most so many are words; after two hyphens all are words. -/
def scan (rules : List OptionRule) (most : Nat) : (wordsOnly : Bool) → Given → List String → Scan
  | _, given, [] => .complete given
  | wordsOnly, given, arg :: rest =>
      if wordsOnly || !isHyphened arg then
        match given.addWord? most arg with
        | some given => scan rules most wordsOnly given rest
        | none => .wrong
      else if arg == "--" then scan rules most true given rest
      else
        match hyphenStep rules given arg.toList, rest with
        | .help, _ => .help
        | .wrong, _ => .wrong
        | .next given, rest => scan rules most false given rest
        | .needs _ _, [] => .wrong
        | .needs given rule, value :: rest =>
            if isHyphened value then .wrong
            else
              match given.addValue? rule value with
              | some given => scan rules most false given rest
              | none => .wrong

/-- The option that every command has. -/
def verboseRule : OptionRule := ⟨"verbose", some 'v', false, false⟩

/-- The options of each command. -/
def rulesOf : HelpTopic → List OptionRule
  | .run =>
      [⟨"file", some 'f', true, false⟩, ⟨"webdriver-url", none, true, true⟩,
        ⟨"export-dir", none, true, false⟩, ⟨"database-url", none, true, true⟩,
        ⟨"headful", none, false, false⟩, verboseRule]
  | .init => [⟨"output", some 'o', true, false⟩, verboseRule]
  | _ => [verboseRule]

/-- The options of a run as they were given; variables count where no option is given. -/
def runOptions? (vars : Variables) (given : Given) : Option RunOptions := do
  let file ← given.values.lookup "file"
  let value name env := (given.values.lookup name).orElse fun _ => vars env
  some
    { file
      settings :=
        { TaskSettings.usual with
          webDriver := (value "webdriver-url" "WEBDRIVER_URL").getD TaskSettings.usual.webDriver
          exportDir := (value "export-dir" "EXPORT_DIR").getD TaskSettings.usual.exportDir
          headless := !given.flags.contains "headful" }
      database := value "database-url" "DATABASE_URL" }

/-- The command of a name with what was given to it. -/
def ofGiven? (vars : Variables) (topic : HelpTopic) (given : Given) : Option Command :=
  match topic with
  | .everything => none
  | .plan => (given.words.head?).map .plan
  | .run => (runOptions? vars given).map .run
  | .tasks => some .tasks
  | .init => some (.init ((given.values.lookup "output").getD "workflow.json"))

/-- The invocation for help. -/
def helpOn : List String → Invocation
  | [] => .help .everything
  | [name] =>
      match HelpTopic.named.lookup name with
      | some topic => .help topic
      | none => if name == "help" then .help .everything else .wrong
  | _ => .wrong

/-- The invocation of a command. -/
def commandOf (vars : Variables) (name : String) (args : List String) : Invocation :=
  if name == "help" then helpOn args
  else
    match HelpTopic.named.lookup name with
    | none => .wrong
    | some topic =>
        match scan (rulesOf topic) (if topic == .plan then 1 else 0) false {} args with
        | .help => .help topic
        | .wrong => .wrong
        | .complete given =>
            match ofGiven? vars topic given with
            | some command => .perform command
            | none => .wrong

/-- The invocation that arguments make, given the options before the command. -/
def invocationFrom (vars : Variables) : Given → List String → Invocation
  | _, [] => .wrong
  | given, arg :: rest =>
      if !isHyphened arg then commandOf vars arg rest
      else
        match hyphenStep [verboseRule] given arg.toList with
        | .next given => invocationFrom vars given rest
        | .help => .help .everything
        | _ => .wrong

/-- The invocation that arguments make. -/
def invocation (vars : Variables) (args : List String) : Invocation := invocationFrom vars {} args

end Harvest.Command

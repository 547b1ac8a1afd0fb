import Harvest.Json.Decoder

/-! Task types, the parameters that each declares, and catalogs that say which types a
workflow may use. A catalog holds one definition a type, the last one it was given.
-/

namespace Harvest

/-- The kinds of work that a node can do. -/
inductive TaskType where
  | launchBrowser
  | closeBrowser
  | pageToHtml
  | extractText
  | extractMultiple
  | fillInput
  | navigateUrl
  | pagination
  | csvExport
  | customScript
deriving DecidableEq, Repr, Inhabited

namespace TaskType

/-- All task types, in the order in which catalogs list them. -/
def all : List TaskType :=
  [launchBrowser, closeBrowser, pageToHtml, extractText, extractMultiple, fillInput,
    navigateUrl, pagination, csvExport, customScript]

/-- The name of a task type in graphs and records. -/
def name : TaskType → String
  | launchBrowser => "LAUNCH_BROWSER"
  | closeBrowser => "CLOSE_BROWSER"
  | pageToHtml => "PAGE_TO_HTML"
  | extractText => "EXTRACT_TEXT_FROM_ELEMENT"
  | extractMultiple => "EXTRACT_MULTIPLE_ELEMENTS"
  | fillInput => "FILL_INPUT"
  | navigateUrl => "NAVIGATE_URL"
  | pagination => "PAGINATION"
  | csvExport => "CSV_EXPORT"
  | customScript => "CUSTOM_JAVASCRIPT"

/-- Task types by their names. -/
def options : List (String × TaskType) :=
  all.map fun t => (t.name, t)

/-- The task type of a name. -/
def parse? (s : String) : Option TaskType :=
  Named.get? s options

/-- A task type as a value. -/
def toJson (t : TaskType) : Json := .string t.name

/-- Reads a task type. -/
def decode : Json.Decoder TaskType := Json.Decoder.variant options

end TaskType

/-- What a parameter carries. -/
inductive ParamKind where
  | string
  | browser
  | array
  | object
deriving DecidableEq, Repr, Inhabited

namespace ParamKind

/-- The name of a kind. -/
def name : ParamKind → String
  | string => "STRING"
  | browser => "BROWSER_INSTANCE"
  | array => "ARRAY"
  | object => "OBJECT"

/-- Kinds by their names. -/
def options : List (String × ParamKind) :=
  [string, browser, array, object].map fun k => (k.name, k)

/-- A kind as a value. -/
def toJson (k : ParamKind) : Json := .string k.name

/-- Reads a kind. -/
def decode : Json.Decoder ParamKind := Json.Decoder.variant options

end ParamKind

/-- A named input or output of a task. -/
structure TaskParam where
  name : String
  kind : ParamKind
  required : Bool
  default : Option Json
  helperText : Option String
deriving DecidableEq, Repr, Inhabited

namespace TaskParam

/-- The parameter stands for the shared browser, which never travels by value. -/
def isBrowser (p : TaskParam) : Bool := p.kind == .browser

/-- A parameter as a value; what it does not have is left out. -/
def toJson (p : TaskParam) : Json :=
  .object <| [("name", .string p.name), ("kind", p.kind.toJson), ("required", .bool p.required)]
    ++ (p.default.map fun d => ("default", d)).toList
    ++ (p.helperText.map fun t => ("helper_text", .string t)).toList

/-- The fields of a parameter. -/
def shape : Json.Shape TaskParam :=
  TaskParam.mk <$> .required "name" .string <*> .required "kind" ParamKind.decode
    <*> .required "required" .bool <*> .optional "default" .any
    <*> .optional "helper_text" .string

/-- Reads a parameter. -/
def decode : Json.Decoder TaskParam := shape.decode "struct TaskParam"

end TaskParam

/-- What a catalog says about a task type. -/
structure TaskDefinition where
  taskType : TaskType
  label : String
  isEntryPoint : Bool
  credits : Nat
  inputs : List TaskParam
  outputs : List TaskParam
deriving DecidableEq, Repr, Inhabited

namespace TaskDefinition

/-- The declared input of a name. -/
def input? (d : TaskDefinition) (name : String) : Option TaskParam :=
  d.inputs.find? (·.name == name)

/-- A definition as a value. -/
def toJson (d : TaskDefinition) : Json :=
  .object [("task_type", d.taskType.toJson), ("label", .string d.label),
    ("is_entry_point", .bool d.isEntryPoint), ("credits", .nat d.credits),
    ("inputs", .array (d.inputs.map TaskParam.toJson)),
    ("outputs", .array (d.outputs.map TaskParam.toJson))]

/-- The fields of a definition. -/
def shape : Json.Shape TaskDefinition :=
  TaskDefinition.mk <$> .required "task_type" TaskType.decode <*> .required "label" .string
    <*> .required "is_entry_point" .bool <*> .required "credits" .nat32
    <*> .required "inputs" (.list TaskParam.decode)
    <*> .required "outputs" (.list TaskParam.decode)

/-- Reads a definition. -/
def decode : Json.Decoder TaskDefinition := shape.decode "struct TaskDefinition"

end TaskDefinition

/-- The task types that workflows may use, each with its definition. -/
structure Catalog where
  get? : TaskType → Option TaskDefinition

namespace Catalog

/-- The catalog of some definitions; of two for one type the later one counts. -/
def ofDefinitions (ds : List TaskDefinition) : Catalog where
  get? t := ds.reverse.find? (·.taskType == t)

/-- The task type starts workflows. -/
def isEntryPoint (c : Catalog) (t : TaskType) : Bool :=
  (c.get? t).any (·.isEntryPoint)

/-- What a completed task of the type costs. -/
def credits (c : Catalog) (t : TaskType) : Nat :=
  ((c.get? t).map (·.credits)).getD 0

/-- The definitions in the order of the task types. -/
def definitions (c : Catalog) : List TaskDefinition :=
  TaskType.all.filterMap c.get?

/-- The definitions as a value. -/
def toJson (c : Catalog) : Json :=
  .array (c.definitions.map TaskDefinition.toJson)

end Catalog

end Harvest

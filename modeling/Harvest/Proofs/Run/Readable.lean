import Harvest.Proofs.Executor.Reports
import Harvest.Proofs.Plan.Order
import Harvest.Proofs.Run.Turn

/-! Literals that tasks can read. A plan takes a literal of any kind for a required text, but its
task reads the literal as a text exactly when it is a string: then the text is not empty, and no
task reports it as absent.
-/

namespace Harvest

open Json

/-- The text of a literal that counts as supplied is the string that is written, and not empty. -/
theorem Node.literal?_text {node : Node} {name : String} {literal : Json} {value : TaskValue}
    (written : Named.get? name node.inputs = some literal) (given : node.literal? name = some value)
    : value.asText?.filter (!·.isEmpty) = literal.asString? := by
  rw [Node.literal?, written, Option.bind_some, Option.filter_eq_some_iff] at given
  obtain ⟨stands, provided⟩ := given
  cases literal with
  | null => cases stands
  | string text =>
      obtain rfl := Option.some.inj stands
      exact Option.filter_eq_some_iff.mpr ⟨rfl, provided⟩
  | array items =>
      rw [TaskValue.ofJson?] at stands
      split at stands <;> obtain rfl := Option.some.inj stands <;> rfl
  | bool b =>
      obtain rfl := Option.some.inj stands
      rfl
  | number n =>
      obtain rfl := Option.some.inj stands
      rfl
  | object members =>
      obtain rfl := Option.some.inj stands
      rfl

/-- A value that is read back has the same text. -/
@[simp] theorem TaskValue.asText?_reread (value : TaskValue)
    : value.reread.asText? = value.asText? := by
  cases value <;> rfl

namespace Run

section

variable {definition : String} {flow : Flow} {node : Node} {phase : PhaseRecord}
  {param : TaskParam} {literal : Json}

/-- What a phase lends to its task when it begins. -/
def lent (flow : Flow) (phase : PhaseRecord) (node : Node) (env : Environment) (log : Log)
    : Workspace :=
  (prepared .standard flow phase env).lend node.id log

/-- What a task can read of a supplied literal is the string that is written. -/
theorem inputText?_lent (parsed : Flow.parse definition = .ok flow) (member : node ∈ flow.nodes)
    (made : phase.node = node.text) (declared : param ∈ Flow.paramsOf .standard node)
    (text : param.kind = .string) (written : Named.get? param.name node.inputs = some literal)
    (provided : (node.literal? param.name).isSome) (env : Environment) (log : Log)
    : (lent flow phase node env log).inputText? param.name = literal.asString? := by
  have read : Node.parse phase.node = .ok node.reread :=
    made ▸ Node.parse_text (Flow.fits_of_parse parsed node member)
  obtain ⟨value, given⟩ := Option.isSome_iff_exists.mp provided
  have named : param.name ∈ valueInputs (Flow.paramsOf .standard node) :=
    List.mem_map_of_mem (List.mem_filter.mpr ⟨declared, by simp [TaskParam.isBrowser, text]⟩)
  have input : (lent flow phase node env log).input? param.name = some value.reread := by
    refine (input?_prepared read env param.name).trans ((if_pos named).trans ?_)
    rw [wired?, Node.literal?_reread, given]
    rfl
  rw [Workspace.inputText?, input, Option.bind_some, TaskValue.asText?_reread]
  exact Node.literal?_text written given

/-- A required text is among the required texts of its task. -/
theorem mem_requiredTexts (declared : param ∈ Flow.paramsOf .standard node)
    (required : param.required = true) (text : param.kind = .string)
    : param.name ∈ Catalog.standard.requiredTexts node.taskType :=
  List.mem_map_of_mem (List.mem_filter.mpr ⟨declared, by simp [required, text]⟩)

/-- A required text whose literal is no string cannot be read, and its task reports and refuses. -/
theorem literals_unreadable (parsed : Flow.parse definition = .ok flow) (member : node ∈ flow.nodes)
    (made : phase.node = node.text) (declared : param ∈ Flow.paramsOf .standard node)
    (required : param.required = true) (text : param.kind = .string)
    (written : Named.get? param.name node.inputs = some literal)
    (provided : (node.literal? param.name).isSome) (other : literal.asString? = none)
    (env : Environment) (log : Log) {tasks : TaskSettings} {executor : Executor}
    (standard : Registry.standard tasks node.taskType = some executor)
    : (lent flow phase node env log).inputText? param.name = none
      ∧ executor.Always (lent flow phase node env log) fun _ result left =>
          result = .ok false
          ∧ ∃ absent ∈ Catalog.standard.requiredTexts node.taskType,
              (lent flow phase node env log).inputText? absent = none
              ∧ Reports node.taskType absent (lent flow phase node env log) left := by
  have lost := inputText?_lent parsed member made declared text written provided env log
  rw [other] at lost
  refine ⟨lost, (standard_judges standard _).mono fun _ _ _ judges => ?_⟩
  exact judges.refused param.name (mem_requiredTexts declared required text) lost

/-- What a plan takes for supplied, a task can read: a literal for a required text that counts as
supplied and is a string gives a text that is not empty to the task of its phase, and no task
reports that text as absent. A pagination has one report for all its texts, and makes it only when
another one is absent.
-/
theorem literals_readable (parsed : Flow.parse definition = .ok flow) {plan : Plan}
    (planned : flow.plan .standard = .ok plan) {number : Nat} (listed : (number, node) ∈ plan.nodes)
    (made : phase.node = node.text) (declared : param ∈ Flow.paramsOf .standard node)
    (required : param.required = true) (kind : param.kind = .string) {text : String}
    (written : Named.get? param.name node.inputs = some (.string text))
    (provided : (node.literal? param.name).isSome) (env : Environment) (log : Log)
    {tasks : TaskSettings} {executor : Executor}
    (standard : Registry.standard tasks node.taskType = some executor)
    : text ≠ ""
      ∧ (lent flow phase node env log).inputText? param.name = some text
      ∧ executor.Always (lent flow phase node env log) fun _ _ left =>
          Reports node.taskType param.name (lent flow phase node env log) left
          → node.taskType = .pagination
            ∧ ∃ other ∈ Catalog.standard.requiredTexts node.taskType,
                other ≠ param.name ∧ (lent flow phase node env log).inputText? other = none := by
  have member := Flow.mem_of_plan planned listed
  have read : (lent flow phase node env log).inputText? param.name = some text :=
    inputText?_lent parsed member made declared kind written provided env log
  refine ⟨?_, read, (standard_judges standard _).mono fun _ _ _ judges reports => ?_⟩
  · obtain ⟨_, full⟩ := Option.filter_eq_some_iff.mp read
    simpa using full
  · have here := mem_requiredTexts declared required kind
    obtain ⟨other, among, same, absent⟩ := judges.truthful param.name here reports
    have apart : other ≠ param.name := by
      rintro rfl
      rw [read] at absent
      cases absent
    refine ⟨?_, other, among, apart, absent⟩
    by_contra single
    exact apart (absence_inj single other among param.name here same)

end

-----------------------------------------------------------------------------------------
-- A launch with a literal
-----------------------------------------------------------------------------------------

namespace Sole

/-- A node that launches a browser, with a literal for where it starts. -/
def node (literal : Json) : Node :=
  (Node.bare "a" .launchBrowser).withInput Slot.websiteUrl literal

def flow (literal : Json) : Flow := Flow.empty.addNode (node literal)

def plan (literal : Json) : Plan := ⟨[⟨1, [node literal]⟩]⟩

def phase (literal : Json) : PhaseRecord :=
  .fresh (.ofNat 2) (.ofNat 1) 1 0 "Launch browser" .launchBrowser (node literal).text

def param : TaskParam := (TaskParam.text Slot.websiteUrl).needed.withHelper
  "eg: https://www.google.com"

/-- What the task borrows when nothing else has happened. -/
def work (literal : Json) : Workspace :=
  lent (flow literal) (phase literal) (node literal) .empty []

/-- The graph comes back from its text when its literal does. -/
theorem parsed {literal : Json} (proper : literal.Proper)
    (read : Flow.decode ⟨.text, depthLimit⟩ (flow literal).toJson.reread.toDraft
      = .ok (flow literal))
    : Flow.parse (flow literal).text = .ok (flow literal) := by
  refine (Flow.parse_text ?_).trans read
  simp [flow, Flow.empty, Flow.addNode, Flow.toJson, Json.Proper, Json.ProperMembers,
    Json.ProperItems, Node.toJson, node, Node.bare, Node.withInput, Named.put, TaskType.toJson,
    Slot.websiteUrl, proper]

end Sole

/-- The address that is written is read. -/
theorem literals_readable_address
    : ∃ param ∈ Flow.paramsOf .standard (Sole.node (.string "/")),
        param.required = true
        ∧ param.kind = .string
        ∧ (Sole.work (.string "/")).inputText? param.name = some "/"
        ∧ Executor.launchBrowser.Always (Sole.work (.string "/")) fun _ _ left =>
            ¬ Reports .launchBrowser param.name (Sole.work (.string "/")) left := by
  have parsed : Flow.parse (Sole.flow (.string "/")).text = .ok (Sole.flow (.string "/")) :=
    Sole.parsed trivial rfl
  have planned : (Sole.flow (.string "/")).plan .standard = .ok (Sole.plan (.string "/")) := by
    decide +kernel
  have listed : (1, Sole.node (.string "/")) ∈ (Sole.plan (.string "/")).nodes :=
    List.mem_singleton_self _
  have made : (Sole.phase (.string "/")).node = (Sole.node (.string "/")).text := rfl
  have declared : Sole.param ∈ Flow.paramsOf .standard (Sole.node (.string "/")) := by decide
  have standard : Registry.standard .usual .launchBrowser = some Executor.launchBrowser := rfl
  obtain ⟨_, read, silent⟩ :=
    literals_readable parsed planned listed made declared rfl rfl rfl rfl .empty [] standard
  exact ⟨Sole.param, declared, rfl, rfl, read,
    silent.mono fun _ _ _ only reports => absurd (only reports).1 nofun⟩

/-- A number that is written counts as supplied for the plan, and is reported as absent. -/
theorem literal_unread_number
    : Flow.parse (Sole.flow (.number (.whole 5))).text = .ok (Sole.flow (.number (.whole 5)))
      ∧ (Sole.flow (.number (.whole 5))).plan .standard = .ok (Sole.plan (.number (.whole 5)))
      ∧ ∃ param ∈ Flow.paramsOf .standard (Sole.node (.number (.whole 5))),
          param.required = true
          ∧ param.kind = .string
          ∧ ((Sole.node (.number (.whole 5))).literal? param.name).isSome
          ∧ (Sole.work (.number (.whole 5))).inputText? param.name = none
          ∧ ∃ calls left,
              ((ExceptT.run Executor.launchBrowser).run (Sole.work (.number (.whole 5)))).Ends
                calls (.ok false, left)
              ∧ Reports .launchBrowser param.name (Sole.work (.number (.whole 5))) left := by
  let five : Json := .number (.whole 5)
  have proper : five.Proper := by
    change -2 ^ 63 ≤ (5 : Int) ∧ (5 : Int) < 2 ^ 64
    decide
  have parsed : Flow.parse (Sole.flow five).text = .ok (Sole.flow five) := Sole.parsed proper rfl
  have planned : (Sole.flow five).plan .standard = .ok (Sole.plan five) := by decide +kernel
  have member : Sole.node five ∈ (Sole.flow five).nodes := List.mem_singleton_self _
  have made : (Sole.phase five).node = (Sole.node five).text := rfl
  have declared : Sole.param ∈ Flow.paramsOf .standard (Sole.node five) := by decide
  have standard : Registry.standard .usual .launchBrowser = some Executor.launchBrowser := rfl
  obtain ⟨lost, refuses⟩ :=
    literals_unreadable parsed member made declared rfl rfl rfl rfl rfl .empty [] standard
  let answer (call : TaskCall) (_ : List (Happening taskCalls)) : call.Answer :=
    answering obliging (fun _ => .error (.database .rowMissing)) (.task call) []
  obtain ⟨calls, _, ends, _⟩ := Program.ends_run answer
    ((ExceptT.run Executor.launchBrowser).run (Sole.work five)) []
  generalize (Program.run _ _ []).1 = outcome at ends
  obtain ⟨result, left⟩ := outcome
  obtain ⟨refused, absent, among, _, reports⟩ := refuses _ _ ends
  obtain rfl : result = .ok false := refused
  obtain rfl : absent = Sole.param.name := List.mem_singleton.mp among
  exact ⟨parsed, planned, Sole.param, declared, rfl, rfl, rfl, lost, calls, left, ends, reports⟩

end Run

end Harvest

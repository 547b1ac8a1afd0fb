import Harvest.Proofs.Flow.Snapshot
import Harvest.Proofs.Run.Context
import Harvest.Proofs.Run.Stage

/-! The values that a phase starts with. Its node begins with nothing but the declared inputs that
travel by value and are supplied, and neither that nor its task touches another node.
-/

namespace Harvest

-----------------------------------------------------------------------------------------
-- Environments
-----------------------------------------------------------------------------------------

namespace Environment

variable (env : Environment) (node other : String)

/-- The values of one node are replaced, and those of the others stay. -/
@[simp] theorem slots_setSlots (slots : Slots)
    : (env.setSlots node slots).slots other = if node = other then slots else env.slots other := by
  simp only [Environment.slots, slots?, setSlots, Named.get?_put]
  split_ifs <;> rfl

/-- A node that is prepared has no values, and those of the others stay. -/
@[simp] theorem slots_prepare
    : (env.prepare node).slots other = if node = other then .empty else env.slots other :=
  env.slots_setSlots node other .empty

/-- Putting a value on an input leaves all outputs. -/
@[simp] theorem output?_setInput (name : String) (value : TaskValue) (output : String)
    : (env.setInput node name value).output? other output = env.output? other output := by
  simp only [output?, setInput, slots_setSlots]
  split_ifs with same
  · rw [same]
  · rfl

/-- A task gives back the outputs of its node, and the inputs and the other nodes stay. -/
@[simp] theorem slots_takeBack (work : Workspace)
    : (env.takeBack work).slots other
      = if work.node = other then ⟨(env.slots other).inputs, work.outputs⟩
        else env.slots other := by
  change (env.setSlots work.node _).slots other = _
  rw [slots_setSlots]
  split_ifs with same
  · rw [same]
  · rfl

end Environment

namespace Run

-----------------------------------------------------------------------------------------
-- Wiring
-----------------------------------------------------------------------------------------

/-- The names of the inputs that travel by value, in order of declaration. -/
def valueInputs (params : List TaskParam) : List String :=
  (params.filter fun param => !param.isBrowser).map (·.name)

section

variable (flow : Flow) (node : Node)

/-- The values that are wired to declared inputs, in order of declaration. -/
def wiredValues (params : List TaskParam) (env : Environment) : Values :=
  (valueInputs params).filterMap fun name =>
    (wired? flow node env name).map fun value => (name, value)

/-- What is wired does not depend on inputs. -/
@[simp] theorem wired?_setInput (env : Environment) (id key : String) (value : TaskValue)
    (name : String)
    : wired? flow node (env.setInput id key value) name = wired? flow node env name := by
  simp only [wired?, Environment.output?_setInput]

/-- Wiring puts values on the inputs of its node and leaves all else, by induction over the
declared inputs.
-/
theorem slots_wireInputs (params : List TaskParam) (env : Environment) (other : String)
    : (wireInputs flow node params env).2.slots other
      = if node.id = other then
          { env.slots other with
            inputs := (wiredValues flow node params env).foldl
              (fun acc (name, value) => Named.put name value acc) (env.slots other).inputs }
        else env.slots other := by
  induction params generalizing env with
  | nil => simp [wireInputs, wiredValues, valueInputs]
  | cons param params ih =>
      have again (name : String) (value : TaskValue)
          : wiredValues flow node params (env.setInput node.id name value)
            = wiredValues flow node params env := by
        simp [wiredValues]
      cases browser : param.isBrowser with
      | true => simp [wireInputs, browser, ih, wiredValues, valueInputs]
      | false =>
          cases wired : wired? flow node env param.name with
          | none => simp [wireInputs, browser, wired, ih, wiredValues, valueInputs]
          | some value =>
              have first : wiredValues flow node (param :: params) env
                  = (param.name, value) :: wiredValues flow node params env := by
                simp [wiredValues, valueInputs, browser, wired]
              have slots : (env.setInput node.id param.name value).slots other
                  = if node.id = other then
                      { env.slots other with
                        inputs := Named.put param.name value (env.slots other).inputs }
                    else env.slots other := by
                rw [Environment.setInput, Environment.slots_setSlots]
                split_ifs with same
                · rw [same]
                · rfl
              simp only [wireInputs, browser, wired, Bool.false_eq_true, if_false, ih, again, first,
                slots, List.foldl_cons]
              split_ifs <;> rfl

/-- The messages of the wiring name the required inputs that nothing is wired to, by induction over
the declared inputs.
-/
theorem messages_wireInputs (params : List TaskParam) (env : Environment)
    : (wireInputs flow node params env).1
      = (params.filter fun param =>
          !param.isBrowser && param.required && (wired? flow node env param.name).isNone).map
          fun param => "input " ++ param.name ++ " has no value" := by
  induction params generalizing env with
  | nil => rfl
  | cons param params ih =>
      cases browser : param.isBrowser with
      | true => simp [wireInputs, browser, ih]
      | false =>
          cases wired : wired? flow node env param.name with
          | none =>
              cases required : param.required <;> simp [wireInputs, browser, wired, required, ih]
          | some value => simp [wireInputs, browser, wired, ih]

/-- A wired value is found on the input that it is wired to. -/
theorem get?_wiredValues (params : List TaskParam) (env : Environment) (name : String)
    : Named.get? name (Named.collect (wiredValues flow node params env))
      = if name ∈ valueInputs params then wired? flow node env name else none := by
  rw [Named.get?_collect, wiredValues, ← List.filterMap_reverse, Named.get?_filterMap]
  simp only [List.mem_reverse]

end

/-- A phase starts with the wired values on the inputs of its node, and no outputs; the other nodes
keep theirs.
-/
theorem slots_prepared {catalog : Catalog} {flow : Flow} {phase : PhaseRecord} {node : Node}
    (parsed : Node.parse phase.node = .ok node) (env : Environment) (other : String)
    : (prepared catalog flow phase env).slots other
      = if node.id = other then
          ⟨Named.collect
            (wiredValues flow node (Flow.paramsOf catalog node) (env.prepare node.id)), []⟩
        else env.slots other := by
  simp only [prepared, parsed, enter, prepareNode, Flow.paramsOf]
  cases catalog.get? node.taskType with
  | none =>
      simp only [Environment.slots_prepare]
      rfl
  | some definition =>
      simp only [slots_wireInputs, Environment.slots_prepare]
      split_ifs <;> rfl

/-- The inputs of the node of a phase are what is wired to them. -/
theorem input?_prepared {catalog : Catalog} {flow : Flow} {phase : PhaseRecord} {node : Node}
    (parsed : Node.parse phase.node = .ok node) (env : Environment) (name : String)
    : (prepared catalog flow phase env).input? node.id name
      = if name ∈ valueInputs (Flow.paramsOf catalog node) then
          wired? flow node (env.prepare node.id) name
        else none := by
  rw [Environment.input?, slots_prepared parsed, if_pos rfl, get?_wiredValues]

/-- There is nothing to say about a node of a known type exactly when each of its required inputs
that travel by value has one.
-/
theorem enter_quiet_iff {catalog : Catalog} {flow : Flow} {phase : PhaseRecord} {node : Node}
    (parsed : Node.parse phase.node = .ok node) (known : (catalog.get? node.taskType).isSome)
    (env : Environment)
    : (enter catalog flow (Node.parse phase.node) env).1 = []
      ↔ ∀ param ∈ Flow.paramsOf catalog node,
          param.isBrowser = false
          → param.required = true
          → ((prepared catalog flow phase env).input? node.id param.name).isSome := by
  obtain ⟨definition, found⟩ := Option.isSome_iff_exists.mp known
  have params : Flow.paramsOf catalog node = definition.inputs := by simp [Flow.paramsOf, found]
  have messages : (enter catalog flow (Node.parse phase.node) env).1
      = (wireInputs flow node (Flow.paramsOf catalog node) (env.prepare node.id)).1 := by
    simp [enter, parsed, prepareNode, found, params]
  rw [messages, messages_wireInputs, List.map_eq_nil_iff, List.filter_eq_nil_iff]
  refine forall₂_congr fun param member => ?_
  rw [input?_prepared parsed]
  cases browser : param.isBrowser with
  | true => simp
  | false =>
      have declared : param.name ∈ valueInputs (Flow.paramsOf catalog node) :=
        List.mem_map_of_mem (List.mem_filter.mpr ⟨member, by simp [browser]⟩)
      rw [if_pos declared]
      cases wired? flow node (env.prepare node.id) param.name <;> simp

-----------------------------------------------------------------------------------------
-- The work of a phase
-----------------------------------------------------------------------------------------

/-- The executors that behave in given ways. -/
def behaving (family : TaskType → Option Behaviour) : Registry :=
  fun t => (family t).map Behaviour.executor

/-- A call of a task as a call of its run. -/
def asked (happening : Happening taskCalls) : Happening runCalls :=
  ⟨.task happening.1, happening.2⟩

/-- A part of a task that ends in a run has made its own calls, by induction over the part. -/
theorem ends_of_ofTask {α : Type} {part : Program taskCalls α} {calls : List (Happening runCalls)}
    {value : α} (ends : (RunM.ofTask part).Ends calls value)
    : ∃ inner, part.Ends inner value ∧ calls = inner.map asked := by
  induction part generalizing calls with
  | done value =>
      cases ends
      exact ⟨[], .done _, rfl⟩
  | ask call next ih =>
      have asks : (Program.ask (S := runCalls) (.task call) fun answer =>
          RunM.ofTask (next answer)).Ends calls value := ends
      cases asks with
      | ask later =>
          obtain ⟨inner, rest, rfl⟩ := ih _ later
          exact ⟨_, .ask rest, rfl⟩

end Run

end Harvest

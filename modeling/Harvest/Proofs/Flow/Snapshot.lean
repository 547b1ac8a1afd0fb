import Harvest.Flow.Format
import Harvest.Proofs.Json.Decoder

/-! Nodes that are kept as texts. The nodes of a graph that was read from a text come back from
their own texts, up to the reading of the real numbers in what the editor keeps.
-/

namespace Harvest

open Json

-----------------------------------------------------------------------------------------
-- Nodes of a text
-----------------------------------------------------------------------------------------

namespace Node

/-- What the editor keeps about the node fits into a draft of the node. -/
structure Fits (room : Nat) (node : Node) : Prop where
  inputs : node.inputs.Fit (room - 3)
  extra : node.extra.Fit (room - 1)
  apart : ∀ member ∈ node.extra, member.1 ≠ "id" ∧ member.1 ≠ "data"

/-- A node that fits also fits where there is more room. -/
theorem Fits.mono {room more : Nat} {node : Node} (fits : node.Fits room) (le : room ≤ more)
    : node.Fits more :=
  ⟨fits.inputs.mono (Nat.sub_le_sub_right le 3), fits.extra.mono (Nat.sub_le_sub_right le 1),
    fits.apart⟩

/-- What has been read of a node fits. -/
structure Partial.Fits (room : Nat) (acc : Partial) : Prop where
  data : ∀ data ∈ acc.data, Members.Fit (room - 3) data.2
  extra
    : ∀ member ∈ acc.extra,
        member.2.Fits (room - 1) ∧ member.1 ≠ "id" ∧ member.1 ≠ "data"

/-- The data of a node is read with literals that fit. -/
theorem yields_decodeData {room : Nat}
    : decodeData.Yields room fun data => Members.Fit (room - 2) data.2 := by
  have typed : (Prod.mk <$> Shape.required "type" TaskType.decode).Yields (room - 1)
      fun make => ∀ inputs : Members, inputs.Fit (room - 2) → (make inputs).2.Fit (room - 2) :=
    Shape.yields_map (fun t _ inputs fit => fit)
      (Shape.yields_required (Decoder.yields_true TaskType.decode))
  have literals : (Decoder.record .any).Yields (room - 1) (Members.Fit (room - 2)) := by
    intro mode draft values proper le read
    obtain ⟨distinct, fit⟩ := Decoder.yields_record Decoder.yields_any proper le read
    exact ⟨distinct, fit⟩
  have fields : dataShape.Yields (room - 1) fun data => Members.Fit (room - 2) data.2 :=
    Shape.yields_apply typed (Shape.yields_defaulted literals ⟨List.nodup_nil, nofun⟩)
  exact Shape.yields_decode fields

/-- One more member leaves what has been read of a node fitting. -/
theorem Partial.Fits.add {room : Nat} {mode : Mode} {acc next : Partial}
    {member : Except SyntaxError String × Draft} (fits : acc.Fits room)
    (proper : member.2.Proper) (le : mode.room ≤ room - 1)
    (added : acc.add mode member = .ok next)
    : next.Fits room := by
  obtain ⟨key, item⟩ := member
  obtain ⟨name, _, added⟩ := bind_eq_ok.mp added
  simp only at added
  split_ifs at added with isId again isData again
  · cases added
  · obtain ⟨id, _, added⟩ := bind_eq_ok.mp added
    cases added
    exact ⟨fits.data, fits.extra⟩
  · cases added
  · obtain ⟨data, here, added⟩ := bind_eq_ok.mp added
    cases added
    refine ⟨fun other same => ?_, fits.extra⟩
    obtain rfl := Option.some.inj same
    exact (yields_decodeData proper le here : Members.Fit (room - 1 - 2) _)
  · obtain ⟨value, here, added⟩ := bind_eq_ok.mp added
    cases added
    refine ⟨fits.data, fun other member => ?_⟩
    rcases List.mem_append.mp member with early | last
    · exact fits.extra other early
    · obtain rfl := List.mem_singleton.mp last
      exact ⟨Decoder.yields_any proper le here, by simpa using isId, by simpa using isData⟩

/-- More members leave what has been read of a node fitting, by induction over them. -/
theorem Partial.Fits.addAll {room : Nat} {mode : Mode} {acc last : Partial}
    {members : List (Except SyntaxError String × Draft)} (fits : acc.Fits room)
    (proper : ∀ member ∈ members, member.2.Proper) (le : mode.room ≤ room - 1)
    (added : members.foldlM (Partial.add mode) acc = .ok last)
    : last.Fits room := by
  induction members generalizing acc with
  | nil =>
      cases added
      exact fits
  | cons member members ih =>
      rw [List.foldlM_cons] at added
      obtain ⟨next, first, added⟩ := bind_eq_ok.mp added
      obtain ⟨here, later⟩ := List.forall_mem_cons.mp proper
      exact ih (fits.add here le first) later added

/-- A node is read with values that fit. -/
theorem yields_decode {room : Nat} : decode.Yields room (Fits room) := by
  intro mode draft node proper le read
  cases draft with
  | object members closing =>
      obtain ⟨_, _, read⟩ := bind_eq_ok.mp read
      obtain ⟨acc, added, read⟩ := bind_eq_ok.mp read
      obtain ⟨_, _, read⟩ := bind_eq_ok.mp read
      have le' : mode.inner.room ≤ room - 1 := Nat.sub_le_sub_right le 1
      have start : Partial.Fits room ⟨none, none, []⟩ := ⟨nofun, nofun⟩
      have fits := start.addAll (Draft.properMembers_iff.mp proper) le' added
      obtain ⟨id, data, extra⟩ := acc
      cases id with
      | none => cases read
      | some id =>
          cases data with
          | none => cases read
          | some data =>
              cases read
              have kept := fits.extra
              exact ⟨fits.data _ rfl, fit_collect fun member here => (kept member here).1,
                fun member here => (kept member (Named.mem_of_mem_collect here)).2⟩
  | _ => exact absurd read Decoder.mismatch_ne_ok

end Node

-----------------------------------------------------------------------------------------
-- Graphs of a text
-----------------------------------------------------------------------------------------

/-- Only `null` says `null`. -/
theorem null_of_value {room : Nat} {draft : Draft} (read : draft.value room = .ok .null)
    : draft = .null := by
  cases draft with
  | null => rfl
  | bool b => cases read
  | number n => cases n <;> cases read
  | string s => cases s <;> cases read
  | array items closing =>
      rw [Draft.value] at read
      split at read
      · cases read
      · obtain ⟨_, _, read⟩ := bind_eq_ok.mp read
        cases closing <;> cases read
  | object members closing =>
      rw [Draft.value] at read
      split at read
      · cases read
      · obtain ⟨_, _, read⟩ := bind_eq_ok.mp read
        cases closing <;> cases read
  | broken breach => cases read

namespace Flow

/-- What the editor keeps about a graph and its nodes fits into a draft of the graph, and a
viewport is never `null`.
-/
structure Fits (room : Nat) (flow : Flow) : Prop where
  nodes : ∀ node ∈ flow.nodes, node.Fits (room - 2)
  viewport : ∀ view ∈ flow.viewport, view.Fits (room - 1) ∧ view ≠ .null

/-- What is read of a viewport fits and is not `null`. -/
theorem yields_viewport {room : Nat}
    : (Decoder.option .any).Yields room fun viewport =>
        ∀ view ∈ viewport, view.Fits room ∧ view ≠ .null := by
  intro mode draft viewport proper le read view member
  obtain rfl : viewport = some view := member
  have found : draft ≠ .null ∧ Decoder.any mode draft = .ok view := by
    cases draft with
    | null => cases read
    | _ =>
        obtain ⟨other, found, same⟩ := map_eq_ok.mp read
        obtain rfl := Option.some.inj same
        exact ⟨nofun, found⟩
  obtain ⟨other, read⟩ := found
  refine ⟨Decoder.yields_any proper le read, ?_⟩
  rintro rfl
  cases said : draft.value mode.room with
  | error reason => simp [Decoder.any, sound, said, Except.mapError] at read
  | ok value =>
      simp only [Decoder.any, sound, said, Except.mapError, Except.ok.injEq] at read
      exact other (null_of_value (read ▸ said))

/-- A graph is read with values that fit. -/
theorem yields_decode {room : Nat} : decode.Yields room (Fits room) := by
  have nodes : (Decoder.list Node.decode).Yields (room - 1)
      fun nodes => ∀ node ∈ nodes, node.Fits (room - 2) :=
    Decoder.yields_list Node.yields_decode
  have edges : (Shape.defaulted "edges" (.list Edge.decode) []).Yields (room - 1)
      fun _ => True :=
    Shape.yields_defaulted (Decoder.yields_true _) trivial
  have viewport : (Shape.defaulted "viewport" (.option .any) none).Yields (room - 1)
      fun viewport => ∀ view ∈ viewport, view.Fits (room - 1) ∧ view ≠ .null :=
    Shape.yields_defaulted yields_viewport nofun
  have first : (Flow.mk <$> Shape.required "nodes" (.list Node.decode)).Yields (room - 1)
      fun make => ∀ edges, True
        → ∀ viewport, (∀ view ∈ viewport, view.Fits (room - 1) ∧ view ≠ .null)
        → (make edges viewport).Fits room :=
    Shape.yields_map (fun _ fit _ _ _ kept => ⟨fit, kept⟩) (Shape.yields_required nodes)
  have fields : Flow.shape.Yields (room - 1) (Fits room) :=
    Shape.yields_apply (Shape.yields_apply first edges) viewport
  exact Shape.yields_decode fields

/-- The nodes of a graph that was read from a text fit into texts of their own. -/
theorem fits_of_parse {text : String} {flow : Flow} (parsed : parse text = .ok flow)
    : ∀ node ∈ flow.nodes, node.Fits depthLimit :=
  fun node member => ((yields_decodeText yields_decode parsed).nodes node member).mono (by decide)

end Flow

/-- A graph is read from its own text as from its value. -/
theorem Flow.parse_text {flow : Flow} (proper : flow.toJson.Proper)
    : parse flow.text = decode ⟨.text, depthLimit⟩ flow.toJson.reread.toDraft := by
  rw [parse, text, decodeText, document_compact proper]
  cases decode ⟨.text, depthLimit⟩ flow.toJson.reread.toDraft <;> rfl

-----------------------------------------------------------------------------------------
-- Literals
-----------------------------------------------------------------------------------------

namespace TaskValue

/-- The value that a kept value is read as: data is kept as a text, up to its real numbers. -/
def reread : TaskValue → TaskValue
  | .structured value => .structured value.reread
  | value => value

/-- Items that are all strings read back as they are, by induction over the items. -/
theorem strings?_reread (items : List Json) : strings? (rereadItems items) = strings? items := by
  induction items with
  | nil => rfl
  | cons item items ih => cases item <;> simp [rereadItems, Json.reread, strings?, ih]

/-- A literal that is read back stands for the value read back. -/
theorem ofJson?_reread (literal : Json)
    : ofJson? literal.reread = (ofJson? literal).map reread := by
  cases literal with
  | array items =>
      rw [Json.reread, ofJson?, ofJson?, strings?_reread]
      cases strings? items <;> rfl
  | _ => rfl

/-- A value that is read back counts as supplied when it did. -/
@[simp] theorem isProvided_reread (value : TaskValue)
    : value.reread.isProvided = value.isProvided := by
  cases value with
  | structured data => cases data <;> rfl
  | _ => rfl

end TaskValue

-----------------------------------------------------------------------------------------
-- Reading nodes back
-----------------------------------------------------------------------------------------

namespace Node

/-- The node that the text of a node is read as. -/
def reread (node : Node) : Node :=
  { node with
    inputs := rereadMembers node.inputs
    extra := rereadMembers node.extra }

/-- The members of a node, its data among them. -/
theorem proper_toJson {room : Nat} {node : Node} (fits : node.Fits room) : node.toJson.Proper := by
  have properAll {members : Members} {room : Nat} (fit : members.Fit room)
      : ProperMembers members :=
    properMembers_iff.mpr fun member here => (fit.fit member here).1
  have inner : (Json.object
      [("type", node.taskType.toJson), ("inputs", .object node.inputs)]).Proper :=
    ⟨by simp, trivial, ⟨fits.inputs.distinct, properAll fits.inputs⟩, trivial⟩
  refine ⟨?_, trivial, inner, properAll fits.extra⟩
  have apart (key : String) (other : ∀ member ∈ node.extra, member.1 ≠ key)
      : key ∉ node.extra.map (·.1) := by
    intro there
    obtain ⟨member, here, same⟩ := List.mem_map.mp there
    exact other member here same
  have noId := apart "id" fun member here => (fits.apart member here).1
  have noData := apart "data" fun member here => (fits.apart member here).2
  change ("id" :: "data" :: node.extra.map (·.1)).Nodup
  simp [noId, noData, fits.extra.distinct]

/-- The data of a node is read back from its draft. -/
theorem decodeData_toDraft {mode : Mode} (t : TaskType) {inputs : Members}
    (room : 2 ≤ mode.room) (fit : inputs.Fit (mode.room - 2))
    : decodeData mode
        (.object [(.ok "type", .string (.ok t.name)),
          (.ok "inputs", .object (toDraftMembers inputs) none)] none)
      = .ok (t, inputs) := by
  have typed : TaskType.decode mode.inner (.string (.ok t.name)) = .ok t := by
    cases t <;> rfl
  have literals : Decoder.record .any mode.inner (.object (toDraftMembers inputs) none)
      = .ok inputs := by
    have inner : mode.inner.room ≠ 0 := by
      change mode.room - 1 ≠ 0
      omega
    exact Decoder.record_toDraftMembers inner fit
  let fields : List (String × Draft) :=
    [("type", .string (.ok t.name)), ("inputs", .object (toDraftMembers inputs) none)]
  have accepted : ∀ field ∈ fields, dataShape.Accepts mode.inner field :=
    List.forall_mem_cons.mpr ⟨Shape.accepts_of_read rfl typed,
      List.forall_mem_singleton.mpr (Shape.accepts_of_read rfl literals)⟩
  have made : dataShape.fromMembers mode.inner fields = .ok (t, inputs) := by
    simp [fields, dataShape, Functor.map, Seq.seq, Shape.apply, Shape.empty, Shape.required,
      Shape.defaulted, Shape.field, Named.get?, typed, literals, bind, Except.bind, pure,
      Except.pure]
  exact (Shape.decode_fields (by omega) accepted (by simp [fields])).trans made

/-- Further members of a node are read back from their drafts, by induction over them. -/
theorem addAll_toDraftMembers {mode : Mode} {members : Members}
    (fit : ∀ member ∈ members,
      member.2.Fits mode.room ∧ member.1 ≠ "id" ∧ member.1 ≠ "data")
    (acc : Partial)
    : (toDraftMembers members).foldlM (Partial.add mode) acc
      = .ok { acc with extra := acc.extra ++ members } := by
  induction members generalizing acc with
  | nil => simp [toDraftMembers, pure, Except.pure]
  | cons member members ih =>
      obtain ⟨name, value⟩ := member
      obtain ⟨⟨⟨proper, shallow⟩, notId, notData⟩, later⟩ := List.forall_mem_cons.mp fit
      have added : acc.add mode (.ok name, value.toDraft)
          = .ok { acc with extra := acc.extra ++ [(name, value)] } := by
        have read := value_toDraft value proper shallow
        simp [Partial.add, Decoder.name, Decoder.any, sound, Except.mapError, bind, Except.bind,
          read, notId, notData, pure, Except.pure]
      rw [toDraftMembers, List.foldlM_cons, added]
      change List.foldlM _ _ _ = _
      rw [ih later]
      simp

/-- A node that fits is read back from its draft. -/
theorem decode_toDraft {mode : Mode} {node : Node} (room : 3 ≤ mode.room)
    (fits : node.Fits mode.room)
    : decode mode node.toJson.toDraft = .ok node := by
  let data : Draft := .object [(.ok "type", .string (.ok node.taskType.name)),
    (.ok "inputs", .object (toDraftMembers node.inputs) none)] none
  have inner : 2 ≤ mode.inner.room := Nat.le_sub_of_add_le room
  have read : decodeData mode.inner data = .ok (node.taskType, node.inputs) :=
    decodeData_toDraft node.taskType inner fits.inputs
  have first : Partial.add mode.inner ⟨none, none, []⟩ (.ok "id", .string (.ok node.id))
      = .ok ⟨some node.id, none, []⟩ := rfl
  have second : Partial.add mode.inner ⟨some node.id, none, []⟩ (.ok "data", data)
      = .ok ⟨some node.id, some (node.taskType, node.inputs), []⟩ := by
    simp [Partial.add, Decoder.name, sound, Except.mapError, bind, Except.bind, read, pure,
      Except.pure]
  let members := (.ok "id", .string (.ok node.id)) :: (.ok "data", data)
    :: toDraftMembers node.extra
  have folded : members.foldlM (Partial.add mode.inner) ⟨none, none, []⟩
      = .ok ⟨some node.id, some (node.taskType, node.inputs), node.extra⟩ := by
    rw [List.foldlM_cons, first]
    change List.foldlM (Partial.add mode.inner) _ (_ :: _) = _
    rw [List.foldlM_cons, second]
    exact addAll_toDraftMembers
      (fun member here => ⟨fits.extra.fit member here, fits.apart member here⟩) _
  have space : (mode.room == 0) = false := beq_false_of_ne (by omega)
  change decode mode (.object members none) = _
  simp only [decode, Decoder.opens, space]
  change (members.foldlM (Partial.add mode.inner) _ >>= _) = _
  rw [folded]
  change Except.ok (Node.mk _ _ _ (Named.collect node.extra)) = _
  rw [Named.collect_eq fits.extra.distinct]

/-- What a node that fits reads back as fits. -/
theorem Fits.reread {room : Nat} {node : Node} (fits : node.Fits room)
    : node.reread.Fits room := by
  refine ⟨fits.inputs.reread, fits.extra.reread, fun member here => ?_⟩
  change member ∈ rereadMembers node.extra at here
  rw [rereadMembers_eq] at here
  obtain ⟨⟨name, value⟩, there, rfl⟩ := List.mem_map.mp here
  exact fits.apart (name, value) there

/-- A node comes back from its own text. -/
theorem parse_text {node : Node} (fits : node.Fits depthLimit)
    : parse node.text = .ok node.reread := by
  have said : document node.text = ⟨node.reread.toJson.toDraft, false⟩ :=
    document_compact (proper_toJson fits)
  rw [parse, decodeText, said, decode_toDraft (by decide) fits.reread]
  rfl

/-- The real numbers in what the editor keeps about the node come back from their own texts. -/
def Exact (node : Node) : Prop :=
  ∀ x ∈ realsMembers node.inputs ++ realsMembers node.extra, (Number.real x).Exact

/-- A node without inexact numbers reads back as itself. -/
theorem reread_of_exact {node : Node} (exact' : node.Exact) : node.reread = node := by
  obtain ⟨inputs, extra⟩ := List.forall_mem_append.mp exact'
  rw [reread, rereadMembers_of_exact _ inputs, rereadMembers_of_exact _ extra]

/-- The literals of a node that is read back are its literals read back. -/
theorem literal?_reread (node : Node) (name : String)
    : node.reread.literal? name = (node.literal? name).map TaskValue.reread := by
  simp only [literal?, reread, rereadMembers_eq]
  rw [Named.get?_map Json.reread]
  cases Named.get? name node.inputs with
  | none => rfl
  | some literal =>
      simp only [Option.map_some, Option.bind_some, TaskValue.ofJson?_reread]
      cases TaskValue.ofJson? literal with
      | none => rfl
      | some value => by_cases given : value.isProvided <;> simp [Option.filter, given]

end Node

end Harvest
